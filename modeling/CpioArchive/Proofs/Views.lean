import CpioArchive.Newc.Encoder
import CpioArchive.Proofs.Delivery
import CpioArchive.Proofs.Writing

/-!
# Views of streams

What goes from a source to a destination depends on their answers only.  A view of a stream that
gives the same answers as the stream takes its place, such as the stream behind a count or a log.

* `drain_view`, `fillWithNuls_view`, `copyOnward_view` — the loops over streams, step by step;
* `Newc.encodeEntry_view` — no entry can tell streams from views of them;
* `Logged`, `Recorded` — a source with the reads from it, and a destination with what it accepted,
  of which the stream within is a view.
-/

namespace CpioArchive

/-! ## Views -/

theorem Destination.isView_id {δ ε : Type} [Destination δ ε] :
    Destination.IsView (id : δ → δ) := ⟨id, fun _ => rfl⟩

/-- A transfer with its streams seen through views. -/
def Transfer.map {β δ φ ς τ : Type} (see : δ → φ) (look : ς → τ) (transfer : Transfer β δ ς) :
    Transfer β φ τ :=
  ⟨transfer.state, see transfer.destination, look transfer.source⟩

section Sources

variable {ε ς τ : Type} [Source ε ς] [Source ε τ] {look : ς → τ}

/-- What the first read of a drain leads to. -/
theorem drain_step {environment : ε} {source next : ς} {buffer : CopyBuffer} {extra : Nat}
    {outcome : Attempt Bytes} :
    Source.read environment source buffer.size = (outcome, next) →
      drain environment source buffer extra =
        match outcome with
        | .done [] => (.ok extra, next, buffer)
        | .done (b :: bytes) =>
          drain environment next (buffer.load (b :: bytes)) (extra + (b :: bytes).length)
        | .interrupted _ => drain environment next buffer extra
        | .failed cause =>
          if 0 < extra then (.ok extra, next, buffer) else (.error cause, next, buffer) := by
  intro h
  rw [drain]
  split <;> rename_i hread <;> rw [h] at hread <;> cases hread <;> rfl

/-- Two drains of which one reads a view of what the other reads, each in its own environment. -/
theorem drain_view {environment other : ε}
    (hlook : ∀ {source next : ς} {limit : Nat} {outcome : Attempt Bytes},
      Source.read environment source limit = (outcome, next) →
        Source.read other (look source) limit = (outcome, look next))
    (source : ς) (buffer : CopyBuffer) (extra : Nat) :
    drain other (look source) buffer extra =
      ((drain environment source buffer extra).1, look (drain environment source buffer extra).2.1,
        (drain environment source buffer extra).2.2) := by
  fun_induction drain environment source buffer extra with
  | case1 source buffer extra next hread => rw [drain_step (hlook hread)]
  | case2 source buffer extra b chunk next hread ih =>
    rw [drain_step (hlook hread)]
    exact ih
  | case3 source buffer extra cause next hread ih =>
    rw [drain_step (hlook hread)]
    exact ih
  | case4 source buffer extra cause next hread hpos =>
    rw [drain_step (hlook hread)]
    exact if_pos hpos
  | case5 source buffer extra cause next hread hzero =>
    rw [drain_step (hlook hread)]
    exact if_neg hzero

end Sources

section Destinations

variable {δ φ ε : Type} [Destination δ ε] [Destination φ ε] {see : δ → φ}

theorem fillWithNuls_view (hsee : Destination.IsView see) (d : δ) (buffer : CopyBuffer)
    (count : Nat) :
    fillWithNuls (see d) buffer count =
      ((fillWithNuls d buffer count).1, see (fillWithNuls d buffer count).2) := by
  fun_induction fillWithNuls d buffer count with
  | case1 d => rw [fillWithNuls, if_pos rfl]
  | case2 d count hne cause next hwrite =>
    rw [fillWithNuls, if_neg hne, writeAll_view hsee, hwrite]
  | case3 d count hne next hwrite ih =>
    rw [fillWithNuls, if_neg hne, writeAll_view hsee, hwrite]
    exact ih

theorem makeUp_view {ς τ : Type} (hsee : Destination.IsView see) (look : ς → τ) (d : δ)
    (source : ς) (buffer : CopyBuffer) (missing : Nat) (e : ArchiveError) :
    makeUp (see d) (look source) buffer missing e =
      ((makeUp d source buffer missing e).1,
        (makeUp d source buffer missing e).2.map see look) := by
  rw [makeUp, makeUp, fillWithNuls_view hsee]
  rcases fillWithNuls d buffer missing with ⟨_ | _, next⟩ <;> rfl

/-- What is done behind a content, seen through views. -/
theorem Newc.finishEntry_view {ς τ : Type} (hsee : Destination.IsView see) (look : ς → τ)
    (headerLength declared : Nat) (copied : Except ArchiveError Copied)
    (transfer : Transfer CopyBuffer δ ς) :
    finishEntry headerLength declared copied (transfer.map see look) =
      ((finishEntry headerLength declared copied transfer).1,
        (finishEntry headerLength declared copied transfer).2.map see look) := by
  obtain ⟨buffer, d, source⟩ := transfer
  rw [Transfer.map, finishEntry, finishEntry]
  dsimp only
  rw [writeAll_view hsee]
  rcases writeAll d (nuls (paddingLength declared)) with ⟨_ | _, next⟩ <;> rfl

variable {ς τ : Type} [Source ε ς] [Source ε τ] {look : ς → τ}

/-- What the next read of a copy leads to. -/
theorem copyOnward_step {d : δ} {source next : ς} {buffer : CopyBuffer} {length copied : Nat}
    {outcome : Attempt Bytes} (hlt : copied < length)
    (h : Source.read (Destination.environment d) source (min (length - copied) buffer.size) =
      (outcome, next)) :
    copyOnward d source buffer length copied =
      match outcome with
      | .done [] => makeUp d next buffer (length - copied) (.lengthMismatch length copied)
      | .done (b :: bytes) =>
        match writeAll d (b :: bytes) with
        | (.ok (), after) =>
          copyOnward after next (buffer.load (b :: bytes)) length (copied + (b :: bytes).length)
        | (.error cause, after) => (.error (.io cause), ⟨buffer.load (b :: bytes), after, next⟩)
      | .interrupted _ => copyOnward d next buffer length copied
      | .failed cause => makeUp d next buffer (length - copied) (.contentRead cause) := by
  rw [copyOnward, if_pos hlt]
  simp only [CopyBuffer.front_load]
  split <;> rename_i hread <;> rw [h] at hread <;> cases hread <;> rfl

/-- **A copy cannot tell streams from views of them.** -/
theorem copyOnward_view (hsee : Destination.IsView see) (hlook : Source.IsView ε look) (d : δ)
    (source : ς) (buffer : CopyBuffer) (length copied : Nat) :
    copyOnward (see d) (look source) buffer length copied =
      ((copyOnward d source buffer length copied).1,
        (copyOnward d source buffer length copied).2.map see look) := by
  fun_induction copyOnward d source buffer length copied with
  | case1 d source buffer copied hlt next hread =>
    rw [← hsee.environment] at hread
    rw [copyOnward_step hlt (hlook hread)]
    exact makeUp_view hsee look d next buffer _ _
  | case2 d source buffer copied hlt b chunk next hread count loaded after hwrite ih =>
    rw [← hsee.environment] at hread
    rw [CopyBuffer.front_load] at hwrite
    rw [copyOnward_step hlt (hlook hread)]
    dsimp only
    rw [writeAll_view hsee, hwrite]
    exact ih
  | case3 d source buffer copied hlt b chunk next hread count loaded cause after hwrite =>
    rw [← hsee.environment] at hread
    rw [CopyBuffer.front_load] at hwrite
    rw [copyOnward_step hlt (hlook hread)]
    dsimp only
    rw [writeAll_view hsee, hwrite]
    rfl
  | case4 d source buffer copied hlt cause next hread ih =>
    rw [← hsee.environment] at hread
    rw [copyOnward_step hlt (hlook hread)]
    exact ih
  | case5 d source buffer copied hlt cause next hread =>
    rw [← hsee.environment] at hread
    rw [copyOnward_step hlt (hlook hread)]
    exact makeUp_view hsee look d next buffer _ _
  | case6 d source buffer copied hge extra next buffer' hdrain =>
    rw [copyOnward, if_neg hge, hsee.environment, drain_view hlook, hdrain]
    rfl
  | case7 d source buffer copied hge cause next buffer' hdrain =>
    rw [copyOnward, if_neg hge, hsee.environment, drain_view hlook, hdrain]
    rfl

theorem copyExact_view (hsee : Destination.IsView see) (hlook : Source.IsView ε look) (d : δ)
    (source : ς) (buffer : CopyBuffer) (length : Nat) :
    copyExact (see d) (look source) buffer length =
      ((copyExact d source buffer length).1,
        (copyExact d source buffer length).2.map see look) :=
  copyOnward_view hsee hlook d source buffer length 0

/-- **No entry can tell streams from views of them.** -/
theorem Newc.encodeEntry_view (hsee : Destination.IsView see) (hlook : Source.IsView ε look)
    (buffer : CopyBuffer) (d : δ) (name : Bytes) (metadata : Metadata) (source : ς) :
    encodeEntry buffer (see d) name metadata (look source) =
      ((encodeEntry buffer d name metadata source).1,
        (encodeEntry buffer d name metadata source).2.map see look) := by
  rw [encodeEntry, encodeEntry]
  cases (Header.ofMetadata name metadata).encode with
  | error e => rfl
  | ok header =>
    dsimp only
    rw [writeAll_view hsee]
    rcases writeAll d header with ⟨cause | _, next⟩
    · rfl
    · dsimp only
      rw [copyExact_view hsee hlook]
      rcases copyExact next source buffer metadata.size with ⟨e | copied, transfer⟩
      · dsimp only
        split
        · exact finishEntry_view hsee look _ _ _ transfer
        · rfl
      · exact finishEntry_view hsee look _ _ _ transfer

end Destinations

/-! ## Logged sources -/

/-- One read: how much was asked for, and what came of it. -/
structure ReadRequest where
  limit : Nat
  outcome : Attempt Bytes

/-- A source and the reads from it so far. -/
structure Logged (ς : Type) where
  inner : ς
  requests : List ReadRequest

namespace Logged

/-- A source from which nothing was read yet. -/
def start {ς : Type} (inner : ς) : Logged ς := ⟨inner, []⟩

/-- Reads from the source within, and logs that. -/
def read {ε ς : Type} [Source ε ς] (environment : ε) (source : Logged ς) (limit : Nat) :
    Attempt Bytes × Logged ς :=
  let (outcome, next) := Source.read environment source.inner limit
  (outcome, ⟨next, source.requests ++ [⟨limit, outcome⟩]⟩)

end Logged

instance (ε ς : Type) [Source ε ς] : Source ε (Logged ς) where
  read := Logged.read
  remaining environment source := Source.remaining environment source.inner
  length_le_of_read h := by
    simp only [Logged.read, Prod.mk.injEq] at h
    exact Source.length_le_of_read (Prod.ext h.1 rfl)
  remaining_lt_of_done h hne := by
    simp only [Logged.read, Prod.mk.injEq] at h
    obtain ⟨h, rfl⟩ := h
    exact Source.remaining_lt_of_done (Prod.ext h rfl) hne
  remaining_lt_of_interrupted h := by
    simp only [Logged.read, Prod.mk.injEq] at h
    obtain ⟨h, rfl⟩ := h
    exact Source.remaining_lt_of_interrupted (Prod.ext h rfl)

theorem Logged.isView_inner {ε ς : Type} [Source ε ς] :
    Source.IsView ε (Logged.inner : Logged ς → ς) := by
  intro environment source next limit outcome h
  cases h
  rfl

theorem Logged.requests_read {ε ς : Type} [Source ε ς] {environment : ε} {source next : Logged ς}
    {limit : Nat} {outcome : Attempt Bytes}
    (h : Source.read environment source limit = (outcome, next)) :
    next.requests = source.requests ++ [⟨limit, outcome⟩] := by
  cases h
  rfl

/-! ## Recorded destinations -/

/-- The bytes that a write took of those it was offered. -/
def Attempt.taken (offered : Bytes) : Attempt Nat → Bytes
  | .done count => offered.take count
  | .interrupted _ | .failed _ => []

/-- A destination, the bytes it accepted so far, and how often it was written to. -/
structure Recorded (δ : Type) where
  inner : δ
  accepted : Bytes
  writes : Nat

namespace Recorded

/-- A destination to which nothing was written yet. -/
def start {δ : Type} (inner : δ) : Recorded δ := ⟨inner, [], 0⟩

variable {δ ε : Type} [Destination δ ε]

/-- Writes to the destination within, and records what is accepted. -/
def write (d : Recorded δ) (bytes : Bytes) : Attempt Nat × Recorded δ :=
  let (outcome, next) := Destination.write d.inner bytes
  (outcome, ⟨next, d.accepted ++ outcome.taken bytes, d.writes + 1⟩)

/-- Flushes the destination within. -/
def flush (d : Recorded δ) : Except IoError Unit × Recorded δ :=
  let (outcome, next) := Destination.flush d.inner
  (outcome, { d with inner := next })

end Recorded

instance (δ ε : Type) [Destination δ ε] : Destination (Recorded δ) ε where
  write := Recorded.write
  flush := Recorded.flush
  environment d := Destination.environment d.inner
  patience d := Destination.patience d.inner
  accepted_le_of_write h := by
    simp only [Recorded.write, Prod.mk.injEq] at h
    exact Destination.accepted_le_of_write (Prod.ext h.1 rfl)
  patience_lt_of_interrupted h := by
    simp only [Recorded.write, Prod.mk.injEq] at h
    obtain ⟨h, rfl⟩ := h
    exact Destination.patience_lt_of_interrupted (Prod.ext h rfl)

namespace Recorded

variable {δ ε : Type} [Destination δ ε]

theorem isView_inner : Destination.IsView (inner : Recorded δ → δ) where
  write h := by
    cases h
    rfl
  environment _ := rfl

theorem accepted_write {d next : Recorded δ} {bytes : Bytes} {outcome : Attempt Nat}
    (h : Destination.write d bytes = (outcome, next)) :
    next.accepted = d.accepted ++ outcome.taken bytes := by
  cases h
  rfl

/-- **Every destination keeps what it accepts**, seen through a record of it; what no call changes
may be asked of it besides. -/
theorem faithful (good : δ → Prop)
    (hwrite : ∀ {d next : δ} {bytes : Bytes} {outcome : Attempt Nat}, good d →
      Destination.write d bytes = (outcome, next) → good next)
    (hflush : ∀ {d : δ}, good d → good (Destination.flush d).2) :
    Faithful (fun d : Recorded δ => good d.inner) accepted where
  good_write hd h := hwrite hd (isView_inner.write h)
  good_flush hd := hflush hd
  held_done _ h := accepted_write h
  held_interrupted _ h := (accepted_write h).trans (List.append_nil _)
  held_failed _ h := (accepted_write h).trans (List.append_nil _)
  held_flush _ := rfl

end Recorded

end CpioArchive
