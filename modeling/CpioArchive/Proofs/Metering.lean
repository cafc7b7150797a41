import CpioArchive.Newc.Encoder
import CpioArchive.Proofs.Copying

/-!
# What is read and what is reported

An encoder is given a metered source and can do nothing with it but read.  What the meter reports
follows from the bytes that were read, however many reads that took.

* `ReadsTo` — reads lead from one state of a source to another and deliver some bytes;
* `ReadsTo.close` — the reports are positive, and add up to the bytes that were read;
* `Newc.encodeEntry_reads` — the newc encoder reads a source to its end or to its first failure,
  unless a write fails before.
-/

namespace CpioArchive

/-! ## Reads -/

/-- The bytes that came of a read. -/
def Attempt.received : Attempt Bytes → Bytes
  | .done bytes => bytes
  | .interrupted _ | .failed _ => []

/-- `ReadsTo ε source bytes next` says that some reads, each of any size and in any environment,
lead from `source` to `next` and deliver `bytes`. -/
inductive ReadsTo (ε : Type) {ς : Type} [Source ε ς] : ς → Bytes → ς → Prop
  | refl (source : ς) : ReadsTo ε source [] source
  | read {environment : ε} {source middle next : ς} {limit : Nat} {outcome : Attempt Bytes}
      {bytes : Bytes} (hread : Source.read environment source limit = (outcome, middle))
      (hrest : ReadsTo ε middle bytes next) : ReadsTo ε source (outcome.received ++ bytes) next

/-! ## Reports -/

/-- What some counts add up to. -/
def totalOf (counts : List Nat) : Nat := counts.foldr (· + ·) 0

theorem totalOf_concat (counts : List Nat) (count : Nat) :
    totalOf (counts ++ [count]) = totalOf counts + count := by
  induction counts with
  | nil => simp [totalOf]
  | cons first counts ih =>
    simp only [totalOf, List.cons_append, List.foldr_cons] at ih ⊢
    omega

namespace Metered

variable {ς : Type}

/-- No report so far is of nothing. -/
def IsTelling (source : Metered ς) : Prop := ∀ count ∈ source.reports.toList, 0 < count

theorem isTelling_start (inner : ς) (threshold : Nat) : (start inner threshold).IsTelling := nofun

theorem isTelling_settle {source : Metered ς} (h : source.IsTelling) :
    source.settle.IsTelling := by
  rw [settle]
  dsimp only [IsTelling]
  split
  next hpos =>
    rw [Array.toList_push]
    intro count hcount
    rcases List.mem_append.1 hcount with hcount | hcount
    · exact h count hcount
    · rwa [List.mem_singleton.1 hcount]
  · exact h

theorem isTelling_record {source : Metered ς} (h : source.IsTelling) (count : Nat) :
    (source.record count).IsTelling := by
  rw [record]
  dsimp only
  split
  · exact isTelling_settle h
  · exact h

@[simp] theorem close_start (inner : ς) (threshold : Nat) : (start inner threshold).close = [] :=
  rfl

theorem close_settle (source : Metered ς) : source.settle.close = source.close := rfl

/-- What is reported in all does not depend on the threshold. -/
theorem close_record (source : Metered ς) (count : Nat) :
    (source.record count).close =
      { source with unreported := source.unreported + count }.close := by
  rw [record]
  dsimp only
  split
  · rw [close_settle]
  · rfl

theorem totalOf_close (source : Metered ς) :
    totalOf source.close = totalOf source.reports.toList + source.unreported := by
  rw [close, settle]
  dsimp only
  split
  · rw [Array.toList_push, totalOf_concat]
  · omega

end Metered

section Sources

variable {ε ς : Type} [Source ε ς]

/-- **The reports of a metered source are positive and add up to the bytes that were read from
it.** -/
theorem ReadsTo.close {source next : Metered ς} {bytes : Bytes} (h : ReadsTo ε source bytes next) :
    (source.IsTelling → ∀ count ∈ next.close, 0 < count) ∧
      totalOf next.close = totalOf source.close + bytes.length := by
  induction h with
  | refl source => exact ⟨Metered.isTelling_settle, rfl⟩
  | @read environment source middle next limit outcome bytes hread _ ih =>
    obtain ⟨hpositive, htotal⟩ := ih
    change Metered.read environment source limit = _ at hread
    rw [Metered.read] at hread
    rcases hinner : Source.read environment source.inner limit with ⟨chunk | _ | _, after⟩ <;>
      rw [hinner] at hread <;> cases hread
    · constructor
      · intro htelling
        have hmoved : ({ source with inner := after } : Metered ς).IsTelling := htelling
        exact hpositive (Metered.isTelling_record hmoved _)
      · rw [htotal, Metered.close_record, Metered.totalOf_close, Metered.totalOf_close,
          List.length_append]
        dsimp only [Attempt.received]
        omega
    · exact ⟨hpositive, htotal⟩
    · exact ⟨hpositive, htotal⟩

end Sources

/-! ## The reads of the newc encoder -/

section Copies

variable {δ ε ς : Type} [Destination δ ε]

theorem source_makeUp (d : δ) (source : ς) (buffer : CopyBuffer) (missing : Nat)
    (e : ArchiveError) : (makeUp d source buffer missing e).2.source = source := by
  rw [makeUp]
  rcases fillWithNuls d buffer missing with ⟨_ | _, next⟩ <;> rfl

theorem Newc.source_finishEntry (headerLength declared : Nat) (copied : Except ArchiveError Copied)
    (transfer : Transfer CopyBuffer δ ς) :
    (finishEntry headerLength declared copied transfer).2.source = transfer.source := by
  obtain ⟨buffer, d, source⟩ := transfer
  rw [finishEntry]
  rcases writeAll d (nuls (paddingLength declared)) with ⟨_ | _, next⟩ <;> rfl

variable [Source ε ς]

/-- Draining a source reads it to its end or to its first failure. -/
theorem drain_reads (environment : ε) (source : ς) (buffer : CopyBuffer) (extra : Nat) :
    ∃ bytes ending, ReadsTo ε source bytes (drain environment source buffer extra).2.1 ∧
      Delivers (@Always ε) source bytes ending := by
  fun_induction drain environment source buffer extra with
  | case1 source buffer extra next hread =>
    exact ⟨[], .ended, .read hread (.refl next), .ended trivial buffer.size_pos hread⟩
  | case2 source buffer extra b chunk next hread ih =>
    obtain ⟨bytes, ending, hreads, hdelivers⟩ := ih
    have hne := List.cons_ne_nil b chunk
    exact ⟨_, ending, .read hread hreads, .more trivial buffer.size_pos hne hread hdelivers⟩
  | case3 source buffer extra cause next hread ih =>
    obtain ⟨bytes, ending, hreads, hdelivers⟩ := ih
    exact ⟨bytes, ending, .read hread hreads, .again trivial buffer.size_pos hread hdelivers⟩
  | case4 source buffer extra cause next hread =>
    exact ⟨[], .failed cause, .read hread (.refl next), .failed trivial buffer.size_pos hread⟩
  | case5 source buffer extra cause next hread =>
    exact ⟨[], .failed cause, .read hread (.refl next), .failed trivial buffer.size_pos hread⟩

/-- A copy reads its source to its end or to its first failure, unless a write fails before. -/
theorem copyOnward_reads (d : δ) (source : ς) (buffer : CopyBuffer) (length copied : Nat) :
    ∃ bytes, ReadsTo ε source bytes (copyOnward d source buffer length copied).2.source ∧
      ((∀ cause, (copyOnward d source buffer length copied).1 ≠ .error (.io cause)) →
        ∃ ending, Delivers (@Always ε) source bytes ending) := by
  fun_induction copyOnward d source buffer length copied with
  | case1 d source buffer copied hlt next hread =>
    have hlimit : 0 < min (length - copied) buffer.size := by have := buffer.size_pos; omega
    rw [source_makeUp]
    exact ⟨[], .read hread (.refl next), fun _ => ⟨.ended, .ended trivial hlimit hread⟩⟩
  | case2 d source buffer copied hlt b chunk next hread count loaded after hwrite ih =>
    have hlimit : 0 < min (length - copied) buffer.size := by have := buffer.size_pos; omega
    obtain ⟨bytes, hreads, hdelivers⟩ := ih
    refine ⟨_, .read hread hreads, fun hwhole => ?_⟩
    obtain ⟨ending, hdelivers⟩ := hdelivers hwhole
    exact ⟨ending, .more trivial hlimit (List.cons_ne_nil b chunk) hread hdelivers⟩
  | case3 d source buffer copied hlt b chunk next hread count loaded cause after hwrite =>
    exact ⟨_, .read hread (.refl next), fun hwhole => absurd rfl (hwhole cause)⟩
  | case4 d source buffer copied hlt cause next hread ih =>
    have hlimit : 0 < min (length - copied) buffer.size := by have := buffer.size_pos; omega
    obtain ⟨bytes, hreads, hdelivers⟩ := ih
    refine ⟨_, .read hread hreads, fun hwhole => ?_⟩
    obtain ⟨ending, hdelivers⟩ := hdelivers hwhole
    exact ⟨ending, .again trivial hlimit hread hdelivers⟩
  | case5 d source buffer copied hlt cause next hread =>
    have hlimit : 0 < min (length - copied) buffer.size := by have := buffer.size_pos; omega
    rw [source_makeUp]
    exact ⟨[], .read hread (.refl next), fun _ => ⟨.failed cause, .failed trivial hlimit hread⟩⟩
  | case6 d source buffer copied hge extra next buffer' hdrain =>
    obtain ⟨bytes, ending, hreads, hdelivers⟩ :=
      drain_reads (Destination.environment d) source buffer 0
    rw [hdrain] at hreads
    exact ⟨bytes, hreads, fun _ => ⟨ending, hdelivers⟩⟩
  | case7 d source buffer copied hge cause next buffer' hdrain =>
    obtain ⟨bytes, ending, hreads, hdelivers⟩ :=
      drain_reads (Destination.environment d) source buffer 0
    rw [hdrain] at hreads
    exact ⟨bytes, hreads, fun _ => ⟨ending, hdelivers⟩⟩

/-- **The newc encoder reads a source to its end or to its first failure**, unless a write fails
before. -/
theorem Newc.encodeEntry_reads (buffer : CopyBuffer) (d : δ) (name : Bytes) (metadata : Metadata)
    (source : ς) :
    ∃ bytes, ReadsTo ε source bytes (encodeEntry buffer d name metadata source).2.source ∧
      ((∃ header, (Header.ofMetadata name metadata).encode = .ok header) →
        (∀ cause, (encodeEntry buffer d name metadata source).1 ≠ .error (.io cause)) →
          ∃ ending, Delivers (@Always ε) source bytes ending) := by
  rw [encodeEntry]
  cases hheader : (Header.ofMetadata name metadata).encode with
  | error e => exact ⟨[], .refl source, nofun⟩
  | ok header =>
    dsimp only
    rcases writeAll d header with ⟨cause | _, next⟩
    · exact ⟨[], .refl source, fun _ hwhole => absurd rfl (hwhole cause)⟩
    · dsimp only
      obtain ⟨bytes, hreads, hdelivers⟩ := copyOnward_reads next source buffer metadata.size 0
      refine ⟨bytes, ?_⟩
      rw [copyExact]
      generalize copyOnward next source buffer metadata.size 0 = copy at hreads hdelivers ⊢
      obtain ⟨e | copied, transfer⟩ := copy
      · dsimp only at hreads hdelivers ⊢
        split
        next hcontent =>
          rw [source_finishEntry]
          refine ⟨hreads, fun _ _ => hdelivers fun cause => ?_⟩
          rintro heq
          cases heq
          cases hcontent
        · refine ⟨hreads, fun _ hwhole => hdelivers fun cause => ?_⟩
          rintro heq
          cases heq
          exact hwhole cause rfl
      · dsimp only at hreads hdelivers ⊢
        rw [source_finishEntry]
        exact ⟨hreads, fun _ _ => hdelivers nofun⟩

end Copies

/-! ## Encoders that only read -/

/-- Whatever the encoder does with the source of an entry, it reads it.  More than that an encoder
cannot do, since it is handed something to read from and nothing else; its type alone would let it
make up the source that it returns. -/
def Encoder.OnlyReads {β δ ε ς : Type} [Destination δ ε] [Source ε ς] (encoder : Encoder β δ ς) :
    Prop :=
  ∀ (state : β) (d : δ) (name : Bytes) (metadata : Metadata) (source : ς),
    ∃ bytes, ReadsTo ε source bytes (encoder.encodeEntry state d name metadata source).2.source

theorem Newc.onlyReads_encoder {δ ε ς : Type} [Destination δ ε] [Source ε ς] :
    (Newc.encoder δ ς).OnlyReads := by
  intro buffer d name metadata source
  obtain ⟨bytes, hreads, -⟩ := encodeEntry_reads buffer d name metadata source
  exact ⟨bytes, hreads⟩

end CpioArchive
