import CpioArchive.Stream.Counted

/-!
# Writing to destinations

What a whole `writeAll` does to a destination, from what single calls promise.

* `Faithful` — the destination keeps what it accepts, in order, and nothing else.
  `Faithful.writeAll` lifts that to whole byte strings: what arrives is always a
  beginning of what was offered, and all of it if the call succeeds.
* `Reliable` — it also accepts everything in the end (`Reliable.writeAll_ok`).
* `Seamless` — it cannot tell how what it is given was cut into pieces
  (`Seamless.writePieces`).
* `Destination.IsView` — what is seen of it may take its place (`writeAll_view`).

A copy writes its bytes in pieces whose boundaries depend on the source and on the
buffer; `writePieces` is that sequence of writes.  Counting what a destination accepts
takes none of the first three properties away, and leaves it in view.
-/

namespace CpioArchive

section Promises

variable {δ ε : Type} [Destination δ ε]

/-! ## Destinations that keep their promises -/

/-- A view of destinations under which each keeps what it accepts and nothing else.
`good` is whatever has to hold of a destination for that, and no call takes it away. -/
structure Faithful (good : δ → Prop) (held : δ → Bytes) : Prop where
  good_write : ∀ {d next : δ} {bytes : Bytes} {outcome : Attempt Nat}, good d →
    Destination.write d bytes = (outcome, next) → good next
  good_flush : ∀ {d : δ}, good d → good (Destination.flush d).2
  /-- Accepted bytes are appended. -/
  held_done : ∀ {d next : δ} {bytes : Bytes} {count : Nat}, good d →
    Destination.write d bytes = (.done count, next) → held next = held d ++ bytes.take count
  /-- An interrupted call appends nothing. -/
  held_interrupted : ∀ {d next : δ} {bytes : Bytes} {cause : IoError}, good d →
    Destination.write d bytes = (.interrupted cause, next) → held next = held d
  /-- A failed call appends nothing. -/
  held_failed : ∀ {d next : δ} {bytes : Bytes} {cause : IoError}, good d →
    Destination.write d bytes = (.failed cause, next) → held next = held d
  held_flush : ∀ {d : δ}, good d → held (Destination.flush d).2 = held d

/-- A faithful view of destinations that take everything, if perhaps in several calls. -/
structure Reliable (good : δ → Prop) (held : δ → Bytes) : Prop extends Faithful good held where
  /-- A call with something to accept accepts something. -/
  accepts : ∀ {d next : δ} {bytes : Bytes} {count : Nat}, good d → bytes ≠ [] →
    Destination.write d bytes = (.done count, next) → count ≠ 0
  /-- No call fails. -/
  never_fails : ∀ {d next : δ} {bytes : Bytes} {cause : IoError}, good d → bytes ≠ [] →
    Destination.write d bytes ≠ (.failed cause, next)
  flushes : ∀ {d : δ}, good d → (Destination.flush d).1 = .ok ()

variable {good : δ → Prop} {held : δ → Bytes}

/-! ## Whole byte strings -/

@[simp] theorem writeAll_nil (d : δ) : writeAll d [] = (.ok (), d) := by
  rw [writeAll, if_pos List.isEmpty_nil]

/-- What the first call of a `writeAll` leads to. -/
theorem writeAll_step {d next : δ} {bytes : Bytes} {outcome : Attempt Nat} (hne : bytes ≠ [])
    (h : Destination.write d bytes = (outcome, next)) :
    writeAll d bytes =
      match outcome with
      | .done 0 => (.error .nothingAccepted, next)
      | .done (n + 1) => writeAll next (bytes.drop (n + 1))
      | .interrupted _ => writeAll next bytes
      | .failed cause => (.error cause, next) := by
  rw [writeAll, if_neg (by simpa using hne)]
  split <;> rename_i hwrite <;> rw [h] at hwrite <;> cases hwrite <;> rfl

/-- **What arrives is a beginning of what was offered**, and all of it if the call
succeeds. -/
theorem Faithful.writeAll (F : Faithful good held) {d : δ} (hd : good d) (bytes : Bytes) :
    good (writeAll d bytes).2 ∧ ∃ accepted, accepted <+: bytes ∧
      held (writeAll d bytes).2 = held d ++ accepted ∧
      ((CpioArchive.writeAll d bytes).1 = .ok () → accepted = bytes) := by
  fun_induction CpioArchive.writeAll d bytes with
  | case1 d bytes hempty =>
    rw [List.isEmpty_iff] at hempty
    subst hempty
    exact ⟨hd, [], List.prefix_rfl, by simp⟩
  | case2 d bytes _ next hwrite =>
    refine ⟨F.good_write hd hwrite, [], List.nil_prefix, ?_, by simp⟩
    simpa using F.held_done hd hwrite
  | case3 d bytes _ n next hwrite ih =>
    obtain ⟨hgood, accepted, hprefix, hheld, hall⟩ := ih (F.good_write hd hwrite)
    refine ⟨hgood, bytes.take (n + 1) ++ accepted, ?_, ?_, ?_⟩
    · obtain ⟨missing, hmissing⟩ := hprefix
      exact ⟨missing, by rw [List.append_assoc, hmissing, List.take_append_drop]⟩
    · rw [hheld, F.held_done hd hwrite, List.append_assoc]
    · intro hok
      rw [hall hok, List.take_append_drop]
  | case4 d bytes _ cause next hwrite ih =>
    obtain ⟨hgood, accepted, hprefix, hheld, hall⟩ := ih (F.good_write hd hwrite)
    exact ⟨hgood, accepted, hprefix, by rw [hheld, F.held_interrupted hd hwrite], hall⟩
  | case5 d bytes _ cause next hwrite =>
    refine ⟨F.good_write hd hwrite, [], List.nil_prefix, ?_, by simp⟩
    simpa using F.held_failed hd hwrite

/-- A call that fails leaves something out. -/
theorem Faithful.writeAll_error (F : Faithful good held) {d next : δ} (hd : good d)
    {bytes : Bytes} {cause : IoError}
    (h : CpioArchive.writeAll d bytes = (.error cause, next)) :
    ∃ accepted missing, bytes = accepted ++ missing ∧ missing ≠ [] ∧
      held next = held d ++ accepted := by
  fun_induction CpioArchive.writeAll d bytes with
  | case1 d bytes _ => cases h
  | case2 d bytes hempty _ hwrite =>
    cases h
    refine ⟨[], bytes, rfl, by simpa using hempty, ?_⟩
    simpa using F.held_done hd hwrite
  | case3 d bytes _ n rest hwrite ih =>
    obtain ⟨accepted, missing, hrest, hmissing, hheld⟩ := ih (F.good_write hd hwrite) h
    refine ⟨bytes.take (n + 1) ++ accepted, missing, ?_, hmissing, ?_⟩
    · rw [List.append_assoc, ← hrest, List.take_append_drop]
    · rw [hheld, F.held_done hd hwrite, List.append_assoc]
  | case4 d bytes _ _ rest hwrite ih =>
    obtain ⟨accepted, missing, hrest, hmissing, hheld⟩ := ih (F.good_write hd hwrite) h
    exact ⟨accepted, missing, hrest, hmissing, by rw [hheld, F.held_interrupted hd hwrite]⟩
  | case5 d bytes hempty _ _ hwrite =>
    cases h
    refine ⟨[], bytes, rfl, by simpa using hempty, ?_⟩
    simpa using F.held_failed hd hwrite

/-- A reliable destination takes every byte string. -/
theorem Reliable.writeAll_ok (R : Reliable good held) {d : δ} (hd : good d) (bytes : Bytes) :
    ∃ next, CpioArchive.writeAll d bytes = (.ok (), next) ∧ good next := by
  fun_induction CpioArchive.writeAll d bytes with
  | case1 d bytes hempty => exact ⟨d, rfl, hd⟩
  | case2 d bytes hempty next hwrite =>
    rw [List.isEmpty_iff] at hempty
    exact absurd rfl (R.accepts hd hempty hwrite)
  | case3 d bytes _ n next hwrite ih => exact ih (R.good_write hd hwrite)
  | case4 d bytes _ cause next hwrite ih => exact ih (R.good_write hd hwrite)
  | case5 d bytes hempty cause next hwrite =>
    rw [List.isEmpty_iff] at hempty
    exact absurd hwrite (R.never_fails hd hempty)

/-! ## Views -/

/-- What is seen of a destination answers every write as the destination does, and lies in the same
environment. -/
structure Destination.IsView {φ : Type} [Destination φ ε] (view : δ → φ) : Prop where
  write : ∀ {d next : δ} {bytes : Bytes} {outcome : Attempt Nat},
    Destination.write d bytes = (outcome, next) →
      Destination.write (view d) bytes = (outcome, view next)
  environment : ∀ d : δ, Destination.environment (view d) = Destination.environment d

/-- A view takes what the destination takes. -/
theorem writeAll_view {φ : Type} [Destination φ ε] {see : δ → φ} (hsee : Destination.IsView see)
    (d : δ) (bytes : Bytes) :
    writeAll (see d) bytes = ((writeAll d bytes).1, see (writeAll d bytes).2) := by
  fun_induction writeAll d bytes with
  | case1 d bytes hempty => rw [List.isEmpty_iff.1 hempty, writeAll_nil]
  | case2 d bytes hempty next hwrite =>
    rw [writeAll_step (by simpa using hempty) (hsee.write hwrite)]
  | case3 d bytes hempty n next hwrite ih =>
    rw [writeAll_step (by simpa using hempty) (hsee.write hwrite)]
    exact ih
  | case4 d bytes hempty cause next hwrite ih =>
    rw [writeAll_step (by simpa using hempty) (hsee.write hwrite)]
    exact ih
  | case5 d bytes hempty cause next hwrite =>
    rw [writeAll_step (by simpa using hempty) (hsee.write hwrite)]

/-! ## Pieces -/

/-- Writes pieces one after the other, up to the first that fails. -/
def writePieces (d : δ) : List Bytes → Except IoError Unit × δ
  | [] => (.ok (), d)
  | piece :: rest =>
    match writeAll d piece with
    | (.ok (), next) => writePieces next rest
    | (.error cause, next) => (.error cause, next)

/-- What arrives of pieces is a beginning of them, and all of them if no write fails. -/
theorem Faithful.writePieces (F : Faithful good held) {d : δ} (hd : good d)
    (pieces : List Bytes) :
    good (writePieces d pieces).2 ∧ ∃ accepted, accepted <+: pieces.flatten ∧
      held (CpioArchive.writePieces d pieces).2 = held d ++ accepted ∧
      ((CpioArchive.writePieces d pieces).1 = .ok () → accepted = pieces.flatten) := by
  induction pieces generalizing d with
  | nil => exact ⟨hd, [], List.prefix_rfl, by simp [CpioArchive.writePieces]⟩
  | cons piece rest ih =>
    rw [CpioArchive.writePieces, List.flatten_cons]
    obtain ⟨hgood, accepted, hprefix, hheld, hall⟩ := F.writeAll hd piece
    rcases hwrite : CpioArchive.writeAll d piece with ⟨_ | _, next⟩ <;>
      rw [hwrite] at hgood hheld hall
    · exact ⟨hgood, accepted, hprefix.trans (List.prefix_append _ _), hheld, by simp⟩
    · obtain ⟨hgood', more, hprefix', hheld', hall'⟩ := ih hgood
      obtain rfl := hall rfl
      refine ⟨hgood', accepted ++ more, (List.prefix_append_right_inj _).2 hprefix', ?_, ?_⟩
      · rw [hheld', hheld, List.append_assoc]
      · intro hok
        rw [hall' hok]

/-- Pieces of which one fails leave something out. -/
theorem Faithful.writePieces_error (F : Faithful good held) {d next : δ} (hd : good d)
    {pieces : List Bytes} {cause : IoError}
    (h : CpioArchive.writePieces d pieces = (.error cause, next)) :
    ∃ accepted missing, pieces.flatten = accepted ++ missing ∧ missing ≠ [] ∧
      held next = held d ++ accepted := by
  induction pieces generalizing d with
  | nil => cases h
  | cons piece rest ih =>
    rw [CpioArchive.writePieces] at h
    rw [List.flatten_cons]
    obtain ⟨hgood, whole, -, hheld, hall⟩ := F.writeAll hd piece
    rcases hwrite : CpioArchive.writeAll d piece with ⟨cause' | _, after⟩ <;>
      rw [hwrite] at h hgood hheld hall
    · cases h
      obtain ⟨accepted, missing, rfl, hmissing, hheld⟩ := F.writeAll_error hd hwrite
      refine ⟨accepted, missing ++ rest.flatten, List.append_assoc _ _ _, ?_, hheld⟩
      exact List.append_ne_nil_of_left_ne_nil hmissing _
    · obtain ⟨accepted, missing, hrest, hmissing, hheld'⟩ := ih hgood h
      refine ⟨piece ++ accepted, missing, by rw [hrest, List.append_assoc], hmissing, ?_⟩
      rw [hheld', hheld, hall rfl, List.append_assoc]

theorem Reliable.writePieces_ok (R : Reliable good held) {d : δ} (hd : good d)
    (pieces : List Bytes) :
    ∃ next, CpioArchive.writePieces d pieces = (.ok (), next) ∧ good next := by
  induction pieces generalizing d with
  | nil => exact ⟨d, rfl, hd⟩
  | cons piece rest ih =>
    obtain ⟨next, hwrite, hgood⟩ := R.writeAll_ok hd piece
    rw [CpioArchive.writePieces, hwrite]
    exact ih hgood

/-! ## Seamless destinations -/

/-- Destinations that cannot tell how what they are given was cut into pieces: writing two
byte strings one after the other is the same as writing them joined. -/
def Seamless (good : δ → Prop) : Prop :=
  ∀ {d : δ}, good d → ∀ first rest : Bytes, writeAll d (first ++ rest) =
    match writeAll d first with
    | (.ok (), next) => writeAll next rest
    | (.error cause, next) => (.error cause, next)

/-- A seamless destination sees pieces as the one byte string they make up. -/
theorem Seamless.writePieces (S : Seamless good) (F : Faithful good held) {d : δ} (hd : good d)
    (pieces : List Bytes) : writePieces d pieces = writeAll d pieces.flatten := by
  induction pieces generalizing d with
  | nil => rw [CpioArchive.writePieces, List.flatten_nil, writeAll_nil]
  | cons piece rest ih =>
    have hgood := (F.writeAll hd piece).1
    rw [CpioArchive.writePieces, List.flatten_cons, S hd]
    rcases hwrite : writeAll d piece with ⟨_ | _, next⟩
    · rfl
    · rw [hwrite] at hgood
      exact ih hgood

/-! ## Counting -/

namespace Counted

/-- The places at which a count tells how much has been written since the destination held
`start` bytes. -/
def Tracks (good : δ → Prop) (held : δ → Bytes) (start : Nat) (d : Counted δ) : Prop :=
  good d.inner ∧ (held d.inner).length = start + d.position

theorem tracks_fresh {d : δ} (hd : good d) :
    Tracks good held (held d).length (Counted.fresh d) := ⟨hd, rfl⟩

/-- One write through the count, as the destination within sees it. -/
theorem write_cases {d next : Counted δ} {bytes : Bytes} {outcome : Attempt Nat}
    (h : Destination.write d bytes = (outcome, next)) :
    Destination.write d.inner bytes = (outcome, next.inner) ∧
      next.position = d.position + match outcome with
        | .done count => count
        | _ => 0 := by
  obtain ⟨inner, position⟩ := d
  change Counted.write ⟨inner, position⟩ bytes = _ at h
  rw [Counted.write] at h
  rcases hwrite : Destination.write inner bytes with ⟨_ | _ | _, after⟩ <;> rw [hwrite] at h <;>
    cases h <;> exact ⟨rfl, rfl⟩

theorem inner_flush (d : Counted δ) :
    (Destination.flush d).1 = (Destination.flush d.inner).1 ∧
      (Destination.flush d).2 = ⟨(Destination.flush d.inner).2, d.position⟩ := ⟨rfl, rfl⟩

end Counted

/-- **Counting keeps a faithful destination faithful**, and the count right. -/
theorem Faithful.counted (F : Faithful good held) (start : Nat) :
    Faithful (Counted.Tracks good held start) fun d => held d.inner where
  good_write {d next bytes outcome} hd hwrite := by
    obtain ⟨hinner, hposition⟩ := Counted.write_cases hwrite
    refine ⟨F.good_write hd.1 hinner, ?_⟩
    have hlength := hd.2
    cases outcome with
    | done count =>
      have hcount := Destination.accepted_le_of_write hinner
      rw [F.held_done hd.1 hinner, hposition, List.length_append, hlength,
        List.length_take_of_le hcount, Nat.add_assoc]
    | interrupted cause => rw [F.held_interrupted hd.1 hinner, hposition, hlength]; rfl
    | failed cause => rw [F.held_failed hd.1 hinner, hposition, hlength]; rfl
  good_flush {d} hd := by
    refine ⟨F.good_flush hd.1, ?_⟩
    rw [(Counted.inner_flush d).2, F.held_flush hd.1]
    exact hd.2
  held_done hd hwrite := F.held_done hd.1 (Counted.write_cases hwrite).1
  held_interrupted hd hwrite := F.held_interrupted hd.1 (Counted.write_cases hwrite).1
  held_failed hd hwrite := F.held_failed hd.1 (Counted.write_cases hwrite).1
  held_flush hd := F.held_flush hd.1

theorem Reliable.counted (R : Reliable good held) (start : Nat) :
    Reliable (Counted.Tracks good held start) fun d => held d.inner where
  toFaithful := R.toFaithful.counted start
  accepts hd hne hwrite := R.accepts hd.1 hne (Counted.write_cases hwrite).1
  never_fails hd hne hwrite := R.never_fails hd.1 hne (Counted.write_cases hwrite).1
  flushes hd := R.flushes hd.1

/-- The destination within answers every write as the count does. -/
theorem Counted.isView_inner : Destination.IsView (Counted.inner : Counted δ → δ) where
  write h := (write_cases h).1
  environment _ := rfl

/-- Writing through the count is writing to the destination within. -/
theorem Counted.writeAll_inner (d : Counted δ) (bytes : Bytes) :
    (writeAll d bytes).1 = (writeAll d.inner bytes).1 ∧
      (writeAll d bytes).2.inner = (writeAll d.inner bytes).2 := by
  rw [writeAll_view isView_inner]
  exact ⟨rfl, rfl⟩

/-- Two counts that track the same destination are the same. -/
theorem Counted.eq_of_tracks {start : Nat} {d e : Counted δ} (hd : Tracks good held start d)
    (he : Tracks good held start e) (h : d.inner = e.inner) : d = e := by
  obtain ⟨inner, position⟩ := d
  obtain ⟨inner', position'⟩ := e
  obtain rfl : inner = inner' := h
  have hposition : start + position = start + position' := hd.2.symm.trans he.2
  rw [Nat.add_left_cancel hposition]

/-- Where the destination within ends up decides where the count does. -/
theorem Faithful.writeAll_counted (F : Faithful good held) {start : Nat} {d next : Counted δ}
    (hd : Counted.Tracks good held start d) (hnext : Counted.Tracks good held start next)
    {bytes : Bytes} {outcome : Except IoError Unit}
    (h : CpioArchive.writeAll d.inner bytes = (outcome, next.inner)) :
    CpioArchive.writeAll d bytes = (outcome, next) := by
  obtain ⟨houtcome, hafter⟩ := Counted.writeAll_inner d bytes
  have htracks := ((F.counted start).writeAll hd bytes).1
  rw [h] at houtcome hafter
  exact Prod.ext houtcome (Counted.eq_of_tracks htracks hnext hafter)

/-- Counting keeps a seamless destination seamless. -/
theorem Seamless.counted (S : Seamless good) (F : Faithful good held) (start : Nat) :
    Seamless (Counted.Tracks good held start) := by
  intro d hd first rest
  have hinner := S hd.1 first rest
  obtain ⟨houtcome, hafter⟩ := Counted.writeAll_inner d first
  have htracks := ((F.counted start).writeAll hd first).1
  have hfirst : writeAll d.inner first = ((writeAll d first).1, (writeAll d first).2.inner) :=
    Prod.ext houtcome.symm hafter.symm
  rw [hfirst] at hinner
  generalize writeAll d first = result at hinner htracks
  obtain ⟨_ | _, next⟩ := result
  · exact F.writeAll_counted hd htracks hinner
  · obtain ⟨houtcome', hafter'⟩ := Counted.writeAll_inner next rest
    refine F.writeAll_counted hd ((F.counted start).writeAll htracks rest).1 ?_
    rw [hinner]
    exact Prod.ext houtcome'.symm hafter'.symm

end Promises

end CpioArchive
