import CpioArchive.Proofs.Arrivals
import CpioArchive.Proofs.Reading
import CpioArchive.Proofs.Sites

/-!
# Destinations that fill up

A destination that takes so many bytes and then fails every write holds, at any time, what fits of
the bytes that a boundless destination would hold.

* `Limited` — such destinations; `Sink.limited` — sinks with a limit are among them;
* `Limited.writeAll`, `Limited.writePieces`, `Limited.writeRecord`, `Limited.closeArchive` — each
  write adds to the boundless bytes, and fails only if they do not fit any more;
* `Limited.visitAll` — the same for all visits of a run;
* `full_disk` — and for whole runs.
-/

namespace CpioArchive

open Newc

/-- What is cut off first cannot come back. -/
theorem take_take_append {α : Type} (limit : Nat) (first rest : List α) :
    (first.take limit ++ rest).take limit = (first ++ rest).take limit := by
  rw [List.take_append, List.take_append, List.take_take, List.length_take, Nat.min_self]
  congr 2
  omega

/-- Bytes that do not fit leave no room for others. -/
theorem take_append_of_overfull {α : Type} {limit : Nat} {first : List α}
    (h : limit < first.length) (rest : List α) :
    (first ++ rest).take limit = first.take limit ∧ limit < (first ++ rest).length := by
  constructor
  · exact List.take_append_of_le_length (Nat.le_of_lt h)
  · rw [List.length_append]
    omega

section Limits

variable {δ ε : Type} [Destination δ ε] {good : δ → Prop} {held : δ → Bytes} {limit : Nat}

/-- A faithful view of destinations that take everything up to a number of bytes, if perhaps in
several calls, and then fail. -/
structure Limited (good : δ → Prop) (held : δ → Bytes) (limit : Nat) : Prop
    extends Faithful good held where
  length_le : ∀ {d : δ}, good d → (held d).length ≤ limit
  /-- A call with something to accept accepts something. -/
  accepts : ∀ {d next : δ} {bytes : Bytes} {count : Nat}, good d → bytes ≠ [] →
    Destination.write d bytes = (.done count, next) → count ≠ 0
  /-- Only a full destination fails. -/
  full_of_failed : ∀ {d next : δ} {bytes : Bytes} {cause : IoError}, good d → bytes ≠ [] →
    Destination.write d bytes = (.failed cause, next) → (held d).length = limit
  flushes : ∀ {d : δ}, good d → (Destination.flush d).1 = .ok ()

theorem Limited.counted (L : Limited good held limit) (start : Nat) :
    Limited (Counted.Tracks good held start) (fun d => held d.inner) limit where
  toFaithful := L.toFaithful.counted start
  length_le hd := L.length_le hd.1
  accepts hd hne hwrite := L.accepts hd.1 hne (Counted.write_cases hwrite).1
  full_of_failed hd hne hwrite := L.full_of_failed hd.1 hne (Counted.write_cases hwrite).1
  flushes hd := L.flushes hd.1

/-! ## Single writes -/

/-- A write that fails leaves the destination full. -/
theorem Limited.full_of_writeAll (L : Limited good held limit) {d next : δ} (hd : good d)
    {bytes : Bytes} {cause : IoError} (h : CpioArchive.writeAll d bytes = (.error cause, next)) :
    (held next).length = limit := by
  fun_induction CpioArchive.writeAll d bytes with
  | case1 d bytes _ => cases h
  | case2 d bytes hempty _ hwrite =>
    rw [List.isEmpty_iff] at hempty
    exact absurd rfl (L.accepts hd hempty hwrite)
  | case3 d bytes _ n rest hwrite ih => exact ih (L.good_write hd hwrite) h
  | case4 d bytes _ _ rest hwrite ih => exact ih (L.good_write hd hwrite) h
  | case5 d bytes hempty _ _ hwrite =>
    cases h
    rw [List.isEmpty_iff] at hempty
    rw [L.held_failed hd hwrite]
    exact L.full_of_failed hd hempty hwrite

/-- **What fits is there.**  A destination that holds what fits of some bytes still does so when
more are written, and the write fails only if they do not fit. -/
theorem Limited.writeAll (L : Limited good held limit) {d : δ} (hd : good d) {ideal : Bytes}
    (hheld : held d = ideal.take limit) (bytes : Bytes) :
    held (CpioArchive.writeAll d bytes).2 = (ideal ++ bytes).take limit ∧
      ∀ cause, (CpioArchive.writeAll d bytes).1 = .error cause →
        limit < (ideal ++ bytes).length := by
  obtain ⟨hgood, accepted, -, hnext, hall⟩ := L.toFaithful.writeAll hd bytes
  have hlength := L.length_le hgood
  rcases hwrite : CpioArchive.writeAll d bytes with ⟨cause | _, next⟩ <;>
    rw [hwrite] at hnext hall hlength
  · obtain ⟨accepted, missing, rfl, hmissing, hnext⟩ := L.toFaithful.writeAll_error hd hwrite
    have hfull := L.full_of_writeAll hd hwrite
    have hpos := List.length_pos_iff.2 hmissing
    have hideal := List.length_take_le' limit ideal
    dsimp only
    constructor
    · rw [← take_take_append, ← hheld, ← List.append_assoc, ← hnext, ← hfull, List.take_left]
    · intro _ _
      rw [hnext, hheld, List.length_append] at hfull
      rw [List.length_append, List.length_append]
      omega
  · obtain rfl := hall rfl
    dsimp only at hnext hlength ⊢
    constructor
    · rw [← take_take_append, ← hheld, ← hnext, List.take_of_length_le hlength]
    · intro cause h
      cases h

/-- The same for pieces. -/
theorem Limited.writePieces (L : Limited good held limit) {d : δ} (hd : good d) {ideal : Bytes}
    (hheld : held d = ideal.take limit) (pieces : List Bytes) :
    held (CpioArchive.writePieces d pieces).2 = (ideal ++ pieces.flatten).take limit ∧
      ∀ cause, (CpioArchive.writePieces d pieces).1 = .error cause →
        limit < (ideal ++ pieces.flatten).length := by
  induction pieces generalizing d ideal with
  | nil =>
    rw [CpioArchive.writePieces, List.flatten_nil, List.append_nil]
    refine ⟨hheld, fun cause h => ?_⟩
    cases h
  | cons piece rest ih =>
    rw [CpioArchive.writePieces, List.flatten_cons, ← List.append_assoc]
    have hgood := (L.toFaithful.writeAll hd piece).1
    obtain ⟨hnext, hfits⟩ := L.writeAll hd hheld piece
    rcases hwrite : CpioArchive.writeAll d piece with ⟨cause | _, next⟩ <;>
      rw [hwrite] at hgood hnext hfits
    · obtain ⟨htake, hover⟩ := take_append_of_overfull (hfits cause rfl) rest.flatten
      exact ⟨hnext.trans htake.symm, fun _ _ => hover⟩
    · exact ih hgood hnext

/-! ## Records and trailers -/

/-- The same for a record, whose padding may fail without ending the run. -/
theorem Limited.writeRecord (L : Limited good held limit) {d : δ} (hd : good d) {ideal : Bytes}
    (hheld : held d = ideal.take limit) {pieces : List Bytes} {record : Record}
    (hpieces : pieces.flatten = record.header.image ++ record.body) :
    held (CpioArchive.writeRecord d pieces record).2 = (ideal ++ record.bytes).take limit ∧
      ∀ cause, (CpioArchive.writeRecord d pieces record).1 = .error (.io cause) →
        limit < (ideal ++ record.bytes).length := by
  have hbytes : ideal ++ record.bytes = ideal ++ pieces.flatten ++ record.padding := by
    rw [hpieces, Record.bytes, List.append_assoc ideal]
  have hgood := (L.toFaithful.writePieces hd pieces).1
  obtain ⟨hnext, hfits⟩ := L.writePieces hd hheld pieces
  rw [CpioArchive.writeRecord, hbytes]
  rcases hwrite : CpioArchive.writePieces d pieces with ⟨cause | _, next⟩ <;>
    rw [hwrite] at hgood hnext hfits
  · obtain ⟨htake, hover⟩ := take_append_of_overfull (hfits cause rfl) record.padding
    exact ⟨hnext.trans htake.symm, fun _ _ => hover⟩
  · obtain ⟨hafter, -⟩ := L.writeAll hgood hnext record.padding
    dsimp only
    rcases hpad : CpioArchive.writeAll next record.padding with ⟨cause | _, after⟩ <;>
      rw [hpad] at hafter
    · refine ⟨hafter, fun _ h => ?_⟩
      cases h
    · refine ⟨hafter, fun cause h => ?_⟩
      exact absurd h (record.isWhole_outcome cause).1

theorem Faithful.good_closeArchive (F : Faithful good held) {d : δ} (hd : good d) :
    good (CpioArchive.closeArchive d).2 := by
  have hgood := (F.writeAll hd trailerRecord).1
  rw [CpioArchive.closeArchive]
  rcases hwrite : CpioArchive.writeAll d trailerRecord with ⟨cause | _, next⟩ <;>
    rw [hwrite] at hgood
  · exact hgood
  · have hgood' := F.good_flush hgood
    dsimp only at hgood' ⊢
    rcases hflush : Destination.flush next with ⟨cause | _, flushed⟩ <;>
      rw [hflush] at hgood' <;> exact hgood'

/-- **The trailer shows whether everything fitted.** -/
theorem Limited.closeArchive (L : Limited good held limit) {d : δ} (hd : good d) {ideal : Bytes}
    (hheld : held d = ideal.take limit) :
    held (CpioArchive.closeArchive d).2 = (ideal ++ trailerRecord).take limit ∧
      ((CpioArchive.closeArchive d).1 = .ok () ∧ (ideal ++ trailerRecord).length ≤ limit ∨
        (∃ cause, (CpioArchive.closeArchive d).1 = .error (.io cause)) ∧
          limit < (ideal ++ trailerRecord).length) := by
  obtain ⟨hgood, accepted, -, hnext', hall⟩ := L.toFaithful.writeAll hd trailerRecord
  obtain ⟨hnext, hfits⟩ := L.writeAll hd hheld trailerRecord
  rw [CpioArchive.closeArchive]
  rcases hwrite : CpioArchive.writeAll d trailerRecord with ⟨cause | _, next⟩ <;>
    rw [hwrite] at hgood hnext hfits hnext' hall
  · exact ⟨hnext, .inr ⟨⟨cause, rfl⟩, hfits cause rfl⟩⟩
  · have hflush := L.flushes hgood
    have hheld' := L.held_flush hgood
    dsimp only at hflush hheld' ⊢
    rcases hflushed : Destination.flush next with ⟨cause | _, flushed⟩ <;>
      rw [hflushed] at hflush hheld'
    · cases hflush
    · refine ⟨hheld'.trans hnext, .inl ⟨rfl, ?_⟩⟩
      -- The trailer is not empty, so a destination that took it was not full before.
      obtain rfl := hall rfl
      have hlength := L.length_le hgood
      have hpos := List.length_pos_iff.2 trailerRecord_ne_nil
      rw [hnext', hheld, List.length_append, List.length_take] at hlength
      rw [List.length_append]
      omega

end Limits

/-! ## Runs -/

/-- Everything that a run over the sites writes if nothing stops it. -/
def Site.archive (settings : Settings) (sites : List Site) : Bytes :=
  ((sites.filterMap (·.record? settings)).map Record.bytes).flatten ++ trailerRecord

section Runs

variable {δ ε : Type} [Destination δ ε]

/-- **What the visits of a run leave on a destination that fills up** is what fits of the records of
its sites.  If something fatal happened on the way, not all of them fit. -/
theorem Limited.visitAll {good : Counted δ → Prop} {held : Counted δ → Bytes} {limit : Nat}
    (L : Limited good held limit) {d : Counted δ} (hd : good d) {ideal : Bytes}
    (hheld : held d = ideal.take limit) {writer : Writer CopyBuffer δ (Metered Script)}
    (hwriter : writer.Stands .accepting d) (settings : Settings) (sites : List Site) :
    ∃ visits failure after last,
      CpioArchive.visitAll writer (sites.map (·.input settings)) = (visits, failure, after) ∧
      good last ∧
      held last = (ideal ++
        ((sites.filterMap (·.record? settings)).map Record.bytes).flatten).take limit ∧
      (failure = none ∧ after.Stands .accepting last ∨
        (∃ cause, failure = some (.io cause)) ∧ after.Stands .poisoned last ∧
          limit < (ideal ++
            ((sites.filterMap (·.record? settings)).map Record.bytes).flatten).length) := by
  induction sites generalizing writer d ideal with
  | nil => exact ⟨[], none, writer, d, rfl, hd, by simpa using hheld, .inl ⟨rfl, hwriter⟩⟩
  | cons site sites ih =>
    rw [List.map_cons]
    rcases visit_arrival L.toFaithful always_environment hd hwriter (site.input settings) with
      ⟨hinput, hblank, hsame⟩ | ⟨record, pieces, hinput, hpieces, hgood, harrival⟩
    · obtain ⟨visits, failure, after, last, hvisits, hlast⟩ := ih hd hheld hwriter
      rw [← hsame] at hvisits
      rw [List.filterMap_cons, ← Site.contributes_input hinput]
      exact ⟨_, failure, after, last, visitAll_cons hblank.fatal? hvisits, hlast⟩
    · rw [List.filterMap_cons, ← Site.contributes_input hinput]
      dsimp only
      rw [List.map_cons, List.flatten_cons, ← List.append_assoc]
      obtain ⟨hnext, hfits⟩ := L.writeRecord hd hheld hpieces
      rcases harrival with ⟨cause, hio, hfatal, hstands⟩ |
        ⟨missing, result, reads, hreports, hattempted, hstands, -⟩
      · -- What comes behind a record that does not fit would not fit either.
        obtain ⟨htake, hover⟩ := take_append_of_overfull (hfits cause hio)
          ((sites.filterMap (·.record? settings)).map Record.bytes).flatten
        exact ⟨_, _, _, _, visitAll_fatal hfatal, hgood, hnext.trans htake.symm,
          .inr ⟨⟨cause, rfl⟩, hstands, hover⟩⟩
      · obtain ⟨visits, failure, after, last, hvisits, hlast⟩ := ih hgood hnext hstands
        exact ⟨_, failure, after, last,
          visitAll_cons (hreports.fatal?_eq_none hattempted) hvisits, hlast⟩

/-! ## Whole runs -/

variable {good : δ → Prop} {held : δ → Bytes}

/-- **A run on a destination that fills up** leaves what fits of its archive, and fails if and only
if that is not all of it. -/
theorem Limited.createOn {limit : Nat} (L : Limited good held limit) {d : δ} (hd : good d)
    (bufferSize : Nat) (settings : Settings) (sites : List Site) (elapsed : Duration) :
    let creation := CpioArchive.createOn (Newc.writer (Metered Script) bufferSize d)
      (sites.map (·.input settings)) elapsed
    held creation.destination = (held d ++ Site.archive settings sites).take limit ∧
      ((∃ report, creation.result = .ok report) ∧
          (held d ++ Site.archive settings sites).length ≤ limit ∨
        (∃ cause, creation.result = .error (.io cause)) ∧
          limit < (held d ++ Site.archive settings sites).length) := by
  intro creation
  have L' := L.counted (held d).length
  obtain ⟨visits, failure, after, last, hvisits, hgood, hheld, hend⟩ :=
    L'.visitAll (Counted.tracks_fresh hd) (List.take_of_length_le (L.length_le hd)).symm
      (Writer.stands_writer bufferSize d) settings sites
  rw [Site.archive, ← List.append_assoc]
  rcases hend with ⟨rfl, hafter⟩ | ⟨⟨cause, rfl⟩, hafter, hover⟩
  · obtain ⟨hclosed, hfits⟩ := L'.closeArchive hgood hheld
    have hgood' := L'.toFaithful.good_closeArchive hgood
    rcases hclose : CpioArchive.closeArchive last with ⟨e | _, closed⟩ <;>
      rw [hclose] at hclosed hfits hgood'
    · have hcreation : creation = _ :=
        createOn_of_closeArchive_error hvisits hafter hclose elapsed
      rw [hcreation]
      refine ⟨(L'.held_flush hgood').trans hclosed, .inr ?_⟩
      rcases hfits with ⟨hok, -⟩ | ⟨⟨cause, he⟩, hover⟩
      · cases hok
      · cases he
        exact ⟨⟨cause, rfl⟩, hover⟩
    · have hcreation : creation = _ := createOn_of_visitAll hvisits hafter hclose elapsed
      rw [hcreation]
      refine ⟨hclosed, .inl ?_⟩
      rcases hfits with ⟨-, hfits⟩ | ⟨⟨cause, he⟩, -⟩
      · exact ⟨⟨_, rfl⟩, hfits⟩
      · cases he
  · have hcreation : creation = _ := createOn_of_fatal hvisits elapsed
    rw [hcreation, Writer.release_of_poisoned hafter]
    obtain ⟨htake, hover⟩ := take_append_of_overfull hover trailerRecord
    have hflushed := L'.held_flush hgood
    exact ⟨hflushed.trans (hheld.trans htake.symm), .inr ⟨⟨cause, rfl⟩, hover⟩⟩

/-- **A run on a destination that takes everything** leaves its archive. -/
theorem Reliable.held_createOn (R : Reliable good held) {d : δ} (hd : good d) (bufferSize : Nat)
    (settings : Settings) (sites : List Site) (elapsed : Duration) :
    held (createOn (Newc.writer (Metered Script) bufferSize d) (sites.map (·.input settings))
      elapsed).destination = held d ++ Site.archive settings sites := by
  obtain ⟨report, hresult, hpadded⟩ :=
    R.createOn_ok hd bufferSize (sites.map (·.input settings)) elapsed
  obtain ⟨records, haccounts, hheld, -⟩ :=
    R.toFaithful.createOn always_environment hd rfl hresult hpadded
  rw [hheld, haccounts.records_eq, Site.archive]

end Runs

/-- **A full disk.**  A run is made twice, whatever its sites resolve to and however their files
behave: on a destination that takes everything, where it leaves its archive, and on one that has
room for so many bytes and fails every write from then on.  There it leaves what fits of that
archive, and it succeeds if that is all of it.  Otherwise it fails with the error of a write, even
if the first write that failed was one that does not end a run. -/
theorem full_disk {δ₀ ε₀ δ ε : Type} [Destination δ₀ ε₀] [Destination δ ε] {good₀ : δ₀ → Prop}
    {held₀ : δ₀ → Bytes} (R : Reliable good₀ held₀) {d₀ : δ₀} (hd₀ : good₀ d₀) {good : δ → Prop}
    {held : δ → Bytes} {d : δ} {room : Nat} (L : Limited good held ((held d).length + room))
    (hd : good d) (bufferSize : Nat) (settings : Settings) (sites : List Site)
    (elapsed : Duration) :
    let unhindered := createOn (Newc.writer (Metered Script) bufferSize d₀)
      (sites.map (·.input settings)) elapsed
    let creation := createOn (Newc.writer (Metered Script) bufferSize d)
      (sites.map (·.input settings)) elapsed
    ∃ archive, held₀ unhindered.destination = held₀ d₀ ++ archive ∧
      held creation.destination = held d ++ archive.take room ∧
      (archive.length ≤ room → ∃ report, creation.result = .ok report) ∧
      (room < archive.length → ∃ cause, creation.result = .error (.io cause)) := by
  intro unhindered creation
  obtain ⟨hheld, hend⟩ := L.createOn hd bufferSize settings sites elapsed
  rw [List.length_append] at hend
  refine ⟨Site.archive settings sites, R.held_createOn hd₀ bufferSize settings sites elapsed, ?_,
    fun hfits => ?_, fun hover => ?_⟩
  · rw [hheld, List.take_length_add_append]
  · rcases hend with ⟨hok, -⟩ | ⟨-, hover⟩
    · exact hok
    · omega
  · rcases hend with ⟨-, hfits⟩ | ⟨hfailed, -⟩
    · omega
    · exact hfailed

/-! ## Sinks with a limit -/

namespace Sink

/-- The sinks that take everything up to a number of bytes and then fail every write. -/
structure LimitedTo (bound : Nat) (sink : Sink) : Prop where
  limit : sink.limit = some bound
  failOnceAt : sink.failOnceAt = none
  largestWrite : sink.largestWrite ≠ some 0
  flushError : sink.flushError = none
  size_le : sink.data.size ≤ bound

variable {bound : Nat} {sink : Sink}

theorem LimitedTo.put (h : sink.LimitedTo bound) {bytes : Bytes}
    (hroom : sink.HasRoom bytes.length) :
    (sink.put bytes).LimitedTo bound where
  limit := h.limit
  failOnceAt := h.failOnceAt
  largestWrite := h.largestWrite
  flushError := h.flushError
  size_le := by
    have hsize := hroom.2 bound h.limit
    rw [← Array.length_toList, toList_put, List.length_append, Array.length_toList]
    exact hsize

/-- A call that is refused leaves a sink within its limit, and if the refusal is to stay, the sink
is full. -/
theorem LimitedTo.of_refusal (h : sink.LimitedTo bound) {next : Sink} {outcome : Attempt Nat}
    (hrefusal : sink.refusal? = some (outcome, next)) :
    next.LimitedTo bound ∧ ∀ cause, outcome = .failed cause → sink.data.size = bound := by
  rw [refusal?] at hrefusal
  by_cases hinterrupts : 0 < sink.interrupts
  · rw [if_pos hinterrupts] at hrefusal
    cases hrefusal
    constructor
    · exact ⟨h.limit, h.failOnceAt, h.largestWrite, h.flushError, h.size_le⟩
    · intro cause hfailed
      cases hfailed
  · rw [if_neg hinterrupts, h.failOnceAt, h.limit, Option.any_none, Option.any_some,
      if_neg Bool.false_ne_true] at hrefusal
    by_cases hfull : bound ≤ sink.data.size
    · rw [if_pos (decide_eq_true hfull)] at hrefusal
      cases hrefusal
      exact ⟨h, fun _ _ => Nat.le_antisymm h.size_le hfull⟩
    · rw [if_neg (by simpa using hfull)] at hrefusal
      cases hrefusal

/-- Sinks with a limit fill up, whatever the most they take in one call and however often they are
interrupted first. -/
theorem limited (bound : Nat) : Limited (LimitedTo bound) (fun sink => sink.data.toList) bound where
  good_write {sink next bytes outcome} hd hwrite := by
    cases outcome with
    | done count =>
      obtain ⟨-, hroom, -, rfl⟩ := write_done hwrite
      exact hd.put (hasRoom_accepted hroom bytes)
    | interrupted cause => exact (hd.of_refusal (refusal?_of_write hwrite nofun)).1
    | failed cause => exact (hd.of_refusal (refusal?_of_write hwrite nofun)).1
  good_flush {sink} hd := by
    change (sink.flush).2.LimitedTo bound
    rw [flush]
    split <;> exact ⟨hd.limit, hd.failOnceAt, hd.largestWrite, hd.flushError, hd.size_le⟩
  held_done _ hwrite := faithful.held_done trivial hwrite
  held_interrupted _ hwrite := faithful.held_interrupted trivial hwrite
  held_failed _ hwrite := faithful.held_failed trivial hwrite
  held_flush _ := faithful.held_flush trivial
  length_le {sink} hd := by
    rw [Array.length_toList]
    exact hd.size_le
  accepts {sink next bytes count} hd hne hwrite := by
    obtain ⟨-, hroom, rfl, -⟩ := write_done hwrite
    have := List.length_pos_iff.2 (accepted_ne_nil hroom hd.largestWrite hne)
    omega
  full_of_failed {sink next bytes cause} hd _ hwrite := by
    rw [Array.length_toList]
    exact (hd.of_refusal (refusal?_of_write hwrite nofun)).2 cause rfl
  flushes {sink} hd := by
    change (sink.flush).1 = _
    simp only [flush, hd.flushError]

end Sink

/-- A disk that is full in the middle of the padding of the only entry, and that takes at most seven
bytes at a time. -/
theorem full_disk_padding :
    let disk : Sink := { limit := some 118, largestWrite := some 7, interrupts := 3 }
    let site := Site.ofFile [97] (.regular 5 0o644) ⟨[.deliver [1, 2, 3, 4, 5]]⟩
    let unhindered := createOn (Newc.writer (Metered Script) 512 Sink.empty)
      [site.input {}] .zero
    let creation := createOn (Newc.writer (Metered Script) 512 disk) [site.input {}] .zero
    Sink.empty.Unlimited ∧ disk.LimitedTo 118 ∧
      creation.destination.data.toList = unhindered.destination.data.toList.take 118 ∧
      ∃ cause, creation.result = .error (.io cause) := by
  intro disk site unhindered creation
  have hdisk : disk.LimitedTo 118 := ⟨rfl, rfl, nofun, rfl, Nat.zero_le _⟩
  have hlimited : Limited (Sink.LimitedTo 118) (fun sink => sink.data.toList)
    (disk.data.toList.length + 118) := Sink.limited 118
  obtain ⟨archive, hunhindered, hheld, -, hfailed⟩ :=
    full_disk Sink.reliable Sink.unlimited_empty hlimited hdisk 512 {} [site] .zero
  have harchive : archive = Site.archive {} [site] :=
    hunhindered.symm.trans (Sink.reliable.held_createOn Sink.unlimited_empty 512 {} [site] .zero)
  refine ⟨Sink.unlimited_empty, hdisk, ?_, hfailed ?_⟩
  · exact hheld.trans (congrArg (List.take 118) hunhindered.symm)
  · rw [harchive]
    decide +kernel

end CpioArchive
