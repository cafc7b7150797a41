import CpioArchive.Proofs.Slices

/-!
# The rounds of the reader

The reader goes over an archive in rounds, one for each record.  What it relies on between two
rounds is said here of a reader that keeps its rounds and does the same otherwise.

* `readEntriesTraced` — the loop with its rounds; `snd_readEntriesTraced` says that keeping them
  changes no result;
* `IsRun` — the rounds of a loop, one behind the other;
* `Round.IsSound` — the invariant of the loop;
* `Cursor.IsAt.step`, `IsRun.isSound` — a round keeps it, and so it holds in every round of a run;
* `readArchive_rounds` — that of every archive, and what follows from it: there are few rounds and
  few entries, and no record is ever found to start off a multiple of four.
-/

namespace CpioArchive.Newc

/-! ## The loop -/

/-- A round of the reader's loop: where it started and what happened in it. -/
structure Round where
  start : Cursor
  step : Traced (Entry × Cursor)

/-- The round that starts at a cursor. -/
def Round.ofCursor (archive : Bytes) (cursor : Cursor) : Round :=
  ⟨cursor, readEntryTraced archive cursor⟩

@[simp] theorem Round.outcome_ofCursor (archive : Bytes) (cursor : Cursor) :
    (Round.ofCursor archive cursor).step.outcome = readEntry cursor :=
  outcome_readEntryTraced archive cursor

/-- Reads the entries from a cursor on, and keeps the rounds that it takes. -/
def readEntriesTraced (archive : Bytes) (cursor : Cursor) :
    List Round × Except ReadError (List Entry) :=
  let round := Round.ofCursor archive cursor
  match _h : round.step.outcome with
  | .error e => ([round], .error e)
  | .ok (entry, next) =>
    if entry.header.name = trailerName then
      ([round],
        if next.rest.isEmpty then .ok [] else .error (.bytesAfterTrailer next.rest.length))
    else
      let others := readEntriesTraced archive next
      (round :: others.1, others.2.map (entry :: ·))
termination_by cursor.rest.length
decreasing_by
  have hread : readEntry cursor = .ok (entry, next) := by
    rw [← Round.outcome_ofCursor archive]
    assumption
  have := readEntry_shorter hread
  simp only [fixedLength] at this
  omega

/-- Reads an archive, and keeps the rounds that it takes. -/
def readArchiveTraced (archive : Bytes) : List Round × Except ReadError (List Entry) :=
  readEntriesTraced archive (.start archive)

/-- The rounds of a loop from a cursor on: every round but the last has read a record, and the next
one starts behind it. -/
inductive IsRun (archive : Bytes) : Cursor → List Round → Prop
  | last (cursor : Cursor) : IsRun archive cursor [.ofCursor archive cursor]
  | cons {cursor next : Cursor} {entry : Entry} {rounds : List Round}
      (hread : readEntry cursor = .ok (entry, next)) (hrounds : IsRun archive next rounds) :
      IsRun archive cursor (.ofCursor archive cursor :: rounds)

/-- **The invariant of the loop**, and what one round does. -/
structure Round.IsSound (archive : Bytes) (round : Round) : Prop where
  /-- A round is one step of the reader. -/
  outcome_eq : round.step.outcome = readEntry round.start
  /-- It starts in the archive, and what it reads is the rest of the archive from there. -/
  isAt : round.start.IsAt archive
  /-- It starts on a multiple of four. -/
  four_dvd : 4 ∣ round.start.offset
  /-- If it reads a record, the offset grows by at least 112, but not beyond the archive. -/
  advance : ∀ entry next, round.step.outcome = .ok (entry, next) →
    round.start.offset + 112 ≤ next.offset ∧ next.offset ≤ archive.length
  /-- If it reads a record, it has cut out every part of it. -/
  complete : ∀ entry next, round.step.outcome = .ok (entry, next) →
    round.step.Obtains (entry.places round.start.offset) (entry, next)
  /-- Its requests are sound. -/
  slices : ∀ slice ∈ round.step.slices, slice.IsSound archive

/-- **Keeping the rounds does not change what is read.** -/
theorem snd_readEntriesTraced (archive : Bytes) (cursor : Cursor) :
    (readEntriesTraced archive cursor).2 = readEntries cursor := by
  fun_induction readEntriesTraced archive cursor with
  | case1 cursor round e hread =>
    replace hread := (Round.outcome_ofCursor archive cursor).symm.trans hread
    rw [readEntries]
    split <;> rename_i hentry <;> rw [hread] at hentry <;> cases hentry
    rfl
  | case2 cursor round entry next hread hname =>
    replace hread := (Round.outcome_ofCursor archive cursor).symm.trans hread
    rw [readEntries_of_readEntry hread, if_pos hname]
  | case3 cursor round entry next hread hname others ih =>
    replace hread := (Round.outcome_ofCursor archive cursor).symm.trans hread
    rw [readEntries_of_readEntry hread, if_neg hname, ih]

/-- What is kept are the rounds of the loop. -/
theorem isRun_readEntriesTraced (archive : Bytes) (cursor : Cursor) :
    IsRun archive cursor (readEntriesTraced archive cursor).1 := by
  fun_induction readEntriesTraced archive cursor with
  | case1 cursor round e hread => exact .last cursor
  | case2 cursor round entry next hread hname => exact .last cursor
  | case3 cursor round entry next hread hname others ih =>
    replace hread := (Round.outcome_ofCursor archive cursor).symm.trans hread
    exact .cons hread ih

/-- A record has at least 112 bytes: the fixed part, a NUL byte, and one more up to a multiple of
four. -/
theorem IsRecord.length_ge {record : Bytes} {entry : Entry} (h : IsRecord record entry) :
    112 ≤ record.length := by
  have hmod := h.length_mod
  obtain ⟨hfields, -, -, -⟩ := h
  have hlength := length_flatten_of_denotes hfields
  simp only [List.length_append, hlength, magic, Header.fields, List.length_map, List.length_cons,
    List.length_nil, Field.width, alignment] at hmod ⊢
  omega

section

variable {archive : Bytes} {cursor next : Cursor} {entry : Entry}

/-- **From one round to the next**: the place behind a record is in the archive, on a multiple of
four, and at least 112 bytes on. -/
theorem Cursor.IsAt.step (hat : cursor.IsAt archive) (haligned : cursor.offset % alignment = 0)
    (h : readEntry cursor = .ok (entry, next)) :
    next.IsAt archive ∧ next.offset % alignment = 0 ∧ cursor.offset + 112 ≤ next.offset := by
  have hread := (outcome_readEntryTraced archive cursor).trans h
  obtain ⟨record, hrecord, -, hoffset⟩ := (readEntry_eq_ok_iff haligned).1 h
  refine ⟨(readEntryTraced_ensures hat haligned).value _ hread,
    offset_mod_of_readEntry haligned h, ?_⟩
  rw [hoffset]
  exact Nat.add_le_add_left hrecord.length_ge _

theorem Round.isSound_ofCursor (hat : cursor.IsAt archive)
    (haligned : cursor.offset % alignment = 0) :
    (Round.ofCursor archive cursor).IsSound archive where
  outcome_eq := outcome_ofCursor archive cursor
  isAt := hat
  four_dvd := Nat.dvd_of_mod_eq_zero haligned
  advance := by
    intro entry next hread
    rw [outcome_ofCursor] at hread
    obtain ⟨hnext, -, hadvance⟩ := hat.step haligned hread
    exact ⟨hadvance, hnext.offset_le⟩
  complete := by
    intro entry next hread
    rw [outcome_ofCursor] at hread
    exact readEntryTraced_obtains hread
  slices := (readEntryTraced_ensures hat haligned).slices

namespace IsRun

variable {rounds : List Round}

/-- **The invariant holds in every round.** -/
theorem isSound (h : IsRun archive cursor rounds) (hat : cursor.IsAt archive)
    (haligned : cursor.offset % alignment = 0) : ∀ round ∈ rounds, round.IsSound archive := by
  induction h with
  | last cursor => exact List.forall_mem_singleton.2 (Round.isSound_ofCursor hat haligned)
  | cons hread _ ih =>
    obtain ⟨hnext, hmod, -⟩ := hat.step haligned hread
    exact List.forall_mem_cons.2 ⟨Round.isSound_ofCursor hat haligned, ih hnext hmod⟩

/-- Every round but the last takes 112 bytes of the archive or more. -/
theorem length_le (h : IsRun archive cursor rounds) (hat : cursor.IsAt archive)
    (haligned : cursor.offset % alignment = 0) :
    cursor.offset + 112 * rounds.length ≤ archive.length + 112 := by
  induction h with
  | last cursor =>
    have := hat.offset_le
    rw [List.length_singleton]
    omega
  | cons hread _ ih =>
    obtain ⟨hnext, hmod, hadvance⟩ := hat.step haligned hread
    have := ih hnext hmod
    rw [List.length_cons]
    omega

end IsRun

/-- The reader does not find a record off a multiple of four, having started on one. -/
theorem readEntries_ne_misaligned (hat : cursor.IsAt archive)
    (haligned : cursor.offset % alignment = 0) (offset : Nat) :
    readEntries cursor ≠ .error (.misaligned offset) := by
  intro h
  fun_induction readEntries cursor with
  | case1 cursor e hread =>
    cases h
    refine (readEntryTraced_ensures hat haligned).aligned offset ?_
    rw [outcome_readEntryTraced, hread]
  | case2 cursor entry next hread hname hrest => cases h
  | case3 cursor entry next hread hname hrest => cases h
  | case4 cursor entry next hread hname ih =>
    obtain ⟨hnext, hmod, -⟩ := hat.step haligned hread
    refine ih hnext hmod ?_
    cases hothers : readEntries next with
    | error e => rw [hothers] at h; exact h
    | ok others => rw [hothers] at h; cases h

end

/-- An archive has 112 bytes or more for each of its entries and for its trailer. -/
theorem IsArchive.length_ge {archive : Bytes} {entries : List Entry}
    (h : IsArchive archive entries) : 112 * (entries.length + 1) ≤ archive.length := by
  obtain ⟨records, trailer, last, rfl, hrecords, -, hlast, -⟩ := h
  induction hrecords with
  | nil =>
    rw [List.flatten_nil, List.nil_append]
    exact hlast.length_ge
  | cons hrecord _ ih =>
    have := hrecord.length_ge
    rw [List.length_append] at ih ⊢
    rw [List.flatten_cons, List.length_append, List.length_cons]
    omega

/-- **The loop of the reader**, for every sequence of bytes.

* The reader that keeps its rounds reads what the reader reads.
* In every round the offset at the start is a multiple of four and not beyond the archive, and a
  record that is read takes the next round at least 112 bytes on.
* Every part that is cut out, of the archive or of the fixed part of a header, is in range, and a
  record that is read has been cut out part by part.  For every part that is asked for, the sum of
  its start and its length is at most `Field.largest` more than the length of the archive; so it
  fits into 64 bits, because no sequence of bytes in memory has `2 ^ 63` of them.
* There is at most one round more than the archive has whole blocks of 112 bytes; there is at least
  one entry fewer; and the fault of a record off a multiple of four does not occur. -/
theorem readArchive_rounds (archive : Bytes) :
    ∃ rounds, readArchiveTraced archive = (rounds, readArchive archive) ∧
      IsRun archive (.start archive) rounds ∧
      (∀ round ∈ rounds, round.IsSound archive) ∧
      (archive.length < 2 ^ 63 → ∀ round ∈ rounds, ∀ slice ∈ round.step.slices,
        slice.start + slice.length < 2 ^ 64) ∧
      rounds.length ≤ archive.length / 112 + 1 ∧
      (∀ entries, readArchive archive = .ok entries →
        1 ≤ archive.length / 112 ∧ entries.length ≤ archive.length / 112 - 1) ∧
      ∀ offset, readArchive archive ≠ .error (.misaligned offset) := by
  have hat := Cursor.isAt_start archive
  have haligned : (Cursor.start archive).offset % alignment = 0 := rfl
  obtain ⟨rounds, htraced, hrun⟩ : ∃ rounds,
      readArchiveTraced archive = (rounds, readArchive archive) ∧
        IsRun archive (.start archive) rounds :=
    ⟨_, Prod.ext rfl (snd_readEntriesTraced archive _), isRun_readEntriesTraced archive _⟩
  have hsound := hrun.isSound hat haligned
  refine ⟨rounds, htraced, hrun, hsound, ?_, ?_, ?_, readEntries_ne_misaligned hat haligned⟩
  · intro hmemory round hround slice hslice
    have hend := ((hsound round hround).slices slice hslice).end_le
    rw [Field.largest] at hend
    omega
  · have hlength : 0 + 112 * rounds.length ≤ archive.length + 112 := hrun.length_le hat haligned
    omega
  · intro entries hread
    have := (readArchive_eq_ok_iff.1 hread).length_ge
    omega

/-- An archive with an entry of the least size has as many entries as its length allows. -/
theorem readArchive_rounds_shortest :
    let record := Header.image ⟨1, 0o040755, 0, 0, 2, 0, 0, 0, 0, 0, 0, [97]⟩
    let archive := record ++ trailerRecord
    archive.length = 236 ∧ ∃ rounds entries, readArchiveTraced archive = (rounds, .ok entries) ∧
      rounds.length ≤ 236 / 112 + 1 ∧ entries.length = 236 / 112 - 1 ∧
      entries.length ≤ archive.length / 112 - 1 ∧
      ∀ round ∈ rounds, ∀ slice ∈ round.step.slices, slice.start + slice.length < 2 ^ 64 := by
  intro record archive
  have hlength : archive.length = 236 := by decide +kernel
  have hread : readArchive archive =
      .ok [⟨⟨1, 0o040755, 0, 0, 2, 0, 0, 0, 0, 0, 0, [97]⟩, []⟩] := by decide +kernel
  obtain ⟨rounds, htraced, -, -, hfits, hrounds, hentries, -⟩ := readArchive_rounds archive
  rw [hread] at htraced
  rw [hlength] at hrounds hfits
  exact ⟨hlength, rounds, _, htraced, hrounds, rfl, (hentries _ hread).2, hfits (by decide)⟩

end CpioArchive.Newc
