import Mathlib
import CpioArchive.Proofs.Reading

/-!
# Archives and what is written for their entries

The entries of an archive leave bytes of it open: the paddings, which the reader skips, and all of
the last record except its name.  Everything else is what would be written for the entries.

* `Field.denotes_iff` — a field is spelled in one way only;
* `isRecord_iff` — a record is what its entry spells with the paddings that are in it;
* `readArchive_rewrite` — when an archive is what its entries are written as: if and only if its
  paddings are NUL bytes, its last record is the trailer and no name in it is empty.
-/

namespace CpioArchive.Newc

/-! ## Fields -/

namespace Field

theorem digitNumber_lt {b : UInt8} (h : IsDigit b) : digitNumber b < 16 := by
  unfold digitNumber
  simp only [IsDigit, UInt8.le_iff_toNat_le, UInt8.reduceToNat] at h ⊢
  split <;> omega

theorem digit_digitNumber {b : UInt8} (h : IsDigit b) : digit (digitNumber b) = b := by
  apply UInt8.toNat_inj.1
  unfold digit digitNumber
  simp only [IsDigit, UInt8.le_iff_toNat_le, UInt8.reduceToNat] at h ⊢
  by_cases hdecimal : b.toNat ≤ 57
  · rw [if_pos hdecimal, if_pos (by omega)]
    simp only [UInt8.toNat_ofNat']
    omega
  · rw [if_neg hdecimal, if_neg (by omega)]
    simp only [UInt8.toNat_ofNat']
    omega

theorem numeral_append_digit (digits : Bytes) (b : UInt8) :
    numeral (digits ++ [b]) = numeral digits * 16 + digitNumber b := by
  rw [numeral, List.foldl_append]
  rfl

/-- So many digits denote only numbers below that power of sixteen. -/
theorem numeral_lt {digits : Bytes} (h : ∀ b ∈ digits, IsDigit b) :
    numeral digits < 16 ^ digits.length := by
  induction digits using List.reverseRecOn with
  | nil => exact Nat.one_pos
  | append_singleton digits b ih =>
    simp only [List.forall_mem_append, List.forall_mem_singleton] at h
    have hdigits := ih h.1
    have hlast := digitNumber_lt h.2
    rw [numeral_append_digit, List.length_append, List.length_singleton, Nat.pow_succ]
    omega

/-- Digits are the only digits, of that number, for what they denote. -/
theorem digits_numeral {bytes : Bytes} (h : ∀ b ∈ bytes, IsDigit b) :
    digits bytes.length (numeral bytes) = bytes := by
  induction bytes using List.reverseRecOn with
  | nil => rfl
  | append_singleton bytes b ih =>
    simp only [List.forall_mem_append, List.forall_mem_singleton] at h
    have hlast := digitNumber_lt h.2
    rw [numeral_append_digit, List.length_append, List.length_singleton, digits,
      show (numeral bytes * 16 + digitNumber b) / 16 = numeral bytes by omega,
      show (numeral bytes * 16 + digitNumber b) % 16 = digitNumber b by omega, ih h.1,
      digit_digitNumber h.2]

/-- **A field is spelled in one way only.** -/
theorem denotes_iff {bytes : Bytes} {n : Nat} :
    Denotes bytes n ↔ bytes = encode n ∧ n ≤ largest := by
  constructor
  · rintro ⟨hlength, hdigits, rfl⟩
    have hbound := numeral_lt hdigits
    rw [hlength, width] at hbound
    rw [encode, ← hlength, digits_numeral hdigits, largest]
    exact ⟨rfl, by omega⟩
  · rintro ⟨rfl, hfits⟩
    exact denotes_encode hfits

theorem forall₂_denotes_iff {digits : List Bytes} {numbers : List Nat} :
    List.Forall₂ Denotes digits numbers ↔
      digits = numbers.map encode ∧ ∀ n ∈ numbers, n ≤ largest := by
  constructor
  · intro h
    induction h with
    | nil => exact ⟨rfl, nofun⟩
    | cons hfirst _ ih =>
      obtain ⟨rfl, hfits⟩ := denotes_iff.1 hfirst
      exact ⟨by rw [ih.1, List.map_cons], List.forall_mem_cons.2 ⟨hfits, ih.2⟩⟩
  · rintro ⟨rfl, hfits⟩
    exact forall₂_denotes hfits

end Field

/-! ## Records -/

/-- The paddings of a record: behind its name and behind its content. -/
structure Paddings where
  name : Bytes
  content : Bytes

namespace Entry

/-- What an entry of an archive is like: its numbers fit into their fields, with that of the name
size, and its content has the size in its header. -/
structure IsStorable (entry : Entry) : Prop where
  fits : entry.header.Fits
  nameSize_le : entry.header.nameSize ≤ Field.largest
  length_content : entry.content.length = entry.header.contentSize

/-- The record of the entry with these paddings. -/
def spelled (entry : Entry) (paddings : Paddings) : Bytes :=
  entry.header.fixedPart ++ (entry.header.name ++ [nul]) ++ paddings.name ++ entry.content
    ++ paddings.content

/-- The paddings of a record that is written. -/
def nulPaddings (entry : Entry) : Paddings where
  name := nuls (paddingLength (fixedLength + entry.header.nameSize))
  content := nuls (paddingLength entry.header.contentSize)

/-- Writes an entry of an archive again: its header, with the size of its content, then the
content, then NUL bytes up to a multiple of four. -/
def rewrite (entry : Entry) : Except ArchiveError Bytes := do
  let header ← { entry.header with contentSize := entry.content.length }.encode
  return header ++ entry.content ++ nuls (paddingLength entry.content.length)

end Entry

/-- The paddings have the lengths that the record of the entry needs. -/
structure Paddings.Fit (paddings : Paddings) (entry : Entry) : Prop where
  length_name : paddings.name.length = paddingLength (fixedLength + entry.header.nameSize)
  length_content : paddings.content.length = paddingLength entry.header.contentSize

namespace Entry

theorem nulPaddings_fit (entry : Entry) : entry.nulPaddings.Fit entry :=
  ⟨length_nuls _, length_nuls _⟩

/-- **A record is what its entry spells**, up to its paddings. -/
theorem isRecord_iff {record : Bytes} {entry : Entry} :
    IsRecord record entry ↔
      entry.IsStorable ∧ ∃ paddings : Paddings, paddings.Fit entry ∧
        record = entry.spelled paddings := by
  constructor
  · rintro @⟨digits, header, content, namePadding, contentPadding, hfields, hname, hcontent,
      hpadding⟩
    obtain ⟨rfl, hnumbers⟩ := Field.forall₂_denotes_iff.1 hfields
    obtain ⟨hfits, hsize⟩ := Header.forall_numbers_le_iff.1 hnumbers
    refine ⟨⟨hfits, hsize, hcontent⟩, ⟨namePadding, contentPadding⟩, ⟨hname, hpadding⟩, ?_⟩
    simp [spelled, Header.fixedPart, List.flatMap_def, Function.comp_def]
  · rintro ⟨hstorable, paddings, hfit, rfl⟩
    obtain ⟨header, content⟩ := entry
    have hnumbers := Header.forall_numbers_le_iff.2 ⟨hstorable.fits, hstorable.nameSize_le⟩
    have hrecord := IsRecord.intro (Field.forall₂_denotes hnumbers) hfit.length_name
      hstorable.length_content hfit.length_content
    simpa [spelled, Header.fixedPart, List.flatMap_def, Function.comp_def] using hrecord

end Entry

/-- A record has one entry. -/
theorem IsRecord.unique {record : Bytes} {entry other : Entry} (h : IsRecord record entry)
    (hother : IsRecord record other) : entry = other := by
  have hread : ∀ entry, IsRecord record entry →
      readEntry ⟨0, record⟩ = .ok (entry, ⟨0 + record.length, []⟩) :=
    fun entry h => (readEntry_eq_ok_iff rfl).2 ⟨record, h, (List.append_nil _).symm, rfl⟩
  have heq := (hread entry h).symm.trans (hread other hother)
  exact congrArg Prod.fst (Except.ok.inj heq)

/-- Equal beginnings of equal length leave equal records, and equal paddings in them. -/
theorem Entry.spelled_append_inj {entry : Entry} {paddings others : Paddings} {rest otherRest : Bytes}
    (hfit : paddings.Fit entry) (hothers : others.Fit entry)
    (h : entry.spelled paddings ++ rest = entry.spelled others ++ otherRest) :
    paddings = others ∧ rest = otherRest := by
  have hname := hfit.length_name.trans hothers.length_name.symm
  have hcontent := hfit.length_content.trans hothers.length_content.symm
  simp only [spelled, List.append_assoc, List.append_cancel_left_eq] at h
  obtain ⟨hnames, h⟩ := List.append_inj h hname
  obtain ⟨hcontents, hrest⟩ := List.append_inj (List.append_cancel_left h) hcontent
  exact ⟨by cases paddings; cases others; cases hnames; cases hcontents; rfl, hrest⟩

/-! ## What is written for an entry -/

/-- An entry that is read can be written again, unless its name is empty, and then as itself with
NUL bytes for paddings. -/
theorem Entry.IsStorable.rewrite {entry : Entry} (h : entry.IsStorable) :
    entry.rewrite =
      if entry.header.name = [] then .error .emptyName
      else .ok (entry.spelled entry.nulPaddings) := by
  obtain ⟨header, content⟩ := entry
  have hsame : { header with contentSize := content.length } = header := by
    rw [h.length_content]
  unfold Entry.rewrite
  rw [hsame, h.length_content]
  by_cases hname : header.name = []
  · rw [if_pos hname, Header.encode, if_pos (List.isEmpty_iff.2 hname)]
    rfl
  · have hlength : header.name.length ≤ longestName := by
      have hsize : header.nameSize ≤ Field.largest := h.nameSize_le
      rw [Header.nameSize, Field.largest] at hsize
      rw [longestName, Field.largest]
      omega
    have hwritable : header.IsWritable := ⟨hname, hlength, h.fits⟩
    rw [if_neg hname, hwritable.encode, ok_bind, Header.image_eq]
    simp [spelled, nulPaddings, pure, Except.pure]

/-! ## Archives -/

/-- Writes the entries of an archive again, and a trailer behind them. -/
def rewriteAll (entries : List Entry) : Except ArchiveError Bytes := do
  let records ← entries.mapM Entry.rewrite
  return records.flatten ++ trailerRecord

/-- What the entries of an archive leave open: the paddings of their records, and the last record,
of which they know only the name. -/
structure Remainder where
  paddings : List Paddings
  last : Entry
  lastPaddings : Paddings

/-- The archive has a remainder like this. -/
structure Remainder.Fits (remainder : Remainder) (entries : List Entry) : Prop where
  paddings : List.Forall₂ Paddings.Fit remainder.paddings entries
  last : remainder.last.IsStorable
  name_last : remainder.last.header.name = trailerName
  lastPaddings : remainder.lastPaddings.Fit remainder.last

namespace Remainder

/-- The archive of the entries with this remainder. -/
def archive (remainder : Remainder) (entries : List Entry) : Bytes :=
  (List.zipWith Entry.spelled entries remainder.paddings).flatten
    ++ remainder.last.spelled remainder.lastPaddings

/-- The remainder of an archive that is written: NUL bytes, and the trailer. -/
def written (entries : List Entry) : Remainder where
  paddings := entries.map Entry.nulPaddings
  last := ⟨.trailer, []⟩
  lastPaddings := Entry.nulPaddings ⟨.trailer, []⟩

theorem written_fits (entries : List Entry) : (written entries).Fits entries where
  paddings := by
    rw [written, List.forall₂_map_left_iff, List.forall₂_same]
    exact fun entry _ => entry.nulPaddings_fit
  last := (Entry.isRecord_iff.1 isRecord_trailer).1
  name_last := rfl
  lastPaddings := Entry.nulPaddings_fit _

end Remainder

/-- Records are what their entries spell. -/
theorem forall₂_isRecord_iff {records : List Bytes} {entries : List Entry} :
    List.Forall₂ IsRecord records entries ↔
      (∀ entry ∈ entries, entry.IsStorable) ∧ ∃ paddings, List.Forall₂ Paddings.Fit paddings entries ∧
        records = List.zipWith Entry.spelled entries paddings := by
  constructor
  · intro h
    induction h with
    | nil => exact ⟨nofun, [], .nil, rfl⟩
    | @cons record entry records entries hrecord _ ih =>
      obtain ⟨hentry, padding, hfit, rfl⟩ := Entry.isRecord_iff.1 hrecord
      obtain ⟨hentries, paddings, hfits, rfl⟩ := ih
      exact ⟨List.forall_mem_cons.2 ⟨hentry, hentries⟩, padding :: paddings, .cons hfit hfits, rfl⟩
  · rintro ⟨hentries, paddings, hfits, rfl⟩
    induction hfits with
    | nil => exact .nil
    | cons hfit _ ih =>
      obtain ⟨hentry, hentries⟩ := List.forall_mem_cons.1 hentries
      exact .cons (Entry.isRecord_iff.2 ⟨hentry, _, hfit, rfl⟩) (ih hentries)

/-- **An archive is its entries and a remainder.** -/
theorem isArchive_iff {archive : Bytes} {entries : List Entry} :
    IsArchive archive entries ↔
      (∀ entry ∈ entries, entry.IsStorable ∧ entry.header.name ≠ trailerName) ∧
        ∃ remainder : Remainder, remainder.Fits entries ∧ archive = remainder.archive entries := by
  constructor
  · rintro ⟨records, trailer, last, rfl, hrecords, hnames, htrailer, hlast⟩
    obtain ⟨hentries, paddings, hfits, rfl⟩ := forall₂_isRecord_iff.1 hrecords
    obtain ⟨hstorable, lastPaddings, hfit, rfl⟩ := Entry.isRecord_iff.1 htrailer
    exact ⟨fun entry hmem => ⟨hentries entry hmem, hnames entry hmem⟩,
      ⟨paddings, last, lastPaddings⟩, ⟨hfits, hstorable, hlast, hfit⟩, rfl⟩
  · rintro ⟨hentries, remainder, hfits, rfl⟩
    exact ⟨_, _, remainder.last, rfl,
      forall₂_isRecord_iff.2 ⟨fun entry hmem => (hentries entry hmem).1, _, hfits.paddings, rfl⟩,
      fun entry hmem => (hentries entry hmem).2,
      Entry.isRecord_iff.2 ⟨hfits.last, _, hfits.lastPaddings, rfl⟩, hfits.name_last⟩

/-- Equal records of the same entries have equal paddings. -/
theorem spelled_flatten_inj {entries : List Entry} {paddings others : List Paddings}
    {rest otherRest : Bytes} (hfits : List.Forall₂ Paddings.Fit paddings entries)
    (hothers : List.Forall₂ Paddings.Fit others entries)
    (h : (List.zipWith Entry.spelled entries paddings).flatten ++ rest =
      (List.zipWith Entry.spelled entries others).flatten ++ otherRest) :
    paddings = others ∧ rest = otherRest := by
  induction hfits generalizing others with
  | nil =>
    cases hothers
    exact ⟨rfl, h⟩
  | cons hfit _ ih =>
    cases hothers with
    | cons hother hothers =>
      simp only [List.zipWith_cons_cons, List.flatten_cons, List.append_assoc] at h
      obtain ⟨rfl, htail⟩ := Entry.spelled_append_inj hfit hother h
      obtain ⟨rfl, hrest⟩ := ih hothers htail
      exact ⟨rfl, hrest⟩

/-- **An archive has one remainder.** -/
theorem Remainder.archive_inj {entries : List Entry} {remainder other : Remainder}
    (hfits : remainder.Fits entries) (hother : other.Fits entries)
    (h : remainder.archive entries = other.archive entries) : remainder = other := by
  obtain ⟨hpaddings, hlast⟩ := spelled_flatten_inj hfits.paddings hother.paddings h
  obtain ⟨paddings, last, lastPaddings⟩ := remainder
  obtain ⟨others, otherLast, otherPaddings⟩ := other
  dsimp only at hpaddings hlast
  have hrecord : IsRecord (last.spelled lastPaddings) last :=
    Entry.isRecord_iff.2 ⟨hfits.last, _, hfits.lastPaddings, rfl⟩
  have hotherRecord : IsRecord (last.spelled lastPaddings) otherLast :=
    Entry.isRecord_iff.2 ⟨hother.last, _, hother.lastPaddings, hlast⟩
  obtain rfl := hrecord.unique hotherRecord
  obtain ⟨rfl, -⟩ := Entry.spelled_append_inj hfits.lastPaddings hother.lastPaddings
    (congrArg (· ++ []) hlast)
  rw [hpaddings]

/-- What is written for the entries of an archive: the archive of the same entries with the
remainder that is written.  An empty name is refused. -/
theorem rewriteAll_eq {entries : List Entry} (h : ∀ entry ∈ entries, entry.IsStorable) :
    rewriteAll entries =
      if ∀ entry ∈ entries, entry.header.name ≠ [] then
        .ok ((Remainder.written entries).archive entries)
      else .error .emptyName := by
  have hrecords : entries.mapM Entry.rewrite =
      if ∀ entry ∈ entries, entry.header.name ≠ [] then
        .ok (List.zipWith Entry.spelled entries (entries.map Entry.nulPaddings))
      else .error .emptyName := by
    induction entries with
    | nil => rfl
    | cons entry entries ih =>
      obtain ⟨hentry, hentries⟩ := List.forall_mem_cons.1 h
      rw [List.mapM_cons, hentry.rewrite, ih hentries]
      by_cases hname : entry.header.name = []
      · have hnot : ¬ ∀ other ∈ entry :: entries, other.header.name ≠ [] :=
          fun hall => hall entry List.mem_cons_self hname
        rw [if_pos hname, if_neg hnot]
        rfl
      · simp only [List.forall_mem_cons, hname, ne_eq, not_false_eq_true, true_and, if_false]
        split <;> rfl
  have htrailer : Entry.spelled ⟨.trailer, []⟩ (Entry.nulPaddings ⟨.trailer, []⟩) =
      trailerRecord := by
    rw [trailerRecord, Header.image_eq]
    simp [Entry.spelled, Entry.nulPaddings, Header.trailer, paddingLength, nuls]
  rw [rewriteAll, hrecords, Remainder.archive, Remainder.written, htrailer]
  split <;> rfl

/-- **When an archive is what its entries are written as.**  Besides its entries an archive has a
remainder: the paddings and the last record.  Writing the entries again fails if and only if a name
is empty.  Else it gives the archive that has the same entries and, for its remainder, NUL bytes and
the trailer; so it gives the archive that was read if and only if this is the remainder of that. -/
theorem readArchive_rewrite {archive : Bytes} {entries : List Entry}
    (h : readArchive archive = .ok entries) :
    ∃ remainder : Remainder, remainder.Fits entries ∧ archive = remainder.archive entries ∧
      (rewriteAll entries = .ok archive ↔
        (∀ entry ∈ entries, entry.header.name ≠ []) ∧ remainder = .written entries) ∧
      rewriteAll entries =
        if ∀ entry ∈ entries, entry.header.name ≠ [] then
          .ok ((Remainder.written entries).archive entries)
        else .error .emptyName := by
  obtain ⟨hentries, remainder, hfits, rfl⟩ := isArchive_iff.1 (readArchive_eq_ok_iff.1 h)
  have hrewrite := rewriteAll_eq (fun entry hmem => (hentries entry hmem).1)
  refine ⟨remainder, hfits, rfl, ?_, hrewrite⟩
  rw [hrewrite]
  constructor
  · intro hsame
    split at hsame
    next hnames =>
      have harchive := (Except.ok.inj hsame).symm
      exact ⟨hnames, Remainder.archive_inj hfits (Remainder.written_fits entries) harchive⟩
    next => cases hsame
  · rintro ⟨hnames, rfl⟩
    rw [if_pos hnames]

/-- An archive whose paddings hold other bytes is read, but is not what its entry is written as. -/
theorem readArchive_rewrite_paddings :
    let header : Header := ⟨1, 0o100644, 0, 0, 1, 0, 1, 0, 0, 0, 0, [97]⟩
    let archive := header.image ++ [120] ++ [1, 2, 3] ++ trailerRecord
    readArchive archive = .ok [⟨header, [120]⟩] ∧
      ∃ remainder : Remainder, remainder.Fits [⟨header, [120]⟩] ∧
        archive = remainder.archive [⟨header, [120]⟩] ∧ remainder ≠ .written [⟨header, [120]⟩] := by
  intro header archive
  have hread : readArchive archive = .ok [⟨header, [120]⟩] := by decide +kernel
  have hrewrite : rewriteAll [⟨header, [120]⟩] ≠ .ok archive := by decide +kernel
  obtain ⟨remainder, hfits, harchive, hsame, -⟩ := readArchive_rewrite hread
  refine ⟨hread, remainder, hfits, harchive, fun hwritten => hrewrite (hsame.2 ⟨?_, hwritten⟩)⟩
  decide

/-- **An archive that is read need not be what its entries are written as.** -/
theorem rewrite_differs :
    ¬ ∀ archive entries, readArchive archive = .ok entries → rewriteAll entries = .ok archive := by
  intro hall
  let header : Header := ⟨1, 0o100644, 0, 0, 1, 0, 1, 0, 0, 0, 0, [97]⟩
  have hread : readArchive (header.image ++ [120] ++ [1, 2, 3] ++ trailerRecord) =
      .ok [⟨header, [120]⟩] := by decide +kernel
  have hrewrite : rewriteAll [⟨header, [120]⟩] ≠
      .ok (header.image ++ [120] ++ [1, 2, 3] ++ trailerRecord) := by decide +kernel
  exact hrewrite (hall _ _ hread)

end CpioArchive.Newc
