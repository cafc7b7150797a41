import CpioArchive.Proofs.Grammar
import CpioArchive.Proofs.Records

/-!
# Reading back what was written

What the encoder writes for an entry is a record, with NUL bytes for paddings.

* `Header.isRecord_image` — a header that can be written, and a content of the size in it;
* `readEntries_records` — records and the trailer give their entries, if no entry has the name of
  the trailer;
* `readEntries_trailerName` — if one has, the archive cannot be read.
-/

namespace CpioArchive

open Newc

namespace Newc

theorem Field.forall₂_denotes {numbers : List Nat} (h : ∀ n ∈ numbers, n ≤ largest) :
    List.Forall₂ Denotes (numbers.map encode) numbers := by
  rw [List.forall₂_map_left_iff, List.forall₂_same]
  exact fun n hn => denotes_encode (h n hn)

namespace Header

theorem IsWritable.nameSize_le {h : Header} (hwritable : h.IsWritable) :
    h.nameSize ≤ Field.largest := by
  have hname := hwritable.length_name_le
  rw [longestName, Field.largest] at hname
  rw [nameSize, Field.largest]
  omega

/-- The numbers in the fields of a header fit, all thirteen of them. -/
theorem forall_numbers_le_iff {h : Header} :
    (∀ n ∈ h.fields.map (·.2) ++ [h.nameSize, 0], n ≤ Field.largest) ↔
      h.Fits ∧ h.nameSize ≤ Field.largest := by
  simp only [List.forall_mem_append, List.forall_mem_map, List.forall_mem_cons, Fits]
  constructor
  · rintro ⟨hfits, hsize, -⟩
    exact ⟨hfits, hsize⟩
  · rintro ⟨hfits, hsize⟩
    exact ⟨hfits, hsize, Nat.zero_le _, List.forall_mem_nil _⟩

/-- **What is written of a header, its content and the padding are a record.** -/
theorem isRecord_image {h : Header} (hwritable : h.IsWritable) {content : Bytes}
    (hcontent : content.length = h.contentSize) :
    IsRecord (h.image ++ content ++ nuls (paddingLength h.contentSize)) ⟨h, content⟩ := by
  have hnumbers := forall_numbers_le_iff.2 ⟨hwritable.fits, hwritable.nameSize_le⟩
  have hrecord := IsRecord.intro (Field.forall₂_denotes hnumbers) (length_nuls _) hcontent
    (length_nuls _)
  rw [image_eq, fixedPart]
  simpa [List.flatMap_def, Function.comp_def] using hrecord

end Header

/-! ## Whole archives -/

theorem isWritable_trailer : Header.trailer.IsWritable where
  name_ne_nil := nofun
  length_name_le := by decide
  fits := by
    rw [Header.Fits]
    decide

theorem isRecord_trailer : IsRecord trailerRecord ⟨.trailer, []⟩ := by
  have hcontent : ([] : Bytes).length = Header.trailer.contentSize := rfl
  have hrecord := Header.isRecord_image isWritable_trailer hcontent
  rwa [List.append_nil, show nuls (paddingLength Header.trailer.contentSize) = [] from rfl,
    List.append_nil] at hrecord

theorem trailerRecord_ne_nil : trailerRecord ≠ [] := by
  intro hnil
  have hlength := Header.trailer.length_image
  rw [← trailerRecord, hnil, List.length_nil, fixedLength] at hlength
  omega

end Newc

namespace Record

/-- The record as a reader of the archive sees it. -/
def entry (record : Record) : Entry := ⟨record.header, record.body⟩

theorem isRecord_bytes {record : Record} (hwritable : record.header.IsWritable) :
    IsRecord record.bytes record.entry :=
  Header.isRecord_image hwritable (length_fitted _ _)

/-- Records and the trailer are an archive, if no record has the name of the trailer. -/
theorem isArchive_records {records : List Record}
    (hwritable : ∀ record ∈ records, record.header.IsWritable)
    (hnames : ∀ record ∈ records, record.name ≠ trailerName) :
    IsArchive ((records.map bytes).flatten ++ trailerRecord) (records.map entry) := by
  induction records with
  | nil => exact .trailer isRecord_trailer rfl
  | cons record records ih =>
    obtain ⟨hrecord, hrecords⟩ := List.forall_mem_cons.1 hwritable
    obtain ⟨hname, hrest⟩ := List.forall_mem_cons.1 hnames
    rw [List.map_cons, List.flatten_cons, List.append_assoc]
    exact .cons (isRecord_bytes hrecord) hname (ih hrecords hrest)

/-- **An archive gives its entries back**, if none of them has the name of the trailer. -/
theorem readEntries_records {records : List Record}
    (hwritable : ∀ record ∈ records, record.header.IsWritable)
    (hnames : ∀ record ∈ records, record.name ≠ trailerName) {offset : Nat}
    (hoffset : offset % alignment = 0) :
    readEntries ⟨offset, (records.map bytes).flatten ++ trailerRecord⟩ =
      .ok (records.map entry) :=
  (isArchive_records hwritable hnames).readEntries hoffset

/-- **An archive in which an entry has the name of the trailer cannot be read.** -/
theorem readEntries_trailerName {records : List Record}
    (hwritable : ∀ record ∈ records, record.header.IsWritable)
    (hname : ∃ record ∈ records, record.name = trailerName) {offset : Nat}
    (hoffset : offset % alignment = 0) :
    ∃ e, readEntries ⟨offset, (records.map bytes).flatten ++ trailerRecord⟩ = .error e := by
  induction records generalizing offset with
  | nil =>
    obtain ⟨record, hmem, -⟩ := hname
    cases hmem
  | cons record records ih =>
    obtain ⟨hrecord, hrecords⟩ := List.forall_mem_cons.1 hwritable
    rw [List.map_cons, List.flatten_cons, List.append_assoc]
    by_cases htrailer : record.entry.header.name = trailerName
    · -- At least the trailer itself still follows.
      have hmore : (records.map bytes).flatten ++ trailerRecord ≠ [] :=
        fun hnil => trailerRecord_ne_nil (List.append_eq_nil_iff.1 hnil).2
      rw [(IsArchive.trailer (isRecord_bytes hrecord) htrailer).readEntries_append hoffset,
        if_neg (mt List.isEmpty_iff.1 hmore)]
      exact ⟨_, rfl⟩
    · have hrest : ∃ record ∈ records, record.name = trailerName := by
        obtain ⟨other, hmem, hother⟩ := hname
        rcases List.mem_cons.1 hmem with rfl | hmem
        · exact absurd hother htrailer
        · exact ⟨other, hmem, hother⟩
      have hread : readEntry ⟨offset, record.bytes ++ ((records.map bytes).flatten ++
          trailerRecord)⟩ = .ok (record.entry, ⟨offset + record.bytes.length, _⟩) :=
        (readEntry_eq_ok_iff hoffset).2 ⟨_, isRecord_bytes hrecord, rfl, rfl⟩
      obtain ⟨e, he⟩ := ih hrecords hrest (offset_mod_of_readEntry hoffset hread)
      rw [readEntries_of_readEntry hread, if_neg htrailer, he]
      exact ⟨e, rfl⟩

end Record

end CpioArchive
