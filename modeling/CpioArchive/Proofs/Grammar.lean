import Mathlib.Data.List.Forall2
import CpioArchive.Proofs.Headers

/-!
# The grammar of archives

What an archive is, said without a reader: records one after the other, of which the last one and
no other has the name of the trailer.

* `Field.Denotes` — a field of eight digits and the number in it;
* `IsRecord` — a record and the entry in it; the bytes of its paddings are free;
* `IsArchive` — an archive and its entries;
* `readFixed_eq_ok_iff`, `readEntry_eq_ok_iff` — the reader takes records, and nothing else;
* `readArchive_grammar` — it accepts archives, and nothing else; neither what is left of an archive
  when its end is cut off nor an archive with more behind it is one.
-/

namespace CpioArchive.Newc

/-! ## Fields -/

namespace Field

/-- A lower-case hexadecimal digit. -/
def IsDigit (b : UInt8) : Prop := (48 ≤ b ∧ b ≤ 57) ∨ (97 ≤ b ∧ b ≤ 102)

/-- The number below 16 that a hexadecimal digit stands for. -/
def digitNumber (b : UInt8) : Nat := if b ≤ 57 then b.toNat - 48 else b.toNat - 87

/-- The number that digits denote in base 16, most significant digit first. -/
def numeral (digits : Bytes) : Nat := digits.foldl (fun n b => n * 16 + digitNumber b) 0

/-- The digits are a field that holds the number. -/
structure Denotes (digits : Bytes) (n : Nat) : Prop where
  length_eq : digits.length = width
  isDigit : ∀ b ∈ digits, IsDigit b
  numeral_eq : numeral digits = n

theorem digitValue?_eq_some_iff {b : UInt8} {d : Nat} :
    digitValue? b = some d ↔ IsDigit b ∧ digitNumber b = d := by
  rw [digitValue?, IsDigit, digitNumber]
  by_cases hdecimal : 48 ≤ b ∧ b ≤ 57
  · simp [hdecimal]
  · by_cases hletter : 97 ≤ b ∧ b ≤ 102
    · have hlarge : ¬ b ≤ 57 := by
        have := hletter.1
        rw [UInt8.le_iff_toNat_le] at this ⊢
        simp only [UInt8.reduceToNat] at this ⊢
        omega
      simp [hletter, hlarge]
    · simp [hdecimal, hletter]

theorem mapM_digitValue?_eq_some_iff {digits : Bytes} {values : List Nat} :
    digits.mapM digitValue? = some values ↔
      (∀ b ∈ digits, IsDigit b) ∧ digits.map digitNumber = values := by
  induction digits generalizing values with
  | nil => simp
  | cons b digits ih =>
    rw [List.mapM_cons]
    simp only [Option.bind_eq_bind, Option.bind_eq_some_iff, digitValue?_eq_some_iff, ih,
      Option.pure_def, Option.some.injEq, List.forall_mem_cons, List.map_cons]
    constructor
    · rintro ⟨_, ⟨hb, rfl⟩, _, ⟨hdigits, rfl⟩, rfl⟩
      exact ⟨⟨hb, hdigits⟩, rfl⟩
    · rintro ⟨⟨hb, hdigits⟩, rfl⟩
      exact ⟨_, ⟨hb, rfl⟩, _, ⟨hdigits, rfl⟩, rfl⟩

/-- What is read from digits is the number that they denote. -/
theorem decode?_eq_some_iff {digits : Bytes} {n : Nat} :
    decode? digits = some n ↔ (∀ b ∈ digits, IsDigit b) ∧ numeral digits = n := by
  rw [decode?, Option.map_eq_some_iff]
  simp only [mapM_digitValue?_eq_some_iff, numeral]
  constructor
  · rintro ⟨_, ⟨hdigits, rfl⟩, rfl⟩
    exact ⟨hdigits, by rw [List.foldl_map]⟩
  · rintro ⟨hdigits, rfl⟩
    exact ⟨_, ⟨hdigits, rfl⟩, by rw [List.foldl_map]⟩

/-- A field that is written denotes the number it was made of. -/
theorem denotes_encode {n : Nat} (h : n ≤ largest) : Denotes (encode n) n := by
  obtain ⟨hdigits, hnumeral⟩ := decode?_eq_some_iff.1 (decode?_encode h)
  exact ⟨length_encode n, hdigits, hnumeral⟩

end Field

/-- **One field is read** if and only if it is there. -/
theorem readField_eq_ok_iff {bytes rest : Bytes} {n : Nat} (hlength : Field.width ≤ bytes.length) :
    readField bytes = .ok (n, rest) ↔ ∃ digits, bytes = digits ++ rest ∧ Field.Denotes digits n := by
  have hwidth : (bytes.take Field.width).length = Field.width := List.length_take_of_le hlength
  rw [readField]
  constructor
  · intro hread
    cases hdecode : Field.decode? (bytes.take Field.width) with
    | none =>
      rw [hdecode] at hread
      cases hread
    | some value =>
      rw [hdecode] at hread
      cases hread
      obtain ⟨hdigits, hnumeral⟩ := Field.decode?_eq_some_iff.1 hdecode
      exact ⟨_, (List.take_append_drop _ _).symm, hwidth, hdigits, hnumeral⟩
  · rintro ⟨digits, rfl, hdigits⟩
    rw [List.take_left' hdigits.length_eq, List.drop_left' hdigits.length_eq,
      Field.decode?_eq_some_iff.2 ⟨hdigits.isDigit, hdigits.numeral_eq⟩]

/-- Reads fields one after the other. -/
def readFields : Nat → Bytes → Except ReadError (List Nat × Bytes)
  | 0, bytes => .ok ([], bytes)
  | count + 1, bytes => do
    let (value, bytes) ← readField bytes
    let (values, bytes) ← readFields count bytes
    return (value :: values, bytes)

/-- **Fields are read** if and only if they are there. -/
theorem readFields_eq_ok_iff {count : Nat} {bytes rest : Bytes} {values : List Nat}
    (hlength : count * Field.width ≤ bytes.length) :
    readFields count bytes = .ok (values, rest) ↔
      values.length = count ∧ ∃ digits : List Bytes,
        bytes = digits.flatten ++ rest ∧ List.Forall₂ Field.Denotes digits values := by
  induction count generalizing bytes values with
  | zero =>
    rw [readFields]
    constructor
    · intro hread
      cases hread
      exact ⟨rfl, [], rfl, .nil⟩
    · rintro ⟨hvalues, digits, rfl, hdigits⟩
      obtain rfl := List.eq_nil_of_length_eq_zero hvalues
      cases hdigits
      rfl
  | succ count ih =>
    rw [Nat.add_mul, Nat.one_mul] at hlength
    have hfirst : Field.width ≤ bytes.length := by omega
    rw [readFields]
    constructor
    · intro hread
      obtain ⟨⟨value, next⟩, hvalue, hread⟩ := eq_ok_of_bind hread
      obtain ⟨⟨others, last⟩, hothers, hread⟩ := eq_ok_of_bind hread
      cases hread
      obtain ⟨first, rfl, hdenotes⟩ := (readField_eq_ok_iff hfirst).1 hvalue
      rw [List.length_append, hdenotes.length_eq] at hlength
      obtain ⟨hcount, digits, rfl, hdigits⟩ := (ih (by omega)).1 hothers
      exact ⟨by rw [List.length_cons, hcount], first :: digits,
        by rw [List.flatten_cons, List.append_assoc], .cons hdenotes hdigits⟩
    · rintro ⟨hcount, digits, rfl, hdigits⟩
      cases hdigits with
      | nil => cases hcount
      | @cons first value digits others hdenotes hdigits =>
        rw [List.flatten_cons, List.append_assoc] at hfirst hlength ⊢
        rw [List.length_append, hdenotes.length_eq] at hlength
        rw [(readField_eq_ok_iff hfirst).2 ⟨first, rfl, hdenotes⟩, ok_bind]
        dsimp only
        rw [(ih (by omega)).2 ⟨Nat.succ.inj hcount, digits, rfl, hdigits⟩]
        rfl

theorem length_flatten_of_denotes {digits : List Bytes} {values : List Nat}
    (h : List.Forall₂ Field.Denotes digits values) :
    digits.flatten.length = values.length * Field.width := by
  induction h with
  | nil => rfl
  | cons hfirst _ ih =>
    rw [List.flatten_cons, List.length_append, hfirst.length_eq, ih, List.length_cons, Nat.add_mul,
      Nat.one_mul, Nat.add_comm]

/-! ## The fixed part of a header -/

/-- The header, still without a name, and the name size that the numbers of its fields make up. -/
def headerOf : List Nat → Except ReadError (Header × Nat)
  | [inode, mode, uid, gid, linkCount, modificationTime, contentSize, deviceMajor, deviceMinor,
      specialMajor, specialMinor, nameSize, check] =>
    if check ≠ 0 then .error (.nonzeroCheck check)
    else if nameSize = 0 then .error .nameSizeZero
    else
      .ok (⟨inode, mode, uid, gid, linkCount, modificationTime, contentSize, deviceMajor,
        deviceMinor, specialMajor, specialMinor, []⟩, nameSize)
  -- Only lists of thirteen numbers are ever given.
  | values => .error (.truncated values.length)

theorem readFixed_eq (offset : Nat) (bytes : Bytes) :
    readFixed offset bytes =
      if bytes.take magic.length ≠ magic then .error (.badMagic offset)
      else readFields 13 (bytes.drop magic.length) >>= fun read => headerOf read.1 := by
  simp only [readFixed, readFields, headerOf, bind_assoc, pure_bind, ok_bind]
  rfl

theorem headerOf_eq_ok_iff {values : List Nat} {header : Header} {nameSize : Nat} :
    headerOf values = .ok (header, nameSize) ↔
      header.name = [] ∧ nameSize ≠ 0 ∧ values = header.fields.map (·.2) ++ [nameSize, 0] := by
  constructor
  · intro h
    unfold headerOf at h
    repeat' split at h
    all_goals cases h
    next hcheck hsize => exact ⟨rfl, hsize, by rw [Decidable.not_not.1 hcheck]; rfl⟩
  · rintro ⟨hname, hsize, rfl⟩
    obtain ⟨_, _, _, _, _, _, _, _, _, _, _, name⟩ := header
    obtain rfl : name = [] := hname
    simp [headerOf, Header.fields, hsize]

/-- **The fixed part of a header is read** if and only if it is the magic number and thirteen
fields, of which the last holds zero and the one before it does not. -/
theorem readFixed_eq_ok_iff {offset : Nat} {bytes : Bytes} {header : Header} {nameSize : Nat}
    (hlength : bytes.length = fixedLength) :
    readFixed offset bytes = .ok (header, nameSize) ↔
      header.name = [] ∧ nameSize ≠ 0 ∧ ∃ digits : List Bytes,
        bytes = magic ++ digits.flatten ∧
          List.Forall₂ Field.Denotes digits (header.fields.map (·.2) ++ [nameSize, 0]) := by
  have hrest : 13 * Field.width = (bytes.drop magic.length).length := by
    rw [List.length_drop, hlength]
    rfl
  rw [readFixed_eq]
  constructor
  · intro hread
    split at hread
    · cases hread
    next hmagic =>
      obtain ⟨⟨values, rest⟩, hvalues, hheader⟩ := eq_ok_of_bind hread
      obtain ⟨hcount, digits, hdigits, hdenotes⟩ :=
        (readFields_eq_ok_iff (Nat.le_of_eq hrest)).1 hvalues
      obtain ⟨hname, hsize, rfl⟩ := headerOf_eq_ok_iff.1 hheader
      refine ⟨hname, hsize, digits, ?_, hdenotes⟩
      have hflatten := length_flatten_of_denotes hdenotes
      rw [hcount, hrest, hdigits, List.length_append] at hflatten
      obtain rfl : rest = [] := List.eq_nil_of_length_eq_zero (by omega)
      rw [List.append_nil] at hdigits
      have hparts := List.take_append_drop magic.length bytes
      rw [Decidable.not_not.1 hmagic, hdigits] at hparts
      exact hparts.symm
  · rintro ⟨hname, hsize, digits, rfl, hdenotes⟩
    rw [List.drop_left] at hrest
    rw [List.take_left, List.drop_left, if_neg (fun hne => hne rfl),
      (readFields_eq_ok_iff (Nat.le_of_eq hrest)).2 ⟨rfl, digits, (List.append_nil _).symm, hdenotes⟩,
      ok_bind]
    exact headerOf_eq_ok_iff.2 ⟨hname, hsize, rfl⟩

/-! ## Records -/

/-- `IsRecord record entry` says that the bytes are a record with this entry in it: the magic
number and thirteen fields, the last of which holds zero; the name and a NUL byte, both counted in
the field before it; bytes up to a multiple of four; the content, and again bytes up to a multiple
of four. -/
inductive IsRecord : Bytes → Entry → Prop
  | intro {digits : List Bytes} {header : Header} {content namePadding contentPadding : Bytes}
      (hfields : List.Forall₂ Field.Denotes digits
        (header.fields.map (·.2) ++ [header.nameSize, 0]))
      (hname : namePadding.length = paddingLength (fixedLength + header.nameSize))
      (hcontent : content.length = header.contentSize)
      (hpadding : contentPadding.length = paddingLength header.contentSize) :
      IsRecord (magic ++ digits.flatten ++ (header.name ++ [nul]) ++ namePadding ++ content
        ++ contentPadding) ⟨header, content⟩

/-- The bytes are an archive with these entries: a record for each of them, in order, and then one
more.  That one has the name of the trailer, and no other has. -/
def IsArchive (archive : Bytes) (entries : List Entry) : Prop :=
  ∃ (records : List Bytes) (trailer : Bytes) (last : Entry),
    archive = records.flatten ++ trailer ∧ List.Forall₂ IsRecord records entries ∧
      (∀ entry ∈ entries, entry.header.name ≠ trailerName) ∧ IsRecord trailer last ∧
      last.header.name = trailerName

/-- A record ends on a multiple of four. -/
theorem IsRecord.length_mod {record : Bytes} {entry : Entry} (h : IsRecord record entry) :
    record.length % alignment = 0 := by
  obtain @⟨digits, header, content, namePadding, contentPadding, hfields, hname, hcontent, hpadding⟩ :=
    h
  have hfixed : (magic ++ digits.flatten).length = fixedLength := by
    rw [List.length_append, length_flatten_of_denotes hfields]
    rfl
  have hheader := add_paddingLength_mod (fixedLength + header.nameSize)
  have hend := add_paddingLength_mod header.contentSize
  have hsize : (header.name ++ [nul]).length = header.nameSize := List.length_append
  rw [List.length_append, List.length_append, List.length_append, List.length_append, hfixed,
    hsize, hname, hcontent, hpadding]
  rw [alignment] at hheader hend ⊢
  omega

theorem Cursor.take_eq_ok_iff {cursor next : Cursor} {count : Nat} {taken : Bytes} :
    cursor.take count = .ok (taken, next) ↔
      taken.length = count ∧ cursor.rest = taken ++ next.rest ∧
        next.offset = cursor.offset + count := by
  rw [take]
  constructor
  · intro h
    split at h
    next hlength =>
      cases h
      exact ⟨hlength, (List.take_append_drop _ _).symm, rfl⟩
    · cases h
  · rintro ⟨rfl, hrest, hoffset⟩
    rw [hrest, List.take_left, List.drop_left, if_pos rfl, ← hoffset]

/-- Taking the bytes at the front of the rest. -/
theorem Cursor.take_append {taken : Bytes} {count : Nat} (h : taken.length = count)
    (offset : Nat) (rest : Bytes) :
    (Cursor.mk offset (taken ++ rest)).take count = .ok (taken, ⟨offset + count, rest⟩) :=
  take_eq_ok_iff.2 ⟨h, rfl, rfl⟩

theorem Cursor.skipPadding_eq_ok_iff {cursor next : Cursor} :
    cursor.skipPadding = .ok next ↔
      ∃ padding : Bytes, padding.length = paddingLength cursor.offset ∧
        cursor.rest = padding ++ next.rest ∧ next.offset = cursor.offset + padding.length := by
  rw [skipPadding]
  constructor
  · intro h
    rcases htake : cursor.take (paddingLength cursor.offset) with _ | ⟨padding, place⟩ <;>
      rw [htake] at h <;> cases h
    obtain ⟨hlength, hrest, hoffset⟩ := take_eq_ok_iff.1 htake
    exact ⟨padding, hlength, hrest, by rw [hoffset, hlength]⟩
  · rintro ⟨padding, hlength, hrest, hoffset⟩
    rw [hlength] at hoffset
    rw [take_eq_ok_iff.2 ⟨hlength, hrest, hoffset⟩]
    rfl

theorem Cursor.skipPadding_append {padding : Bytes} {offset : Nat}
    (h : padding.length = paddingLength offset) (rest : Bytes) :
    (Cursor.mk offset (padding ++ rest)).skipPadding =
      .ok ⟨offset + padding.length, rest⟩ :=
  skipPadding_eq_ok_iff.2 ⟨padding, h, rfl, rfl⟩

theorem readName_eq_ok_iff {field name : Bytes} :
    readName field = .ok name ↔ field = name ++ [nul] := by
  rw [readName]
  constructor
  · intro h
    split at h
    next hlast =>
      cases h
      exact (List.dropLast_append_getLast? _ hlast).symm
    · cases h
  · rintro rfl
    rw [List.getLast?_concat, if_pos rfl, List.dropLast_concat]

/-- The paddings of a record, from offsets in the archive and from lengths in the record. -/
theorem paddingLength_offsets {offset : Nat} (haligned : offset % alignment = 0)
    (nameSize contentSize : Nat) :
    paddingLength (offset + fixedLength + nameSize) = paddingLength (fixedLength + nameSize) ∧
      paddingLength (offset + fixedLength + nameSize + paddingLength (fixedLength + nameSize)
        + contentSize) = paddingLength contentSize := by
  have hheader := add_paddingLength_mod (fixedLength + nameSize)
  have hstart : (offset + fixedLength + nameSize + paddingLength (fixedLength + nameSize)) %
      alignment = 0 := by
    rw [alignment] at haligned hheader ⊢
    omega
  exact ⟨by rw [Nat.add_assoc, paddingLength_add haligned], paddingLength_add hstart contentSize⟩

/-- **The reader takes a record**, and nothing else, and takes it whole. -/
theorem readEntry_eq_ok_iff {cursor next : Cursor} {entry : Entry}
    (haligned : cursor.offset % alignment = 0) :
    readEntry cursor = .ok (entry, next) ↔
      ∃ record, IsRecord record entry ∧ cursor.rest = record ++ next.rest ∧
        next.offset = cursor.offset + record.length := by
  rw [readEntry, if_neg (fun hne => hne haligned)]
  constructor
  · intro hread
    obtain ⟨⟨fixed, afterFixed⟩, hfixed, hread⟩ := eq_ok_of_bind hread
    obtain ⟨⟨header, nameSize⟩, hheader, hread⟩ := eq_ok_of_bind hread
    obtain ⟨⟨nameField, afterName⟩, hnameField, hread⟩ := eq_ok_of_bind hread
    obtain ⟨name, hname, hread⟩ := eq_ok_of_bind hread
    obtain ⟨contentStart, hnamePadding, hread⟩ := eq_ok_of_bind hread
    obtain ⟨⟨content, contentEnd⟩, hcontent, hread⟩ := eq_ok_of_bind hread
    obtain ⟨recordEnd, hcontentPadding, hread⟩ := eq_ok_of_bind hread
    cases hread
    obtain ⟨hfixedLength, hrest₁, hoffset₁⟩ := Cursor.take_eq_ok_iff.1 hfixed
    obtain ⟨-, -, digits, rfl, hdigits⟩ := (readFixed_eq_ok_iff hfixedLength).1 hheader
    obtain ⟨hnameLength, hrest₂, hoffset₂⟩ := Cursor.take_eq_ok_iff.1 hnameField
    obtain rfl := readName_eq_ok_iff.1 hname
    obtain ⟨namePadding, hnamePadding, hrest₃, hoffset₃⟩ :=
      Cursor.skipPadding_eq_ok_iff.1 hnamePadding
    obtain ⟨hcontentLength, hrest₄, hoffset₄⟩ := Cursor.take_eq_ok_iff.1 hcontent
    obtain ⟨contentPadding, hcontentPadding, hrest₅, hoffset₅⟩ :=
      Cursor.skipPadding_eq_ok_iff.1 hcontentPadding
    obtain ⟨hpadding₁, hpadding₂⟩ := paddingLength_offsets haligned nameSize header.contentSize
    rw [hoffset₂, hoffset₁, hpadding₁] at hnamePadding
    rw [hoffset₄, hoffset₃, hoffset₂, hoffset₁, hnamePadding, hpadding₂] at hcontentPadding
    have hsize : ({ header with name } : Header).nameSize = nameSize := by
      rw [← hnameLength, List.length_append]
      rfl
    have hrecord : IsRecord _ ⟨{ header with name }, content⟩ :=
      .intro (by rw [hsize]; exact hdigits) (by rw [hsize]; exact hnamePadding) hcontentLength
        hcontentPadding
    refine ⟨_, hrecord, ?_, ?_⟩
    · rw [hrest₁, hrest₂, hrest₃, hrest₄, hrest₅]
      simp only [List.append_assoc]
    · rw [hoffset₅, hoffset₄, hoffset₃, hoffset₂, hoffset₁]
      simp only [List.length_append] at hfixedLength hnameLength hcontentLength ⊢
      omega
  · rintro ⟨record, hrecord, hrest, hoffset⟩
    obtain ⟨offset, rest⟩ := cursor
    obtain ⟨nextOffset, nextRest⟩ := next
    obtain @⟨digits, header, content, namePadding, contentPadding, hdigits, hnamePadding, hcontent,
      hcontentPadding⟩ := hrecord
    dsimp only at haligned hrest hoffset ⊢
    subst hrest hoffset
    have hfixed : (magic ++ digits.flatten).length = fixedLength := by
      rw [List.length_append, length_flatten_of_denotes hdigits]
      rfl
    have hname : (header.name ++ [nul]).length = header.nameSize := List.length_append
    have hheader : readFixed offset (magic ++ digits.flatten) =
        .ok ({ header with name := [] }, header.nameSize) :=
      (readFixed_eq_ok_iff hfixed).2 ⟨rfl, Nat.succ_ne_zero _, digits, rfl, hdigits⟩
    obtain ⟨hpadding₁, hpadding₂⟩ :=
      paddingLength_offsets haligned header.nameSize header.contentSize
    rw [← hnamePadding] at hpadding₁ hpadding₂
    rw [← hcontentPadding] at hpadding₂
    -- The parts of the record in the order in which the reader takes them.
    have hparts : magic ++ digits.flatten ++ (header.name ++ [nul]) ++ namePadding ++ content
          ++ contentPadding ++ nextRest =
        (magic ++ digits.flatten) ++ ((header.name ++ [nul]) ++ (namePadding ++
          (content ++ (contentPadding ++ nextRest)))) := by
      simp only [List.append_assoc]
    rw [hparts, Cursor.take_append hfixed, ok_bind]
    dsimp only
    rw [hheader, ok_bind]
    dsimp only
    rw [Cursor.take_append hname, ok_bind]
    dsimp only
    rw [readName_eq_ok_iff.2 rfl, ok_bind, Cursor.skipPadding_append hpadding₁.symm, ok_bind,
      Cursor.take_append hcontent, ok_bind, Cursor.skipPadding_append hpadding₂.symm, ok_bind]
    have hend : offset + fixedLength + header.nameSize + namePadding.length + header.contentSize
          + contentPadding.length =
        offset + (magic ++ digits.flatten ++ (header.name ++ [nul]) ++ namePadding ++ content
          ++ contentPadding).length := by
      simp only [List.length_append] at hfixed hname hcontent ⊢
      omega
    rw [hend]
    rfl

/-! ## Archives -/

/-- How the reader goes on behind an entry. -/
theorem readEntries_of_readEntry {cursor next : Cursor} {entry : Entry}
    (h : readEntry cursor = .ok (entry, next)) :
    readEntries cursor =
      if entry.header.name = trailerName then
        if next.rest.isEmpty then .ok [] else .error (.bytesAfterTrailer next.rest.length)
      else (readEntries next).map (entry :: ·) := by
  rw [readEntries]
  split <;> rename_i hread <;> rw [h] at hread <;> cases hread
  rfl

/-- Where the reader stands behind a record, it can go on. -/
theorem offset_mod_of_readEntry {cursor next : Cursor} {entry : Entry}
    (haligned : cursor.offset % alignment = 0) (h : readEntry cursor = .ok (entry, next)) :
    next.offset % alignment = 0 := by
  obtain ⟨record, hrecord, -, hoffset⟩ := (readEntry_eq_ok_iff haligned).1 h
  have hlength := hrecord.length_mod
  rw [alignment] at haligned hlength ⊢
  omega

theorem IsArchive.trailer {record : Bytes} {entry : Entry} (h : IsRecord record entry)
    (hname : entry.header.name = trailerName) : IsArchive record [] :=
  ⟨[], record, entry, rfl, .nil, nofun, h, hname⟩

theorem IsArchive.cons {record rest : Bytes} {entry : Entry} {entries : List Entry}
    (h : IsRecord record entry) (hname : entry.header.name ≠ trailerName)
    (hrest : IsArchive rest entries) : IsArchive (record ++ rest) (entry :: entries) := by
  obtain ⟨records, trailer, last, rfl, hrecords, hnames, hlast, htrailer⟩ := hrest
  exact ⟨record :: records, trailer, last, by rw [List.flatten_cons, List.append_assoc],
    .cons h hrecords, List.forall_mem_cons.2 ⟨hname, hnames⟩, hlast, htrailer⟩

/-- What the reader accepts is an archive. -/
theorem isArchive_of_readEntries {cursor : Cursor} {entries : List Entry}
    (haligned : cursor.offset % alignment = 0) (h : readEntries cursor = .ok entries) :
    IsArchive cursor.rest entries := by
  -- The reader's own recursion: a fault, the trailer, or an entry and the rest.
  fun_induction readEntries cursor generalizing entries with
  | case1 cursor e hread => cases h
  | case2 cursor entry next hread hname hrest =>
    cases h
    obtain ⟨record, hrecord, hbytes, -⟩ := (readEntry_eq_ok_iff haligned).1 hread
    rw [hbytes, List.isEmpty_iff.1 hrest, List.append_nil]
    exact .trailer hrecord hname
  | case3 cursor entry next hread hname hrest => cases h
  | case4 cursor entry next hread hname ih =>
    obtain ⟨record, hrecord, hbytes, -⟩ := (readEntry_eq_ok_iff haligned).1 hread
    cases hothers : readEntries next with
    | error e => rw [hothers] at h; cases h
    | ok others =>
      rw [hothers] at h
      cases h
      rw [hbytes]
      exact .cons hrecord hname (ih (offset_mod_of_readEntry haligned hread) hothers)

/-- An archive is read at every offset that is a multiple of four.  What is behind its trailer is
noticed, and counted. -/
theorem IsArchive.readEntries_append {archive : Bytes} {entries : List Entry}
    (h : IsArchive archive entries) {offset : Nat} (haligned : offset % alignment = 0)
    (more : Bytes) :
    readEntries ⟨offset, archive ++ more⟩ =
      if more.isEmpty then .ok entries else .error (.bytesAfterTrailer more.length) := by
  obtain ⟨records, trailer, last, rfl, hrecords, hnames, hlast, htrailer⟩ := h
  -- Along the records; the offset stays a multiple of four.
  induction hrecords generalizing offset with
  | nil =>
    have hread : readEntry ⟨offset, trailer ++ more⟩ = .ok (last, ⟨offset + trailer.length, more⟩) :=
      (readEntry_eq_ok_iff haligned).2 ⟨trailer, hlast, rfl, rfl⟩
    rw [List.flatten_nil, List.nil_append, readEntries_of_readEntry hread, if_pos htrailer]
  | @cons record entry records entries hrecord _ ih =>
    obtain ⟨hname, hnames⟩ := List.forall_mem_cons.1 hnames
    have hread : readEntry ⟨offset, record ++ (records.flatten ++ trailer ++ more)⟩ =
        .ok (entry, ⟨offset + record.length, records.flatten ++ trailer ++ more⟩) :=
      (readEntry_eq_ok_iff haligned).2 ⟨record, hrecord, rfl, rfl⟩
    have hnext : (offset + record.length) % alignment = 0 :=
      offset_mod_of_readEntry haligned hread
    rw [List.flatten_cons, List.append_assoc, List.append_assoc, ← List.append_assoc _ trailer,
      readEntries_of_readEntry hread, if_neg hname, ih hnext hnames]
    split <;> rfl

theorem IsArchive.readEntries {archive : Bytes} {entries : List Entry}
    (h : IsArchive archive entries) {offset : Nat} (haligned : offset % alignment = 0) :
    readEntries ⟨offset, archive⟩ = .ok entries := by
  have hread := h.readEntries_append haligned []
  rwa [List.append_nil] at hread

/-- **The reader accepts archives, and nothing else.** -/
theorem readArchive_eq_ok_iff {archive : Bytes} {entries : List Entry} :
    readArchive archive = .ok entries ↔ IsArchive archive entries := by
  constructor
  · intro h
    have haligned : (Cursor.start archive).offset % alignment = 0 := rfl
    exact isArchive_of_readEntries haligned h
  · exact fun h => h.readEntries rfl

/-- An archive with more behind it is refused. -/
theorem readArchive_append {archive more : Bytes} {entries : List Entry}
    (h : readArchive archive = .ok entries) (hmore : more ≠ []) :
    readArchive (archive ++ more) = .error (.bytesAfterTrailer more.length) := by
  have haligned : 0 % alignment = 0 := rfl
  have hread := (readArchive_eq_ok_iff.1 h).readEntries_append haligned more
  rwa [if_neg (mt List.isEmpty_iff.1 hmore)] at hread

/-- **The reader accepts exactly the archives.**  It gives entries if and only if the bytes are a
record for each of them and the trailer behind these.  So of an archive with more behind it and of
what is left when its end is cut off, neither is accepted. -/
theorem readArchive_grammar (archive : Bytes) (entries : List Entry) :
    (readArchive archive = .ok entries ↔ IsArchive archive entries) ∧
      (readArchive archive = .ok entries →
        (∀ more, more ≠ [] → ∃ e, readArchive (archive ++ more) = .error e) ∧
          ∀ shorter, shorter <+: archive → shorter ≠ archive →
            ∃ e, readArchive shorter = .error e) := by
  refine ⟨readArchive_eq_ok_iff, fun h => ⟨fun more hmore => ⟨_, readArchive_append h hmore⟩, ?_⟩⟩
  rintro shorter ⟨more, rfl⟩ hne
  cases hshorter : readArchive shorter with
  | error e => exact ⟨e, rfl⟩
  | ok others =>
    -- Then the whole would have had bytes behind its trailer.
    have hmore : more ≠ [] := fun hnil => hne (by rw [hnil, List.append_nil])
    rw [readArchive_append hshorter hmore] at h
    cases h

/-- The paddings of an archive need not be NUL bytes, but it must be there to its last byte. -/
theorem readArchive_grammar_padding :
    let header : Header := ⟨7, 0o100644, 0, 0, 1, 0, 1, 0, 0, 0, 0, [97, 98]⟩
    let record := header.fixedPart ++ [97, 98, 0, 1, 2, 3] ++ [120] ++ [9, 9, 9]
    IsArchive (record ++ trailerRecord) [⟨header, [120]⟩] ∧
      ∃ e, readArchive record = .error e := by
  intro header record
  have hread : readArchive (record ++ trailerRecord) = .ok [⟨header, [120]⟩] := by decide +kernel
  obtain ⟨hgrammar, hends⟩ := readArchive_grammar (record ++ trailerRecord) [⟨header, [120]⟩]
  refine ⟨hgrammar.1 hread, (hends hread).2 record (List.prefix_append _ _) ?_⟩
  decide +kernel

end CpioArchive.Newc
