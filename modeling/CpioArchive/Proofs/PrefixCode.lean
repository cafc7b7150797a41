import CpioArchive.Proofs.Reading

/-!
# Headers as a prefix code

The image of a header says itself where it ends: the name size stands in front of the name.  So
nothing that follows an image can change what is read of it.

* `Header.encode_eq_error_iff` — which fault of a header is reported;
* `readHeader` — the part of the reader that reads a header: by `readEntry_eq` the reader of an
  archive reads every record by it;
* `readHeader_image` — it gives a written header back, whatever follows;
* `Header.image_prefix_free`, `Header.split_unique` — so no image begins another one, and headers
  and bodies that are joined come apart in one way only;
* `header_code` — all of this of the encoder.
-/

namespace CpioArchive.Newc

/-! ## Faults -/

namespace Header

theorem encode_of_nil {h : Header} (hname : h.name = []) : h.encode = .error .emptyName := by
  rw [encode, if_pos (List.isEmpty_iff.2 hname)]

theorem encode_of_long {h : Header} (hlong : longestName < h.name.length) :
    h.encode = .error (.nameTooLong h.name.length longestName) := by
  have hne : h.name ≠ [] := List.ne_nil_of_length_pos (by omega)
  rw [encode, if_neg (mt List.isEmpty_iff.1 hne), if_pos hlong]

/-- A header with a name of the right length is refused only for its numbers. -/
theorem encode_of_name {h : Header} (hne : h.name ≠ []) (hle : h.name.length ≤ longestName) :
    h.encode =
      match h.fields.find? fun field => decide (Field.largest < field.2) with
      | some (field, value) => .error (.fieldOverflow field value)
      | none => .ok h.image :=
  (if_neg (mt List.isEmpty_iff.1 hne)).trans (if_neg (Nat.not_lt.2 hle))

/-- The first number of a header that does not fit into its field, with the name of the field. -/
def IsFirstOverflow (h : Header) (field : String) (value : Nat) : Prop :=
  ∃ earlier later, h.fields = earlier ++ (field, value) :: later ∧
    (∀ other ∈ earlier, other.2 ≤ Field.largest) ∧ Field.largest < value

theorem find?_fields_eq_some_iff {h : Header} {field : String} {value : Nat} :
    h.fields.find? (fun field => decide (Field.largest < field.2)) = some (field, value) ↔
      h.IsFirstOverflow field value := by
  rw [List.find?_eq_some_iff_append, IsFirstOverflow]
  simp only [decide_eq_true_eq, Bool.not_eq_true', decide_eq_false_iff_not, Nat.not_lt]
  constructor
  · rintro ⟨hvalue, earlier, later, hfields, hearlier⟩
    exact ⟨earlier, later, hfields, hearlier, hvalue⟩
  · rintro ⟨earlier, later, hfields, hearlier, hvalue⟩
    exact ⟨hvalue, earlier, later, hfields, hearlier⟩

/-- What is wrong with a header: of several faults only the first that is looked for. -/
inductive Fault (h : Header) : ArchiveError → Prop
  | emptyName (hname : h.name = []) : Fault h .emptyName
  | nameTooLong (hlong : longestName < h.name.length) :
      Fault h (.nameTooLong h.name.length longestName)
  | fieldOverflow {field : String} {value : Nat} (hne : h.name ≠ [])
      (hle : h.name.length ≤ longestName) (hfirst : h.IsFirstOverflow field value) :
      Fault h (.fieldOverflow field value)

theorem Fault.encode {h : Header} {e : ArchiveError} (hfault : h.Fault e) :
    h.encode = .error e := by
  cases hfault with
  | emptyName hname => exact encode_of_nil hname
  | nameTooLong hlong => exact encode_of_long hlong
  | fieldOverflow hne hle hfirst => rw [encode_of_name hne hle, find?_fields_eq_some_iff.2 hfirst]

/-- A header that cannot be written has a fault. -/
theorem exists_fault {h : Header} (hnot : ¬ h.IsWritable) : ∃ e, h.Fault e := by
  by_cases hname : h.name = []
  · exact ⟨_, .emptyName hname⟩
  · by_cases hlong : longestName < h.name.length
    · exact ⟨_, .nameTooLong hlong⟩
    · have hle := Nat.not_lt.1 hlong
      cases hfind : h.fields.find? (fun field => decide (Field.largest < field.2)) with
      | none =>
        have hencode := encode_of_name hname hle
        rw [hfind] at hencode
        exact absurd ((encode_eq_ok_iff h _).1 hencode).1 hnot
      | some overflow =>
        obtain ⟨field, value⟩ := overflow
        exact ⟨_, .fieldOverflow hname hle (find?_fields_eq_some_iff.1 hfind)⟩

/-- **A header is refused for what is wrong with it**, and for nothing else. -/
theorem encode_eq_error_iff {h : Header} {e : ArchiveError} : h.encode = .error e ↔ h.Fault e := by
  refine ⟨fun hencode => ?_, Fault.encode⟩
  have hnot : ¬ h.IsWritable := fun hwritable => by
    rw [hwritable.encode] at hencode
    cases hencode
  obtain ⟨fault, hfault⟩ := exists_fault hnot
  rw [hfault.encode] at hencode
  cases hencode
  exact hfault

theorem encode_eq_emptyName_iff (h : Header) : h.encode = .error .emptyName ↔ h.name = [] := by
  rw [encode_eq_error_iff]
  constructor
  · rintro ⟨hname⟩
    exact hname
  · exact .emptyName

theorem encode_eq_nameTooLong_iff (h : Header) (length limit : Nat) :
    h.encode = .error (.nameTooLong length limit) ↔
      longestName < h.name.length ∧ length = h.name.length ∧ limit = longestName := by
  rw [encode_eq_error_iff]
  constructor
  · intro hfault
    cases hfault with
    | nameTooLong hlong => exact ⟨hlong, rfl, rfl⟩
  · rintro ⟨hlong, rfl, rfl⟩
    exact .nameTooLong hlong

theorem encode_eq_fieldOverflow_iff (h : Header) (field : String) (value : Nat) :
    h.encode = .error (.fieldOverflow field value) ↔
      h.name ≠ [] ∧ h.name.length ≤ longestName ∧ h.IsFirstOverflow field value := by
  rw [encode_eq_error_iff]
  constructor
  · intro hfault
    cases hfault with
    | fieldOverflow hne hle hfirst => exact ⟨hne, hle, hfirst⟩
  · rintro ⟨hne, hle, hfirst⟩
    exact .fieldOverflow hne hle hfirst

end Header

/-! ## Reading a header -/

/-- The header at a cursor, and the place behind its padding. -/
def readHeader (cursor : Cursor) : Except ReadError (Header × Cursor) := do
  let (fixed, afterFixed) ← cursor.take fixedLength
  let (header, nameSize) ← readFixed cursor.offset fixed
  let (nameField, afterName) ← afterFixed.take nameSize
  let name ← readName nameField
  let contentStart ← afterName.skipPadding
  return ({ header with name }, contentStart)

/-- **The reader of an archive reads its records by their headers**: first the header, as it is read
here, and then a content of the size in it. -/
theorem readEntry_eq (cursor : Cursor) :
    readEntry cursor =
      if cursor.offset % alignment ≠ 0 then .error (.misaligned cursor.offset)
      else do
        let (header, contentStart) ← readHeader cursor
        let (content, contentEnd) ← contentStart.take header.contentSize
        let recordEnd ← contentEnd.skipPadding
        return (⟨header, content⟩, recordEnd) := by
  simp only [readEntry, readHeader, bind_assoc, pure_bind]

/-- **A written header is read back**, whatever follows. -/
theorem readHeader_image {h : Header} (hwritable : h.IsWritable) {offset : Nat}
    (haligned : offset % alignment = 0) (rest : Bytes) :
    readHeader ⟨offset, h.image ++ rest⟩ = .ok (h, ⟨offset + h.image.length, rest⟩) := by
  have hnumbers := Header.forall_numbers_le_iff.2 ⟨hwritable.fits, hwritable.nameSize_le⟩
  have hfixed : readFixed offset h.fixedPart = .ok ({ h with name := [] }, h.nameSize) := by
    refine (readFixed_eq_ok_iff h.length_fixedPart).2
      ⟨rfl, Nat.succ_ne_zero _, _, ?_, Field.forall₂_denotes hnumbers⟩
    simp only [Header.fixedPart, List.flatMap_def, List.map_append, List.map_map,
      List.flatten_append, List.append_assoc]
    rfl
  have hname : (h.name ++ [nul]).length = h.nameSize := List.length_append
  have hpadding : (nuls (paddingLength (fixedLength + h.nameSize))).length =
      paddingLength (offset + fixedLength + h.nameSize) := by
    rw [length_nuls, Nat.add_assoc, paddingLength_add haligned]
  have hend : offset + fixedLength + h.nameSize +
      (nuls (paddingLength (fixedLength + h.nameSize))).length = offset + h.image.length := by
    rw [h.length_image, length_nuls]
    omega
  rw [readHeader, h.image_eq, List.append_assoc, List.append_assoc,
    Cursor.take_append h.length_fixedPart, ok_bind]
  dsimp only
  rw [hfixed, ok_bind]
  dsimp only
  rw [Cursor.take_append hname, ok_bind]
  dsimp only
  rw [readName_eq_ok_iff.2 rfl, ok_bind, Cursor.skipPadding_append hpadding, ok_bind, hend,
    ← h.image_eq]
  rfl

/-! ## Joined headers -/

namespace Header

/-- **No image begins another one**, not even one with more behind it. -/
theorem image_prefix_free {h k : Header} (hh : h.IsWritable) (hk : k.IsWritable) {rest : Bytes}
    (hbegins : h.image <+: k.image ++ rest) : h = k := by
  obtain ⟨more, hmore⟩ := hbegins
  have haligned : 0 % alignment = 0 := rfl
  have hread := readHeader_image hh haligned more
  rw [hmore, readHeader_image hk haligned rest] at hread
  exact (congrArg Prod.fst (Except.ok.inj hread)).symm

theorem image_ne_nil (h : Header) : h.image ≠ [] := by
  apply List.ne_nil_of_length_pos
  rw [h.length_image, fixedLength]
  omega

/-- Headers, each with the body that follows it. -/
def joined (parts : List (Header × Bytes)) : Bytes :=
  (parts.map fun part => part.1.image ++ part.2).flatten

/-- **Headers and bodies that are joined come apart in one way only**, if every header can be
written and tells the length of the body behind it. -/
theorem split_unique {span : Header → Nat} {parts others : List (Header × Bytes)}
    (hparts : ∀ part ∈ parts, part.1.IsWritable ∧ part.2.length = span part.1)
    (hothers : ∀ part ∈ others, part.1.IsWritable ∧ part.2.length = span part.1)
    (h : joined parts = joined others) : parts = others := by
  induction parts generalizing others with
  | nil =>
    cases others with
    | nil => rfl
    | cons other others =>
      rw [joined, joined, List.map_cons, List.flatten_cons] at h
      exact absurd (List.append_eq_nil_iff.1 (List.append_eq_nil_iff.1 h.symm).1).1
        other.1.image_ne_nil
  | cons part parts ih =>
    cases others with
    | nil =>
      rw [joined, joined, List.map_cons, List.flatten_cons] at h
      exact absurd (List.append_eq_nil_iff.1 (List.append_eq_nil_iff.1 h).1).1 part.1.image_ne_nil
    | cons other others =>
      obtain ⟨header, body⟩ := part
      obtain ⟨header', body'⟩ := other
      obtain ⟨⟨hwritable, hlength⟩, hparts'⟩ := List.forall_mem_cons.1 hparts
      obtain ⟨⟨hwritable', hlength'⟩, hothers'⟩ := List.forall_mem_cons.1 hothers
      simp only [joined, List.map_cons, List.flatten_cons, List.append_assoc] at h
      have hbegins : header.image <+: header'.image ++ (body' ++ joined others) :=
        ⟨body ++ joined parts, h⟩
      obtain rfl : header = header' := image_prefix_free hwritable hwritable' hbegins
      obtain ⟨hbody, hrest⟩ := List.append_inj (List.append_cancel_left h)
        (hlength.trans hlength'.symm)
      obtain rfl : body = body' := hbody
      rw [ih hparts' hothers' hrest]

end Header

/-- **The encoding of headers.**  A header is written exactly if it has a name, the name is not too
long and every number fits into its field; otherwise the first of these that fails is reported, and
of the numbers the first that does not fit.  What is written has the length that the name asks for,
and gives the header back whatever follows.  No header is written as the beginning of another one,
and so headers and bodies that are joined come apart in one way only. -/
theorem header_code (h : Header) :
    ((∃ bytes, h.encode = .ok bytes) ↔
        h.name ≠ [] ∧ h.name.length ≤ longestName ∧ ∀ field ∈ h.fields, field.2 ≤ 0xFFFFFFFF) ∧
      (h.encode = .error .emptyName ↔ h.name = []) ∧
      (∀ length limit, h.encode = .error (.nameTooLong length limit) ↔
        longestName < h.name.length ∧ length = h.name.length ∧ limit = longestName) ∧
      (∀ field value, h.encode = .error (.fieldOverflow field value) ↔
        h.name ≠ [] ∧ h.name.length ≤ longestName ∧ h.IsFirstOverflow field value) ∧
      (∀ e, h.encode = .error e → e = .emptyName ∨ (∃ length limit, e = .nameTooLong length limit) ∨
        ∃ field value, e = .fieldOverflow field value) ∧
      (∀ bytes, h.encode = .ok bytes →
        bytes.length = 110 + h.name.length + 1 + paddingLength (110 + h.name.length + 1) ∧
          bytes.length % 4 = 0 ∧
          ∀ rest, readHeader ⟨0, bytes ++ rest⟩ = .ok (h, ⟨bytes.length, rest⟩)) ∧
      (∀ k bytes others rest, h.encode = .ok bytes → Header.encode k = .ok others →
        bytes <+: others ++ rest → h = k) ∧
      ∀ (span : Header → Nat) (parts others : List (Header × Bytes)),
        (∀ part ∈ parts ++ others,
          part.1.encode = .ok part.1.image ∧ part.2.length = span part.1) →
          Header.joined parts = Header.joined others → parts = others := by
  refine ⟨?_, h.encode_eq_emptyName_iff, h.encode_eq_nameTooLong_iff, h.encode_eq_fieldOverflow_iff,
    ?_, ?_, ?_, ?_⟩
  · constructor
    · rintro ⟨bytes, hencode⟩
      obtain ⟨hwritable, -⟩ := (h.encode_eq_ok_iff bytes).1 hencode
      exact ⟨hwritable.name_ne_nil, hwritable.length_name_le, hwritable.fits⟩
    · rintro ⟨hne, hle, hfits⟩
      exact ⟨h.image, Header.IsWritable.encode ⟨hne, hle, hfits⟩⟩
  · intro e hencode
    cases Header.encode_eq_error_iff.1 hencode with
    | emptyName => exact .inl rfl
    | nameTooLong => exact .inr (.inl ⟨_, _, rfl⟩)
    | fieldOverflow => exact .inr (.inr ⟨_, _, rfl⟩)
  · intro bytes hencode
    obtain ⟨hwritable, rfl⟩ := (h.encode_eq_ok_iff bytes).1 hencode
    refine ⟨h.length_image, h.length_image_mod, fun rest => ?_⟩
    rw [readHeader_image hwritable rfl, Nat.zero_add]
  · intro k bytes others rest hencode hencode' hbegins
    obtain ⟨hwritable, rfl⟩ := (h.encode_eq_ok_iff bytes).1 hencode
    obtain ⟨hwritable', rfl⟩ := (k.encode_eq_ok_iff others).1 hencode'
    exact Header.image_prefix_free hwritable hwritable' hbegins
  · intro span parts others hall hjoined
    have hwritable : ∀ part ∈ parts ++ others,
        part.1.IsWritable ∧ part.2.length = span part.1 := fun part hpart =>
      ⟨((part.1.encode_eq_ok_iff _).1 (hall part hpart).1).1, (hall part hpart).2⟩
    exact Header.split_unique (fun part hpart => hwritable part (List.mem_append_left _ hpart))
      (fun part hpart => hwritable part (List.mem_append_right _ hpart)) hjoined

/-- A name that looks like the beginning of a header, with a NUL byte in it: the header is written.
With numbers that are too large it is refused for the first of them. -/
theorem header_code_magic_name :
    (∃ bytes, { Header.trailer with name := magic ++ [nul] }.encode = .ok bytes) ∧
      { Header.trailer with uid := 0x100000000, modificationTime := 0x100000001 }.encode =
        .error (.fieldOverflow "uid" 0x100000000) :=
  ⟨(header_code _).1.2 ⟨by decide, by decide, by decide⟩,
    ((header_code _).2.2.2.1 _ _).2
      ⟨by decide, by decide, [("ino", 0), ("mode", 0)], _, rfl, by decide, by decide⟩⟩

end CpioArchive.Newc
