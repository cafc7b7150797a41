import CpioArchive.Newc.Reader

/-!
# Fields and headers, written and read

* `Field.decode?_encode` — a field gives back the number it was made of, if that fits;
* `Header.encode_eq_ok_iff` — which headers can be written, and as what;
* `Header.length_image_mod` — a header that is written ends on a multiple of four.
-/

namespace CpioArchive.Newc

/-! ## Padding -/

theorem add_paddingLength_mod (n : Nat) : (n + paddingLength n) % alignment = 0 := by
  rw [paddingLength]
  by_cases h : n % alignment = 0
  · rw [if_pos h, Nat.add_zero, h]
  · rw [if_neg h]
    rw [alignment] at h ⊢
    omega

/-- Behind a multiple of four, padding does not depend on the offset. -/
theorem paddingLength_add {offset : Nat} (h : offset % alignment = 0) (n : Nat) :
    paddingLength (offset + n) = paddingLength n := by
  have hmod : (offset + n) % alignment = n % alignment := by
    rw [Nat.add_mod, h, Nat.zero_add, Nat.mod_mod]
  rw [paddingLength, paddingLength, hmod]

/-! ## Fields -/

namespace Field

theorem digitValue?_digit {d : Nat} (h : d < 16) : digitValue? (digit d) = some d := by
  have hall : ∀ d : Fin 16, digitValue? (digit d) = some d.val := by decide
  exact hall ⟨d, h⟩

/-- One more digit at the end shifts what was read before it. -/
theorem decode?_append_digit (digits : Bytes) {d : Nat} (h : d < 16) :
    decode? (digits ++ [digit d]) = (decode? digits).map (· * 16 + d) := by
  rw [decode?, decode?, List.mapM_append, List.mapM_cons, digitValue?_digit h]
  cases digits.mapM digitValue? with
  | none => rfl
  | some values =>
    simp only [List.mapM_nil, Option.pure_def, Option.bind_eq_bind, Option.bind_some,
      Option.map_some, List.foldl_append, List.foldl_cons, List.foldl_nil]

/-- So many digits are enough for the number. -/
def IsWithin : Nat → Nat → Prop
  | 0, n => n = 0
  | count + 1, n => IsWithin count (n / 16)

/-- Digits give their number back if there are enough of them. -/
theorem decode?_digits {count n : Nat} (h : IsWithin count n) :
    decode? (digits count n) = some n := by
  induction count generalizing n with
  | zero =>
    obtain rfl : n = 0 := h
    rfl
  | succ count ih =>
    rw [digits, decode?_append_digit _ (Nat.mod_lt _ (by decide)), ih h, Option.map_some]
    congr 1
    omega

/-- **A field gives back the number it was made of**, if the number fits. -/
theorem decode?_encode {n : Nat} (h : n ≤ largest) : decode? (encode n) = some n := by
  refine decode?_digits ?_
  rw [largest] at h
  simp only [width, IsWithin]
  omega

end Field

/-! ## Headers -/

namespace Header

/-- The numbers of a header fit into their fields. -/
def Fits (h : Header) : Prop := ∀ field ∈ h.fields, field.2 ≤ Field.largest

/-- What a header needs in order to be written. -/
structure IsWritable (h : Header) : Prop where
  name_ne_nil : h.name ≠ []
  length_name_le : h.name.length ≤ longestName
  fits : h.Fits

/-- The part of a header in front of its name. -/
def fixedPart (h : Header) : Bytes :=
  magic ++ h.fields.flatMap (fun field => Field.encode field.2) ++ Field.encode h.nameSize
    ++ Field.encode 0

theorem image_eq (h : Header) :
    h.image = h.fixedPart ++
      (h.name ++ [nul] ++ nuls (paddingLength (fixedLength + h.nameSize))) := by
  rw [image, fixedPart, nuls_add, List.append_assoc, List.append_assoc h.name]
  rfl

@[simp] theorem length_fixedPart (h : Header) : h.fixedPart.length = fixedLength := by
  simp only [fixedPart, fields, magic, List.flatMap_cons, List.flatMap_nil, List.length_append,
    Field.length_encode]
  rfl

theorem length_image (h : Header) :
    h.image.length = fixedLength + h.nameSize + paddingLength (fixedLength + h.nameSize) := by
  rw [image_eq, List.length_append, length_fixedPart, List.length_append, length_nuls,
    List.length_append, List.length_singleton, ← nameSize, Nat.add_assoc]

/-- What follows a written header starts on a multiple of four. -/
theorem length_image_mod (h : Header) : h.image.length % alignment = 0 := by
  rw [length_image, add_paddingLength_mod]

/-- **Which headers can be written, and as what.** -/
theorem encode_eq_ok_iff (h : Header) (bytes : Bytes) :
    h.encode = .ok bytes ↔ h.IsWritable ∧ bytes = h.image := by
  rw [encode]
  by_cases hempty : h.name = []
  · rw [if_pos (List.isEmpty_iff.2 hempty)]
    exact ⟨nofun, fun hwritable => absurd hempty hwritable.1.name_ne_nil⟩
  · rw [if_neg (by simpa using hempty)]
    by_cases hlong : longestName < h.name.length
    · rw [if_pos hlong]
      exact ⟨nofun, fun hwritable => absurd hlong (Nat.not_lt.2 hwritable.1.length_name_le)⟩
    · rw [if_neg hlong]
      have hfits : h.fields.find? (fun field => decide (Field.largest < field.2)) = none ↔
          h.Fits := by
        rw [List.find?_eq_none]
        simp only [decide_eq_true_eq, Nat.not_lt, Fits]
      cases hfind : h.fields.find? (fun field => decide (Field.largest < field.2)) with
      | none =>
        have hwritable : h.IsWritable := ⟨hempty, Nat.not_lt.1 hlong, hfits.1 hfind⟩
        exact ⟨fun heq => ⟨hwritable, (Except.ok.inj heq).symm⟩, fun heq => by rw [heq.2]⟩
      | some field =>
        refine ⟨nofun, fun hwritable => ?_⟩
        rw [hfits.2 hwritable.1.fits] at hfind
        cases hfind

theorem IsWritable.encode {h : Header} (hwritable : h.IsWritable) : h.encode = .ok h.image :=
  (encode_eq_ok_iff h _).2 ⟨hwritable, rfl⟩

end Header

theorem length_trailerRecord_mod : trailerRecord.length % alignment = 0 := by
  rw [trailerRecord, Header.length_image_mod]

/-- A step that succeeds hands its value on. -/
theorem ok_bind {ε α β : Type} (a : α) (next : α → Except ε β) : (.ok a >>= next) = next a := rfl

end CpioArchive.Newc
