import CpioArchive.CommandLine.BufferSize
import Mathlib.Data.List.Basic
import Mathlib.Data.List.TakeWhile
import Mathlib.Data.Nat.Digits.Defs

/-!
# The language of byte sizes

A byte size is read from a text.  Every text is one or is refused for one reason, and what it is
read as is the exact product of its digits and its suffix.

* `Text.isTrimOf_trimBlanks` — what is left of a text without the blanks around it;
* `Text.natOfDigits?_eq_some_iff` — digits are read as the number they denote;
* `spells_iff` — the sign and the suffix that are taken off are those of the written form;
* `ReadsAs`, `parseByteSize_eq_iff` — what a text is read as, and that it is read in one way only;
* `parseByteSize_language` — which texts are read, as which number, and why the others are not.
-/

namespace CpioArchive

namespace Text

/-! ## Blanks around a text -/

/-- What is left of a text when the blanks at both ends are taken off. -/
structure IsTrimOf (text trimmed : List Char) : Prop where
  surrounded : ∃ before behind, text = before ++ trimmed ++ behind ∧
    (∀ c ∈ before, isBlank c = true) ∧ ∀ c ∈ behind, isBlank c = true
  first : ∀ c, trimmed.head? = some c → isBlank c = false
  last : ∀ c, trimmed.getLast? = some c → isBlank c = false

theorem not_isBlank_of_head?_dropWhile {text : List Char} {c : Char}
    (h : (text.dropWhile isBlank).head? = some c) : isBlank c = false := by
  have hfirst := List.head?_dropWhile_not isBlank text
  rwa [h] at hfirst

theorem isTrimOf_trimBlanks (text : List Char) : IsTrimOf text (trimBlanks text) := by
  let behind := ((text.dropWhile isBlank).reverse.takeWhile isBlank).reverse
  have hback : text.dropWhile isBlank = trimBlanks text ++ behind := by
    rw [trimBlanks, ← List.reverse_append, List.takeWhile_append_dropWhile, List.reverse_reverse]
  refine ⟨⟨text.takeWhile isBlank, behind, ?_, ?_, ?_⟩, ?_, ?_⟩
  · rw [List.append_assoc, ← hback, List.takeWhile_append_dropWhile]
  · exact fun c hc => List.mem_takeWhile_imp hc
  · exact fun c hc => List.mem_takeWhile_imp (List.mem_reverse.1 hc)
  · intro c hc
    have hne : trimBlanks text ≠ [] := by
      rintro hnil
      rw [hnil] at hc
      cases hc
    have hfirst : (text.dropWhile isBlank).head? = some c := by
      rw [hback, List.head?_append_of_ne_nil _ hne, hc]
    exact not_isBlank_of_head?_dropWhile hfirst
  · intro c hc
    rw [trimBlanks, List.getLast?_reverse] at hc
    exact not_isBlank_of_head?_dropWhile hc

/-! ## Digits -/

/-- The number that decimal digits denote. -/
def numberOf (digits : List Char) : Nat :=
  Nat.ofDigits 10 (digits.reverse.map fun c => c.toNat - '0'.toNat)

theorem digitValue?_eq_some_iff {c : Char} {d : Nat} :
    digitValue? c = some d ↔ c.isDigit = true ∧ d = c.toNat - '0'.toNat := by
  have hdigit : ('0' ≤ c ∧ c ≤ '9') ↔ c.isDigit = true := by
    rw [Char.isDigit_iff_toNat]
    exact Iff.rfl
  rw [digitValue?, ← hdigit]
  split
  next hrange =>
    exact ⟨fun h => ⟨hrange, (Option.some.inj h).symm⟩, fun h => congrArg some h.2.symm⟩
  next hrange => exact ⟨nofun, fun h => absurd h.1 hrange⟩

theorem mapM_digitValue?_eq_some_iff {digits : List Char} {values : List Nat} :
    digits.mapM digitValue? = some values ↔
      (∀ c ∈ digits, c.isDigit = true) ∧ values = digits.map fun c => c.toNat - '0'.toNat := by
  induction digits generalizing values with
  | nil =>
    rw [List.mapM_nil]
    exact ⟨fun h => ⟨nofun, (Option.some.inj h).symm⟩, fun h => congrArg some h.2.symm⟩
  | cons c digits ih =>
    rw [List.mapM_cons, List.forall_mem_cons, List.map_cons]
    simp only [Option.bind_eq_bind, Option.bind_eq_some_iff, digitValue?_eq_some_iff, ih,
      Option.pure_def, Option.some.injEq]
    constructor
    · rintro ⟨d, ⟨hc, rfl⟩, rest, ⟨hrest, rfl⟩, rfl⟩
      exact ⟨⟨hc, hrest⟩, rfl⟩
    · rintro ⟨⟨hc, hrest⟩, rfl⟩
      exact ⟨_, ⟨hc, rfl⟩, _, ⟨hrest, rfl⟩, rfl⟩

/-- **Digits are read as the number they denote**, and nothing but digits is read. -/
theorem natOfDigits?_eq_some_iff {digits : List Char} {n : Nat} :
    natOfDigits? digits = some n ↔
      digits ≠ [] ∧ (∀ c ∈ digits, c.isDigit = true) ∧ n = numberOf digits := by
  have hvalue : ∀ values : List Nat,
      values.foldl (fun n d => n * 10 + d) 0 = Nat.ofDigits 10 values.reverse := by
    intro values
    rw [Nat.ofDigits_eq_foldr, List.foldr_reverse]
    simp only [Nat.cast_id, Nat.mul_comm 10, Nat.add_comm]
  rw [natOfDigits?, numberOf, List.map_reverse, ← hvalue]
  split
  next hempty => exact ⟨nofun, fun h => absurd (List.isEmpty_iff.1 hempty) h.1⟩
  next hempty =>
    rw [Option.map_eq_some_iff]
    constructor
    · rintro ⟨values, hvalues, rfl⟩
      obtain ⟨hdigits, rfl⟩ := mapM_digitValue?_eq_some_iff.1 hvalues
      exact ⟨fun hnil => hempty (List.isEmpty_iff.2 hnil), hdigits, rfl⟩
    · rintro ⟨-, hdigits, rfl⟩
      exact ⟨_, mapM_digitValue?_eq_some_iff.2 ⟨hdigits, rfl⟩, rfl⟩

end Text

namespace CommandLine

/-! ## The written form -/

/-- An optional plus sign. -/
inductive IsSign : List Char → Prop
  | absent : IsSign []
  | plus : IsSign ['+']

/-- An optional suffix, and what it multiplies by. -/
inductive IsSuffix : List Char → Nat → Prop
  | absent : IsSuffix [] 1
  | kilo : IsSuffix ['K'] 1024
  | mega : IsSuffix ['M'] 1048576

/-- `Spells text number multiplier` says that the text is written as a byte size: an optional sign,
decimal digits that denote the number, and an optional suffix that stands for the multiplier. -/
def Spells (text : List Char) (number multiplier : Nat) : Prop :=
  ∃ sign digits suffix, text = sign ++ digits ++ suffix ∧ IsSign sign ∧ digits ≠ [] ∧
    (∀ c ∈ digits, c.isDigit = true) ∧ number = Text.numberOf digits ∧ IsSuffix suffix multiplier

theorem isSign_dropPlus (text : List Char) :
    ∃ sign, IsSign sign ∧ text = sign ++ dropPlus text := by
  unfold dropPlus
  split
  · exact ⟨_, .plus, rfl⟩
  · exact ⟨_, .absent, rfl⟩

theorem dropPlus_sign_append {sign digits : List Char} (hsign : IsSign sign)
    (hdigits : ∀ c ∈ digits, c.isDigit = true) : dropPlus (sign ++ digits) = digits := by
  cases hsign with
  | plus => rfl
  | absent =>
    rw [List.nil_append]
    unfold dropPlus
    split
    · exact absurd (hdigits '+' (List.mem_cons_self ..)) (by decide)
    · rfl

theorem isSuffix_splitSuffix (text : List Char) :
    ∃ suffix, IsSuffix suffix (splitSuffix text).2 ∧ text = (splitSuffix text).1 ++ suffix := by
  unfold splitSuffix
  split
  next hlast => exact ⟨_, .mega, (List.dropLast_append_getLast? _ hlast).symm⟩
  next hlast => exact ⟨_, .kilo, (List.dropLast_append_getLast? _ hlast).symm⟩
  next => exact ⟨_, .absent, (List.append_nil text).symm⟩

theorem splitSuffix_append_suffix {front digits suffix : List Char} {multiplier : Nat}
    (hne : digits ≠ []) (hdigits : ∀ c ∈ digits, c.isDigit = true)
    (hsuffix : IsSuffix suffix multiplier) :
    splitSuffix (front ++ digits ++ suffix) = (front ++ digits, multiplier) := by
  unfold splitSuffix
  cases hsuffix with
  | mega =>
    rw [List.getLast?_concat, List.dropLast_concat]
    rfl
  | kilo =>
    rw [List.getLast?_concat, List.dropLast_concat]
    rfl
  | absent =>
    rw [List.append_nil, List.getLast?_append_of_ne_nil _ hne]
    split
    next hlast => exact absurd (hdigits 'M' (List.mem_of_getLast? hlast)) (by decide)
    next hlast => exact absurd (hdigits 'K' (List.mem_of_getLast? hlast)) (by decide)
    next => rfl

/-- **What is taken off a text is its sign and its suffix**, if it is written as a byte size. -/
theorem spells_iff {text : List Char} {number multiplier : Nat} :
    Spells text number multiplier ↔
      Text.natOfDigits? (dropPlus (splitSuffix text).1) = some number ∧
        (splitSuffix text).2 = multiplier := by
  rw [Text.natOfDigits?_eq_some_iff]
  constructor
  · rintro ⟨sign, digits, suffix, rfl, hsign, hne, hdigits, rfl, hsuffix⟩
    rw [splitSuffix_append_suffix hne hdigits hsuffix]
    dsimp only
    rw [dropPlus_sign_append hsign hdigits]
    exact ⟨⟨hne, hdigits, rfl⟩, rfl⟩
  · rintro ⟨⟨hne, hdigits, rfl⟩, rfl⟩
    obtain ⟨suffix, hsuffix, htext⟩ := isSuffix_splitSuffix text
    obtain ⟨sign, hsign, hfront⟩ := isSign_dropPlus (splitSuffix text).1
    exact ⟨sign, _, suffix, hfront ▸ htext, hsign, hne, hdigits, rfl, hsuffix⟩

theorem Spells.ne_nil {text : List Char} {number multiplier : Nat}
    (h : Spells text number multiplier) : text ≠ [] := by
  obtain ⟨sign, digits, suffix, rfl, -, hne, -⟩ := h
  exact List.append_ne_nil_of_left_ne_nil (List.append_ne_nil_of_right_ne_nil _ hne) _

/-- A text is written as one byte size at most. -/
theorem Spells.unique {text : List Char} {number multiplier other otherMultiplier : Nat}
    (h : Spells text number multiplier) (hother : Spells text other otherMultiplier) :
    number = other ∧ multiplier = otherMultiplier := by
  obtain ⟨hnumber, hmultiplier⟩ := spells_iff.1 h
  obtain ⟨hnumber', hmultiplier'⟩ := spells_iff.1 hother
  exact ⟨Option.some.inj (hnumber.symm.trans hnumber'), hmultiplier.symm.trans hmultiplier'⟩

/-! ## Reading -/

/-- What a text without blanks around it is read as. -/
inductive ReadsAs (text : List Char) : Except ByteSizeError Nat → Prop
  /-- There is nothing to be read. -/
  | empty (hnil : text = []) : ReadsAs text (.error .empty)
  /-- The text is not written as a byte size, or its digits alone are too large. -/
  | invalid (hne : text ≠ [])
      (hlarge : ∀ number multiplier, Spells text number multiplier → 2 ^ 64 ≤ number) :
      ReadsAs text (.error (.invalid (String.ofList text)))
  /-- The digits fit, but not their product with the suffix. -/
  | overflow {number multiplier : Nat} (hspells : Spells text number multiplier)
      (hnumber : number < 2 ^ 64) (hproduct : 2 ^ 64 ≤ number * multiplier) :
      ReadsAs text (.error (.overflow (String.ofList text)))
  | size {number multiplier : Nat} (hspells : Spells text number multiplier)
      (hnumber : number < 2 ^ 64) (hproduct : number * multiplier < 2 ^ 64) :
      ReadsAs text (.ok (number * multiplier))

/-- A text is read in one way only. -/
theorem ReadsAs.unique {text : List Char} {result other : Except ByteSizeError Nat}
    (h : ReadsAs text result) (hother : ReadsAs text other) : result = other := by
  -- Two ways to read a text differ in whether it spells a size, or in what fits of that size.
  cases h with
  | empty hnil =>
    cases hother with
    | empty => rfl
    | invalid hne => exact absurd hnil hne
    | overflow hspells => exact absurd hnil hspells.ne_nil
    | size hspells => exact absurd hnil hspells.ne_nil
  | invalid hne hlarge =>
    cases hother with
    | empty hnil => exact absurd hnil hne
    | invalid => rfl
    | overflow hspells hnumber => exact absurd (hlarge _ _ hspells) (Nat.not_le.2 hnumber)
    | size hspells hnumber => exact absurd (hlarge _ _ hspells) (Nat.not_le.2 hnumber)
  | overflow hspells hnumber hproduct =>
    cases hother with
    | empty hnil => exact absurd hnil hspells.ne_nil
    | invalid _ hlarge => exact absurd (hlarge _ _ hspells) (Nat.not_le.2 hnumber)
    | overflow => rfl
    | size hspells' _ hproduct' =>
      obtain ⟨rfl, rfl⟩ := hspells.unique hspells'
      exact absurd hproduct (Nat.not_le.2 hproduct')
  | size hspells hnumber hproduct =>
    cases hother with
    | empty hnil => exact absurd hnil hspells.ne_nil
    | invalid _ hlarge => exact absurd (hlarge _ _ hspells) (Nat.not_le.2 hnumber)
    | overflow hspells' _ hproduct' =>
      obtain ⟨rfl, rfl⟩ := hspells.unique hspells'
      exact absurd hproduct' (Nat.not_le.2 hproduct)
    | size hspells' =>
      obtain ⟨rfl, rfl⟩ := hspells.unique hspells'
      rfl

theorem readsAs_ok_iff {text : List Char} {n : Nat} :
    ReadsAs text (.ok n) ↔ ∃ number multiplier, Spells text number multiplier ∧
      number < 2 ^ 64 ∧ n = number * multiplier ∧ n < 2 ^ 64 := by
  constructor
  · intro h
    cases h with
    | size hspells hnumber hproduct => exact ⟨_, _, hspells, hnumber, rfl, hproduct⟩
  · rintro ⟨number, multiplier, hspells, hnumber, rfl, hproduct⟩
    exact .size hspells hnumber hproduct

theorem readsAs_empty_iff {text : List Char} : ReadsAs text (.error .empty) ↔ text = [] := by
  constructor
  · intro h
    cases h with
    | empty hnil => exact hnil
  · exact .empty

theorem readsAs_overflow_iff {text : List Char} {shown : String} :
    ReadsAs text (.error (.overflow shown)) ↔ shown = String.ofList text ∧
      ∃ number multiplier, Spells text number multiplier ∧
        number < 2 ^ 64 ∧ 2 ^ 64 ≤ number * multiplier := by
  constructor
  · intro h
    cases h with
    | overflow hspells hnumber hproduct => exact ⟨rfl, _, _, hspells, hnumber, hproduct⟩
  · rintro ⟨rfl, number, multiplier, hspells, hnumber, hproduct⟩
    exact .overflow hspells hnumber hproduct

theorem readsAs_invalid_iff {text : List Char} {shown : String} :
    ReadsAs text (.error (.invalid shown)) ↔ shown = String.ofList text ∧ text ≠ [] ∧
      ¬ ∃ number multiplier, Spells text number multiplier ∧ number < 2 ^ 64 := by
  constructor
  · intro h
    cases h with
    | invalid hne hlarge =>
      refine ⟨rfl, hne, ?_⟩
      rintro ⟨number, multiplier, hspells, hnumber⟩
      exact Nat.not_le.2 hnumber (hlarge number multiplier hspells)
  · rintro ⟨rfl, hne, hnone⟩
    refine .invalid hne fun number multiplier hspells => ?_
    exact Nat.not_lt.1 fun hnumber => hnone ⟨number, multiplier, hspells, hnumber⟩

theorem largestByteSize_lt_iff {n : Nat} : largestByteSize < n ↔ 2 ^ 64 ≤ n := Iff.rfl

/-- **Every text is read as the written form says.** -/
theorem readsAs_parseByteSize (text : String) :
    ReadsAs (Text.trimBlanks text.toList) (parseByteSize text) := by
  unfold parseByteSize
  dsimp only
  generalize Text.trimBlanks text.toList = trimmed
  by_cases hnil : trimmed = []
  · rw [if_pos (List.isEmpty_iff.2 hnil)]
    exact .empty hnil
  · rw [if_neg (mt List.isEmpty_iff.1 hnil)]
    cases hdigits : Text.natOfDigits? (dropPlus (splitSuffix trimmed).1) with
    | none =>
      refine .invalid hnil fun number multiplier hspells => ?_
      rw [spells_iff, hdigits] at hspells
      cases hspells.1
    | some number =>
      have hspells : Spells trimmed number (splitSuffix trimmed).2 := spells_iff.2 ⟨hdigits, rfl⟩
      dsimp only
      by_cases hnumber : largestByteSize < number
      · rw [if_pos hnumber]
        refine .invalid hnil fun other multiplier hother => ?_
        obtain ⟨rfl, -⟩ := hspells.unique hother
        exact largestByteSize_lt_iff.1 hnumber
      · rw [if_neg hnumber]
        rw [largestByteSize_lt_iff, Nat.not_le] at hnumber
        by_cases hproduct : largestByteSize < number * (splitSuffix trimmed).2
        · rw [if_pos hproduct]
          exact .overflow hspells hnumber (largestByteSize_lt_iff.1 hproduct)
        · rw [if_neg hproduct]
          rw [largestByteSize_lt_iff, Nat.not_le] at hproduct
          exact .size hspells hnumber hproduct

theorem parseByteSize_eq_iff {text : String} {result : Except ByteSizeError Nat} :
    parseByteSize text = result ↔ ReadsAs (Text.trimBlanks text.toList) result := by
  constructor
  · rintro rfl
    exact readsAs_parseByteSize text
  · exact (readsAs_parseByteSize text).unique

/-- **The language of byte sizes**, for every text.  Let `t` be what is left of it without the
blanks at both ends.

* It is read as a number if and only if `t` is an optional plus sign, decimal digits and an optional
  suffix, and the digits as well as the product fit into 64 bits.  The number is that product.
* It is refused as empty if and only if `t` is; as an overflow if and only if `t` is written like
  that and its digits fit, but not the product; and as invalid in all other cases.  The messages say
  which of them it is, the last two with `t`. -/
theorem parseByteSize_language (text : String) :
    Text.IsTrimOf text.toList (Text.trimBlanks text.toList) ∧
      let t := Text.trimBlanks text.toList
      (∀ n, parseByteSize text = .ok n ↔ ∃ number multiplier, Spells t number multiplier ∧
        number < 2 ^ 64 ∧ n = number * multiplier ∧ n < 2 ^ 64) ∧
      (parseByteSize text = .error .empty ↔ t = []) ∧
      (∀ shown, parseByteSize text = .error (.overflow shown) ↔ shown = String.ofList t ∧
        ∃ number multiplier, Spells t number multiplier ∧
          number < 2 ^ 64 ∧ 2 ^ 64 ≤ number * multiplier) ∧
      (∀ shown, parseByteSize text = .error (.invalid shown) ↔ shown = String.ofList t ∧ t ≠ [] ∧
        ¬ ∃ number multiplier, Spells t number multiplier ∧ number < 2 ^ 64) ∧
      ByteSizeError.empty.message = "empty byte size" ∧
      ∀ shown, (ByteSizeError.overflow shown).message = "byte size overflow: " ++ shown ∧
        (ByteSizeError.invalid shown).message = "invalid byte size: " ++ shown := by
  simp only [parseByteSize_eq_iff]
  exact ⟨Text.isTrimOf_trimBlanks text.toList, fun n => readsAs_ok_iff, readsAs_empty_iff,
    fun shown => readsAs_overflow_iff, fun shown => readsAs_invalid_iff, rfl, fun _ => ⟨rfl, rfl⟩⟩

/-- The two ways in which a size can be too large: wrapped around, both would be 16384. -/
example :
    parseByteSize "18014398509482000K" = .error (.overflow "18014398509482000K") ∧
      parseByteSize "18446744073709568000" = .error (.invalid "18446744073709568000") := by
  decide +kernel

end CommandLine

end CpioArchive
