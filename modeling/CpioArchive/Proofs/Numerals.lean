import CpioArchive.Proofs.ByteSizes

/-!
# Numbers as texts

A number is written in decimal, and for people with commas between its digits.  Neither form loses
anything.

* `natOfDigits?_decimalDigits` — the digits of a number are read as that number;
* `filter_insertCommas`, `areGroups_splitOn` — the digits are still there when commas are put among
  them, in groups of three behind a first group that has at least one digit;
* `grouped_numbers` — what a number with commas looks like, and that no two numbers look the same.
-/

namespace CpioArchive.Text

/-! ## Decimal digits -/

theorem isDigit_of_mem_decimalDigits {n : Nat} {c : Char} (h : c ∈ decimalDigits n) :
    c.isDigit = true := Nat.isDigit_of_mem_toDigits (by decide) (Nat.le_refl 10) h

/-- Whatever is no digit separates numbers from what stands beside them. -/
theorem notMem_decimalDigits {c : Char} (hc : c.isDigit = false) (n : Nat) :
    c ∉ decimalDigits n := by
  intro hmem
  rw [isDigit_of_mem_decimalDigits hmem] at hc
  cases hc

theorem numberOf_eq_ofDigitChars (digits : List Char) :
    numberOf digits = Nat.ofDigitChars 10 digits 0 := by
  rw [numberOf, Nat.ofDigits_eq_foldr, List.map_reverse, List.foldr_reverse, List.foldl_map,
    Nat.ofDigitChars_eq_foldl]
  simp only [Nat.cast_id, Nat.add_comm]

theorem numberOf_decimalDigits (n : Nat) : numberOf (decimalDigits n) = n := by
  rw [numberOf_eq_ofDigitChars, decimalDigits, Nat.ofDigitChars_ten_toDigits]

/-- **The digits of a number are read as that number.** -/
theorem natOfDigits?_decimalDigits (n : Nat) : natOfDigits? (decimalDigits n) = some n :=
  natOfDigits?_eq_some_iff.2 ⟨Nat.toDigits_ne_nil, fun _ hc => isDigit_of_mem_decimalDigits hc,
    (numberOf_decimalDigits n).symm⟩

/-! ## Commas between digits -/

/-- A text without its commas. -/
def withoutCommas (text : String) : String := String.ofList (text.toList.filter (· != ','))

/-- What the commas of a text separate. -/
def commaGroups (text : String) : List (List Char) := text.toList.splitOn ','

/-- The groups that the digits of a number are put into: one to three digits, and behind them any
number of groups of three. -/
inductive AreGroups : List (List Char) → Prop
  | intro {first : List Char} {others : List (List Char)}
      (hfirst : 1 ≤ first.length ∧ first.length ≤ 3)
      (hothers : ∀ group ∈ others, group.length = 3)
      (hdigits : ∀ group ∈ first :: others, ∀ c ∈ group, c.isDigit = true) :
      AreGroups (first :: others)

theorem AreGroups.concat {groups : List (List Char)} {a b c : Char} (h : AreGroups groups)
    (ha : a.isDigit = true) (hb : b.isDigit = true) (hc : c.isDigit = true) :
    AreGroups (groups ++ [[c, b, a]]) := by
  obtain @⟨first, others, hfirst, hothers, hdigits⟩ := h
  rw [List.cons_append]
  refine .intro hfirst ?_ ?_
  · intro group hgroup
    rcases List.mem_append.1 hgroup with hgroup | hgroup
    · exact hothers group hgroup
    · rw [List.mem_singleton.1 hgroup]
      rfl
  · rw [← List.cons_append]
    intro group hgroup
    rcases List.mem_append.1 hgroup with hgroup | hgroup
    · exact hdigits group hgroup
    · rw [List.mem_singleton.1 hgroup]
      simp [ha, hb, hc]

/-- Commas come between digits, and nothing else does. -/
theorem filter_insertCommas {digits : List Char} (hdigits : ∀ c ∈ digits, c.isDigit = true) :
    (insertCommas digits).filter (· != ',') = digits := by
  have hkeep : ∀ c : Char, c.isDigit = true → (c != ',') = true := by
    rintro c hc
    rw [bne_iff_ne]
    rintro rfl
    cases hc
  fun_induction insertCommas digits with
  | case1 a b c d rest ih =>
    simp only [List.forall_mem_cons] at hdigits
    obtain ⟨ha, hb, hc, hrest⟩ := hdigits
    rw [List.filter_cons, if_pos (hkeep a ha), List.filter_cons, if_pos (hkeep b hb),
      List.filter_cons, if_pos (hkeep c hc), List.filter_cons, if_neg (by decide),
      ih (List.forall_mem_cons.2 hrest)]
  | case2 short => exact List.filter_eq_self.2 fun c hc => hkeep c (hdigits c hc)

/-- **Every comma has three digits behind it.**  The digits are given from the last one on, as they
are counted. -/
theorem areGroups_splitOn {digits : List Char} (hne : digits ≠ [])
    (hdigits : ∀ c ∈ digits, c.isDigit = true) :
    AreGroups ((insertCommas digits).reverse.splitOn ',') := by
  have hnone : ∀ group : List Char, (∀ c ∈ group, c.isDigit = true) → ',' ∉ group :=
    fun group hgroup hmem => absurd (hgroup ',' hmem) (by decide)
  -- The recursion takes the last group off; the first one is what is too short for another comma.
  fun_induction insertCommas digits with
  | case1 a b c d rest ih =>
    have hgroup : ∀ e ∈ [c, b, a], e.isDigit = true := by
      intro e he
      exact hdigits e (by simp only [List.mem_cons, List.not_mem_nil] at he ⊢; tauto)
    simp only [List.forall_mem_cons] at hdigits
    obtain ⟨ha, hb, hc, hrest⟩ := hdigits
    have hreverse : (a :: b :: c :: ',' :: insertCommas (d :: rest)).reverse =
        (insertCommas (d :: rest)).reverse ++ ',' :: [c, b, a] := by simp
    rw [hreverse, List.splitOn_append_cons_self, List.splitOn_eq_singleton (hnone _ hgroup)]
    exact (ih (List.cons_ne_nil _ _) (List.forall_mem_cons.2 hrest)).concat ha hb hc
  | case2 short hshort =>
    have hreverse : ∀ c ∈ short.reverse, c.isDigit = true :=
      fun c hc => hdigits c (List.mem_reverse.1 hc)
    have hlength : short.length ≤ 3 := by
      match short, hshort with
      | [], _ | [_], _ | [_, _], _ | [_, _, _], _ => simp
      | a :: b :: c :: d :: rest, hshort => exact absurd rfl (hshort a b c d rest)
    rw [List.splitOn_eq_singleton (hnone _ hreverse)]
    refine .intro ⟨?_, ?_⟩ nofun ?_
    · rw [List.length_reverse]
      exact List.length_pos_iff.2 hne
    · rwa [List.length_reverse]
    · exact List.forall_mem_singleton.2 hreverse

/-! ## Numbers with commas -/

theorem withoutCommas_grouped (n : Nat) : withoutCommas (grouped n) = decimal n := by
  have hdigits : ∀ c ∈ (decimalDigits n).reverse, c.isDigit = true :=
    fun c hc => isDigit_of_mem_decimalDigits (List.mem_reverse.1 hc)
  rw [withoutCommas, grouped, String.toList_ofList, List.filter_reverse,
    filter_insertCommas hdigits, List.reverse_reverse, decimal]

theorem areGroups_grouped (n : Nat) : AreGroups (commaGroups (grouped n)) := by
  rw [commaGroups, grouped, String.toList_ofList]
  refine areGroups_splitOn ?_ fun c hc => isDigit_of_mem_decimalDigits (List.mem_reverse.1 hc)
  rw [ne_eq, List.reverse_eq_nil_iff]
  exact Nat.toDigits_ne_nil

/-- A text whose commas separate groups of digits begins with a digit. -/
theorem AreGroups.exists_toList_eq {text : String} (h : AreGroups (commaGroups text)) :
    ∃ c rest, text.toList = c :: rest ∧ c.isDigit = true := by
  have htext : [','].intercalate (commaGroups text) = text.toList := List.intercalate_splitOn ','
  generalize commaGroups text = groups at h htext
  obtain @⟨first, others, hfirst, -, hdigits⟩ := h
  cases first with
  | nil => exact absurd hfirst.1 (by decide)
  | cons c more =>
    rw [List.intercalate_cons_cons_left] at htext
    exact ⟨c, _, htext.symm, hdigits _ (List.mem_cons_self ..) c (List.mem_cons_self ..)⟩

theorem decimal_injective : Function.Injective decimal := by
  intro m n h
  have hdigits : decimalDigits m = decimalDigits n := String.ofList_injective h
  rw [← Option.some.injEq, ← natOfDigits?_decimalDigits, hdigits, natOfDigits?_decimalDigits]

/-- **Numbers with commas**, of any size.  Without the commas such a text is the number in decimal,
which is read as the number.  It begins with a digit, and its commas separate groups of digits: one
to three in the first group, and three in every other.  No two numbers have the same text. -/
theorem grouped_numbers :
    (∀ n, withoutCommas (grouped n) = decimal n ∧ natOfDigits? (decimalDigits n) = some n ∧
      (∃ c rest, (grouped n).toList = c :: rest ∧ c.isDigit = true) ∧
      AreGroups (commaGroups (grouped n))) ∧
      Function.Injective grouped := by
  refine ⟨fun n => ?_, fun m n h => ?_⟩
  · have hgroups := areGroups_grouped n
    exact ⟨withoutCommas_grouped n, natOfDigits?_decimalDigits n, hgroups.exists_toList_eq, hgroups⟩
  · apply decimal_injective
    rw [← withoutCommas_grouped, h, withoutCommas_grouped]

/-- Numbers whose digits just fill their groups, and with one digit more. -/
example : grouped 100 = "100" ∧ grouped 999999 = "999,999" ∧ grouped 1000000 = "1,000,000" := by
  decide +kernel

end CpioArchive.Text
