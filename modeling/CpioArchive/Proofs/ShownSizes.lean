import CpioArchive.Proofs.Numerals
import CpioArchive.Proofs.Rounding
import Mathlib.Algebra.Order.Field.Rat
import Mathlib.Tactic.Linarith
import Mathlib.Tactic.NormNum
import Mathlib.Tactic.Ring

/-!
# What a shown size says

A byte count is shown as a number of tenths of a unit.  The text is read here as people read it, as
a rational number of bytes, and compared with the count that it stands for.

* `readSize?` — the number and the unit that a text shows; `readSize?_byteSize` says what they are
  for the text of a byte count;
* `near_shownSize` — how far from the count they are: half a tenth of the unit, and what the count
  loses when it is rounded to 53 bits;
* `quantity_shownSize_mono` — a larger count is never shown as less, and the reason for it at the
  places where the unit changes: a count that does not reach a unit is not shown as more than it,
  and one that reaches it is not shown as less;
* `shown_sizes` — both, for the sizes of a summary and of a progress display.
-/

namespace CpioArchive.Text

/-! ## Reading sizes -/

/-- A single byte as a unit. -/
def ByteUnit.byte : ByteUnit := ⟨"B", 1⟩

/-- The units that a text may show. -/
def ByteUnit.known : List ByteUnit := .byte :: ofProgress

/-- The number that is written with digits and perhaps a decimal point among them. -/
def decimalFraction? (text : List Char) : Option ℚ :=
  match text.splitOn '.' with
  | [whole] => (natOfDigits? whole).map fun n => (n : ℚ)
  | [whole, places] => do
    let n ← natOfDigits? whole
    let d ← natOfDigits? places
    return n + d / 10 ^ places.length
  | _ => none

/-- A size as a text shows it. -/
structure Shown where
  number : ℚ
  unit : ByteUnit

/-- How many bytes a shown size is. -/
def Shown.quantity (shown : Shown) : ℚ := shown.number * shown.unit.bytes

/-- The size that a text shows: a number, a blank, and the symbol of a unit. -/
def readSize? (text : String) : Option Shown :=
  match text.toList.splitOn ' ' with
  | [number, symbol] => do
    let unit ← ByteUnit.known.find? fun unit => unit.symbol.toList = symbol
    let number ← decimalFraction? number
    return ⟨number, unit⟩
  | _ => none

/-- What is shown of a byte count: tenths of the first unit it reaches, or else all of it. -/
def shownSize (units : List ByteUnit) (n : Nat) : Shown :=
  match units.find? (·.bytes ≤ n) with
  | some unit => ⟨unit.tenths n / 10, unit⟩
  | none => ⟨n, .byte⟩

theorem shownSize_of_find? {units : List ByteUnit} {n : Nat} {unit : ByteUnit}
    (h : units.find? (·.bytes ≤ n) = some unit) :
    shownSize units n = ⟨unit.tenths n / 10, unit⟩ := by
  rw [shownSize, h]

theorem shownSize_of_none {units : List ByteUnit} {n : Nat}
    (h : units.find? (·.bytes ≤ n) = none) : shownSize units n = ⟨n, .byte⟩ := by
  rw [shownSize, h]

namespace ByteUnit

/-- No two units have the same symbol. -/
theorem find?_symbol {unit : ByteUnit} (h : unit ∈ known) :
    known.find? (fun other => other.symbol.toList = unit.symbol.toList) = some unit := by
  simp only [known, ofProgress, List.mem_cons, List.not_mem_nil, or_false] at h
  rcases h with rfl | rfl | rfl | rfl | rfl <;> rfl

theorem blank_notMem_symbol {unit : ByteUnit} (h : unit ∈ known) : ' ' ∉ unit.symbol.toList := by
  simp only [known, ofProgress, List.mem_cons, List.not_mem_nil, or_false] at h
  rcases h with rfl | rfl | rfl | rfl | rfl <;> decide

/-- Every unit is a power of two. -/
theorem exists_bytes_eq {unit : ByteUnit} (h : unit ∈ known) : ∃ k, unit.bytes = 2 ^ k := by
  simp only [known, ofProgress, List.mem_cons, List.not_mem_nil, or_false] at h
  rcases h with rfl | rfl | rfl | rfl | rfl
  exacts [⟨0, rfl⟩, ⟨40, rfl⟩, ⟨30, rfl⟩, ⟨20, rfl⟩, ⟨10, rfl⟩]

theorem bytes_pos {unit : ByteUnit} (h : unit ∈ known) : 0 < unit.bytes := by
  obtain ⟨k, hk⟩ := exists_bytes_eq h
  rw [hk]
  exact Nat.two_pow_pos k

end ByteUnit

theorem decimalFraction?_decimalDigits (n : Nat) :
    decimalFraction? (decimalDigits n) = some (n : ℚ) := by
  have hpoint : '.' ∉ decimalDigits n := notMem_decimalDigits (by decide) n
  rw [decimalFraction?, List.splitOn_eq_singleton hpoint]
  simp [natOfDigits?_decimalDigits]

/-- Tenths with a decimal point in front of the last digit. -/
theorem decimalFraction?_tenths (t : Nat) :
    decimalFraction? (decimalDigits (t / 10) ++ '.' :: decimalDigits (t % 10)) =
      some ((t : ℚ) / 10) := by
  have hwhole : '.' ∉ decimalDigits (t / 10) := notMem_decimalDigits (by decide) _
  have hplace : '.' ∉ decimalDigits (t % 10) := notMem_decimalDigits (by decide) _
  have hlength : (decimalDigits (t % 10)).length = 1 := by
    rw [decimalDigits, Nat.toDigits_of_lt_base (Nat.mod_lt t (by decide)), List.length_singleton]
  have hdivision : (t : ℚ) = 10 * (t / 10 : Nat) + (t % 10 : Nat) := by
    exact_mod_cast (Nat.div_add_mod t 10).symm
  rw [decimalFraction?, List.splitOn_append_cons_self_of_not_mem hwhole,
    List.splitOn_eq_singleton hplace]
  simp only [natOfDigits?_decimalDigits, hlength, Option.bind_eq_bind, Option.bind_some,
    Option.pure_def, Option.some.injEq]
  rw [hdivision]
  ring

/-- A number, a blank and a symbol are read as what they are. -/
theorem readSize?_eq {text : String} {digits : List Char} {number : ℚ} {unit : ByteUnit}
    (htext : text.toList = digits ++ ' ' :: unit.symbol.toList) (hblank : ' ' ∉ digits)
    (hnumber : decimalFraction? digits = some number) (hunit : unit ∈ ByteUnit.known) :
    readSize? text = some ⟨number, unit⟩ := by
  rw [readSize?, htext, List.splitOn_append_cons_self_of_not_mem hblank,
    List.splitOn_eq_singleton (ByteUnit.blank_notMem_symbol hunit)]
  simp [ByteUnit.find?_symbol hunit, hnumber]

/-- **The text of a byte count is read as what is shown of it.** -/
theorem readSize?_byteSize {units : List ByteUnit} (hunits : units ⊆ ByteUnit.known) (n : Nat) :
    readSize? (byteSize units n) = some (shownSize units n) := by
  have hblank : ∀ m, ' ' ∉ decimalDigits m := notMem_decimalDigits (by decide)
  rw [byteSize]
  cases hfind : units.find? (·.bytes ≤ n) with
  | none =>
    rw [shownSize_of_none hfind]
    have htext : (decimal n ++ " B").toList =
        decimalDigits n ++ ' ' :: ByteUnit.byte.symbol.toList := by
      simp [decimal, ByteUnit.byte]
    exact readSize?_eq htext (hblank n) (decimalFraction?_decimalDigits n)
      (by simp [ByteUnit.known])
  | some unit =>
    rw [shownSize_of_find? hfind]
    have hunit : unit ∈ ByteUnit.known := hunits (List.mem_of_find?_eq_some hfind)
    refine readSize?_eq ?_ ?_ (decimalFraction?_tenths (unit.tenths n)) hunit
    · simp [decimal]
    · simp [hblank]

/-! ## How near a shown size is -/

/-- Ten times what the tenths of a unit amount to, against the count they are made of. -/
theorem ByteUnit.tenths_near {unit : ByteUnit} (hunit : 0 < unit.bytes) {n : Nat}
    (hn : n < 2 ^ 64) :
    2 * (unit.tenths n * unit.bytes) ≤ 20 * n + 20480 + unit.bytes ∧
      20 * n ≤ 2 * (unit.tenths n * unit.bytes) + 20480 + unit.bytes := by
  have hplace : lastPlace 53 n ≤ 2 ^ 11 := lastPlace_le (by decide) hn
  have hrounded := roundToBits_near 53 n
  have hnearest := isNearest_divideToEven (10 * roundToBits 53 n) hunit
  have hbelow := hnearest.le_add
  have habove := hnearest.add_le
  rw [tenths]
  omega

/-- **A size is shown to half a tenth of its unit**, and half of what the last of 53 bits counts. -/
theorem near_shownSize {units : List ByteUnit} (hunits : units ⊆ ByteUnit.known) {n : Nat}
    (hn : n < 2 ^ 64) :
    |(shownSize units n).quantity - n| ≤ ((shownSize units n).unit.bytes : ℚ) / 20 + 1024 := by
  cases hfind : units.find? (·.bytes ≤ n) with
  | none =>
    rw [shownSize_of_none hfind]
    simp only [Shown.quantity, ByteUnit.byte, Nat.cast_one, mul_one, sub_self, abs_zero]
    norm_num
  | some unit =>
    rw [shownSize_of_find? hfind]
    have hunit : unit ∈ ByteUnit.known := hunits (List.mem_of_find?_eq_some hfind)
    obtain ⟨hbelow, habove⟩ := ByteUnit.tenths_near (ByteUnit.bytes_pos hunit) hn
    have hbelow' : (2 * (unit.tenths n * unit.bytes) : ℚ) ≤ 20 * n + 20480 + unit.bytes := by
      exact_mod_cast hbelow
    have habove' : (20 * n : ℚ) ≤ 2 * (unit.tenths n * unit.bytes) + 20480 + unit.bytes := by
      exact_mod_cast habove
    rw [Shown.quantity, abs_le]
    constructor <;> linarith

/-! ## The order of shown sizes -/

namespace ByteUnit

theorem tenths_mono {unit : ByteUnit} (hunit : 0 < unit.bytes) {a b : Nat} (h : a ≤ b) :
    unit.tenths a ≤ unit.tenths b :=
  divideToEven_mono hunit (Nat.mul_le_mul_left 10 (roundToBits_mono (by decide) h))

/-- A count that reaches a unit is not shown as less than it. -/
theorem le_tenths {unit : ByteUnit} (hunit : unit ∈ known) {n : Nat} (h : unit.bytes ≤ n) :
    10 * unit.bytes ≤ unit.tenths n * unit.bytes := by
  obtain ⟨k, hk⟩ := exists_bytes_eq hunit
  have hrounded : unit.bytes ≤ roundToBits 53 n := by
    rw [hk] at h ⊢
    exact le_roundToBits (by decide) h
  exact le_divideToEven_mul (bytes_pos hunit) (Nat.dvd_mul_left _ _)
    (Nat.mul_le_mul_left 10 hrounded)

/-- A count that does not reach a larger unit is not shown as more than it. -/
theorem tenths_le {unit larger : ByteUnit} (hunit : unit ∈ known) (hlarger : larger ∈ known)
    {n : Nat} (h : unit.bytes ≤ n) (hlt : n < larger.bytes) :
    unit.tenths n * unit.bytes ≤ 10 * larger.bytes := by
  obtain ⟨j, hj⟩ := exists_bytes_eq hunit
  obtain ⟨k, hk⟩ := exists_bytes_eq hlarger
  have hrounded : roundToBits 53 n ≤ larger.bytes := by
    rw [hk] at hlt ⊢
    exact roundToBits_le hlt
  have hdvd : unit.bytes ∣ larger.bytes := by
    have hpowers : 2 ^ j < 2 ^ k := by
      rw [← hj, ← hk]
      exact Nat.lt_of_le_of_lt h hlt
    rw [hj, hk]
    exact Nat.pow_dvd_pow 2 (Nat.le_of_lt ((Nat.pow_lt_pow_iff_right (by decide)).1 hpowers))
  exact divideToEven_mul_le (bytes_pos hunit) (Dvd.dvd.mul_left hdvd 10)
    (Nat.mul_le_mul_left 10 hrounded)

end ByteUnit

/-- The unit of the larger of two counts is that of the smaller one too, or else the smaller count
does not reach it. -/
theorem find?_eq_or_lt {units : List ByteUnit} {a b : Nat} (h : a ≤ b) {unit : ByteUnit}
    (hfind : units.find? (·.bytes ≤ b) = some unit) :
    units.find? (·.bytes ≤ a) = some unit ∨ a < unit.bytes := by
  induction units with
  | nil => cases hfind
  | cons other units ih =>
    by_cases hb : other.bytes ≤ b
    · rw [List.find?_cons_of_pos (by simpa using hb)] at hfind
      cases hfind
      by_cases ha : unit.bytes ≤ a
      · exact .inl (List.find?_cons_of_pos (by simpa using ha))
      · exact .inr (Nat.lt_of_not_le ha)
    · have ha : ¬ other.bytes ≤ a := fun hle => hb (Nat.le_trans hle h)
      rw [List.find?_cons_of_neg (by simpa using hb)] at hfind
      rw [List.find?_cons_of_neg (by simpa using ha)]
      exact ih hfind

/-- A count that does not reach a unit is not shown as more than it. -/
theorem quantity_shownSize_le {units : List ByteUnit} (hunits : units ⊆ ByteUnit.known)
    {unit : ByteUnit} (hunit : unit ∈ ByteUnit.known) {n : Nat} (h : n < unit.bytes) :
    (shownSize units n).quantity ≤ unit.bytes := by
  cases hfind : units.find? (·.bytes ≤ n) with
  | none =>
    have hle : (n : ℚ) ≤ unit.bytes := by exact_mod_cast Nat.le_of_lt h
    rw [shownSize_of_none hfind]
    simpa [Shown.quantity, ByteUnit.byte] using hle
  | some smaller =>
    have hsmaller := hunits (List.mem_of_find?_eq_some hfind)
    have hreached : smaller.bytes ≤ n := by simpa using List.find?_some hfind
    have hle := ByteUnit.tenths_le hsmaller hunit hreached h
    have hle' : (smaller.tenths n * smaller.bytes : ℚ) ≤ 10 * unit.bytes := by exact_mod_cast hle
    rw [shownSize_of_find? hfind, Shown.quantity]
    linarith

/-- A count that is shown in a unit is not shown as less than it. -/
theorem le_quantity_shownSize {units : List ByteUnit} (hunits : units ⊆ ByteUnit.known)
    {unit : ByteUnit} {n : Nat} (hfind : units.find? (·.bytes ≤ n) = some unit) :
    unit.bytes ≤ (shownSize units n).quantity := by
  have hunit : unit ∈ ByteUnit.known := hunits (List.mem_of_find?_eq_some hfind)
  have hle := ByteUnit.le_tenths hunit (by simpa using List.find?_some hfind)
  have hle' : (10 * unit.bytes : ℚ) ≤ unit.tenths n * unit.bytes := by exact_mod_cast hle
  rw [shownSize_of_find? hfind, Shown.quantity]
  linarith

/-- **A larger count is not shown as less**, in whatever units. -/
theorem quantity_shownSize_mono {units : List ByteUnit} (hunits : units ⊆ ByteUnit.known)
    {a b : Nat} (h : a ≤ b) : (shownSize units a).quantity ≤ (shownSize units b).quantity := by
  cases hfind : units.find? (·.bytes ≤ b) with
  | none =>
    -- A count below one that reaches no unit reaches none either.
    have hfind' : units.find? (·.bytes ≤ a) = none := by
      simp only [List.find?_eq_none, decide_eq_true_eq] at hfind ⊢
      exact fun unit hmem hle => hfind unit hmem (Nat.le_trans hle h)
    have hle : (a : ℚ) ≤ b := by exact_mod_cast h
    rw [shownSize_of_none hfind, shownSize_of_none hfind']
    simpa [Shown.quantity, ByteUnit.byte] using hle
  | some unit =>
    have hunit : unit ∈ ByteUnit.known := hunits (List.mem_of_find?_eq_some hfind)
    rcases find?_eq_or_lt h hfind with hsame | hlt
    · have hle : (unit.tenths a : ℚ) ≤ unit.tenths b := by
        exact_mod_cast ByteUnit.tenths_mono (ByteUnit.bytes_pos hunit) h
      have hpos : (0 : ℚ) ≤ unit.bytes := Nat.cast_nonneg _
      rw [shownSize_of_find? hfind, shownSize_of_find? hsame, Shown.quantity, Shown.quantity]
      exact mul_le_mul_of_nonneg_right (div_le_div_of_nonneg_right hle (by norm_num)) hpos
    · exact (quantity_shownSize_le hunits hunit hlt).trans (le_quantity_shownSize hunits hfind)

/-! ## Both displays -/

/-- A count that does not reach the largest unit of a progress display is shown there as it is in a
summary. -/
theorem byteSize_ofProgress_eq {n : Nat} (h : n < 2 ^ 40) :
    byteSize ByteUnit.ofProgress n = byteSize ByteUnit.ofSummary n := by
  have hlarge : ¬ ByteUnit.terabyte.bytes ≤ n := Nat.not_le.2 h
  have hfind : ByteUnit.ofProgress.find? (·.bytes ≤ n) = ByteUnit.ofSummary.find? (·.bytes ≤ n) :=
    List.find?_cons_of_neg (by simpa using hlarge)
  rw [byteSize, byteSize, hfind]

/-- **Shown sizes are faithful and in order**, in a summary and in a progress display.

* Every byte count below `2 ^ 64` is shown as a text that says a number of some unit, and this is at
  most a twentieth of that unit and 1024 bytes away from the count.
* Of two counts the larger one is not shown as less, also where the two are shown in different
  units.
* Below `2 ^ 40` both displays show the same text. -/
theorem shown_sizes :
    (∀ units ∈ [ByteUnit.ofSummary, ByteUnit.ofProgress],
      (∀ n, n < 2 ^ 64 → ∃ shown, readSize? (byteSize units n) = some shown ∧
        |shown.quantity - n| ≤ (shown.unit.bytes : ℚ) / 20 + 1024) ∧
      ∀ a b, a ≤ b → ∃ less more, readSize? (byteSize units a) = some less ∧
        readSize? (byteSize units b) = some more ∧ less.quantity ≤ more.quantity) ∧
      ∀ n, n < 2 ^ 40 → byteSize ByteUnit.ofProgress n = byteSize ByteUnit.ofSummary n := by
  refine ⟨fun units hmem => ?_, fun n h => byteSize_ofProgress_eq h⟩
  have hunits : units ⊆ ByteUnit.known := by
    simp only [List.mem_cons, List.not_mem_nil, or_false] at hmem
    rcases hmem with rfl | rfl
    · exact List.Subset.trans (List.subset_cons_self _ _) (List.subset_cons_self _ _)
    · exact List.subset_cons_self _ _
  constructor
  · intro n hn
    exact ⟨_, readSize?_byteSize hunits n, near_shownSize hunits hn⟩
  · intro a b h
    exact ⟨_, _, readSize?_byteSize hunits a, readSize?_byteSize hunits b,
      quantity_shownSize_mono hunits h⟩

/-- The largest count of 64 bits, of which the last place is lost; the step from kilobytes to
megabytes, across which a text stands for the same quantity in both units; and the last count that
both displays show alike. -/
theorem shown_sizes_at_limits :
    (18446744073709551615 < 2 ^ 64 ∧ ∃ shown, readSize? "17179869184.0 GB" = some shown ∧
      |shown.quantity - (18446744073709551615 : Nat)| ≤ (shown.unit.bytes : ℚ) / 20 + 1024) ∧
      (1048575 ≤ 1048576 ∧ ∃ less more, readSize? "1024.0 KB" = some less ∧
        readSize? "1.0 MB" = some more ∧ less.quantity ≤ more.quantity) ∧
      1099511627775 < 2 ^ 40 ∧ byteSize ByteUnit.ofProgress 1099511627775 = "1024.0 GB" := by
  obtain ⟨hsizes, hsame⟩ := shown_sizes
  obtain ⟨hnear, horder⟩ := hsizes ByteUnit.ofSummary (List.mem_cons_self ..)
  have hlargest : byteSize ByteUnit.ofSummary 18446744073709551615 = "17179869184.0 GB" := by
    decide +kernel
  have hless : byteSize ByteUnit.ofSummary 1048575 = "1024.0 KB" := by decide +kernel
  have hmore : byteSize ByteUnit.ofSummary 1048576 = "1.0 MB" := by decide +kernel
  have hlast : byteSize ByteUnit.ofSummary 1099511627775 = "1024.0 GB" := by decide +kernel
  refine ⟨⟨by decide, ?_⟩, ⟨by decide, ?_⟩, by decide, ?_⟩
  · rw [← hlargest]
    exact hnear 18446744073709551615 (by decide)
  · rw [← hless, ← hmore]
    exact horder 1048575 1048576 (by decide)
  · rw [← hlast]
    exact hsame 1099511627775 (by decide)

end CpioArchive.Text
