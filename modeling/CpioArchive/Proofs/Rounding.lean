import CpioArchive.Text.ByteSize
import Mathlib.Algebra.Ring.Nat

/-!
# Rounding

A quotient is rounded to the nearest whole number, a tie to the even one, and a number to the
nearest that has no more than so many significant bits.

* `IsNearest` — what a rounded quotient is; there is always exactly one (`isNearest_divideToEven`,
  `IsNearest.unique`), and a larger quotient is never rounded to less (`IsNearest.mono`);
* `divideToEven_mul_le`, `le_divideToEven_mul` — rounding to multiples never passes a multiple by;
* `roundToBits_mono`, `roundToBits_le`, `le_roundToBits` — rounding to significant bits keeps the
  order, and never passes a power of two by;
* `roundToBits_near` — how far from a number the rounded one is.
-/

namespace CpioArchive.Text

/-! ## Quotients -/

/-- `IsNearest n d q` says that `q` is the whole number nearest to `n / d`, or the even one of two
that are. -/
structure IsNearest (n d q : Nat) : Prop where
  le_add : 2 * (q * d) ≤ 2 * n + d
  add_le : 2 * n ≤ 2 * (q * d) + d
  even_of_tie : 2 * (q * d) = 2 * n + d ∨ 2 * n = 2 * (q * d) + d → q % 2 = 0

/-- **A quotient is rounded to the nearest whole number**, a tie to the even one. -/
theorem isNearest_divideToEven (n : Nat) {d : Nat} (hd : 0 < d) :
    IsNearest n d (divideToEven n d) := by
  have hdivision : n / d * d + n % d = n := Nat.div_add_mod' n d
  have hremainder : n % d < d := Nat.mod_lt n hd
  have hnext : (n / d + 1) * d = n / d * d + d := Nat.succ_mul (n / d) d
  unfold divideToEven
  dsimp only
  split
  next hbelow => exact ⟨by omega, by omega, by omega⟩
  next hbelow =>
    split
    next habove => exact ⟨by omega, by omega, by omega⟩
    next habove =>
      split
      next heven => exact ⟨by omega, by omega, fun _ => heven⟩
      next hodd => exact ⟨by omega, by omega, by omega⟩

/-- **The larger quotient is not rounded to less.** -/
theorem IsNearest.mono {m n d p q : Nat} (hp : IsNearest m d p) (hq : IsNearest n d q)
    (hd : 0 < d) (h : m ≤ n) : p ≤ q := by
  refine Nat.le_of_not_lt fun hlt => ?_
  -- Otherwise both quotients lie in the middle between `q` and `p`, of which one is odd.
  have hstep : (q + 1) * d ≤ p * d := Nat.mul_le_mul_right d hlt
  have hnext : (q + 1) * d = q * d + d := Nat.succ_mul q d
  have hbelow := hp.le_add
  have habove := hq.add_le
  have hpeven : p % 2 = 0 := hp.even_of_tie (.inl (by omega))
  have hqeven : q % 2 = 0 := hq.even_of_tie (.inr (by omega))
  have hneighbours : p * d = (q + 1) * d := by omega
  have heq : p = q + 1 := Nat.eq_of_mul_eq_mul_right hd hneighbours
  omega

/-- No two numbers are the rounded quotient. -/
theorem IsNearest.unique {n d p q : Nat} (hp : IsNearest n d p) (hq : IsNearest n d q)
    (hd : 0 < d) : p = q :=
  Nat.le_antisymm (hp.mono hq hd (Nat.le_refl n)) (hq.mono hp hd (Nat.le_refl n))

theorem isNearest_mul (q : Nat) {d : Nat} (hd : 0 < d) : IsNearest (q * d) d q :=
  ⟨by omega, by omega, by omega⟩

theorem divideToEven_mul (q : Nat) {d : Nat} (hd : 0 < d) : divideToEven (q * d) d = q :=
  (isNearest_divideToEven _ hd).unique (isNearest_mul q hd) hd

theorem divideToEven_mono {m n d : Nat} (hd : 0 < d) (h : m ≤ n) :
    divideToEven m d ≤ divideToEven n d :=
  (isNearest_divideToEven m hd).mono (isNearest_divideToEven n hd) hd h

/-- What is at most a multiple is rounded to at most that multiple. -/
theorem divideToEven_mul_le {n m d : Nat} (hd : 0 < d) (hdvd : d ∣ m) (h : n ≤ m) :
    divideToEven n d * d ≤ m := by
  obtain ⟨q, rfl⟩ := hdvd
  rw [Nat.mul_comm d q] at h ⊢
  have hle := divideToEven_mono hd h
  rw [divideToEven_mul q hd] at hle
  exact Nat.mul_le_mul_right d hle

/-- What is at least a multiple is rounded to at least that multiple. -/
theorem le_divideToEven_mul {n m d : Nat} (hd : 0 < d) (hdvd : d ∣ m) (h : m ≤ n) :
    m ≤ divideToEven n d * d := by
  obtain ⟨q, rfl⟩ := hdvd
  rw [Nat.mul_comm d q] at h ⊢
  have hle := divideToEven_mono hd h
  rw [divideToEven_mul q hd] at hle
  exact Nat.mul_le_mul_right d hle

/-! ## Significant bits -/

/-- What the last of so many significant bits of a number counts. -/
def lastPlace (bits n : Nat) : Nat := 2 ^ (Nat.log2 n + 1 - bits)

theorem lastPlace_pos (bits n : Nat) : 0 < lastPlace bits n := Nat.two_pow_pos _

theorem roundToBits_eq (bits n : Nat) :
    roundToBits bits n = divideToEven n (lastPlace bits n) * lastPlace bits n := rfl

theorem lastPlace_le {bits n k : Nat} (hbits : 0 < bits) (h : n < 2 ^ (bits + k)) :
    lastPlace bits n ≤ 2 ^ k := by
  refine Nat.pow_le_pow_right (by decide) ?_
  rcases Nat.eq_zero_or_pos n with rfl | hpos
  · rw [Nat.log2_zero]
    omega
  · have hlog := (Nat.log2_lt (Nat.ne_of_gt hpos)).2 h
    omega

/-- **A rounded number is within half of its last place.** -/
theorem roundToBits_near (bits n : Nat) :
    2 * roundToBits bits n ≤ 2 * n + lastPlace bits n ∧
      2 * n ≤ 2 * roundToBits bits n + lastPlace bits n := by
  have hnearest := isNearest_divideToEven n (lastPlace_pos bits n)
  exact ⟨hnearest.le_add, hnearest.add_le⟩

/-- What is less than a power of two is rounded to that power at most. -/
theorem roundToBits_le {bits n k : Nat} (h : n < 2 ^ k) : roundToBits bits n ≤ 2 ^ k := by
  rcases Nat.eq_zero_or_pos n with rfl | hpos
  · exact Nat.le_trans (divideToEven_mul_le (lastPlace_pos bits 0) (Nat.dvd_zero _)
      (Nat.le_refl 0)) (Nat.zero_le _)
  · have hlog := (Nat.log2_lt (Nat.ne_of_gt hpos)).2 h
    have hdvd : lastPlace bits n ∣ 2 ^ k := Nat.pow_dvd_pow 2 (by omega)
    exact divideToEven_mul_le (lastPlace_pos bits n) hdvd (Nat.le_of_lt h)

/-- What is at least a power of two is rounded to that power at least. -/
theorem le_roundToBits {bits n k : Nat} (hbits : 0 < bits) (h : 2 ^ k ≤ n) :
    2 ^ k ≤ roundToBits bits n := by
  have hne : n ≠ 0 := Nat.ne_of_gt (Nat.lt_of_lt_of_le (Nat.two_pow_pos k) h)
  have hlog : k ≤ n.log2 := (Nat.le_log2 hne).2 h
  have hdvd : lastPlace bits n ∣ 2 ^ n.log2 := Nat.pow_dvd_pow 2 (by omega)
  calc 2 ^ k ≤ 2 ^ n.log2 := Nat.pow_le_pow_right (by decide) hlog
    _ ≤ roundToBits bits n :=
      le_divideToEven_mul (lastPlace_pos bits n) hdvd (Nat.log2_self_le hne)

/-- **The larger number is not rounded to less.** -/
theorem roundToBits_mono {bits m n : Nat} (hbits : 0 < bits) (h : m ≤ n) :
    roundToBits bits m ≤ roundToBits bits n := by
  rcases Nat.eq_zero_or_pos n with rfl | hpos
  · rw [Nat.eq_zero_of_le_zero h]
  have hne : n ≠ 0 := Nat.ne_of_gt hpos
  by_cases hlt : m < 2 ^ n.log2
  · -- The power of two between them is one that neither passes by.
    exact Nat.le_trans (roundToBits_le hlt) (le_roundToBits hbits (Nat.log2_self_le hne))
  · have hle : 2 ^ n.log2 ≤ m := Nat.le_of_not_lt hlt
    have hm : m ≠ 0 := Nat.ne_of_gt (Nat.lt_of_lt_of_le (Nat.two_pow_pos _) hle)
    have hlog : m.log2 = n.log2 :=
      (Nat.log2_eq_iff hm).2 ⟨hle, Nat.lt_of_le_of_lt h Nat.lt_log2_self⟩
    have hplace : lastPlace bits m = lastPlace bits n := by rw [lastPlace, lastPlace, hlog]
    rw [roundToBits_eq, roundToBits_eq, hplace]
    exact Nat.mul_le_mul_right _ (divideToEven_mono (lastPlace_pos bits n) h)

end CpioArchive.Text
