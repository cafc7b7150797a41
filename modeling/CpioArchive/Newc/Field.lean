import CpioArchive.Bytes
/-!
# Header fields

Every number of a newc header is written as eight lower-case hexadecimal digits.  `encode` writes
one and `decode?` reads one back, refusing every other spelling.
-/

namespace CpioArchive.Newc.Field

/-- How many digits a field has. -/
def width : Nat := 8

/-- The largest number a field can hold. -/
def largest : Nat := 0xFFFFFFFF

/-- The digit for a number below 16. -/
def digit (d : Nat) : UInt8 := if d < 10 then UInt8.ofNat (48 + d) else UInt8.ofNat (87 + d)

/-- The number that a digit stands for. -/
def digitValue? (b : UInt8) : Option Nat :=
  if 48 ≤ b ∧ b ≤ 57 then some (b.toNat - 48)
  else if 97 ≤ b ∧ b ≤ 102 then some (b.toNat - 87)
  else none

/-- The last `count` hexadecimal digits of a number, most significant first. -/
def digits : Nat → Nat → Bytes
  | 0, _ => []
  | count + 1, n => digits count (n / 16) ++ [digit (n % 16)]

/-- The field that holds a number. -/
def encode (n : Nat) : Bytes := digits width n

/-- The number that hexadecimal digits denote. -/
def decode? (field : Bytes) : Option Nat :=
  (field.mapM digitValue?).map fun values => values.foldl (fun n d => n * 16 + d) 0

@[simp] theorem length_digits (count n : Nat) : (digits count n).length = count := by
  induction count generalizing n with
  | zero => rfl
  | succ count ih => simp [digits, ih]

@[simp] theorem length_encode (n : Nat) : (encode n).length = width := length_digits width n

end CpioArchive.Newc.Field
