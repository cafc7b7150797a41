/-!
# Written numbers

Decimal and hexadecimal digits, and the decimal form with a comma between groups of three digits.
-/

namespace CpioArchive.Text

/-- The decimal digits of a number, most significant first. -/
def decimalDigits (n : Nat) : List Char := Nat.toDigits 10 n

/-- A number in decimal. -/
def decimal (n : Nat) : String := String.ofList (decimalDigits n)

/-- A number in lower-case hexadecimal, after `0x`. -/
def hexadecimal (n : Nat) : String := "0x" ++ String.ofList (Nat.toDigits 16 n)

/-- A number in decimal with at least `width` digits, zeros in front. -/
def zeroPadded (width n : Nat) : String :=
  let digits := decimalDigits n
  String.ofList (List.replicate (width - digits.length) '0' ++ digits)

/-- Puts a comma after every third digit that has another one behind it. -/
def insertCommas : List Char → List Char
  | a :: b :: c :: d :: rest => a :: b :: c :: ',' :: insertCommas (d :: rest)
  | short => short

/-- A number in decimal with a comma between groups of three digits, counted from the right. -/
def grouped (n : Nat) : String :=
  String.ofList (insertCommas (decimalDigits n).reverse).reverse

/-- The value of a decimal digit. -/
def digitValue? (c : Char) : Option Nat :=
  if '0' ≤ c ∧ c ≤ '9' then some (c.toNat - '0'.toNat) else none

/-- The number that a non-empty run of decimal digits denotes. -/
def natOfDigits? (digits : List Char) : Option Nat :=
  if digits.isEmpty then none
  else
    (digits.mapM digitValue?).map fun values => values.foldl (fun n d => n * 10 + d) 0

end CpioArchive.Text
