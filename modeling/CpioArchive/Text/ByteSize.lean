import CpioArchive.Text.Numeral
/-!
# Byte counts for people

A byte count is shown in the largest unit it reaches, with one decimal place.  The count is first
rounded to 53 significant bits and the quotient then to tenths; both roundings go to the nearest
value, a tie to the even neighbour.  All of it is exact arithmetic on natural numbers.
-/

namespace CpioArchive.Text

/-- The quotient rounded to the nearest whole number, a tie to the even one. -/
def divideToEven (n d : Nat) : Nat :=
  let q := n / d
  let r := n % d
  if 2 * r < d then q else if d < 2 * r then q + 1 else if q % 2 = 0 then q else q + 1

/-- A number rounded to at most `bits` significant bits. -/
def roundToBits (bits n : Nat) : Nat :=
  let unit := Nat.pow 2 ((Nat.log2 n + 1) - bits)
  divideToEven n unit * unit

/-- A unit of byte counts. -/
structure ByteUnit where
  /-- What is printed behind the number. -/
  symbol : String
  /-- How many bytes make one. -/
  bytes : Nat

namespace ByteUnit

/-- 1024 bytes. -/
def kilobyte : ByteUnit := ⟨"KB", 1024⟩

/-- 1024 kilobytes. -/
def megabyte : ByteUnit := ⟨"MB", 1024 * 1024⟩

/-- 1024 megabytes. -/
def gigabyte : ByteUnit := ⟨"GB", 1024 * 1024 * 1024⟩

/-- 1024 gigabytes. -/
def terabyte : ByteUnit := ⟨"TB", 1024 * 1024 * 1024 * 1024⟩

/-- The units of a summary, largest first. -/
def ofSummary : List ByteUnit := [gigabyte, megabyte, kilobyte]

/-- The units of a progress display, largest first. -/
def ofProgress : List ByteUnit := [terabyte, gigabyte, megabyte, kilobyte]

/-- How many tenths of the unit are shown for a byte count. -/
def tenths (unit : ByteUnit) (n : Nat) : Nat := divideToEven (10 * roundToBits 53 n) unit.bytes

end ByteUnit

/-- A byte count in the first of the units that it reaches, or in bytes. -/
def byteSize (units : List ByteUnit) (n : Nat) : String :=
  match units.find? (·.bytes ≤ n) with
  | some unit =>
    let tenths := unit.tenths n
    decimal (tenths / 10) ++ "." ++ decimal (tenths % 10) ++ " " ++ unit.symbol
  | none => decimal n ++ " B"

end CpioArchive.Text
