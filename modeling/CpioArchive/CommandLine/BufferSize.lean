import CpioArchive.Text.Blank
import CpioArchive.Text.Numeral
/-!
# Byte sizes on the command line

A byte size is written as an optional plus sign, decimal digits, and an optional suffix: `K` for
1024 and `M` for 1024 times 1024.  Blanks around it do not matter.  Sizes end at 64 bits.
-/

namespace CpioArchive.CommandLine

/-- Why a text is no byte size. -/
inductive ByteSizeError where
  /-- There is nothing but blanks. -/
  | empty
  /-- The suffix makes the number too large. -/
  | overflow (text : String)
  /-- It is not written as a byte size, or its digits alone are too large. -/
  | invalid (text : String)
  deriving DecidableEq

/-- The text of an error. -/
def ByteSizeError.message : ByteSizeError → String
  | empty => "empty byte size"
  | overflow text => "byte size overflow: " ++ text
  | invalid text => "invalid byte size: " ++ text

/-- The largest byte size. -/
def largestByteSize : Nat := 0xFFFFFFFFFFFFFFFF

/-- A text without its suffix, and what the suffix multiplies by. -/
def splitSuffix (text : List Char) : List Char × Nat :=
  match text.getLast? with
  | some 'M' => (text.dropLast, 1024 * 1024)
  | some 'K' => (text.dropLast, 1024)
  | _ => (text, 1)

/-- A text without a plus sign in front. -/
def dropPlus : List Char → List Char
  | '+' :: rest => rest
  | text => text

/-- The number of bytes that a text denotes. -/
def parseByteSize (text : String) : Except ByteSizeError Nat :=
  let trimmed := Text.trimBlanks text.toList
  if trimmed.isEmpty then .error .empty
  else
    let (digits, multiplier) := splitSuffix trimmed
    match Text.natOfDigits? (dropPlus digits) with
    | none => .error (.invalid (String.ofList trimmed))
    | some n =>
      if largestByteSize < n then .error (.invalid (String.ofList trimmed))
      else if largestByteSize < n * multiplier then .error (.overflow (String.ofList trimmed))
      else .ok (n * multiplier)

end CpioArchive.CommandLine
