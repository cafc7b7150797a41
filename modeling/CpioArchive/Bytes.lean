/-!
# Byte strings

Paths, entry names, file contents and archives are byte strings.  None of them need be text: a
path may hold any byte but NUL, and an entry name any byte at all.  This module fixes their type
and the few operations that everything else is written with.
-/

namespace CpioArchive

/-- A byte string, first byte first. -/
abbrev Bytes := List UInt8

/-- The NUL byte, which ends names and pads records. -/
def nul : UInt8 := 0

/-- The path separator, `/`. -/
def slash : UInt8 := 47

/-- A run of `n` NUL bytes. -/
def nuls (n : Nat) : Bytes := List.replicate n nul

@[simp] theorem length_nuls (n : Nat) : (nuls n).length = n := by simp [nuls]

theorem nuls_add (m n : Nat) : nuls (m + n) = nuls m ++ nuls n := by
  simp [nuls]

/-- The bytes of a text in UTF-8. -/
def bytesOfText (text : String) : Bytes := text.toUTF8.toList

/-- The parts of a byte string between its separators: always one more part than separators. -/
def splitAtSlashes (path : Bytes) : List Bytes := path.splitOn slash

end CpioArchive
