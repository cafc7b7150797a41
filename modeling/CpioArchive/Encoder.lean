import CpioArchive.Error
import CpioArchive.Stream.Copy
/-!
# Encoders

An encoder knows an archive format: how one entry and how the trailer are put on a destination.  It
may keep a state of its own between entries, such as a buffer.
-/

namespace CpioArchive

/-- How many bytes an entry took in the archive. -/
structure RecordSize where
  header : Nat
  content : Nat
  padding : Nat
  deriving DecidableEq

/-- All bytes of the entry. -/
def RecordSize.total (size : RecordSize) : Nat := size.header + size.content + size.padding

/-- An archive format: its state is a `β`, it writes to a `δ` and takes contents from a `ς`. -/
structure Encoder (β δ ς : Type) where
  /-- The name of the format. -/
  format : String
  /-- Puts the entry with this name, metadata and content on the destination. -/
  encodeEntry : β → δ → Bytes → Metadata → ς → Except ArchiveError RecordSize × Transfer β δ ς
  /-- Puts the trailer on the destination and returns its length. -/
  encodeTrailer : β → δ → Except ArchiveError Nat × β × δ

end CpioArchive
