import CpioArchive.Bytes
/-!
# Reading bytes as UTF-8 text

A byte string is decoded from left to right by a small machine that knows how many continuation
bytes it still waits for and which values the next one may take.  Each well-formed sequence gives
its character; each *maximal ill-formed part* (the longest run that begins a well-formed sequence,
or a single byte that begins none) gives one gap.  Two readings follow: `text?`, which refuses
gaps, and `lossyText`, which shows each gap as U+FFFD.
-/

namespace CpioArchive.Utf8

/-- What the decoder waits for in the middle of a sequence. -/
structure Pending where
  /-- Continuation bytes still to come. -/
  missing : Nat
  /-- Smallest value the next byte may take. -/
  least : UInt8
  /-- Largest value the next byte may take. -/
  greatest : UInt8
  /-- The bits read so far. -/
  bits : Nat

/-- What a lead byte announces.  The bounds of the second byte keep out overlong forms, the
surrogates and everything above U+10FFFF. -/
def leadByte (b : UInt8) : Option Pending :=
  if 0xC2 ≤ b ∧ b ≤ 0xDF then some ⟨1, 0x80, 0xBF, b.toNat - 0xC0⟩
  else if b = 0xE0 then some ⟨2, 0xA0, 0xBF, 0⟩
  else if b = 0xED then some ⟨2, 0x80, 0x9F, 0xD⟩
  else if 0xE1 ≤ b ∧ b ≤ 0xEF then some ⟨2, 0x80, 0xBF, b.toNat - 0xE0⟩
  else if b = 0xF0 then some ⟨3, 0x90, 0xBF, 0⟩
  else if 0xF1 ≤ b ∧ b ≤ 0xF3 then some ⟨3, 0x80, 0xBF, b.toNat - 0xF0⟩
  else if b = 0xF4 then some ⟨3, 0x80, 0x8F, 4⟩
  else none

/-- A decoder between two bytes: what it has read, the latest first and `none` for a gap, and
what it waits for. -/
structure Decoder where
  read : List (Option Char)
  pending : Option Pending

/-- Takes a byte that does not continue a sequence. -/
def Decoder.feedLead (d : Decoder) (b : UInt8) : Decoder :=
  if b < 0x80 then ⟨some (Char.ofNat b.toNat) :: d.read, none⟩
  else
    match leadByte b with
    | some pending => ⟨d.read, some pending⟩
    | none => ⟨none :: d.read, none⟩

/-- Takes the next byte.  A byte that does not continue the pending sequence closes it as a gap
and is then read afresh. -/
def Decoder.feed (d : Decoder) (b : UInt8) : Decoder :=
  match d.pending with
  | none => d.feedLead b
  | some p =>
    if p.least ≤ b ∧ b ≤ p.greatest then
      let bits := p.bits * 64 + b.toNat % 64
      if p.missing ≤ 1 then ⟨some (Char.ofNat bits) :: d.read, none⟩
      else ⟨d.read, some ⟨p.missing - 1, 0x80, 0xBF, bits⟩⟩
    else Decoder.feedLead ⟨none :: d.read, none⟩ b

/-- Everything read, in order; a sequence that the input cuts off is a gap. -/
def Decoder.finish (d : Decoder) : List (Option Char) :=
  match d.pending with
  | none => d.read.reverse
  | some _ => (none :: d.read).reverse

/-- The characters and gaps of a byte string, in order. -/
def decode (bytes : Bytes) : List (Option Char) :=
  (bytes.foldl Decoder.feed ⟨[], none⟩).finish

/-- The replacement character, shown for each gap. -/
def replacement : Char := Char.ofNat 0xFFFD

/-- The text of a byte string, with U+FFFD for each maximal ill-formed part. -/
def lossyText (bytes : Bytes) : String :=
  String.ofList ((decode bytes).map (·.getD replacement))

/-- The text of a byte string that is well-formed UTF-8. -/
def text? (bytes : Bytes) : Option String :=
  ((decode bytes).mapM id).map String.ofList

end CpioArchive.Utf8
