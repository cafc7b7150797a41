import CpioArchive.Error
import CpioArchive.Stream.Basic
/-!
# Copying a declared number of bytes

A record declares the length of its content before the content is read, so exactly that many bytes
must follow, whatever the source does.  `copyExact` copies them through a buffer:

* a source that ends or fails early is made up for with NUL bytes before the error is returned;
* a source that holds more is drained to learn how much more, and nothing of that is copied;
* only a destination that fails can leave fewer bytes behind.

The buffer keeps what earlier transfers left in it.  Nothing of that is ever written.
-/

namespace CpioArchive

/-- A buffer of fixed size.  Behind the bytes it holds, it is filled with NUL bytes. -/
structure CopyBuffer where
  size : Nat
  size_pos : 0 < size
  held : Bytes

namespace CopyBuffer

/-- The size used where none is asked for: 64 KiB. -/
def usualSize : Nat := 65536

/-- An empty buffer; one byte is the smallest size. -/
def ofSize (size : Nat) : CopyBuffer := ⟨max size 1, by omega, []⟩

/-- The largest size that a buffer can have. -/
def largestSize : Nat := 0x7FFFFFFFFFFFFFFF

/-- An empty buffer, if there can be one of the size. -/
def ofSize? (size : Nat) : Option CopyBuffer :=
  if size ≤ largestSize then some (ofSize size) else none

/-- The buffer after a read put some bytes to its front. -/
def load (buffer : CopyBuffer) (bytes : Bytes) : CopyBuffer :=
  { buffer with held := bytes ++ buffer.held.drop bytes.length }

/-- The buffer filled with NUL bytes. -/
def clear (buffer : CopyBuffer) : CopyBuffer := { buffer with held := [] }

/-- The first `count` bytes of the buffer. -/
def front (buffer : CopyBuffer) (count : Nat) : Bytes :=
  let bytes := buffer.held.take count
  bytes ++ nuls (count - bytes.length)

@[simp] theorem size_load (buffer : CopyBuffer) (bytes : Bytes) :
    (buffer.load bytes).size = buffer.size := rfl

@[simp] theorem size_clear (buffer : CopyBuffer) : buffer.clear.size = buffer.size := rfl

/-- What was loaded is what is found at the front, whatever the buffer held before. -/
@[simp] theorem front_load (buffer : CopyBuffer) (bytes : Bytes) :
    (buffer.load bytes).front bytes.length = bytes := by
  simp [front, load, nuls]

@[simp] theorem front_clear (buffer : CopyBuffer) (count : Nat) :
    buffer.clear.front count = nuls count := by
  simp [front, clear]

end CopyBuffer

/-- Where a transfer has left its destination, its source and the state it works with. -/
structure Transfer (β δ ς : Type) where
  state : β
  destination : δ
  source : ς

/-- A transfer that went through. -/
structure Copied where
  /-- How many bytes were copied. -/
  count : Nat
  /-- How many bytes the source held beyond them, if any. -/
  surplus : Option Nat
  deriving DecidableEq

variable {δ ε ς : Type} [Destination δ ε] [Source ε ς]

/-- Writes `count` NUL bytes, a buffer at a time. -/
def fillWithNuls (destination : δ) (buffer : CopyBuffer) (count : Nat) : Except IoError Unit × δ :=
  if count = 0 then (.ok (), destination)
  else
    match writeAll destination (buffer.clear.front (min count buffer.size)) with
    | (.error cause, next) => (.error cause, next)
    | (.ok (), next) => fillWithNuls next buffer (count - buffer.size)
termination_by count
decreasing_by
  have := buffer.size_pos
  omega

/-- Reads a source to its end and adds up what it delivers.  An error behind the first byte only
ends the count. -/
def drain (environment : ε) (source : ς) (buffer : CopyBuffer) (extra : Nat) :
    Except IoError Nat × ς × CopyBuffer :=
  match _h : Source.read environment source buffer.size with
  | (.done [], next) => (.ok extra, next, buffer)
  | (.done (b :: bytes), next) =>
    drain environment next (buffer.load (b :: bytes)) (extra + (b :: bytes).length)
  | (.interrupted _, next) => drain environment next buffer extra
  | (.failed cause, next) =>
    if 0 < extra then (.ok extra, next, buffer) else (.error cause, next, buffer)
termination_by Source.remaining environment source
decreasing_by
  · exact Source.remaining_lt_of_done ‹_› (List.cons_ne_nil _ _)
  · exact Source.remaining_lt_of_interrupted ‹_›

/-- Ends a transfer whose source gave no more than `copied` of `length` bytes: the missing bytes are
written as NUL bytes, and then `e` is reported. -/
def makeUp (destination : δ) (source : ς) (buffer : CopyBuffer) (missing : Nat)
    (e : ArchiveError) : Except ArchiveError Copied × Transfer CopyBuffer δ ς :=
  match fillWithNuls destination buffer missing with
  | (.ok (), next) => (.error e, ⟨buffer.clear, next, source⟩)
  | (.error cause, next) => (.error (.io cause), ⟨buffer.clear, next, source⟩)

/-- Copies `length` bytes, of which `copied` are already copied, and then drains the source. -/
def copyOnward (destination : δ) (source : ς) (buffer : CopyBuffer) (length copied : Nat) :
    Except ArchiveError Copied × Transfer CopyBuffer δ ς :=
  if copied < length then
    match _h : Source.read (Destination.environment destination) source
        (min (length - copied) buffer.size) with
    | (.done [], next) =>
      makeUp destination next buffer (length - copied) (.lengthMismatch length copied)
    | (.done (b :: bytes), next) =>
      let count := (b :: bytes).length
      let buffer := buffer.load (b :: bytes)
      match writeAll destination (buffer.front count) with
      | (.ok (), destination) => copyOnward destination next buffer length (copied + count)
      | (.error cause, destination) => (.error (.io cause), ⟨buffer, destination, next⟩)
    | (.interrupted _, next) => copyOnward destination next buffer length copied
    | (.failed cause, next) =>
      makeUp destination next buffer (length - copied) (.contentRead cause)
  else
    match drain (Destination.environment destination) source buffer 0 with
    | (.ok extra, source, buffer) =>
      (.ok ⟨copied, if 0 < extra then some extra else none⟩, ⟨buffer, destination, source⟩)
    | (.error cause, source, buffer) =>
      (.error (.contentRead cause), ⟨buffer, destination, source⟩)
termination_by
  (length - copied, Source.remaining (Destination.environment destination) source)
decreasing_by
  · exact Prod.Lex.left _ _ (by simp only [List.length_cons]; omega)
  · exact Prod.Lex.right _ (Source.remaining_lt_of_interrupted ‹_›)

/-- Copies exactly `length` bytes from the source to the destination. -/
def copyExact (destination : δ) (source : ς) (buffer : CopyBuffer) (length : Nat) :
    Except ArchiveError Copied × Transfer CopyBuffer δ ς :=
  copyOnward destination source buffer length 0

end CpioArchive
