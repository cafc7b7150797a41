import CpioArchive.Encoder
import CpioArchive.Newc.Header
/-!
# Writing records

An entry is written in three phases: header, content, padding.  A header that cannot be written is
found out before the first byte.  A content that does not have the declared length still leaves a
record of that length behind and is reported after the padding.  When the padding cannot be written
either, that is what is reported.
-/

namespace CpioArchive.Newc

variable {δ ε ς : Type} [Destination δ ε] [Source ε ς]

/-- The outcome of an entry whose content has been copied and padded: a content that failed, or one
that held more than was declared, is an error. -/
def contentOutcome (headerLength declared padding : Nat) :
    Except ArchiveError Copied → Except ArchiveError RecordSize
  | .error e => .error e
  | .ok ⟨_, some extra⟩ => .error (.lengthMismatch declared (declared + extra))
  | .ok ⟨count, none⟩ => .ok ⟨headerLength, count, padding⟩

/-- Pads the content of a record and settles the outcome of its entry. -/
def finishEntry (headerLength declared : Nat) (copied : Except ArchiveError Copied) :
    Transfer CopyBuffer δ ς → Except ArchiveError RecordSize × Transfer CopyBuffer δ ς
  | ⟨buffer, destination, source⟩ =>
    let padding := paddingLength declared
    match writeAll destination (nuls padding) with
    | (.error cause, destination) =>
      (.error (.entryUnfinished cause), ⟨buffer, destination, source⟩)
    | (.ok (), destination) =>
      (contentOutcome headerLength declared padding copied, ⟨buffer, destination, source⟩)

/-- Writes an entry: its header, exactly as many content bytes as its metadata declares, and the
padding behind them. -/
def encodeEntry (buffer : CopyBuffer) (destination : δ) (name : Bytes) (metadata : Metadata)
    (source : ς) : Except ArchiveError RecordSize × Transfer CopyBuffer δ ς :=
  match (Header.ofMetadata name metadata).encode with
  | .error e => (.error e, ⟨buffer, destination, source⟩)
  | .ok header =>
    match writeAll destination header with
    | (.error cause, destination) => (.error (.io cause), ⟨buffer, destination, source⟩)
    | (.ok (), destination) =>
      match copyExact destination source buffer metadata.size with
      | (.ok copied, transfer) => finishEntry header.length metadata.size (.ok copied) transfer
      | (.error e, transfer) =>
        if e.isContentFailure then finishEntry header.length metadata.size (.error e) transfer
        else (.error e, transfer)

/-- Writes the trailer. -/
def encodeTrailer (buffer : CopyBuffer) (destination : δ) :
    Except ArchiveError Nat × CopyBuffer × δ :=
  match writeAll destination trailerRecord with
  | (.ok (), destination) => (.ok trailerRecord.length, buffer, destination)
  | (.error cause, destination) => (.error (.io cause), buffer, destination)

/-- The newc format, whose state is the buffer that contents are copied through. -/
def encoder (δ ς : Type) {ε : Type} [Destination δ ε] [Source ε ς] : Encoder CopyBuffer δ ς where
  format := "newc"
  encodeEntry := encodeEntry
  encodeTrailer := encodeTrailer

end CpioArchive.Newc
