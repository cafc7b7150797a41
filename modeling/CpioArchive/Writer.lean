import CpioArchive.Encoder
import CpioArchive.Stream.Counted
/-!
# Archive writers

A writer puts entries on a destination one after the other and closes the archive with the trailer.
It is *accepting* until the trailer is written, and then *finished*; a failure that may have left
half a record behind makes it *poisoned*, and then nothing more is written.
-/

namespace CpioArchive

/-- What a writer may still do. -/
inductive Phase where
  /-- Entries may be appended. -/
  | accepting
  /-- The trailer is written. -/
  | finished
  /-- A failure left the archive in the middle of a record. -/
  | poisoned
  deriving DecidableEq

/-- A writer of archives in the format of its encoder. -/
structure Writer (β δ ς : Type) where
  encoder : Encoder β (Counted δ) ς
  /-- The state of the encoder. -/
  state : β
  destination : Counted δ
  /-- How many entries are in the archive. -/
  entries : Nat
  phase : Phase

namespace Writer

variable {β δ ς : Type}

/-- A writer that has written nothing yet. -/
def fresh (encoder : Encoder β (Counted δ) ς) (state : β) (destination : δ) : Writer β δ ς :=
  ⟨encoder, state, .fresh destination, 0, .accepting⟩

/-- How many bytes were written so far. -/
def bytesWritten (writer : Writer β δ ς) : Nat := writer.destination.position

/-- Whether the trailer is written. -/
def isFinished (writer : Writer β δ ς) : Bool := writer.phase == .finished

/-- Whether a failure has ended the archive in the middle of a record. -/
def isPoisoned (writer : Writer β δ ς) : Bool := writer.phase == .poisoned

/-- The phase and the number of entries after the encoder returned `result`.  A failure that is not
fatal counts as an entry if the destination received something of it. -/
def account (result : Except ArchiveError RecordSize) (advanced : Bool) (entries : Nat) :
    Nat × Phase :=
  match result with
  | .ok _ => (entries + 1, .accepting)
  | .error e =>
    if e.isFatal then (entries, .poisoned)
    else (if advanced then entries + 1 else entries, .accepting)

/-- Appends an entry.  Returns the source as the encoder left it. -/
def append (writer : Writer β δ ς) (name : Bytes) (metadata : Metadata) (source : ς) :
    Except ArchiveError RecordSize × Writer β δ ς × ς :=
  match writer with
  | ⟨encoder, state, destination, entries, phase⟩ =>
    match phase with
    | .finished => (.error .alreadyFinished, ⟨encoder, state, destination, entries, phase⟩, source)
    | .poisoned => (.error .poisoned, ⟨encoder, state, destination, entries, phase⟩, source)
    | .accepting =>
      let before := destination.position
      match encoder.encodeEntry state destination name metadata source with
      | (result, ⟨state, destination, source⟩) =>
        let (entries, phase) := account result (destination.position != before) entries
        (result, ⟨encoder, state, destination, entries, phase⟩, source)

variable {ε : Type} [Destination δ ε]

/-- Writes the trailer and flushes the destination.  A finished writer has nothing left to do; a
poisoned one only flushes. -/
def finish (writer : Writer β δ ς) : Except ArchiveError Unit × Writer β δ ς :=
  match writer with
  | ⟨encoder, state, destination, entries, phase⟩ =>
    match phase with
    | .finished => (.ok (), ⟨encoder, state, destination, entries, .finished⟩)
    | .poisoned =>
      let (_, destination) := destination.flush
      (.error .poisoned, ⟨encoder, state, destination, entries, .poisoned⟩)
    | .accepting =>
      match encoder.encodeTrailer state destination with
      | (.error e, state, destination) =>
        (.error e, ⟨encoder, state, destination, entries, .poisoned⟩)
      | (.ok _, state, destination) =>
        match destination.flush with
        | (.error cause, destination) =>
          (.error (.io cause), ⟨encoder, state, destination, entries, .poisoned⟩)
        | (.ok (), destination) => (.ok (), ⟨encoder, state, destination, entries, .finished⟩)

/-- Gives the writer up: finishes the archive if that is still possible, whatever comes of it, and
returns the destination. -/
def release (writer : Writer β δ ς) : δ := writer.finish.2.destination.inner

/-- Finishes the archive and returns the destination.  A writer that cannot finish is given up. -/
def intoInner (writer : Writer β δ ς) : Except ArchiveError Unit × δ :=
  match writer.finish with
  | (.ok (), writer) => (.ok (), writer.destination.inner)
  | (.error e, writer) => (.error e, writer.release)

end Writer

end CpioArchive
