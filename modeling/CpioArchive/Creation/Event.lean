import CpioArchive.Encoder
/-!
# Visits and events

A creation run visits its inputs in order.  A `Visit` holds what became of one input; the events
that a run reports while it goes on, and the report at its end, both follow from its visits.
-/

namespace CpioArchive

/-- What became of an input. -/
inductive Outcome where
  /-- It was passed over. -/
  | skipped (reason : SkipReason)
  /-- It was given to the writer, which returned `result`.  Its header declared `declared` bytes,
  and while they were read the counts in `reads` were reported. -/
  | attempted (reads : List Nat) (declared : Nat) (result : Except ArchiveError RecordSize)

/-- One visited input. -/
structure Visit where
  path : Bytes
  outcome : Outcome

/-- Something a run reports while it goes on. -/
inductive Event where
  /-- Input number `number` of `total` is taken up. -/
  | started (path : Bytes) (total number : Nat)
  /-- So many more content bytes were read. -/
  | bytesRead (count : Nat)
  /-- The input became an entry. -/
  | completed (path : Bytes)
  /-- The input was passed over. -/
  | skipped (path : Bytes) (reason : String)
  /-- The input could not be archived intact, or the run has to end. -/
  | failed (path : Bytes) (error : ArchiveError)
  /-- The input became an entry, but the entry may be malformed. -/
  | warned (path : Bytes) (message : String)
  /-- The archive is complete. -/
  | finished
  deriving DecidableEq

namespace Visit

/-- The event that closes a visit. -/
def closingEvent (visit : Visit) : Event :=
  match visit.outcome with
  | .skipped reason => .skipped visit.path reason.message
  | .attempted _ _ (.ok _) => .completed visit.path
  | .attempted _ _ (.error e) =>
    if e.severity = .warning then .warned visit.path e.message else .failed visit.path e

/-- The byte counts reported during a visit. -/
def reads (visit : Visit) : List Nat :=
  match visit.outcome with
  | .skipped _ => []
  | .attempted reads _ _ => reads

/-- All events of a visit. -/
def events (visit : Visit) (total number : Nat) : List Event :=
  .started visit.path total number
    :: (visit.reads.map Event.bytesRead ++ [visit.closingEvent])

/-- The error that ends the run, if the visit met one. -/
def fatal? (visit : Visit) : Option ArchiveError :=
  match visit.outcome with
  | .attempted _ _ (.error e) => if e.isFatal then some e else none
  | _ => none

/-- Whether the input counts as added: its entry was written, if perhaps without its padding. -/
def isAdded (visit : Visit) : Bool :=
  match visit.outcome with
  | .skipped _ => false
  | .attempted _ _ (.ok _) => true
  | .attempted _ _ (.error e) => e.severity == .warning

/-- Whether the entry was written but its content is not the source's. -/
def isContentFailure (visit : Visit) : Bool :=
  match visit.outcome with
  | .attempted _ _ (.error e) => e.isContentFailure
  | _ => false

/-- Why there is no entry, if there is none and the run goes on. -/
def skipText? (visit : Visit) : Option String :=
  match visit.outcome with
  | .skipped reason => some reason.message
  | .attempted _ _ (.ok _) => none
  | .attempted _ _ (.error e) =>
    if e.severity = .skip ∧ e.isContentFailure = false then
      some ("couldn't write header: " ++ e.message)
    else none

/-- The warning about the entry, if there is one. -/
def warning? (visit : Visit) : Option String :=
  match visit.outcome with
  | .attempted _ _ (.error e) =>
    if e.severity = .warning then
      some ("finishing '" ++ displayPath visit.path ++ "': " ++ e.message)
    else if e.isContentFailure then some (displayPath visit.path ++ ": " ++ e.message)
    else none
  | _ => none

/-- The content bytes that the entry accounts for. -/
def accountedBytes (visit : Visit) : Nat :=
  match visit.outcome with
  | .skipped _ => 0
  | .attempted _ _ (.ok size) => size.content
  | .attempted _ declared (.error e) =>
    if e.severity = .warning ∨ e.isContentFailure then declared else 0

end Visit

end CpioArchive
