import CpioArchive.Bytes
import CpioArchive.IoError
/-!
# Streams

Content flows from a *source* to a *destination*.  Both are values: a call returns its outcome
together with the stream as it is afterwards.

* A `Source` is read inside an environment, such as a file system, which reading observes and
  leaves alone.
* A `Destination` is written to, and carries the environment along: writing to a file changes what
  its readers see.

The laws of the two classes say what every stream promises: no call transfers more than it was
asked to, and a stream does not interrupt its callers forever.  They are what makes the loops over
streams end, `writeAll` below first among them.
-/

namespace CpioArchive

/-- The outcome of one call on a stream. -/
inductive Attempt (α : Type) where
  /-- The call succeeded. -/
  | done (value : α)
  /-- The call was interrupted before anything was transferred; it may be made again. -/
  | interrupted (cause : IoError)
  /-- The call failed. -/
  | failed (cause : IoError)
  deriving DecidableEq

namespace Attempt

/-- A refused call: interrupted or failed, as the error says. -/
def refused {α : Type} (cause : IoError) : Attempt α :=
  if cause.isInterruption then .interrupted cause else .failed cause

/-- The outcome with interruptions counted as failures. -/
def toExcept {α : Type} : Attempt α → Except IoError α
  | done value => .ok value
  | interrupted cause | failed cause => .error cause

end Attempt

/-- Something that content is read from, inside an environment of type `ε`. -/
class Source (ε ς : Type) where
  /-- Reads at most so many bytes.  No byte at all means the end of the content. -/
  read : ε → ς → Nat → Attempt Bytes × ς
  /-- A bound on the calls that can still deliver something or be interrupted. -/
  remaining : ε → ς → Nat
  length_le_of_read : ∀ {environment source limit bytes next},
    read environment source limit = (.done bytes, next) → bytes.length ≤ limit
  remaining_lt_of_done : ∀ {environment source limit bytes next},
    read environment source limit = (.done bytes, next) → bytes ≠ [] →
      remaining environment next < remaining environment source
  remaining_lt_of_interrupted : ∀ {environment source limit cause next},
    read environment source limit = (.interrupted cause, next) →
      remaining environment next < remaining environment source

/-- Something that content is written to, in an environment of type `ε`. -/
class Destination (δ : Type) (ε : outParam Type) where
  /-- Offers some bytes and returns how many of them, counted from the front, were accepted. -/
  write : δ → Bytes → Attempt Nat × δ
  /-- Sees to it that what was accepted arrives. -/
  flush : δ → Except IoError Unit × δ
  /-- What sources see while content is written here. -/
  environment : δ → ε
  /-- A bound on the interruptions still to come. -/
  patience : δ → Nat
  accepted_le_of_write : ∀ {destination bytes accepted next},
    write destination bytes = (.done accepted, next) → accepted ≤ bytes.length
  patience_lt_of_interrupted : ∀ {destination bytes cause next},
    write destination bytes = (.interrupted cause, next) → patience next < patience destination

/-- Offers bytes again and again until all are accepted.  Interruptions are ignored; a destination
that accepts nothing of a non-empty rest has failed.  Without bytes no call is made. -/
def writeAll {δ ε : Type} [Destination δ ε] (destination : δ) (bytes : Bytes) :
    Except IoError Unit × δ :=
  if bytes.isEmpty then (.ok (), destination)
  else
    match _h : Destination.write destination bytes with
    | (.done 0, next) => (.error .nothingAccepted, next)
    | (.done (n + 1), next) => writeAll next (bytes.drop (n + 1))
    | (.interrupted _, next) => writeAll next bytes
    | (.failed cause, next) => (.error cause, next)
termination_by (bytes.length, Destination.patience destination)
decreasing_by
  · have := Destination.accepted_le_of_write ‹_›
    exact Prod.Lex.left _ _ (by simp only [List.length_drop]; omega)
  · exact Prod.Lex.right _ (Destination.patience_lt_of_interrupted ‹_›)

end CpioArchive
