import CpioArchive.Bytes
import CpioArchive.Text.Duration
/-!
# Reports

What a creation run says about itself when it is over: every input is counted as added, skipped
or failed.
-/

namespace CpioArchive

/-- An input without an entry, and why. -/
structure SkippedInput where
  path : Bytes
  reason : String
  deriving DecidableEq

/-- The account of a run. -/
structure Report where
  /-- Inputs whose entry was written. -/
  filesAdded : Nat := 0
  /-- Inputs without an entry. -/
  skipped : List SkippedInput := []
  /-- Inputs whose entry had to be cut off or filled up. -/
  entriesFailed : Nat := 0
  /-- Content bytes that the entries account for. -/
  bytesRead : Nat := 0
  /-- Bytes of the archive. -/
  bytesWritten : Nat := 0
  /-- How long the run took. -/
  duration : Duration := .zero
  warnings : List String := []
  deriving DecidableEq

namespace Report

/-- How many inputs have no entry. -/
def filesSkipped (r : Report) : Nat := r.skipped.length

/-- Whether there are warnings. -/
def hasWarnings (r : Report) : Bool := !r.warnings.isEmpty

/-- How many inputs the report accounts for. -/
def inputsSeen (r : Report) : Nat := r.filesAdded + r.filesSkipped + r.entriesFailed

/-- Whether every input became an intact entry. -/
def isClean (r : Report) : Bool := r.skipped.isEmpty && r.entriesFailed == 0 && r.warnings.isEmpty

end Report

end CpioArchive
