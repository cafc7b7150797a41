import CpioArchive.CommandLine.Failure
import CpioArchive.Creation.Event
import CpioArchive.Creation.Report
/-!
# Notices

What the program tells its user, whatever the form: one notice for each input as it is closed, and
one at the end for the archive or for the failure.
-/

namespace CpioArchive.CommandLine

/-- Something to tell the user. -/
inductive Notice where
  /-- The input became an entry. -/
  | adding (path : Bytes)
  /-- The input was passed over. -/
  | skipping (path : Bytes) (reason : String)
  /-- The input was given up after it had been accepted. -/
  | abandoning (path : Bytes) (reason : String)
  /-- The content of the entry is not what its header declares. -/
  | truncated (path : Bytes) (reason : String)
  /-- The entry may be malformed. -/
  | warning (message : String)
  /-- The archive is complete. -/
  | archived (output : Bytes) (report : Report)
  /-- The program has failed. -/
  | failed (failure : Failure)

/-- The notice that an event calls for, if it calls for one. -/
def Notice.ofEvent? : Event → Option Notice
  | .completed path => some (.adding path)
  | .skipped path reason => some (.skipping path reason)
  | .failed path e =>
    some (if e.isContentFailure then .truncated path e.message else .abandoning path e.message)
  | .warned path message =>
    some (.warning ("finishing '" ++ displayPath path ++ "': " ++ message))
  | .started .. | .bytesRead _ | .finished => none

/-- A line that the program prints. -/
inductive Output where
  | toStdout (line : String)
  | toStderr (line : String)
  deriving DecidableEq

namespace Output

/-- The lines for the standard output, each with its line break. -/
def stdout (outputs : List Output) : String :=
  String.join (outputs.filterMap fun
    | toStdout line => some (line ++ "\n")
    | toStderr _ => none)

/-- The lines for the standard error output, each with its line break. -/
def stderr (outputs : List Output) : String :=
  String.join (outputs.filterMap fun
    | toStderr line => some (line ++ "\n")
    | toStdout _ => none)

end Output

end CpioArchive.CommandLine
