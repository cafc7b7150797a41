import CpioArchive.Error
/-!
# Failures as a user sees them

A failure that ends the program is shown as a headline, which says what could not be done and what
may help, and the causes behind it, each one the reason for the one before.
-/

namespace CpioArchive.CommandLine

/-- Exit status: the arguments were not understood. -/
def exitUsage : Nat := 64

/-- Exit status: the archive could not be written completely. -/
def exitIncomplete : Nat := 70

/-- Exit status: the destination could not be created. -/
def exitCannotOpen : Nat := 1

/-- A failure that ends the program. -/
structure Failure where
  headline : String
  causes : List String
  exitCode : Nat
  deriving DecidableEq

namespace Failure

/-- A failure that has no cause but itself. -/
def plain (message : String) : Failure := ⟨message, [], exitIncomplete⟩

/-- The headline for an error while the archive at `output` is written. -/
def headlineOf (output : Bytes) : ArchiveError → String
  | .cannotOpenDestination .. =>
    "Cannot create archive '" ++ displayPath output
      ++ "'\nHINT: Check that the parent directory exists and is writable."
  | .invalidSettings _ => "Invalid settings\nHINT: --buffer-size accepts values from 512 to 16M."
  | .io _ | .poisoned =>
    "Archive '" ++ displayPath output ++ "' is incomplete and has no trailer\n"
      ++ "HINT: Writing to the destination failed. Check free space and permissions."
  | _ => "Error writing archive '" ++ displayPath output ++ "'"

/-- The exit status for an error. -/
def exitCodeOf : ArchiveError → Nat
  | .cannotOpenDestination .. => exitCannotOpen
  | _ => exitIncomplete

/-- An error while the archive at `output` is written, as a failure of the program. -/
def ofArchiveError (output : Bytes) (e : ArchiveError) : Failure where
  headline := headlineOf output e
  causes := e.message :: e.cause?.toList.map IoError.message
  exitCode := exitCodeOf e

/-- Headline and causes in one, with colons between. -/
def chain (f : Failure) : String := ": ".intercalate (f.headline :: f.causes)

/-- A cause behind its label, every further line indented as far as the label reaches. -/
def labelled (label : String) (cause : String) : String :=
  let indent := String.ofList (List.replicate label.length ' ')
  label ++ ("\n" ++ indent).intercalate (cause.splitOn "\n")

/-- The causes below each other: one is indented, several are numbered. -/
def causeLines : List String → List String
  | [cause] => [labelled "    " cause]
  | causes => causes.zipIdx.map fun (cause, i) =>
    let number := Text.decimal i
    labelled (String.ofList (List.replicate (5 - number.length) ' ') ++ number ++ ": ") cause

/-- Headline and causes below each other. -/
def details (f : Failure) : String :=
  if f.causes.isEmpty then f.headline
  else f.headline ++ "\n\nCaused by:\n" ++ "\n".intercalate (causeLines f.causes)

end Failure

end CpioArchive.CommandLine
