import CpioArchive.IoError
import CpioArchive.Metadata
import CpioArchive.Text.Numeral
import CpioArchive.Text.Utf8
/-!
# Failures of archive creation

An `ArchiveError` says why an entry or a whole archive could not be written, and a `SkipReason`
why an input never became an entry.  Each has one text, and each error a severity, which decides
whether a run goes on.
-/

namespace CpioArchive

/-- A path as messages show it. -/
def displayPath (path : Bytes) : String := Utf8.lossyText path

/-- How a failure affects the rest of a run. -/
inductive Severity where
  /-- The input is not archived intact; the run goes on. -/
  | skip
  /-- The entry was written but may be malformed; the run goes on. -/
  | warning
  /-- The run cannot go on. -/
  | fatal
  deriving DecidableEq

/-- The severity in a word. -/
def Severity.describe : Severity → String
  | skip => "skip"
  | warning => "warning"
  | fatal => "fatal"

/-- A failure while an archive is written. -/
inductive ArchiveError where
  /-- Writing to the destination failed. -/
  | io (cause : IoError)
  /-- The destination could not be created. -/
  | cannotOpenDestination (path : Bytes) (cause : IoError)
  /-- An entry has no name. -/
  | emptyName
  /-- An entry's name is longer than a header can say. -/
  | nameTooLong (length limit : Nat)
  /-- A number does not fit into its header field. -/
  | fieldOverflow (field : String) (value : Nat)
  /-- A source held another number of bytes than its header declares. -/
  | lengthMismatch (declared actual : Nat)
  /-- Reading a source failed after its header was written. -/
  | contentRead (cause : IoError)
  /-- The padding behind an entry's content could not be written. -/
  | entryUnfinished (cause : IoError)
  /-- The archive already has its trailer. -/
  | alreadyFinished
  /-- An earlier failure left the archive in the middle of a record. -/
  | poisoned
  /-- The settings are out of range. -/
  | invalidSettings (explanation : String)
  deriving DecidableEq

namespace ArchiveError

/-- The text of an error. -/
def message : ArchiveError → String
  | io cause => "I/O error: " ++ cause.message
  | cannotOpenDestination path cause => "cannot open " ++ displayPath path ++ ": " ++ cause.message
  | emptyName => "empty entry name"
  | nameTooLong length limit =>
    "entry name too long: " ++ Text.decimal length ++ " bytes (max " ++ Text.decimal limit ++ ")"
  | fieldOverflow field value =>
    field ++ " value " ++ Text.hexadecimal value ++ " does not fit in an 8-digit newc field"
  | lengthMismatch declared actual =>
    "content length mismatch: declared " ++ Text.decimal declared ++ " bytes, source had "
      ++ Text.decimal actual
  | contentRead cause => "read failed mid-entry: " ++ cause.message
  | entryUnfinished cause => "couldn't finish entry: " ++ cause.message
  | alreadyFinished => "archive already finished"
  | poisoned => "archive stream is not at a record boundary after an earlier failure"
  | invalidSettings explanation => "invalid configuration: " ++ explanation

/-- The failed call behind an error, if there is one. -/
def cause? : ArchiveError → Option IoError
  | io cause | cannotOpenDestination _ cause | contentRead cause | entryUnfinished cause =>
    some cause
  | _ => none

/-- How an error affects the run.  Header errors come before any byte of the entry is written, and
a source that fails leaves a complete record behind, so both cost one input only; a missing padding
makes the archive doubtful; everything else ends the run. -/
def severity : ArchiveError → Severity
  | emptyName | nameTooLong .. | fieldOverflow .. | lengthMismatch .. | contentRead _ => .skip
  | entryUnfinished _ => .warning
  | io _ | cannotOpenDestination .. | alreadyFinished | poisoned | invalidSettings _ => .fatal

/-- Whether the run must end. -/
def isFatal (e : ArchiveError) : Bool := e.severity == .fatal

/-- Whether the source misbehaved after its header was written: the record is complete, but its
content is cut off or filled up. -/
def isContentFailure : ArchiveError → Bool
  | lengthMismatch .. | contentRead _ => true
  | _ => false

/-- Whether the archive failed before any entry was attempted. -/
def isSetupFailure : ArchiveError → Bool
  | cannotOpenDestination .. | invalidSettings _ => true
  | _ => false

end ArchiveError

/-- Why an input was passed over without an entry. -/
inductive SkipReason where
  /-- The path does not end in a name. -/
  | noFileName
  /-- The file could not be opened for reading. -/
  | cannotOpen (cause : IoError)
  /-- The opened file could not be asked for its status. -/
  | cannotStat (cause : IoError)
  /-- The path leads to something other than a regular file. -/
  | notRegular (kind : FileKind)
  deriving DecidableEq

/-- The text of a reason. -/
def SkipReason.message : SkipReason → String
  | noFileName => "nonsense filename"
  | cannotOpen cause => "couldn't open: " ++ cause.message
  | cannotStat cause => "couldn't stat: " ++ cause.message
  | notRegular kind => "not a regular file (" ++ kind.describe ++ ")"

end CpioArchive
