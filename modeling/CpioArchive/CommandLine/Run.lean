import CpioArchive.CommandLine.Arguments
import CpioArchive.CommandLine.Human
import CpioArchive.CommandLine.Machine
import CpioArchive.Creation.Archive
/-!
# Program runs

The whole program as a function: from a file system and the arguments to what is printed, the exit
status and the file system afterwards.
-/

namespace CpioArchive.CommandLine

/-- The form in which notices are printed. -/
inductive Form where
  | human (style : Style)
  | machine

/-- The lines of a notice in a form. -/
def Form.render : Form → Notice → List Output
  | human style => style.render
  | machine => Machine.render

/-- The form that the arguments ask for.  Output that is not a terminal is not styled. -/
def Arguments.form (arguments : Arguments) : Form :=
  if arguments.json then .machine
  else .human { verbose := arguments.verbose, quiet := arguments.quiet }

/-- The name of the program. -/
def programName : String := "mkcpio"

/-- The version of the program. -/
def programVersion : String := "0.1.0"

/-- How the program is used. -/
def usage : String := "Usage: " ++ programName ++ " [OPTIONS] <OUTPUT> <FILE>..."

/-- What help is asked for. -/
def helpLines : List String :=
  ["Creates a newc cpio archive from regular files", "", usage, "", "Options:",
    "  -v, --verbose              Name every entry",
    "  -q, --quiet                Say nothing but what went wrong",
    "  -j, --json                 Print results as JSON",
    "      --buffer-size <BYTES>  Copy buffer size (512 to 16M, suffixes K and M)",
    "      --no-follow-symlinks   Skip inputs that are symbolic links",
    "  -h, --help                 Print help",
    "  -V, --version              Print version"]

/-- A fault of the arguments in words. -/
def Misuse.message : Misuse → String
  | missingArgument => "a required argument is missing"
  | unknownArgument => "there is no such option"
  | conflict => "an option is given twice, or with one that excludes it"
  | emptyValue => "a value is missing"
  | valueNotText => "a value is not valid UTF-8"
  | badValue explanation => "a value is not accepted: " ++ explanation
  | needlessValue => "an option has a value that it does not take"

/-- What is printed when the arguments do not lead to a run. -/
def Refusal.outputs : Refusal → List Output
  | help => helpLines.map .toStdout
  | version => [.toStdout (programName ++ " " ++ programVersion)]
  | misuse fault => [.toStderr ("error: " ++ fault.message), .toStderr "", .toStderr usage]

/-- Whether a refusal goes to the standard error output. -/
def Refusal.isMisuse : Refusal → Bool
  | misuse _ => true
  | help | version => false

/-- The notices about the creation of the archive `output`, in order. -/
def noticesOf (output : Bytes) (events : List Event) (result : Except ArchiveError Report) :
    List Notice :=
  events.filterMap Notice.ofEvent?
    ++ [match result with
      | .ok report => .archived output report
      | .error e => .failed (.ofArchiveError output e)]

/-- What is printed about the creation that the arguments ask for. -/
def Arguments.outputs (arguments : Arguments) (events : List Event)
    (result : Except ArchiveError Report) : List Output :=
  (noticesOf arguments.output events result).flatMap arguments.form.render

/-- The exit status after a creation. -/
def exitCodeOf : Except ArchiveError Report → Nat
  | .ok _ => 0
  | .error e => Failure.exitCodeOf e

/-- The exit status after a refusal. -/
def Refusal.exitCode (refusal : Refusal) : Nat := if refusal.isMisuse then exitUsage else 0

/-- What a run of the program comes to. -/
structure ProgramRun where
  outputs : List Output
  exitCode : Nat
  /-- The file system afterwards. -/
  files : FileSystem

/-- Runs the program with arguments that were understood. -/
def runWith (fs : FileSystem) (arguments : Arguments) (elapsed : Duration) : ProgramRun :=
  let run := createArchive fs arguments.output arguments.files arguments.settings elapsed
  ⟨arguments.outputs run.events run.result, exitCodeOf run.result, run.files⟩

/-- Runs the program. -/
def run (fs : FileSystem) (arguments : List Bytes) (elapsed : Duration) : ProgramRun :=
  match Arguments.parse arguments with
  | .ok arguments => runWith fs arguments elapsed
  | .error refusal => ⟨refusal.outputs, refusal.exitCode, fs⟩

end CpioArchive.CommandLine
