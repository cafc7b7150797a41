import CpioArchive.CommandLine.Run
import CpioArchive.Stream.Script
import CpioArchive.Stream.Sink
/-!
# The program

The outer layer: it looks at the files that the arguments name, lets the library do the work, and
puts what comes of it on the disk and on the screen.

The host is asked for contents only.  Permissions are not among what it answers, so entries are
recorded with those of a new file.
-/

namespace CpioArchive.CommandLine

/-- An error number of the host.  Some of its calls return the number negated. -/
def errorNumber (number : UInt32) : Nat :=
  if number < 0x80000000 then number.toNat else (0 - number).toNat

/-- A failure of the host as an error of this library. -/
def ioErrorOf (e : IO.Error) : IoError :=
  match e with
  | .alreadyExists _ number _ | .otherError number _ | .resourceBusy number _
  | .resourceVanished number _ | .unsupportedOperation number _ | .hardwareFault number _
  | .unsatisfiedConstraints number _ | .illegalOperation number _ | .protocolError number _
  | .timeExpired number _ | .interrupted _ number _ | .noFileOrDirectory _ number _
  | .invalidArgument _ number _ | .permissionDenied _ number _ | .resourceExhausted _ number _
  | .inappropriateType _ number _ | .noSuchThing _ number _ => .system (errorNumber number)
  | .unexpectedEof => .described "unexpected end of file"
  | .userError text => .described text

/-- What the host says about a path. -/
structure Observation where
  /-- What the path leads to when a symbolic link at its end stands for itself. -/
  kind : Except IoError FileKind
  /-- What can be read there. -/
  content : Except IoError Bytes

/-- What an action of the host comes to. -/
def attempt {α : Type} (action : IO α) : IO (Except IoError α) := do
  match ← action.toBaseIO with
  | .ok value => return .ok value
  | .error e => return .error (ioErrorOf e)

/-- Whether a path ends in a symbolic link: the path it stands for lies elsewhere, or is called
something else, than it says. -/
def endsInSymlink (path : String) : IO Bool := do
  let parts := path.splitOn "/"
  let directory := "/".intercalate parts.dropLast
  let around ← IO.FS.realPath (if parts.length ≤ 1 then "." else directory ++ "/")
  let whole ← IO.FS.realPath path
  let expected := around.toString ++ "/" ++ parts.getLastD ""
  return whole.toString != expected && whole.toString != "/" ++ parts.getLastD ""

/-- Asks the host about a path. -/
def observe (path : String) : IO Observation := do
  let kind ← attempt do
    return if ← endsInSymlink path then FileKind.symlink else FileKind.regular
  let content ← attempt (IO.FS.readBinFile path)
  return ⟨kind, content.map (·.toList)⟩

/-- The mode of a file of the given kind, with the permissions of a new file. -/
def modeOf (kind : FileKind) : Nat := kind.typeBits * 4096 + FileSystem.filePermissions

/-- An observed file: its status and what it delivers. -/
structure ObservedFile where
  status : Status
  content : Bytes

/-- Observations as answers of a host.  A directory can be opened but not read. -/
def Observation.lookup (observation : Observation) : Lookup ObservedFile where
  kindOf _ := observation.kind
  openFile _ _ :=
    let status (kind : FileKind) (size : Nat) : Status :=
      ⟨size, modeOf kind, 0, 0, 0, 0, 0, 1, 0, 0, 0⟩
    match observation.content with
    | .ok bytes => .ok ⟨status .regular bytes.length, bytes⟩
    | .error e => if e = .isADirectory then .ok ⟨status .directory 0, []⟩ else .error e
  statusOf file := .ok file.status

/-- An observed path as an input. -/
def Observation.input (observation : Observation) (settings : Settings) (path : Bytes) :
    Input Unit Script where
  path
  resolve _ := (Resolved.ofPath observation.lookup settings path).map fun resolved =>
    { resolved with content := ⟨[.deliver resolved.content.content]⟩ }

/-- Prints lines, each on its stream. -/
def print (outputs : List Output) : IO Unit :=
  outputs.forM fun
    | .toStdout line => IO.println line
    | .toStderr line => IO.eprintln line

/-- Creates the archive that the arguments ask for. -/
def create (arguments : Arguments) (output : String) (files : List String) :
    IO (List Event × Except ArchiveError Report) := do
  let begun ← IO.monoNanosNow
  match arguments.settings.validate with
  | .error e => return ([], .error e)
  | .ok () =>
    match ← attempt (IO.FS.Handle.mk output .write) with
    | .error cause => return ([], .error (.cannotOpenDestination arguments.output cause))
    | .ok handle =>
      let settings := arguments.settings
      let inputs ← files.mapM fun file => do
        return (← observe file).input settings (bytesOfText file)
      let writer := Newc.writer (Metered Script) settings.bufferSize Sink.empty
      let elapsed := (← IO.monoNanosNow) - begun
      let creation := createOn writer inputs (.ofParts 0 elapsed)
      let written ← attempt do
        handle.write ⟨creation.destination.data⟩
        handle.flush
      match written with
      | .error cause => return (creation.events.dropLast, .error (.io cause))
      | .ok () => return (creation.events, creation.result)

end CpioArchive.CommandLine

open CpioArchive CommandLine in
/-- Runs the program with its arguments and returns its exit status. -/
def main (arguments : List String) : IO UInt32 := do
  match Arguments.parse (arguments.map bytesOfText) with
  | .error refusal =>
    print refusal.outputs
    return refusal.exitCode.toUInt32
  | .ok parsed =>
    let (events, result) ← create parsed (Utf8.lossyText parsed.output)
      (parsed.files.map Utf8.lossyText)
    print (parsed.outputs events result)
    return (exitCodeOf result).toUInt32
