import CpioArchive.CommandLine.BufferSize
import CpioArchive.Creation.Settings
import CpioArchive.Text.Utf8
/-!
# Arguments

The command line names the archive to create and the files to put into it, among options in any
order.  Arguments are read from left to right:

* `--` ends the options; everything behind it is a path;
* `--name` and `--name=value` are options by their long name;
* a hyphen and letters are options by their short names, several in one argument;
* everything else is the value of an option that waits for one, or else a path.  A lone hyphen is no
  option.

What has been read but not yet checked waits in a slot: a path, or the value of an option.  It is
checked as soon as something else takes the slot, so the first fault from the left is reported.
What the arguments must not lack or combine is checked at the end.
-/

namespace CpioArchive.CommandLine

/-- What the arguments ask for. -/
structure Arguments where
  output : Bytes
  files : List Bytes
  verbose : Bool
  quiet : Bool
  json : Bool
  bufferSize : Option Nat
  noFollowSymlinks : Bool
  deriving DecidableEq

/-- The settings of a run with these arguments. -/
def Arguments.settings (arguments : Arguments) : Settings where
  bufferSize := arguments.bufferSize.getD ({} : Settings).bufferSize
  followSymlinks := !arguments.noFollowSymlinks

/-- A fault of the arguments. -/
inductive Misuse where
  /-- A path is missing. -/
  | missingArgument
  /-- There is no such option. -/
  | unknownArgument
  /-- An option is given twice, or with one that excludes it. -/
  | conflict
  /-- An option has no value, or a path is empty. -/
  | emptyValue
  /-- The value of an option is not text. -/
  | valueNotText
  /-- The value of an option is refused. -/
  | badValue (explanation : String)
  /-- An option that takes no value has one. -/
  | needlessValue
  deriving DecidableEq

/-- Why the arguments do not lead to a run. -/
inductive Refusal where
  /-- Help is asked for. -/
  | help
  /-- The version is asked for. -/
  | version
  | misuse (fault : Misuse)
  deriving DecidableEq

/-- An option without a value. -/
inductive Flag where
  | verbose
  | quiet
  | json
  | noFollowSymlinks
  | help
  | version
  deriving DecidableEq

/-- The flag with a long name. -/
def Flag.ofLongName? : String → Option Flag
  | "verbose" => some verbose
  | "quiet" => some quiet
  | "json" => some json
  | "no-follow-symlinks" => some noFollowSymlinks
  | "help" => some help
  | "version" => some version
  | _ => none

/-- The flag with a short name. -/
def Flag.ofShortName? : Char → Option Flag
  | 'v' => some verbose
  | 'q' => some quiet
  | 'j' => some json
  | 'h' => some help
  | 'V' => some version
  | _ => none

/-- The long name of the only option that takes a value. -/
def bufferSizeName : String := "buffer-size"

/-- What has been read but not yet checked. -/
inductive Slot where
  | empty
  /-- The buffer size, whose value may still have to come. -/
  | bufferSize (value : Option Bytes)
  /-- The path of the archive. -/
  | output (path : Bytes)
  /-- Paths of files, one behind the other. -/
  | files (paths : List Bytes)

/-- What has been read from the arguments so far. -/
structure Scan where
  /-- The flags given. -/
  flags : List Flag := []
  bufferSize : Option Nat := none
  output : Option Bytes := none
  files : List Bytes := []
  slot : Slot := .empty
  /-- Whether the path of the archive has been read. -/
  hasOutput : Bool := false
  /-- Whether the options have been ended. -/
  onlyPaths : Bool := false

namespace Scan

/-- Takes a value for the buffer size. -/
def takeBufferSize (scan : Scan) (value : Bytes) : Except Misuse Scan :=
  if scan.bufferSize.isSome then .error .conflict
  else
    match Utf8.text? value with
    | none => .error .valueNotText
    | some text =>
      match parseByteSize text with
      | .error e => .error (.badValue e.message)
      | .ok size => .ok { scan with bufferSize := some size }

/-- Checks what waits in the slot, and empties the slot. -/
def settle (scan : Scan) : Except Misuse Scan :=
  let cleared := { scan with slot := .empty }
  match scan.slot with
  | .empty => .ok cleared
  | .bufferSize none => .error .emptyValue
  | .bufferSize (some value) => cleared.takeBufferSize value
  | .output path =>
    if path.isEmpty then .error .emptyValue else .ok { cleared with output := some path }
  | .files paths =>
    if paths.any (·.isEmpty) then .error .emptyValue
    else .ok { cleared with files := cleared.files ++ paths }

/-- Takes a flag.  Help and version are answered at once; no other flag may be repeated. -/
def takeFlag (scan : Scan) (flag : Flag) : Except Refusal Scan :=
  match scan.settle with
  | .error fault => .error (.misuse fault)
  | .ok scan =>
    match flag with
    | .help => .error .help
    | .version => .error .version
    | flag =>
      if flag ∈ scan.flags then .error (.misuse .conflict)
      else .ok { scan with flags := flag :: scan.flags }

/-- Takes a path: the first one is that of the archive, all others are files. -/
def takePath (scan : Scan) (path : Bytes) : Except Misuse Scan :=
  match scan.slot, scan.hasOutput with
  | .files paths, true => .ok { scan with slot := .files (paths ++ [path]) }
  | _, true => scan.settle.map fun scan => { scan with slot := .files [path] }
  | _, false => scan.settle.map fun scan => { scan with slot := .output path, hasOutput := true }

/-- Takes an argument that is no option. -/
def takeOperand (scan : Scan) (operand : Bytes) : Except Misuse Scan :=
  match scan.slot with
  | .bufferSize none => .ok { scan with slot := .bufferSize (some operand) }
  | _ => scan.takePath operand

/-- Takes an option by its long name, with the value behind its equals sign, if there is one. -/
def takeLong (scan : Scan) (name : Bytes) (value : Option Bytes) : Except Refusal Scan :=
  match Utf8.text? name with
  | none => .error (.misuse .unknownArgument)
  | some name =>
    if name = bufferSizeName then
      match scan.settle, value with
      | .error fault, _ => .error (.misuse fault)
      | .ok scan, some value => (scan.takeBufferSize value).mapError .misuse
      | .ok scan, none => .ok { scan with slot := .bufferSize none }
    else
      match Flag.ofLongName? name, value with
      | none, _ => .error (.misuse .unknownArgument)
      | some _, some _ => .error (.misuse .needlessValue)
      | some flag, none => scan.takeFlag flag

/-- Takes options by their short names. -/
def takeShorts (scan : Scan) : List (Option Char) → Except Refusal Scan
  | [] => .ok scan
  | name :: rest =>
    match name.bind Flag.ofShortName? with
    | none => .error (.misuse .unknownArgument)
    | some flag =>
      match scan.takeFlag flag with
      | .error refusal => .error refusal
      | .ok scan => scan.takeShorts rest

/-- What stands in front of the first equals sign, and what behind it, if there is one. -/
def splitAtEquals (option : Bytes) : Bytes × Option Bytes :=
  let name := option.takeWhile (· != 61)
  (name, (option.drop name.length).tail?)

/-- Takes one argument. -/
def take (scan : Scan) (argument : Bytes) : Except Refusal Scan :=
  if scan.onlyPaths then (scan.takePath argument).mapError .misuse
  else
    match argument with
    | [45, 45] => .ok { scan with onlyPaths := true }
    | 45 :: 45 :: option =>
      let (name, value) := splitAtEquals option
      scan.takeLong name value
    | 45 :: c :: cluster => scan.takeShorts (Utf8.decode (c :: cluster))
    | _ => (scan.takeOperand argument).mapError .misuse

/-- Takes arguments from left to right. -/
def takeAll (scan : Scan) : List Bytes → Except Refusal Scan
  | [] => .ok scan
  | argument :: rest =>
    match scan.take argument with
    | .error refusal => .error refusal
    | .ok scan => scan.takeAll rest

/-- Checks what the arguments must not combine and must not lack. -/
def finish (scan : Scan) : Except Misuse Arguments :=
  match scan.settle with
  | .error fault => .error fault
  | .ok scan =>
    if Flag.quiet ∈ scan.flags ∧ Flag.verbose ∈ scan.flags then .error .conflict
    else
      match scan.output, scan.files with
      | some output, file :: files =>
        .ok
          { output, files := file :: files, verbose := Flag.verbose ∈ scan.flags,
            quiet := Flag.quiet ∈ scan.flags, json := Flag.json ∈ scan.flags,
            bufferSize := scan.bufferSize,
            noFollowSymlinks := Flag.noFollowSymlinks ∈ scan.flags }
      | _, _ => .error .missingArgument

end Scan

/-- What the arguments of a command line ask for. -/
def Arguments.parse (arguments : List Bytes) : Except Refusal Arguments :=
  match ({} : Scan).takeAll arguments with
  | .error refusal => .error refusal
  | .ok scan => scan.finish.mapError .misuse

end CpioArchive.CommandLine
