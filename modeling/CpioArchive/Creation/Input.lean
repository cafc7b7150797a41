import CpioArchive.Creation.Settings
import CpioArchive.Path
/-!
# Inputs

Which files a run archives.  A path that ends in a name and leads to a regular file is accepted;
every other one is passed over with a reason.  What a path leads to is asked of a `Lookup`, which
is all that this module knows about a host.
-/

namespace CpioArchive

/-- An input that may be archived. -/
structure Resolved (ς : Type) where
  /-- The path it was found at. -/
  path : Bytes
  /-- Its name in the archive. -/
  name : Bytes
  /-- The status of the opened file. -/
  status : Status
  content : ς

/-- An input of a run: its path, and what the path leads to at the time it is visited. -/
structure Input (ε ς : Type) where
  path : Bytes
  resolve : ε → Except SkipReason (Resolved ς)

/-- What a host answers about its files at one moment; an open file is a `ς`. -/
structure Lookup (ς : Type) where
  /-- What a path leads to when a symbolic link at its end stands for itself. -/
  kindOf : Bytes → Except IoError FileKind
  /-- Opens a path for reading, following a symbolic link at its end or refusing it. -/
  openFile : (followLast : Bool) → Bytes → Except IoError ς
  /-- The status of an open file. -/
  statusOf : ς → Except IoError Status

namespace Resolved

/-- The name in the archive as messages show it. -/
def displayName {ς : Type} (resolved : Resolved ς) : String := Utf8.lossyText resolved.name

/-- Accepts an opened file if it is a regular one. -/
def ofOpened {ς : Type} (host : Lookup ς) (path name : Bytes) (file : ς) :
    Except SkipReason (Resolved ς) :=
  match host.statusOf file with
  | .error e => .error (.cannotStat e)
  | .ok status =>
    if status.kind = .regular then .ok ⟨path, name, status, file⟩
    else .error (.notRegular status.kind)

/-- Refuses a path that ends in a symbolic link, if such links are not to be followed. -/
def refuseSymlink {ς : Type} (host : Lookup ς) (settings : Settings) (path : Bytes) :
    Except SkipReason Unit :=
  if settings.followSymlinks then .ok ()
  else
    match host.kindOf path with
    | .error e => .error (.cannotOpen e)
    | .ok .symlink => .error (.notRegular .symlink)
    | .ok _ => .ok ()

/-- Resolves a path on a host that may change meanwhile: `before` answers what is asked before the
file is opened, and `host` everything from then on. -/
def ofPathAcross {ς : Type} (before host : Lookup ς) (settings : Settings) (path : Bytes) :
    Except SkipReason (Resolved ς) :=
  match Path.fileName? path with
  | none => .error .noFileName
  | some name =>
    match refuseSymlink before settings path with
    | .error reason => .error reason
    | .ok () =>
      match host.openFile settings.followSymlinks path with
      | .error e => .error (.cannotOpen e)
      | .ok file => ofOpened host path name file

/-- Resolves a path on a host that does not change meanwhile. -/
def ofPath {ς : Type} (host : Lookup ς) (settings : Settings) (path : Bytes) :
    Except SkipReason (Resolved ς) :=
  ofPathAcross host host settings path

end Resolved

end CpioArchive
