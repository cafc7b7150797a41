import CpioArchive.FileSystem.Basic
/-!
# Changes to a file system

Creating, writing, linking and removing files by path.  New directories get the permissions 0755
and new files 0644, written in octal.
-/

namespace CpioArchive.FileSystem

/-- The permissions of a new file: 0644 in octal. -/
def filePermissions : Nat := 0o644

/-- The permissions of a new directory: 0755 in octal. -/
def directoryPermissions : Nat := 0o755

/-- Opens a file for writing, empties it, and creates it if there is none. -/
def createFile (fs : FileSystem) (path : Bytes) : Except IoError (FileId × FileSystem) :=
  match fs.locate ⟨true, true⟩ path with
  | .error e => .error e
  | .ok (.vacant directory name) => .ok (fs.create directory name ⟨.file .empty, filePermissions⟩)
  | .ok (.present id) =>
    match fs.node? id with
    | some (.directory _) => .error .isADirectory
    | some .socket => .error .noSuchDevice
    | some (.generated made) => if made.writable then .ok (id, fs) else .error .permissionDenied
    | _ => .ok (id, fs.modifyContent id fun _ => .empty)

/-- Gives a directory a new member; the name must not be taken. -/
def createMember (fs : FileSystem) (path : Bytes) (inode : Inode) : Except IoError FileSystem :=
  match fs.locate ⟨false, false⟩ path with
  | .error e => .error e
  | .ok (.vacant directory name) => .ok (fs.create directory name inode).2
  | .ok (.present _) => .error .alreadyExists

/-- Where the steps of a path start. -/
def startOf (fs : FileSystem) (path : Bytes) : List FileId :=
  if Path.isAbsolute path then [] else fs.workingDirectory

/-- Sees to it that there is a directory at the end of some steps. -/
def makeDirectory (fs : FileSystem) (start : List FileId) (steps : List Path.Component) :
    Except IoError FileSystem :=
  match fs.follow ⟨false, false⟩ mostSymlinks start steps with
  | .error e => .error e
  | .ok (.vacant directory name) =>
    .ok (fs.create directory name ⟨.directory [], directoryPermissions⟩).2
  | .ok (.present _) =>
    match fs.follow ⟨true, false⟩ mostSymlinks start steps with
    | .ok (.present id) =>
      match fs.node? id with
      | some (.directory _) => .ok fs
      | _ => .error .alreadyExists
    | _ => .error .alreadyExists

/-- Sees to it that every step leads to a directory, from the first one on. -/
def makeDirectories (fs : FileSystem) (start : List FileId) (steps : List Path.Component) :
    Except IoError FileSystem :=
  (List.range steps.length).foldlM (fun fs n => fs.makeDirectory start (steps.take (n + 1))) fs

/-- Sees to it that the directory around a path exists. -/
def makeParents (fs : FileSystem) (path : Bytes) : Except IoError FileSystem :=
  fs.makeDirectories (fs.startOf path) (Path.parentComponents path)

/-- One change. -/
inductive Edit where
  /-- Writes a file, in place of what it held. -/
  | writeFile (path content : Bytes)
  | makeDirectory (path : Bytes)
  | makeSymlink (path target : Bytes)
  /-- Gives an existing file one more name. -/
  | makeLink (path existing : Bytes)
  | makeFifo (path : Bytes)
  | makeSocket (path : Bytes)
  /-- Adds bytes at the end of an existing file. -/
  | append (path content : Bytes)
  /-- Cuts an existing file off at a size, or extends it with NUL bytes. -/
  | resize (path : Bytes) (size : Nat)
  /-- Takes a name away. -/
  | remove (path : Bytes)
  | setPermissions (path : Bytes) (permissions : Nat)

/-- Makes one change.  What is new gets its parent directories first. -/
def edit (fs : FileSystem) : Edit → Except IoError FileSystem
  | .writeFile path content => do
    let fs ← fs.makeParents path
    let (id, fs) ← fs.createFile path
    fs.write id 0 content
  | .makeDirectory path => do
    let fs ← fs.makeParents path
    fs.makeDirectories (fs.startOf path) (Path.components path)
  | .makeSymlink path target => do
    let fs ← fs.makeParents path
    fs.createMember path ⟨.symlink target, 0o777⟩
  | .makeLink path existing => do
    let fs ← fs.makeParents path
    let id ← fs.find false existing
    match ← fs.locate ⟨false, false⟩ path with
    | .vacant directory name => return fs.link directory name id
    | .present _ => throw .alreadyExists
  | .makeFifo path => do
    let fs ← fs.makeParents path
    fs.createMember path ⟨.fifo, filePermissions⟩
  | .makeSocket path => do
    let fs ← fs.makeParents path
    fs.createMember path ⟨.socket, directoryPermissions⟩
  | .append path content => do
    let id ← fs.find true path
    fs.write id ((fs.node? id).elim 0 (·.contentLength)) content
  | .resize path size => do
    let id ← fs.find true path
    return fs.modifyContent id (·.resize size)
  | .remove path => do
    let id ← fs.find false path
    match Path.fileName? path, fs.node? id with
    | some _, some (.directory _) => throw .isADirectory
    | some name, _ =>
      match fs.follow ⟨true, false⟩ mostSymlinks (fs.startOf path)
        ((Path.components path).dropLast) with
      | .ok (.present directory) => return fs.unlink directory name
      | _ => throw .noSuchFile
    | none, _ => throw .isADirectory
  | .setPermissions path permissions => do
    let id ← fs.find true path
    return fs.setPermissions id permissions

/-- Writes files below a directory, one after the other, and returns their paths. -/
def writeAllBelow (fs : FileSystem) (directory : Bytes) :
    List (Bytes × Bytes) → Except IoError (List Bytes × FileSystem)
  | [] => .ok ([], fs)
  | (name, content) :: rest =>
    let path := Path.join directory name
    match fs.edit (.writeFile path content) with
    | .error e => .error e
    | .ok fs =>
      match fs.writeAllBelow directory rest with
      | .error e => .error e
      | .ok (paths, fs) => .ok (path :: paths, fs)

/-- The content of the regular file that a path leads to. -/
def contentAt? (fs : FileSystem) (path : Bytes) : Option Bytes :=
  match fs.find true path with
  | .error _ => none
  | .ok id =>
    match fs.node? id with
    | some (.file content) => some content.toBytes
    | some (.generated made) => made.content.toOption
    | _ => none

/-! ## A usual file system -/

/-- A file system with the usual system directories, a few files that the system makes up when they
are read, and an empty working directory below `/tmp`. -/
def usual : FileSystem where
  workingDirectory := [11, 10]
  inodes :=
    let directory (members : List (Bytes × FileId)) : Inode :=
      ⟨.directory members, directoryPermissions⟩
    #[directory [(bytesOfText "dev", 1), (bytesOfText "proc", 4), (bytesOfText "sys", 14),
        (bytesOfText "tmp", 10), (bytesOfText "etc", 12), (bytesOfText "usr", 13)],
      directory [(bytesOfText "null", 2), (bytesOfText "full", 3)],
      ⟨.device .null, 0o666⟩,
      ⟨.device .full, 0o666⟩,
      directory [(bytesOfText "sys", 5), (bytesOfText "self", 8)],
      directory [(bytesOfText "kernel", 6)],
      directory [(bytesOfText "ostype", 7)],
      ⟨.generated ⟨0, .ok (bytesOfText "Linux\n"), some (4 * 1024 * 1024), false⟩, 0o444⟩,
      directory [(bytesOfText "mem", 9)],
      ⟨.generated ⟨0, .error .deviceFailure, none, true⟩, 0o600⟩,
      ⟨.directory [(bytesOfText "work", 11)], 0o1777⟩,
      ⟨.directory [], 0o700⟩,
      directory [],
      directory [],
      directory [(bytesOfText "kernel", 15)],
      directory [(bytesOfText "cpu_byteorder", 16)],
      ⟨.generated ⟨4096, .ok (bytesOfText "little\n"), none, false⟩, 0o444⟩]

end CpioArchive.FileSystem
