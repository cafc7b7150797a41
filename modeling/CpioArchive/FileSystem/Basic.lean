import CpioArchive.FileSystem.Content
import CpioArchive.Metadata
import CpioArchive.Path
import CpioArchive.IoError
/-!
# File systems

A file system is a table of nodes.  A node's place in the table is its identity: directories give
names to identities, so one node can have several names, and an open file keeps its node when its
name is taken away.

`locate` follows a path from node to node, through `.`, `..` and symbolic links.
-/

namespace CpioArchive

/-- The identity of a node. -/
abbrev FileId := Nat

/-- A device. -/
inductive Device where
  /-- Accepts everything. -/
  | null
  /-- Accepts nothing, because it is full. -/
  | full
  deriving DecidableEq

/-- A regular file that the system makes up when it is read. -/
structure GeneratedFile where
  /-- The size in its status, which need not be the length of its content. -/
  size : Nat
  /-- What reading it gives. -/
  content : Except IoError Bytes
  /-- The smallest number of bytes that is too much for one read, if there is one. -/
  excessiveRead : Option Nat := none
  /-- Whether it can be opened for writing.  It takes no bytes even then. -/
  writable : Bool := false

/-- What a file system holds under one identity. -/
inductive Node where
  | file (content : FileContent)
  | directory (members : List (Bytes × FileId))
  | symlink (target : Bytes)
  | fifo
  | socket
  | device (device : Device)
  | generated (file : GeneratedFile)

namespace Node

/-- What a node is. -/
def kind : Node → FileKind
  | file _ | generated _ => .regular
  | directory _ => .directory
  | symlink _ => .symlink
  | fifo => .fifo
  | socket => .socket
  | device _ => .characterDevice

/-- The size that a node's status states. -/
def size : Node → Nat
  | file content => content.size
  | generated made => made.size
  | symlink target => target.length
  | _ => 0

/-- How many bytes can be read from a node. -/
def contentLength : Node → Nat
  | file content => content.size
  | generated made => made.content.toOption.elim 0 (·.length)
  | _ => 0

/-- At most `limit` bytes of a node's content from an offset on. -/
def read : Node → Nat → Nat → Except IoError Bytes
  | file content, offset, limit => .ok (content.read offset limit)
  | generated made, offset, limit =>
    if made.excessiveRead.any (· ≤ limit) then .error .outOfMemory
    else made.content.map fun bytes => (bytes.drop offset).take limit
  | directory _, _, _ => .error .isADirectory
  | _, _, _ => .ok []

theorem length_le_of_read {node : Node} {offset limit : Nat} {bytes : Bytes}
    (h : node.read offset limit = .ok bytes) :
    bytes.length ≤ limit ∧ bytes.length ≤ node.contentLength - offset := by
  cases node with
  | file content =>
    cases h
    simp only [FileContent.length_read, contentLength]
    omega
  | generated made =>
    simp only [read] at h
    split at h
    · cases h
    · cases hcontent : made.content with
      | error e => rw [hcontent] at h; cases h
      | ok content =>
        rw [hcontent] at h
        cases h
        simp only [contentLength, hcontent, Except.toOption, Option.elim, List.length_take,
          List.length_drop]
        omega
  | directory members => cases h
  | _ => cases h; simp

end Node

/-- A node and its permissions. -/
structure Inode where
  node : Node
  permissions : Nat

/-- A file system, seen from a working directory. -/
structure FileSystem where
  /-- The nodes; the first one is the root directory. -/
  inodes : Array Inode
  /-- The directories from the working directory up to the root. -/
  workingDirectory : List FileId

namespace FileSystem

/-- The identity of the root directory. -/
def root : FileId := 0

/-- The node with an identity. -/
def node? (fs : FileSystem) (id : FileId) : Option Node := fs.inodes[id]?.map (·.node)

/-- The member of a directory with a name. -/
def member? (fs : FileSystem) (directory : FileId) (name : Bytes) : Option FileId :=
  match fs.node? directory with
  | some (.directory members) => members.lookup name
  | _ => none

/-- The status of a node. -/
def status? (fs : FileSystem) (id : FileId) : Option Status :=
  fs.inodes[id]?.map fun inode =>
    { size := inode.node.size, mode := inode.node.kind.typeBits * 4096 + inode.permissions,
      uid := 0, gid := 0, device := 0, inode := id, specialDevice := 0, linkCount := 1,
      accessTime := 0, modificationTime := 0, changeTime := 0 }

/-- Changes the node with an identity. -/
def modifyNode (fs : FileSystem) (id : FileId) (change : Node → Node) : FileSystem :=
  match fs with
  | ⟨inodes, workingDirectory⟩ =>
    ⟨inodes.modify id fun ⟨node, permissions⟩ => ⟨change node, permissions⟩, workingDirectory⟩

/-- Changes the permissions of the node with an identity.  Only the twelve lowest bits count. -/
def setPermissions (fs : FileSystem) (id : FileId) (permissions : Nat) : FileSystem :=
  match fs with
  | ⟨inodes, workingDirectory⟩ =>
    ⟨inodes.modify id fun inode => { inode with permissions := permissions % 4096 },
      workingDirectory⟩

/-- Changes the content of a regular file. -/
def modifyContent (fs : FileSystem) (id : FileId) (change : FileContent → FileContent) :
    FileSystem :=
  fs.modifyNode id fun
    | .file content => .file (change content)
    | node => node

/-- Why a node takes no bytes, if it takes none: a device is full, or a file is made up by the
system. -/
def refusal? (fs : FileSystem) (id : FileId) : Option IoError :=
  match fs.node? id with
  | some (.device .full) => some .deviceFull
  | some (.generated _) => some .deviceFailure
  | _ => none

/-- Writes bytes to a node from an offset on.  Writing no bytes never fails. -/
def write (fs : FileSystem) (id : FileId) (offset : Nat) (bytes : Bytes) :
    Except IoError FileSystem :=
  if bytes.isEmpty then .ok fs
  else
    match fs.refusal? id with
    | some e => .error e
    | none => .ok (fs.modifyContent id (·.write offset bytes))

/-- Gives a node a name in a directory. -/
def link (fs : FileSystem) (directory : FileId) (name : Bytes) (id : FileId) : FileSystem :=
  fs.modifyNode directory fun
    | .directory members => .directory (members ++ [(name, id)])
    | node => node

/-- Takes a name out of a directory. -/
def unlink (fs : FileSystem) (directory : FileId) (name : Bytes) : FileSystem :=
  fs.modifyNode directory fun
    | .directory members => .directory (members.filter (·.1 != name))
    | node => node

/-- Puts a new node into a directory and returns its identity. -/
def create (fs : FileSystem) (directory : FileId) (name : Bytes) (inode : Inode) :
    FileId × FileSystem :=
  let id := fs.inodes.size
  (id, { fs with inodes := fs.inodes.push inode }.link directory name id)

/-! ## Following paths -/

/-- Where a path leads. -/
inductive Place where
  /-- To a node. -/
  | present (id : FileId)
  /-- To a name that a directory does not have. -/
  | vacant (directory : FileId) (name : Bytes)

/-- What a path is followed for. -/
structure Errand where
  /-- Whether a symbolic link at the end of the path stands for what it leads to. -/
  followLast : Bool
  /-- Whether a file is to be created if there is none. -/
  creating : Bool

/-- The longest path that can be looked up. -/
def longestPath : Nat := 4095

/-- The longest name of a member. -/
def longestName : Nat := 255

/-- How many symbolic links may be followed for one path. -/
def mostSymlinks : Nat := 40

/-- Follows steps from a directory, given with the directories above it, nearest first.  `links`
more symbolic links may be followed.  A new file cannot have a name that ends in a separator. -/
def follow (fs : FileSystem) (errand : Errand) (links : Nat) (trail : List FileId) :
    List Path.Component → Except IoError Place
  | [] => .ok (.present (trail.headD root))
  | .current :: rest | .asDirectory :: rest => follow fs errand links trail rest
  | .parent :: rest => follow fs errand links trail.tail rest
  | .named name :: rest =>
    let directory := trail.headD root
    if errand.creating ∧ rest = [.asDirectory] then .error .isADirectory
    else if longestName < name.length then .error .nameTooLong
    else
      match fs.member? directory name with
      | none => if rest = [] then .ok (.vacant directory name) else .error .noSuchFile
      | some id =>
        match fs.node? id with
        | some (.directory _) => follow fs errand links (id :: trail) rest
        | some (.symlink target) =>
          if rest = [] ∧ errand.followLast = false then .ok (.present id)
          else
            match links with
            | 0 => .error .tooManySymlinks
            | links + 1 =>
              follow fs errand links (if Path.isAbsolute target then [] else trail)
                (Path.components target ++ rest)
        | _ => if rest = [] then .ok (.present id) else .error .notADirectory
termination_by steps => (links, steps.length)

/-- Where a path leads, if it can be followed at all. -/
def locate (fs : FileSystem) (errand : Errand) (path : Bytes) : Except IoError Place :=
  if nul ∈ path then .error .nulInPath
  else if path = [] then .error .noSuchFile
  else if longestPath < path.length then .error .nameTooLong
  else
    follow fs errand mostSymlinks (if Path.isAbsolute path then [] else fs.workingDirectory)
      (Path.components path)

/-- The node that a path leads to. -/
def find (fs : FileSystem) (followLast : Bool) (path : Bytes) : Except IoError FileId :=
  match fs.locate ⟨followLast, false⟩ path with
  | .ok (.present id) => .ok id
  | .ok (.vacant ..) => .error .noSuchFile
  | .error e => .error e

end FileSystem

end CpioArchive
