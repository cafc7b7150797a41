import CpioArchive.FileSystem.Edit
import CpioArchive.Stream.Basic
/-!
# Open files

A file opened for reading is a source: it holds the identity of its node and the offset of the next
read, and finds the content in the file system of the moment.

A file opened for writing is a destination that collects small writes before it passes them on to
the file system it carries along.
-/

namespace CpioArchive

/-! ## Reading -/

/-- A file that is open for reading. -/
structure OpenFile where
  id : FileId
  offset : Nat

namespace OpenFile

/-- Reads from the offset on. -/
def read (fs : FileSystem) (file : OpenFile) (limit : Nat) : Attempt Bytes × OpenFile :=
  match fs.node? file.id with
  | none => (.failed .notOpen, file)
  | some node =>
    match node.read file.offset limit with
    | .ok bytes => (.done bytes, { file with offset := file.offset + bytes.length })
    | .error e => (.failed e, file)

/-- How many bytes lie behind the offset. -/
def remaining (fs : FileSystem) (file : OpenFile) : Nat :=
  match fs.node? file.id with
  | none => 0
  | some node => node.contentLength - file.offset

end OpenFile

instance : Source FileSystem OpenFile where
  read := OpenFile.read
  remaining := OpenFile.remaining
  length_le_of_read h := by
    simp only [OpenFile.read] at h
    split at h
    · cases h
    · split at h
      next hread => cases h; exact (Node.length_le_of_read hread).1
      · cases h
  remaining_lt_of_done {_ _ _ bytes _} h hne := by
    simp only [OpenFile.read] at h
    split at h
    · cases h
    · split at h
      next node hnode _ _ hread =>
        cases h
        have := (Node.length_le_of_read hread).2
        have : 0 < bytes.length := List.length_pos_iff.2 hne
        simp only [OpenFile.remaining, hnode]
        omega
      · cases h
  remaining_lt_of_interrupted h := by
    simp only [OpenFile.read] at h
    split at h
    · cases h
    · split at h <;> cases h

/-- Opens what a path leads to for reading, without waiting.  Where symbolic links are not followed,
a path that ends in one cannot be opened. -/
def FileSystem.openForReading (fs : FileSystem) (followLast : Bool) (path : Bytes) :
    Except IoError OpenFile :=
  match fs.find followLast path with
  | .error e => .error e
  | .ok id =>
    match fs.node? id with
    | some (.symlink _) => .error .tooManySymlinks
    | some .socket => .error .noSuchDevice
    | _ => .ok ⟨id, 0⟩

/-- Everything that can be read from what a path leads to. -/
def FileSystem.readAll (fs : FileSystem) (path : Bytes) : Except IoError Bytes :=
  match fs.openForReading true path with
  | .error e => .error e
  | .ok file => (file.read fs (file.remaining fs + 1)).1.toExcept

/-- The status of an open file. -/
def FileSystem.statusOf (fs : FileSystem) (file : OpenFile) : Except IoError Status :=
  match fs.status? file.id with
  | some status => .ok status
  | none => .error .notOpen

/-! ## Writing -/

/-- A file that is open for writing, in the file system it belongs to. -/
structure DiskFile where
  files : FileSystem
  target : FileId
  /-- Where the next bytes go. -/
  offset : Nat
  /-- Bytes that were accepted but not yet passed on. -/
  pending : Array UInt8

namespace DiskFile

/-- How many bytes are collected at most. -/
def capacity : Nat := 8192

/-- Creates the file at a path and opens it for writing. -/
def create (fs : FileSystem) (path : Bytes) : Except IoError DiskFile :=
  (fs.createFile path).map fun (id, fs) => ⟨fs, id, 0, #[]⟩

/-- Passes bytes on to the file, unless it takes none. -/
def put (file : DiskFile) (bytes : Bytes) : Except IoError Unit × DiskFile :=
  match file with
  | ⟨files, target, offset, pending⟩ =>
    match files.refusal? target with
    | some e => (.error e, ⟨files, target, offset, pending⟩)
    | none =>
      (.ok (), ⟨files.modifyContent target (·.write offset bytes), target, offset + bytes.length,
        pending⟩)

/-- Passes on everything that was collected. -/
def settle (file : DiskFile) : Except IoError Unit × DiskFile :=
  if file.pending.isEmpty then (.ok (), file)
  else
    match file.put file.pending.toList with
    | (.ok (), file) => (.ok (), { file with pending := #[] })
    | (.error e, file) => (.error e, file)

/-- Accepts bytes.  What was collected is passed on as soon as there is no room for more; bytes that
would fill the collection on their own are passed on at once. -/
def write (file : DiskFile) (bytes : Bytes) : Attempt Nat × DiskFile :=
  let count := bytes.length
  let room := capacity - file.pending.size
  if count < room then
    (.done count, { file with pending := file.pending.appendList bytes })
  else
    match if room < count then file.settle else (.ok (), file) with
    | (.error e, file) => (.failed e, file)
    | (.ok (), file) =>
      if capacity ≤ count then
        match file.put bytes with
        | (.ok (), file) => (.done count, file)
        | (.error e, file) => (.failed e, file)
      else (.done count, { file with pending := file.pending.appendList bytes })

/-- Closes the file: what was collected is passed on if that is possible. -/
def close (file : DiskFile) : FileSystem := file.settle.2.files

end DiskFile

instance : Destination DiskFile FileSystem where
  write := DiskFile.write
  flush := DiskFile.settle
  environment file := file.files
  patience _ := 0
  accepted_le_of_write h := by
    simp only [DiskFile.write] at h
    repeat' split at h
    all_goals cases h
    all_goals exact Nat.le_refl _
  patience_lt_of_interrupted h := by
    simp only [DiskFile.write] at h
    repeat' split at h
    all_goals cases h

end CpioArchive
