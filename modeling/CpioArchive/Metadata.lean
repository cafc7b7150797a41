/-!
# File status and archived metadata

A file's status is what the host reports about it.  Of that status an archive keeps the size and
the mode; owner, device, inode and times are dropped, so that a record depends on nothing but the
file's name, mode and content.
-/

namespace CpioArchive

/-! ## Modes

A mode is a number whose four bits from bit 12 on give the file's type.  The twelve bits below
are the permissions; what stands above the type bits belongs to neither and is kept. -/

/-- The four type bits of a mode, as a number below 16. -/
def typeBits (mode : Nat) : Nat := mode / 4096 % 16

/-- A mode with its type bits cleared. -/
def withoutType (mode : Nat) : Nat := mode / 65536 * 65536 + mode % 4096

/-- A mode with its type bits replaced by those of a regular file. -/
def asRegular (mode : Nat) : Nat := withoutType mode + 8 * 4096

/-- What a file is. -/
inductive FileKind where
  | regular
  | directory
  | symlink
  | characterDevice
  | blockDevice
  | fifo
  | socket
  /-- Type bits that mean nothing. -/
  | unknown
  deriving DecidableEq

namespace FileKind

/-- The kind that the type bits of a mode denote. -/
def ofMode (mode : Nat) : FileKind :=
  match typeBits mode with
  | 1 => fifo
  | 2 => characterDevice
  | 4 => directory
  | 6 => blockDevice
  | 8 => regular
  | 10 => symlink
  | 12 => socket
  | _ => unknown

/-- The type bits of a kind. -/
def typeBits : FileKind → Nat
  | fifo => 1
  | characterDevice => 2
  | directory => 4
  | blockDevice => 6
  | regular => 8
  | symlink => 10
  | socket => 12
  | unknown => 0

/-- The kind in words. -/
def describe : FileKind → String
  | regular => "regular file"
  | directory => "directory"
  | symlink => "symlink"
  | characterDevice => "character device"
  | blockDevice => "block device"
  | fifo => "fifo"
  | socket => "socket"
  | unknown => "unknown file type"

end FileKind

/-! ## What the host reports and what is archived -/

/-- The status of a file as the host reports it.  Times are seconds since the epoch. -/
structure Status where
  size : Nat
  mode : Nat
  uid : Nat
  gid : Nat
  device : Nat
  inode : Nat
  /-- The device number of a special file. -/
  specialDevice : Nat
  linkCount : Nat
  accessTime : Int
  modificationTime : Int
  changeTime : Int
  deriving DecidableEq

/-- What the status says the file is. -/
def Status.kind (status : Status) : FileKind := .ofMode status.mode

/-- The metadata of an entry.  A time may be absent. -/
structure Metadata where
  size : Nat
  mode : Nat
  uid : Nat
  gid : Nat
  device : Nat
  inode : Nat
  modificationTime : Option Int
  accessTime : Option Int
  changeTime : Option Int
  birthTime : Option Int
  deriving DecidableEq

namespace Metadata

/-- Metadata that holds a size and a mode and nothing else. -/
def bare (size mode : Nat) : Metadata := ⟨size, mode, 0, 0, 0, 0, none, none, none, none⟩

/-- The metadata of a regular file with the permissions of `mode`. -/
def regular (size mode : Nat) : Metadata := bare size (asRegular mode)

/-- The mode without its type. -/
def permissions (m : Metadata) : Nat := withoutType m.mode

end Metadata

/-- The metadata that is archived for a file: its size and mode alone. -/
def Status.normalize (status : Status) : Metadata := .bare status.size status.mode

end CpioArchive
