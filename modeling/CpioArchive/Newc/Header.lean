import CpioArchive.Error
import CpioArchive.Newc.Field
/-!
# Record headers

A newc record is a header, a name and a content.  The header is a magic number and thirteen
fields; name and content are each padded with NUL bytes to a multiple of four:

* magic, six bytes: `070701`;
* inode, mode, uid, gid, link count, modification time, content size, major and minor number of
  the containing device, major and minor number of a special file, name size, check;
* the name and a NUL byte, both counted in the name size, then padding;
* the content, then padding.

The check field is always zero.  A record with an agreed name, the trailer, ends the archive.
-/

namespace CpioArchive.Newc

/-- The bytes every header begins with: `070701`. -/
def magic : Bytes := [48, 55, 48, 55, 48, 49]

/-- The length of the magic number and the thirteen fields. -/
def fixedLength : Nat := 110

/-- The name of the record that ends an archive: `TRAILER!!!`. -/
def trailerName : Bytes := [84, 82, 65, 73, 76, 69, 82, 33, 33, 33]

/-- Names and contents are padded to a multiple of this. -/
def alignment : Nat := 4

/-- The longest name that leaves room for its NUL byte in the name size. -/
def longestName : Nat := Field.largest - 1

/-- How many NUL bytes bring a length to the next multiple of four. -/
def paddingLength (length : Nat) : Nat :=
  let overhang := length % alignment
  if overhang = 0 then 0 else alignment - overhang

/-- What a record says about its entry. -/
structure Header where
  inode : Nat
  mode : Nat
  uid : Nat
  gid : Nat
  linkCount : Nat
  modificationTime : Nat
  contentSize : Nat
  deviceMajor : Nat
  deviceMinor : Nat
  specialMajor : Nat
  specialMinor : Nat
  /-- The name, without the NUL byte that ends it. -/
  name : Bytes
  deriving DecidableEq

namespace Header

/-- The header of an entry with the given metadata: one link, no devices, and the epoch for an
absent or earlier time. -/
def ofMetadata (name : Bytes) (metadata : Metadata) : Header where
  inode := metadata.inode
  mode := metadata.mode
  uid := metadata.uid
  gid := metadata.gid
  linkCount := 1
  modificationTime := (metadata.modificationTime.getD 0).toNat
  contentSize := metadata.size
  deviceMajor := 0
  deviceMinor := 0
  specialMajor := 0
  specialMinor := 0
  name

/-- The header of the record that ends an archive. -/
def trailer : Header := ⟨0, 0, 0, 0, 1, 0, 0, 0, 0, 0, 0, trailerName⟩

/-- The fields in front of the name size, each with its name, in the order of the header. -/
def fields (h : Header) : List (String × Nat) :=
  [("ino", h.inode), ("mode", h.mode), ("uid", h.uid), ("gid", h.gid), ("nlink", h.linkCount),
    ("mtime", h.modificationTime), ("filesize", h.contentSize), ("devmajor", h.deviceMajor),
    ("devminor", h.deviceMinor), ("rdevmajor", h.specialMajor), ("rdevminor", h.specialMinor)]

/-- The length of the name with its NUL byte. -/
def nameSize (h : Header) : Nat := h.name.length + 1

/-- The header as it is written, name and padding included. -/
def image (h : Header) : Bytes :=
  magic ++ h.fields.flatMap (fun field => Field.encode field.2) ++ Field.encode h.nameSize
    ++ Field.encode 0 ++ h.name ++ nuls (1 + paddingLength (fixedLength + h.nameSize))

/-- The image of a header that can be written.  A name must be there and not too long, and every
number must fit into its field; the first fault found in that order is reported. -/
def encode (h : Header) : Except ArchiveError Bytes :=
  if h.name.isEmpty then .error .emptyName
  else if longestName < h.name.length then .error (.nameTooLong h.name.length longestName)
  else
    match h.fields.find? fun field => Field.largest < field.2 with
    | some (field, value) => .error (.fieldOverflow field value)
    | none => .ok h.image

end Header

/-- The record that ends an archive. -/
def trailerRecord : Bytes := Header.trailer.image

end CpioArchive.Newc
