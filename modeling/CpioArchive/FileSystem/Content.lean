import CpioArchive.Bytes
/-!
# File contents

The content of a file is a run of stored bytes, followed by as many NUL bytes as its size asks for.
A file may thus be larger than what is stored of it (`length_toBytes`); one that is made of bytes
holds just these (`toBytes_ofBytes`).
-/

namespace CpioArchive

/-- The content of a regular file. -/
structure FileContent where
  stored : Array UInt8
  size : Nat
  size_stored_le : stored.size ≤ size

namespace FileContent

/-- No content. -/
def empty : FileContent := ⟨#[], 0, Nat.le_refl _⟩

/-- A content of which every byte is stored. -/
def ofBytes (bytes : Bytes) : FileContent := ⟨bytes.toArray, bytes.toArray.size, Nat.le_refl _⟩

/-- All bytes of a content. -/
def toBytes (content : FileContent) : Bytes :=
  content.stored.toList ++ nuls (content.size - content.stored.size)

theorem length_toBytes (content : FileContent) : content.toBytes.length = content.size := by
  have := content.size_stored_le
  simp only [toBytes, List.length_append, length_nuls, Array.length_toList]
  omega

theorem toBytes_ofBytes (bytes : Bytes) : (ofBytes bytes).toBytes = bytes := by
  simp [toBytes, ofBytes, nuls]

/-- At most `limit` bytes from an offset on. -/
def read (content : FileContent) (offset limit : Nat) : Bytes :=
  let stop := min (offset + limit) content.size
  let part := (content.stored.extract offset stop).toList
  part ++ nuls (stop - offset - part.length)

theorem length_read (content : FileContent) (offset limit : Nat) :
    (content.read offset limit).length = min limit (content.size - offset) := by
  simp only [read, List.length_append, length_nuls, Array.length_toList, Array.size_extract]
  omega

/-- Cuts a content off at a size, or extends it with NUL bytes. -/
def resize (content : FileContent) (size : Nat) : FileContent where
  stored := if size < content.stored.size then content.stored.extract 0 size else content.stored
  size
  size_stored_le := by
    split
    · simp only [Array.size_extract]; omega
    · omega

/-- Stored bytes, filled up with NUL bytes to at least a given length. -/
def filledTo (stored : Array UInt8) (length : Nat) : Array UInt8 :=
  if stored.size < length then stored.appendList (nuls (length - stored.size)) else stored

/-- Puts bytes at an offset, in place of what stood there.  Putting no bytes changes nothing. -/
def write (content : FileContent) (offset : Nat) (bytes : Bytes) : FileContent :=
  if bytes.isEmpty then content
  else
    match content with
    | ⟨stored, size, _⟩ =>
      let rest := stored.extract (offset + bytes.length) stored.size
      let kept := if offset < stored.size then stored.extract 0 offset else stored
      let stored := (filledTo kept offset).appendList bytes ++ rest
      ⟨stored, max size stored.size, Nat.le_max_right _ _⟩

end FileContent

end CpioArchive
