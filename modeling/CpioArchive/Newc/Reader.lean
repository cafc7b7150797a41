import CpioArchive.Newc.Header
import CpioArchive.Text.Quoted
/-!
# Reading archives

A strict reader: an archive is a sequence of records, each starting at a multiple of four, that
ends with exactly one trailer.  The first structural fault is reported with its place.

The reader moves a cursor over the archive.  Each record takes at least its fixed part away, so
the reader comes to an end (`readEntry_shorter`).
-/

namespace CpioArchive.Newc

/-- An entry of an archive: what its header says, and its content. -/
structure Entry where
  header : Header
  content : Bytes
  deriving DecidableEq

/-- The first structural fault of an archive. -/
inductive ReadError where
  /-- A record starts at an offset that is no multiple of four. -/
  | misaligned (offset : Nat)
  /-- The archive ends inside the part that starts at this offset. -/
  | truncated (offset : Nat)
  /-- The record at this offset does not begin with the magic number. -/
  | badMagic (offset : Nat)
  /-- A field holds something other than lower-case hexadecimal digits. -/
  | badField (field : Bytes)
  /-- The check field is not zero. -/
  | nonzeroCheck (value : Nat)
  /-- The name size leaves no room for the NUL byte. -/
  | nameSizeZero
  /-- The name field does not end in a NUL byte. -/
  | unterminatedName
  /-- Bytes follow the trailer. -/
  | bytesAfterTrailer (count : Nat)
  deriving DecidableEq

/-- The text of a fault. -/
def ReadError.message : ReadError → String
  | misaligned offset => "record at offset " ++ Text.decimal offset ++ " is not 4-byte aligned"
  | truncated offset => "truncated archive at offset " ++ Text.decimal offset
  | badMagic offset => "bad magic at offset " ++ Text.decimal offset
  | badField field => "field " ++ Text.quoted (Utf8.lossyText field) ++ " is not lowercase hex"
  | nonzeroCheck value => "non-zero check field " ++ Text.hexadecimal value
  | nameSizeZero => "namesize of zero"
  | unterminatedName => "name is not NUL-terminated"
  | bytesAfterTrailer count => Text.decimal count ++ " bytes after trailer"

/-- A place in an archive: its offset, and the bytes from there on. -/
structure Cursor where
  offset : Nat
  rest : Bytes

namespace Cursor

/-- The beginning of an archive. -/
def start (archive : Bytes) : Cursor := ⟨0, archive⟩

/-- The next `count` bytes and the place behind them. -/
def take (cursor : Cursor) (count : Nat) : Except ReadError (Bytes × Cursor) :=
  let taken := cursor.rest.take count
  if taken.length = count then .ok (taken, ⟨cursor.offset + count, cursor.rest.drop count⟩)
  else .error (.truncated cursor.offset)

/-- The place behind the padding that makes the offset a multiple of four. -/
def skipPadding (cursor : Cursor) : Except ReadError Cursor :=
  (cursor.take (paddingLength cursor.offset)).map (·.2)

theorem take_rest {cursor next : Cursor} {count : Nat} {taken : Bytes}
    (h : cursor.take count = .ok (taken, next)) :
    next.rest.length + count = cursor.rest.length := by
  simp only [take] at h
  split at h
  next hcount =>
    cases h
    simp only [List.length_take, List.length_drop] at hcount ⊢
    omega
  · cases h

theorem skipPadding_rest {cursor next : Cursor} (h : cursor.skipPadding = .ok next) :
    next.rest.length ≤ cursor.rest.length := by
  simp only [skipPadding] at h
  cases htake : cursor.take (paddingLength cursor.offset) with
  | error e => rw [htake] at h; cases h
  | ok pair =>
    obtain ⟨taken, place⟩ := pair
    rw [htake] at h
    cases h
    have := take_rest htake
    show place.rest.length ≤ _
    omega

end Cursor

/-- The number in the field at the front, and the bytes behind it. -/
def readField (bytes : Bytes) : Except ReadError (Nat × Bytes) :=
  let field := bytes.take Field.width
  match Field.decode? field with
  | some value => .ok (value, bytes.drop Field.width)
  | none => .error (.badField field)

/-- The fixed part of a header: its fields, still without a name, and the name size. -/
def readFixed (offset : Nat) (bytes : Bytes) : Except ReadError (Header × Nat) :=
  if bytes.take magic.length ≠ magic then .error (.badMagic offset)
  else do
    let (inode, bytes) ← readField (bytes.drop magic.length)
    let (mode, bytes) ← readField bytes
    let (uid, bytes) ← readField bytes
    let (gid, bytes) ← readField bytes
    let (linkCount, bytes) ← readField bytes
    let (modificationTime, bytes) ← readField bytes
    let (contentSize, bytes) ← readField bytes
    let (deviceMajor, bytes) ← readField bytes
    let (deviceMinor, bytes) ← readField bytes
    let (specialMajor, bytes) ← readField bytes
    let (specialMinor, bytes) ← readField bytes
    let (nameSize, bytes) ← readField bytes
    let (check, _) ← readField bytes
    if check ≠ 0 then .error (.nonzeroCheck check)
    else if nameSize = 0 then .error .nameSizeZero
    else
      return (⟨inode, mode, uid, gid, linkCount, modificationTime, contentSize, deviceMajor,
        deviceMinor, specialMajor, specialMinor, []⟩, nameSize)

/-- The name in a name field, which ends in a NUL byte. -/
def readName (field : Bytes) : Except ReadError Bytes :=
  if field.getLast? = some nul then .ok field.dropLast else .error .unterminatedName

/-- The record at a cursor and the place behind it.  The trailer is read like any other. -/
def readEntry (cursor : Cursor) : Except ReadError (Entry × Cursor) :=
  if cursor.offset % alignment ≠ 0 then .error (.misaligned cursor.offset)
  else do
    let (fixed, afterFixed) ← cursor.take fixedLength
    let (header, nameSize) ← readFixed cursor.offset fixed
    let (nameField, afterName) ← afterFixed.take nameSize
    let name ← readName nameField
    let contentStart ← afterName.skipPadding
    let (content, contentEnd) ← contentStart.take header.contentSize
    let recordEnd ← contentEnd.skipPadding
    return (⟨{ header with name }, content⟩, recordEnd)

/-- A sequence of two steps succeeds only if both do. -/
theorem eq_ok_of_bind {ε α β : Type} {step : Except ε α} {next : α → Except ε β} {b : β}
    (h : (step >>= next) = .ok b) : ∃ a, step = .ok a ∧ next a = .ok b := by
  cases step with
  | error e => cases h
  | ok a => exact ⟨a, rfl, h⟩

/-- A record is at least as long as the fixed part of its header. -/
theorem readEntry_shorter {cursor next : Cursor} {entry : Entry}
    (h : readEntry cursor = .ok (entry, next)) :
    next.rest.length + fixedLength ≤ cursor.rest.length := by
  simp only [readEntry] at h
  split at h
  · cases h
  · obtain ⟨⟨fixed, afterFixed⟩, hfixed, h⟩ := eq_ok_of_bind h
    obtain ⟨⟨header, nameSize⟩, -, h⟩ := eq_ok_of_bind h
    obtain ⟨⟨nameField, afterName⟩, hname, h⟩ := eq_ok_of_bind h
    obtain ⟨name, -, h⟩ := eq_ok_of_bind h
    obtain ⟨contentStart, hstart, h⟩ := eq_ok_of_bind h
    obtain ⟨⟨content, contentEnd⟩, hcontent, h⟩ := eq_ok_of_bind h
    obtain ⟨recordEnd, hend, h⟩ := eq_ok_of_bind h
    cases h
    dsimp only at hname hstart hcontent hend
    have := Cursor.take_rest hfixed
    have := Cursor.take_rest hname
    have := Cursor.skipPadding_rest hstart
    have := Cursor.take_rest hcontent
    have := Cursor.skipPadding_rest hend
    omega

/-- The entries from a cursor on, up to the trailer, which must be the last record. -/
def readEntries (cursor : Cursor) : Except ReadError (List Entry) :=
  match _h : readEntry cursor with
  | .error e => .error e
  | .ok (entry, next) =>
    if entry.header.name = trailerName then
      if next.rest.isEmpty then .ok [] else .error (.bytesAfterTrailer next.rest.length)
    else (readEntries next).map (entry :: ·)
termination_by cursor.rest.length
decreasing_by
  have := readEntry_shorter ‹readEntry cursor = _›
  simp only [fixedLength] at this
  omega

/-- The entries of a complete archive, without the trailer. -/
def readArchive (archive : Bytes) : Except ReadError (List Entry) := readEntries (.start archive)

end CpioArchive.Newc
