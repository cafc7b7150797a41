import CpioArchive.Error
/-!
# Settings of a creation run

How inputs are read and which of them are accepted.  No setting changes a byte of an archive that
is written completely.
-/

namespace CpioArchive

/-- The settings of a run. -/
structure Settings where
  /-- How many bytes are copied at a time. -/
  bufferSize : Nat := 65536
  /-- Whether a symbolic link given as input stands for the file it leads to. -/
  followSymlinks : Bool := true
  deriving DecidableEq

namespace Settings

/-- The smallest buffer a run accepts. -/
def smallestBuffer : Nat := 512

/-- The largest buffer a run accepts. -/
def largestBuffer : Nat := 16 * 1024 * 1024

/-- Whether the buffer size is in range. -/
def isValid (settings : Settings) : Bool :=
  smallestBuffer ≤ settings.bufferSize && settings.bufferSize ≤ largestBuffer

/-- Refuses settings that are out of range. -/
def validate (settings : Settings) : Except ArchiveError Unit :=
  if settings.isValid then .ok ()
  else
    .error (.invalidSettings ("buffer size " ++ Text.decimal settings.bufferSize ++ " outside "
      ++ Text.decimal smallestBuffer ++ "..=" ++ Text.decimal largestBuffer))

end Settings

end CpioArchive
