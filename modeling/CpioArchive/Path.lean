import CpioArchive.Bytes
/-!
# Paths

A path is a byte string whose components are separated by `/`.  Nothing here asks the file system:
these are the operations on the written form alone.
-/

namespace CpioArchive.Path

/-- The name behind the last separator, if there is one.  It is what an entry is called. -/
def fileName? (path : Bytes) : Option Bytes :=
  match (splitAtSlashes path).getLast? with
  | none | some [] => none
  | some name => some name

/-- Whether a path starts at the root. -/
def isAbsolute (path : Bytes) : Bool := path.head? == some slash

/-- The path of `name` as seen from a directory; an absolute name stands for itself. -/
def join (directory name : Bytes) : Bytes :=
  if isAbsolute name then name
  else if directory.isEmpty || directory.getLast? == some slash then directory ++ name
  else directory ++ [slash] ++ name

/-! ## Routes -/

/-- One step of a path. -/
inductive Component where
  /-- To the member of that name. -/
  | named (name : Bytes)
  /-- To the same directory: `.`. -/
  | current
  /-- To the directory above: `..`. -/
  | parent
  /-- A separator at the end: what came before has to be a directory. -/
  | asDirectory
  deriving DecidableEq

/-- The step that a part between two separators stands for.  Empty parts stand for none. -/
def component? (part : Bytes) : Option Component :=
  if part.isEmpty then none
  else if part = [46] then some .current
  else if part = [46, 46] then some .parent
  else some (.named part)

/-- The steps of a path, in order. -/
def components (path : Bytes) : List Component :=
  let steps := (splitAtSlashes path).filterMap component?
  if path.getLast? = some slash ∧ steps ≠ [] then steps ++ [.asDirectory] else steps

/-- The steps to the directory that contains what a path names: its steps without the last one that
goes somewhere else. -/
def parentComponents (path : Bytes) : List Component :=
  ((components path).filter fun step => step ≠ .current ∧ step ≠ .asDirectory).dropLast

end CpioArchive.Path
