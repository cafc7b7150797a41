import CpioArchive.Text.Quoted
/-!
# JSON documents

The part of JSON that the program prints, and its two layouts: all on one line, or one value per
line, indented by two spaces a level.
-/

namespace CpioArchive

/-- A JSON value. -/
inductive Json where
  | text (value : String)
  | number (value : Nat)
  | list (items : List Json)
  | object (members : List (String × Json))

namespace Json

mutual

/-- A value on one line, without blanks. -/
def compact : Json → String
  | text value => Text.jsonQuoted value
  | number value => Text.decimal value
  | list items => "[" ++ ",".intercalate (compactItems items) ++ "]"
  | object members => "\x7b" ++ ",".intercalate (compactMembers members) ++ "\x7d"

/-- The items of a list, each on one line. -/
def compactItems : List Json → List String
  | [] => []
  | item :: rest => compact item :: compactItems rest

/-- The members of an object, each on one line. -/
def compactMembers : List (String × Json) → List String
  | [] => []
  | (name, value) :: rest =>
    (Text.jsonQuoted name ++ ":" ++ compact value) :: compactMembers rest

end

/-- A line break and the indentation of a level. -/
def newLine (level : Nat) : String := "\n" ++ String.ofList (List.replicate (2 * level) ' ')

/-- Parts between brackets, each on a line of its own one level further in. -/
def bracketed (opening closing : String) (level : Nat) (parts : List String) : String :=
  if parts.isEmpty then opening ++ closing
  else
    opening ++ newLine (level + 1) ++ ("," ++ newLine (level + 1)).intercalate parts
      ++ newLine level ++ closing

mutual

/-- A value over several lines, seen from the given level. -/
def pretty (level : Nat) : Json → String
  | text value => Text.jsonQuoted value
  | number value => Text.decimal value
  | list items => bracketed "[" "]" level (prettyItems (level + 1) items)
  | object members => bracketed "\x7b" "\x7d" level (prettyMembers (level + 1) members)

/-- The items of a list. -/
def prettyItems (level : Nat) : List Json → List String
  | [] => []
  | item :: rest => pretty level item :: prettyItems level rest

/-- The members of an object. -/
def prettyMembers (level : Nat) : List (String × Json) → List String
  | [] => []
  | (name, value) :: rest =>
    (Text.jsonQuoted name ++ ": " ++ pretty level value) :: prettyMembers level rest

end

end Json

end CpioArchive
