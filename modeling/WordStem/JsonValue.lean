import WordStem.DecimalText

/-! # JSON values

The JSON values that the library writes and reads settings from, with their compact text and
their indented text. The fields of a record are written in the order in which they are listed,
so whoever builds a record lists them in alphabetical order. -/
namespace WordStem

/-- A JSON value. Whole numbers are kept apart from other numbers. -/
inductive JsonValue where
  | null
  | bool (value : Bool)
  | whole (value : Int)
  | real (value : Float)
  | text (value : String)
  | list (items : List JsonValue)
  | record (fields : List (String × JsonValue))
deriving Inhabited

namespace JsonValue

def textCharacter (character : Char) : List Char :=
  if character = '"' then ['\\', '"']
  else if character = '\\' then ['\\', '\\']
  else if character = '\n' then ['\\', 'n']
  else if character = '\r' then ['\\', 'r']
  else if character = '\t' then ['\\', 't']
  else if character = '\x08' then ['\\', 'b']
  else if character = '\x0c' then ['\\', 'f']
  else if character.toNat < 32 then
    ['\\', 'u', '0', '0', Nat.digitChar (character.toNat / 16),
      Nat.digitChar (character.toNat % 16)]
  else [character]

def quotedText (text : String) : String :=
  String.ofList (['"'] ++ text.toList.flatMap textCharacter ++ ['"'])

/-- A number; one that is not finite has no JSON form and is written as null. -/
def numberText (value : Float) : String :=
  if value.isNaN || value.isInf then "null" else DecimalLayout.json.write value

/-- How the parts of lists and records are set apart: the text after an opening bracket and after
a comma, the text before a closing bracket, and the text after a field name. -/
structure Spacing where
  afterOpening : Nat → String
  beforeClosing : Nat → String
  afterName : String

def Spacing.compact : Spacing where
  afterOpening _ := ""
  beforeClosing _ := ""
  afterName := ":"

/-- Every item on a line of its own, indented by two blanks for each level. -/
def Spacing.indented : Spacing where
  afterOpening depth := "\n" ++ String.ofList (List.replicate (2 * depth + 2) ' ')
  beforeClosing depth := "\n" ++ String.ofList (List.replicate (2 * depth) ' ')
  afterName := ": "

mutual

def write (spacing : Spacing) (depth : Nat) : JsonValue → String
  | null => "null"
  | bool value => if value then "true" else "false"
  | whole value => toString value
  | real value => numberText value
  | text value => quotedText value
  | list [] => "[]"
  | list (first :: others) =>
    "[" ++ spacing.afterOpening depth ++ first.write spacing (depth + 1) ++
      writeItems spacing depth others ++ spacing.beforeClosing depth ++ "]"
  | record [] => "\x7b\x7d"
  | record ((name, first) :: others) =>
    "\x7b" ++ spacing.afterOpening depth ++ quotedText name ++ spacing.afterName ++
      first.write spacing (depth + 1) ++ writeFields spacing depth others ++
      spacing.beforeClosing depth ++ "\x7d"

def writeItems (spacing : Spacing) (depth : Nat) : List JsonValue → String
  | [] => ""
  | item :: others =>
    "," ++ spacing.afterOpening depth ++ item.write spacing (depth + 1) ++
      writeItems spacing depth others

def writeFields (spacing : Spacing) (depth : Nat) : List (String × JsonValue) → String
  | [] => ""
  | (name, value) :: others =>
    "," ++ spacing.afterOpening depth ++ quotedText name ++ spacing.afterName ++
      value.write spacing (depth + 1) ++ writeFields spacing depth others

end

def compact (value : JsonValue) : String :=
  value.write .compact 0

def indented (value : JsonValue) : String :=
  value.write .indented 0

end JsonValue

end WordStem
