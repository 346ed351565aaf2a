import WordStem.JsonValue
import WordStem.TomlDocument

/-! # Formats of settings

Settings can be written in TOML or in JSON. What a reader of settings needs to know of a format is
how its values hold numbers, truth values, names and groups of settings. A group is either a
table, in which unknown keys are ignored, or a list with the settings in a fixed order. -/
namespace WordStem

/-- How the values of a format hold settings. A group is read for a list of setting names, and
answers what it holds for each name. -/
structure SettingsFormat (Value : Type) where
  count? : Value → Option Nat
  truth? : Value → Option Bool
  name? : Value → Option String
  group? : List String → Value → Option (String → Option Value)

namespace SettingsFormat

def largestCount : Nat := UInt64.size - 1

def countOf? (value : Int) : Option Nat :=
  if 0 ≤ value ∧ value ≤ largestCount then some value.toNat else none

def positional {Value : Type} (names : List String) (items : List Value) (name : String) :
    Option Value :=
  (names.zip items).lookup name

def read? {Value Meaning : Type} (group : String → Option Value) (name : String)
    (fallback : Meaning) (meaning? : Value → Option Meaning) : Option Meaning :=
  match group name with
  | some value => meaning? value
  | none => some fallback

/-- Settings in TOML. A name may also be the only key of a table, with nothing below it. Numbers
below unknown keys must have a value all the same. A list may be longer than needed, with anything
behind the settings, and a moment counts as an empty group. -/
def toml : SettingsFormat Toml.Value where
  count?
    | .integer value => countOf? value
    | _ => none
  truth?
    | .bool value => some value
    | _ => none
  name?
    | .text name => some name
    | .table _ [(name, .table _ [])] => some name
    | .table _ [(name, .list _ [])] => some name
    | _ => none
  group? names
    | .table _ entries =>
      if entries.all fun (key, value) => names.contains key || value.isSound then
        some fun name => entries.lookup name
      else none
    | .list _ items => some (positional names items)
    | .moment _ => some fun _ => none
    | _ => none

/-- Settings in JSON. A name may also be the only key of a record, with null as its value. A list
must not be longer than needed. -/
def json : SettingsFormat JsonValue where
  count?
    | .whole value => countOf? value
    | _ => none
  truth?
    | .bool value => some value
    | _ => none
  name?
    | .text name => some name
    | .record [(name, .null)] => some name
    | _ => none
  group? names
    | .record fields => some fun name => fields.lookup name
    | .list items => if items.length ≤ names.length then some (positional names items) else none
    | _ => none

end SettingsFormat

end WordStem
