/-! # TOML documents

What a TOML text says, and the tables that it builds. A text is a list of assignments, some of
them under the header of a section; putting them together may fail, since no key may be given
twice and a finished table may not be opened again. -/
namespace WordStem

namespace Toml

/-- How a table came into being, which decides what may still be added to it. -/
inductive Origin where
  /-- Written in one place between braces. -/
  | inline
  /-- Named on the way to a table below it by a header. -/
  | implied
  /-- Named on the way to a key by an assignment. -/
  | dotted
  /-- Named by a header of its own. -/
  | headed
deriving DecidableEq, Repr

/-- A TOML value. A list that headers build up table by table is kept apart from other lists. A
number without a value, such as one that is too large, is kept as it is written: it does no harm
where nobody asks for it. -/
inductive Value where
  | text (value : String)
  | integer (value : Int)
  | real (value : Float)
  | valueless (written : String)
  | bool (value : Bool)
  | moment (written : String)
  | list (byHeaders : Bool) (items : List Value)
  | table (origin : Origin) (entries : List (String × Value))

mutual

/-- Whether every number in a value has a value of its own. -/
def Value.isSound : Value → Bool
  | .valueless _ => false
  | .list _ items => areSoundItems items
  | .table _ entries => areSoundEntries entries
  | _ => true

/-- Whether every number in the items of a list has a value. -/
def areSoundItems : List Value → Bool
  | [] => true
  | item :: others => item.isSound && areSoundItems others

/-- Whether every number in the entries of a table has a value. -/
def areSoundEntries : List (String × Value) → Bool
  | [] => true
  | (_, value) :: others => value.isSound && areSoundEntries others

end

/-- A key with the keys of the tables above it. -/
structure Path where
  parents : List String
  key : String
deriving DecidableEq, Repr

/-- A path and the value to be put there. -/
structure Assignment where
  path : Path
  value : Value

/-- The header of a section: it names a table, or the next item of a list of tables. -/
inductive Header where
  | table (path : Path)
  | item (path : Path)
deriving DecidableEq, Repr

/-- A header with the assignments below it. -/
structure Section where
  header : Header
  assignments : List Assignment

/-- A whole text: the assignments before the first header, and the sections. -/
structure Document where
  leading : List Assignment
  sections : List Section

/-- Puts a value under a key, in place of the value that is there. -/
def put (key : String) (value : Value) : List (String × Value) → List (String × Value)
  | [] => [(key, value)]
  | (other, old) :: rest =>
    if other = key then (key, value) :: rest else (other, old) :: put key value rest

/-- Changes the table at the end of a chain of keys. Missing tables are made on the way. The
chain of an assignment must not pass through a table that has a header, and it makes the tables
that it passes tables of assignments, even if headers have implied them before. No chain passes
through a table that is written in one place. -/
def changeAt (byAssignment : Bool)
    (change : Origin → List (String × Value) → Option (List (String × Value))) :
    List String → Origin → List (String × Value) → Option (List (String × Value))
  | [], origin, entries => change origin entries
  | key :: keys, _, entries =>
    match entries.lookup key with
    | none => do
      let origin := if byAssignment then Origin.dotted else Origin.implied
      let inner ← changeAt byAssignment change keys origin []
      return put key (.table origin inner) entries
    | some (.table origin inner) =>
      if origin = .inline ∨ (byAssignment ∧ origin = .headed) then
        none
      else do
        let origin := if byAssignment then Origin.dotted else origin
        let inner ← changeAt byAssignment change keys origin inner
        return put key (.table origin inner) entries
    | some (.list true items) =>
      match items.getLast? with
      | some (.table origin inner) => do
        let inner ← changeAt byAssignment change keys origin inner
        return put key (.list true (items.dropLast ++ [.table origin inner])) entries
      | _ => none
    | some _ => none

/-- Carries out an assignment. The key must be new, and a table that the path names must be one
that an assignment may make. -/
def assign (entries : List (String × Value)) (assignment : Assignment) :
    Option (List (String × Value)) :=
  let { parents, key } := assignment.path
  changeAt true (fun origin inner =>
    if (parents ≠ [] ∧ origin ≠ .dotted) ∨ (inner.lookup key).isSome then none
    else some (put key assignment.value inner)) parents .headed entries

def fill (entries : List (String × Value)) (assignments : List Assignment) :
    Option (List (String × Value)) :=
  assignments.foldlM assign entries

/-- Adds a section. A table may be given a header once, and only if no assignment made it. -/
def addSection (root : List (String × Value)) (one : Section) : Option (List (String × Value)) :=
  match one.header with
  | .table path =>
    changeAt false (fun _ entries =>
      match entries.lookup path.key with
      | none => do
        return put path.key (.table .headed (← fill [] one.assignments)) entries
      | some (.table .implied inner) => do
        return put path.key (.table .headed (← fill inner one.assignments)) entries
      | some _ => none) path.parents .headed root
  | .item path =>
    changeAt false (fun _ entries => do
      let item := Value.table .headed (← fill [] one.assignments)
      match entries.lookup path.key with
      | none => return put path.key (.list true [item]) entries
      | some (.list true items) => return put path.key (.list true (items ++ [item])) entries
      | some _ => none) path.parents .headed root

def Document.entries? (document : Document) : Option (List (String × Value)) := do
  document.sections.foldlM addSection (← fill [] document.leading)

end Toml

end WordStem
