import WordStem.Rule

/-! # Affix tables

An affix table lists the affixes that a rule looks for, in ascending order of their keys: the
bytes of the affix in reading order. Every entry may link to an earlier entry whose affix it
extends; the search falls back along these links. Both conditions are decided by `validate`,
which names the first entry that breaks one. -/
namespace WordStem

/-- One affix of a table. The link is the index of the longest shorter entry that the affix
extends, or `-1`; the tag tells the rule which action to take; the guard, if there is one, must
accept the affix after its text has matched. -/
structure Affix (Context : Type) where
  literal : String
  link : Int
  tag : Int
  guard? : Option (RuleM Context Bool) := none

/-- An ordered table of affixes to be searched in one direction. -/
structure AffixTable (Context : Type) where
  name : String
  direction : Direction
  affixes : List (Affix Context)

namespace AffixTable

variable {Context : Type}

/-- A table without guards from rows of affix, link and tag. -/
def ofRows (name : String) (direction : Direction) (rows : List (String × Int × Int)) :
    AffixTable Context where
  name := name
  direction := direction
  affixes := rows.map fun (literal, link, tag) => { literal, link, tag }

/-- The bytes of an affix in the reading order of a direction. -/
def key (direction : Direction) (affix : Affix Context) : List UInt8 :=
  direction.inReadingOrder (utf8Bytes affix.literal.toList)

/-- An entry is in order when its key is greater than the key of the entry before it. -/
def inOrder (table : AffixTable Context) (index : Nat) (affix : Affix Context) : Bool :=
  match index with
  | 0 => true
  | before + 1 =>
    match table.affixes[before]? with
    | some previous => key table.direction previous < key table.direction affix
    | none => true

/-- A link is sound when it is `-1` or names an earlier entry that the affix extends. -/
def linkSound (table : AffixTable Context) (index : Nat) (affix : Affix Context) : Bool :=
  match affix.link with
  | .negSucc below => below == 0
  | .ofNat target =>
    match table.affixes[target]? with
    | some base =>
      target < index &&
        (key table.direction base).isPrefixOf (key table.direction affix)
    | none => false

/-- What is wrong with an entry, its order being looked at before its link. -/
def defectAt? (table : AffixTable Context) (index : Nat) (affix : Affix Context) :
    Option Defect :=
  if !table.inOrder index affix then
    some (.unsortedTable table.name index)
  else if !table.linkSound index affix then
    some (.brokenChain table.name index)
  else
    none

/-- Accepts a table whose entries are all in order and soundly linked. -/
def validate (table : AffixTable Context) : Except Defect Unit :=
  match table.affixes.zipIdx.findSome? fun entry => table.defectAt? entry.2 entry.1 with
  | some defect => .error defect
  | none => .ok ()

end AffixTable

end WordStem
