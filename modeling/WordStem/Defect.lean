/-! # Defects of rule programs

A rule program that is wrong in itself, as opposed to one that meets a word it cannot reduce, is
reported as a defect. Each cause has its own constructor and the wording is in one place. -/
namespace WordStem

/-- The ways a rule program can be wrong. -/
inductive Defect where
  /-- An edit was asked for a slice that is not one of the word. -/
  | faultySlice (start stop limit : Nat)
  /-- The link of a table entry does not lead to an earlier entry that it extends. -/
  | brokenChain (table : String) (index : Nat)
  /-- A table entry does not come after the entry before it. -/
  | unsortedTable (table : String) (index : Nat)
deriving DecidableEq, Repr

def Defect.message : Defect → String
  | faultySlice start stop limit =>
    "faulty slice operation: bra=" ++ toString start ++ ", ket=" ++ toString stop ++
      ", limit=" ++ toString limit
  | brokenChain table index =>
    "among table " ++ table ++ ": entry " ++ toString index ++
      " has a back-link that does not terminate"
  | unsortedTable table index =>
    "among table " ++ table ++ ": entry " ++ toString index ++ " is out of order"

end WordStem
