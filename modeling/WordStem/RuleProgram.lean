import WordStem.AffixSearch

/-! # Rule programs

A rule program is a stemmer written as data. A forward pass marks the regions of the word, and
then an ordered list of steps works on the end of the word. Most steps look for a suffix, ask
whether it lies inside a region and let the tag of the suffix select an action; other steps are
rules of their own. Actions may hold further suffix rules to any depth, so the application of a
rule is by structural recursion on the rule. -/
namespace WordStem

mutual

/-- What a suffix rule does with the suffix that it found. -/
inductive Action (Context : Type) where
  /-- Deletes the suffix. -/
  | delete
  /-- Replaces the suffix. -/
  | replace (replacement : String)
  /-- Deletes the suffix and tries another rule on what is left. -/
  | deleteThen (next : SuffixRule Context)
  /-- Deletes the suffix and one letter of the doubled consonant before it. Does nothing unless
  there is a doubled consonant. -/
  | undouble
  /-- Hands the matched suffix to a rule of its own. -/
  | call (rule : RuleM Context Bool)

/-- How the tag of a suffix selects an action. -/
inductive Outcome (Context : Type) where
  /-- Every tag selects the same action. -/
  | always (action : Action Context)
  /-- Tag `n` selects the `n`-th action, counted from one; tags past the end match without
  changing the word. -/
  | byTag (actions : List (Action Context))

/-- Looks for the longest suffix from a table, requires that it starts inside a region and takes
the action that its tag selects. -/
structure SuffixRule (Context : Type) where
  table : AffixTable Context
  region : WordBuffer → Context → Bool
  outcome : Outcome Context

end

/-- The rule of a step. -/
inductive StepRule (Context : Type) where
  | suffix (rule : SuffixRule Context)
  | custom (rule : RuleM Context Bool)

/-- One named step of a program. -/
structure Step (Context : Type) where
  name : String
  rule : StepRule Context

/-- A stemmer written as data. The tables listed are those that the program is checked by. -/
structure RuleProgram (Context : Type) where
  name : String
  markRegions : RuleM Context Bool
  doubles? : Option (AffixTable Context)
  tables : List (AffixTable Context)
  steps : List (Step Context)

variable {Context : Type}

/-- Runs a rule and then brings the cursor back to its distance from the limit. -/
def RuleM.keepingDistance {Value : Type} (rule : RuleM Context Value) : RuleM Context Value := do
  let before ← RuleM.buffer
  let value ← rule
  RuleM.modifyBuffer fun buffer => buffer.moveToDistance before.distanceToLimit
  return value

/-- Whether the text before the cursor ends in a doubled consonant. The cursor stays in place. -/
def endsInDouble (doubles? : Option (AffixTable Context)) : RuleM Context Bool :=
  match doubles? with
  | none => return false
  | some doubles => do
    let before ← RuleM.buffer
    let tag ← doubles.find .backward
    if tag = 0 then
      return false
    RuleM.modifyBuffer fun buffer => buffer.moveToDistance before.distanceToLimit
    return true

/-- Drops one letter of the doubled consonant before the cursor. -/
def dropDoubled : RuleM Context Bool := do
  if !(← RuleM.scan fun buffer => buffer.next? .backward) then
    return false
  RuleM.modifyBuffer WordBuffer.markEnd
  if !(← RuleM.scan fun buffer => buffer.next? .backward) then
    return false
  RuleM.modifyBuffer WordBuffer.markStart
  RuleM.edit WordBuffer.deleteSlice
  return true

mutual

def SuffixRule.apply (doubles? : Option (AffixTable Context)) :
    SuffixRule Context → RuleM Context Bool
  | ⟨table, region, outcome⟩ => do
    RuleM.modifyBuffer WordBuffer.markEnd
    let tag ← table.find .backward
    if tag = 0 then
      return false
    RuleM.modifyBuffer WordBuffer.markStart
    let buffer ← RuleM.buffer
    let context ← RuleM.context
    if !region buffer context then
      return false
    outcome.apply doubles? tag

def Outcome.apply (doubles? : Option (AffixTable Context)) (tag : Int) :
    Outcome Context → RuleM Context Bool
  | .always action => action.apply doubles?
  | .byTag actions =>
    if 1 ≤ tag then Action.applyNth doubles? actions (tag - 1).toNat else return true

def Action.applyNth (doubles? : Option (AffixTable Context)) :
    List (Action Context) → Nat → RuleM Context Bool
  | [], _ => return true
  | action :: _, 0 => action.apply doubles?
  | _ :: others, index + 1 => Action.applyNth doubles? others index

def Action.apply (doubles? : Option (AffixTable Context)) :
    Action Context → RuleM Context Bool
  | .delete => do
    RuleM.edit WordBuffer.deleteSlice
    return true
  | .replace replacement => do
    RuleM.edit fun buffer => buffer.replaceSlice replacement
    return true
  | .deleteThen next => do
    RuleM.edit WordBuffer.deleteSlice
    let _ ← RuleM.keepingDistance (next.apply doubles?)
    return true
  | .undouble => do
    if ← endsInDouble doubles? then
      RuleM.edit WordBuffer.deleteSlice
      dropDoubled
    else
      return false
  | .call rule => rule

end

def StepRule.apply (doubles? : Option (AffixTable Context)) :
    StepRule Context → RuleM Context Bool
  | .suffix rule => rule.apply doubles?
  | .custom rule => rule

namespace RuleProgram

/-- Accepts a program whose listed tables are all valid. -/
def validate (program : RuleProgram Context) : Except Defect Unit :=
  program.tables.forM AffixTable.validate

/-- Runs the region pass and brings the cursor back to where it was. Answers whether a region was
found; the context holds the boundaries either way. -/
def mark (program : RuleProgram Context) : RuleM Context Bool := do
  let before ← RuleM.buffer
  let found ← program.markRegions
  RuleM.modifyBuffer fun buffer => buffer.moveTo before.cursor
  return found

/-- Runs steps one after the other, each from the distance to the limit at which it began. -/
def runSteps (program : RuleProgram Context) (steps : List (Step Context)) :
    RuleM Context Unit :=
  steps.forM fun step => do
    let _ ← RuleM.keepingDistance (step.rule.apply program.doubles?)

/-- Runs the program on the word in the buffer. A step that does not match leaves the word
as it is, and the next step starts from the end of the word again. -/
def run (program : RuleProgram Context) : RuleM Context Unit := do
  let _ ← program.mark
  RuleM.modifyBuffer WordBuffer.beginBackward
  program.runSteps program.steps
  RuleM.modifyBuffer fun buffer => buffer.moveTo buffer.floor

end RuleProgram

end WordStem
