import WordStem.Proofs.LongestAffix
import WordStem.RuleProgram

/-! # Suffix rules as functions on texts

A suffix rule that reads its tables without guards is a function on texts: it cuts the longest
listed suffix off and puts something in its place, or leaves the text alone. This function knows
nothing of cursors, marks and limits. A program of such rules amounts to applying the functions
of its steps one after the other. -/
namespace WordStem

variable {Context : Type}

/-- Cuts the longest suffix that a table lists off a text. Answers what is left of the text and
the tag of the suffix. -/
def AffixTable.cutSuffix? (table : AffixTable Context) (text : List Char) :
    Option (List Char × Int) :=
  (table.longest? .backward text).map fun affix =>
    (text.take (text.length - affix.literal.toList.length), affix.tag)

def endsDoubled (doubles? : Option (AffixTable Context)) (text : List Char) : Bool :=
  doubles?.any fun doubles => (doubles.cutSuffix? text).any fun cut => cut.2 ≠ 0

def withoutLastButOne (text : List Char) : List Char :=
  text.dropLast.dropLast ++ text.getLast?.toList

/-- Whether a suffix that starts at a position lies in a region. -/
def startsInside (region : WordBuffer → Context → Bool) (context : Context) (position : Nat) :
    Bool :=
  region { WordBuffer.empty with cursor := position } context

mutual

/-- The text that a suffix rule makes of a text. -/
def SuffixRule.rewrite (doubles? : Option (AffixTable Context)) (context : Context) :
    SuffixRule Context → List Char → List Char
  | ⟨table, region, outcome⟩, text =>
    match table.cutSuffix? text with
    | none => text
    | some (stem, tag) =>
      if tag ≠ 0 ∧ startsInside region context (byteLength stem) then
        outcome.rewrite doubles? context tag stem text
      else
        text

def Outcome.rewrite (doubles? : Option (AffixTable Context)) (context : Context) (tag : Int)
    (stem text : List Char) : Outcome Context → List Char
  | .always action => action.rewrite doubles? context stem text
  | .byTag actions =>
    if 1 ≤ tag then Action.rewriteNth doubles? context stem text actions (tag - 1).toNat
    else text

def Action.rewriteNth (doubles? : Option (AffixTable Context)) (context : Context)
    (stem text : List Char) : List (Action Context) → Nat → List Char
  | [], _ => text
  | action :: _, 0 => action.rewrite doubles? context stem text
  | _ :: others, index + 1 => Action.rewriteNth doubles? context stem text others index

def Action.rewrite (doubles? : Option (AffixTable Context)) (context : Context)
    (stem text : List Char) : Action Context → List Char
  | .delete => stem
  | .replace replacement => stem ++ replacement.toList
  | .deleteThen next => next.rewrite doubles? context stem
  | .undouble => if endsDoubled doubles? stem then withoutLastButOne stem else text
  | .call _ => text

end

def StepRule.rewrite (doubles? : Option (AffixTable Context)) (context : Context) :
    StepRule Context → List Char → List Char
  | .suffix rule, text => rule.rewrite doubles? context text
  | .custom _, text => text

/-- The text that steps make of a text, one after the other. -/
def RuleProgram.rewriteSteps (program : RuleProgram Context) (context : Context)
    (steps : List (Step Context)) (text : List Char) : List Char :=
  steps.foldl (fun text step => step.rule.rewrite program.doubles? context text) text

/-! ## The rules that rewrite -/

/-- A region that looks at nothing but the cursor and the context. -/
def ByPosition (region : WordBuffer → Context → Bool) : Prop :=
  ∀ buffer other context, buffer.cursor = other.cursor → region buffer context = region other context

def DoublesRead (doubles? : Option (AffixTable Context)) : Prop :=
  ∀ doubles, doubles? = some doubles → doubles.ReadsLongest .backward

section Throughout

variable (ruleHolds : AffixTable Context → (WordBuffer → Context → Bool) → Prop)
  (actionHolds : Action Context → Prop)

mutual

/-- A condition on tables and regions and one on actions hold throughout a rule when they hold for
the rule, for its actions and for all rules that these lead to. -/
def SuffixRule.Throughout : SuffixRule Context → Prop
  | ⟨table, region, outcome⟩ => ruleHolds table region ∧ outcome.Throughout

def Outcome.Throughout : Outcome Context → Prop
  | .always action => action.Throughout
  | .byTag actions => Action.AllThroughout actions

def Action.AllThroughout : List (Action Context) → Prop
  | [] => True
  | action :: others => action.Throughout ∧ Action.AllThroughout others

/-- The conditions hold for an action and throughout the rule that it leads to. -/
def Action.Throughout : Action Context → Prop
  | .delete => actionHolds .delete
  | .replace replacement => actionHolds (.replace replacement)
  | .deleteThen next => actionHolds (.deleteThen next) ∧ next.Throughout
  | .undouble => actionHolds .undouble
  | .call rule => actionHolds (.call rule)

end

end Throughout

/-- A suffix is looked up longest first, and its region goes by position. -/
def ReadsByPosition (table : AffixTable Context) (region : WordBuffer → Context → Bool) : Prop :=
  table.ReadsLongest .backward ∧ ByPosition region

/-- An action that does nothing but rewriting: it calls no rule of its own. -/
def Action.IsRewriting : Action Context → Prop
  | .call _ => False
  | _ => True

/-- A suffix rule rewrites when its table is read longest first, its region goes by position and
its actions only rewrite, and so do all rules that it leads to. -/
def SuffixRule.Rewrites (rule : SuffixRule Context) : Prop :=
  rule.Throughout ReadsByPosition Action.IsRewriting

def StepRule.Rewrites : StepRule Context → Prop
  | .suffix rule => rule.Rewrites
  | .custom _ => False

/-- A rule only scans when it runs to its end on every loaded word and leaves the word. -/
def RuleM.OnlyScans (rule : RuleM Context Bool) : Prop :=
  ∀ word context, ∃ found reached,
    rule ⟨WordBuffer.load word, context⟩ = .ok found reached ∧
      reached.buffer.text = word.toList

/-- A program rewrites when its region pass only scans and all its steps rewrite. -/
structure RuleProgram.Rewrites (program : RuleProgram Context) : Prop where
  onlyScans : program.markRegions.OnlyScans
  doublesRead : DoublesRead program.doubles?
  steps : ∀ step ∈ program.steps, step.rule.Rewrites

/-! ## Cutting a suffix off -/

theorem AffixTable.cutSuffix?_eq_none {table : AffixTable Context} {text : List Char}
    (none : table.longest? .backward text = none) : table.cutSuffix? text = .none := by
  rw [cutSuffix?, none]
  rfl

/-- What is cut off is the longest affix that the text ends with. -/
theorem AffixTable.exists_suffix_of_longest {table : AffixTable Context} {text : List Char}
    {affix : Affix Context} (longest : table.longest? .backward text = some affix) :
    ∃ stem, text = stem ++ affix.literal.toList ∧
      table.cutSuffix? text = some (stem, affix.tag) := by
  obtain ⟨stem, split⟩ := List.isSuffixOf_iff_suffix.mp (mem_of_longest?_eq_some longest).2
  refine ⟨stem, split.symm, ?_⟩
  rw [cutSuffix?, longest, ← split, Option.map_some, List.length_append, Nat.add_sub_cancel,
    List.take_left]

theorem AffixTable.exists_affix_of_cutSuffix? {table : AffixTable Context}
    {text stem : List Char} {tag : Int} (cut : table.cutSuffix? text = some (stem, tag)) :
    ∃ affix ∈ table.affixes, text = stem ++ affix.literal.toList ∧ affix.tag = tag := by
  cases longest : table.longest? .backward text with
  | none =>
    rw [cutSuffix?_eq_none longest] at cut
    cases cut
  | some affix =>
    obtain ⟨front, split, cutAgain⟩ := exists_suffix_of_longest longest
    rw [cutAgain] at cut
    cases cut
    exact ⟨affix, (mem_of_longest?_eq_some longest).1, split, rfl⟩

end WordStem
