import WordStem.Proofs.SuffixRewriting

/-! # The characters that rules write

A suffix rule takes characters off a text, and the only ones that it puts there are those of the
replacements among its actions. So a text of allowed characters stays one under every rule that
writes no others. Main statement: `RuleProgram.rewriteSteps_within`. -/
namespace WordStem

variable {Context : Type} {allowed : Char → Prop} {doubles? : Option (AffixTable Context)}
  {context : Context}

/-- An action puts allowed characters into a text and no others. -/
def Action.WritesWithin (allowed : Char → Prop) : Action Context → Prop
  | .replace replacement => ∀ character ∈ replacement.toList, allowed character
  | _ => True

/-- All actions that a rule leads to put allowed characters into a text and no others. -/
def SuffixRule.WritesWithin (allowed : Char → Prop) (rule : SuffixRule Context) : Prop :=
  rule.Throughout (fun _ _ => True) (Action.WritesWithin allowed)

def StepRule.WritesWithin (allowed : Char → Prop) : StepRule Context → Prop
  | .suffix rule => rule.WritesWithin allowed
  | .custom _ => True

theorem mem_of_mem_withoutLastButOne {text : List Char} {character : Char}
    (member : character ∈ withoutLastButOne text) : character ∈ text := by
  rw [withoutLastButOne, List.mem_append] at member
  rcases member with front | last
  · exact List.dropLast_subset text (List.dropLast_subset text.dropLast front)
  · exact List.mem_of_getLast? (Option.mem_toList.mp last)

mutual

/-- A rule that writes allowed characters makes a text of allowed characters of every such text. -/
theorem SuffixRule.rewrite_within (rule : SuffixRule Context)
    (writes : rule.Throughout (fun _ _ => True) (Action.WritesWithin allowed))
    {text : List Char} (within : ∀ character ∈ text, allowed character) :
    ∀ character ∈ rule.rewrite doubles? context text, allowed character := by
  match rule, writes with
  | ⟨table, region, outcome⟩, ⟨_, outcomeWrites⟩ =>
    rw [SuffixRule.rewrite]
    split
    case h_1 => exact within
    case h_2 stem tag cut =>
      obtain ⟨affix, -, rfl, -⟩ := AffixTable.exists_affix_of_cutSuffix? cut
      split
      · exact outcome.rewrite_within outcomeWrites tag
          (fun character member => within character (List.mem_append_left _ member)) within
      · exact within

theorem Outcome.rewrite_within (outcome : Outcome Context)
    (writes : outcome.Throughout (fun _ _ => True) (Action.WritesWithin allowed)) (tag : Int)
    {stem text : List Char} (stemWithin : ∀ character ∈ stem, allowed character)
    (within : ∀ character ∈ text, allowed character) :
    ∀ character ∈ outcome.rewrite doubles? context tag stem text, allowed character := by
  match outcome, writes with
  | .always action, actionWrites =>
    rw [Outcome.rewrite]
    exact action.rewrite_within actionWrites stemWithin within
  | .byTag actions, actionsWrite =>
    rw [Outcome.rewrite]
    split
    · exact Action.rewriteNth_within actions actionsWrite _ stemWithin within
    · exact within

theorem Action.rewriteNth_within (actions : List (Action Context))
    (write : Action.AllThroughout (fun _ _ => True) (Action.WritesWithin allowed) actions)
    (index : Nat) {stem text : List Char} (stemWithin : ∀ character ∈ stem, allowed character)
    (within : ∀ character ∈ text, allowed character) :
    ∀ character ∈ Action.rewriteNth doubles? context stem text actions index,
      allowed character := by
  match actions, write, index with
  | [], _, _ =>
    rw [Action.rewriteNth]
    exact within
  | action :: _, ⟨actionWrites, _⟩, 0 =>
    rw [Action.rewriteNth]
    exact action.rewrite_within actionWrites stemWithin within
  | _ :: others, ⟨_, othersWrite⟩, index + 1 =>
    rw [Action.rewriteNth]
    exact Action.rewriteNth_within others othersWrite index stemWithin within

theorem Action.rewrite_within (action : Action Context)
    (writes : action.Throughout (fun _ _ => True) (Action.WritesWithin allowed))
    {stem text : List Char} (stemWithin : ∀ character ∈ stem, allowed character)
    (within : ∀ character ∈ text, allowed character) :
    ∀ character ∈ action.rewrite doubles? context stem text, allowed character := by
  match action, writes with
  | .delete, _ =>
    rw [Action.rewrite]
    exact stemWithin
  | .replace replacement, replacementWrites =>
    rw [Action.rewrite]
    intro character member
    rcases List.mem_append.mp member with kept | written
    · exact stemWithin character kept
    · exact replacementWrites character written
  | .deleteThen next, ⟨_, nextWrites⟩ =>
    rw [Action.rewrite]
    exact next.rewrite_within nextWrites stemWithin
  | .undouble, _ =>
    rw [Action.rewrite]
    split
    · exact fun character member =>
        stemWithin character (mem_of_mem_withoutLastButOne member)
    · exact within
  | .call _, _ =>
    rw [Action.rewrite]
    exact within

end

/-- What holds of one rule holds of steps one after the other. -/
theorem RuleProgram.rewriteSteps_within {program : RuleProgram Context} {text : List Char}
    (steps : List (Step Context)) (write : ∀ step ∈ steps, step.rule.WritesWithin allowed)
    (within : ∀ character ∈ text, allowed character) :
    ∀ character ∈ program.rewriteSteps context steps text, allowed character := by
  induction steps generalizing text with
  | nil => exact within
  | cons step others ih =>
    obtain ⟨stepWrites, othersWrite⟩ := List.forall_mem_cons.mp write
    rw [rewriteSteps, List.foldl_cons]
    apply ih othersWrite
    cases ruleEq : step.rule with
    | suffix rule =>
      rw [ruleEq] at stepWrites
      exact rule.rewrite_within stepWrites within
    | custom rule => exact within

end WordStem
