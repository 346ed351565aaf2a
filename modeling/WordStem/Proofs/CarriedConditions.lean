import WordStem.Proofs.SuffixRewriting

/-! # Conditions that rules carry

What a suffix rule does to a buffer is a handful of moves and one edit, whatever its table, its
region and its outcome are. So a condition on buffers is carried through a rule, and through all
rules that its actions lead to, once it is carried through these few parts and through the guards
and calls, which may be anything. Two conditions are carried together: one that holds between
rules, and one that holds from where a suffix is marked until it is edited. -/
namespace WordStem

variable {Context : Type}

/-- A rule leads from a condition on the buffer to another one if the second holds after it
wherever the first held before, whether the rule ends or stops at a defect. -/
structure RuleM.Leads {Value : Type} (rule : RuleM Context Value)
    (before after : WordBuffer → Prop) : Prop where
  holds : ∀ workspace, before workspace.buffer → after (rule.after workspace).buffer

namespace RuleM.Leads

variable {Value Result : Type} {before middle after condition : WordBuffer → Prop}

theorem bind {first : RuleM Context Value} {next : Value → RuleM Context Result}
    (firstLeads : first.Leads before middle) (nextLeads : ∀ value, (next value).Leads middle after)
    (stopped : ∀ buffer, middle buffer → after buffer) : (first >>= next).Leads before after := by
  constructor
  intro workspace holds
  have middleHolds := firstLeads.holds workspace holds
  rw [RuleM.after] at middleHolds ⊢
  cases run : first workspace with
  | ok value reached =>
    rw [run] at middleHolds
    rw [RuleM.bind_of_ok run]
    exact (nextLeads value).holds reached middleHolds
  | error defect reached =>
    rw [run] at middleHolds
    rw [RuleM.bind_of_error run]
    exact stopped _ middleHolds

/-- The first part of a rule, whose other parts carry along the condition it leads to. -/
theorem andThen {first : RuleM Context Value} {next : Value → RuleM Context Result}
    (firstLeads : first.Leads before after) (nextLeads : ∀ value, (next value).Leads after after) :
    (first >>= next).Leads before after :=
  firstLeads.bind nextLeads fun _ holds => holds

/-- A rule that only answers, where the condition after it is the weaker one. -/
theorem answer (weaker : ∀ buffer, before buffer → after buffer) (value : Value) :
    (Pure.pure value : RuleM Context Value).Leads before after :=
  ⟨fun workspace holds => weaker workspace.buffer holds⟩

theorem pure (value : Value) : (Pure.pure value : RuleM Context Value).Leads condition condition :=
  ⟨fun _ holds => holds⟩

theorem buffer : (RuleM.buffer : RuleM Context WordBuffer).Leads condition condition :=
  ⟨fun _ holds => holds⟩

theorem context : (RuleM.context : RuleM Context Context).Leads condition condition :=
  ⟨fun _ holds => holds⟩

theorem fail (defect : Defect) :
    (RuleM.fail defect : RuleM Context Value).Leads condition condition :=
  ⟨fun _ holds => holds⟩

theorem modifyContext (change : Context → Context) :
    (RuleM.modifyContext change : RuleM Context Unit).Leads condition condition :=
  ⟨fun _ holds => holds⟩

theorem modifyBuffer {change : WordBuffer → WordBuffer}
    (changes : ∀ buffer, before buffer → after (change buffer)) :
    (RuleM.modifyBuffer change : RuleM Context Unit).Leads before after :=
  ⟨fun workspace holds => changes workspace.buffer holds⟩

theorem scan {step : WordBuffer → Option WordBuffer}
    (steps : ∀ buffer moved, condition buffer → step buffer = some moved → condition moved) :
    (RuleM.scan step : RuleM Context Bool).Leads condition condition := by
  constructor
  intro workspace holds
  rw [RuleM.after, RuleM.scan]
  cases stepped : step workspace.buffer with
  | none => exact holds
  | some moved => exact steps _ _ holds stepped

theorem edit {change : WordBuffer → Except Defect WordBuffer}
    (refused : ∀ buffer, before buffer → after buffer)
    (changes : ∀ buffer edited, before buffer → change buffer = .ok edited → after edited) :
    (RuleM.edit change : RuleM Context Unit).Leads before after := by
  constructor
  intro workspace holds
  rw [RuleM.after, RuleM.edit]
  cases changed : change workspace.buffer with
  | error defect => exact refused _ holds
  | ok edited => exact changes _ _ holds changed

end RuleM.Leads

/-! ## Searches -/

namespace AffixTable

/-- A condition that does not look at the cursor is carried through every search, on any table, if
it is carried through the guards. -/
theorem find_leads {table : AffixTable Context} {condition : WordBuffer → Prop}
    (moves : ∀ buffer cursor, condition buffer → condition { buffer with cursor })
    (guards : ∀ affix ∈ table.affixes, ∀ guard, affix.guard? = some guard →
      guard.Leads condition condition) (direction : Direction) :
    (table.find direction).Leads condition condition := by
  have passes (affix : Affix Context) (start : Nat) :
      (passOver affix direction start).Leads condition condition := by
    apply RuleM.Leads.modifyBuffer
    intro buffer holds
    cases direction with
    | forward => exact moves buffer _ holds
    | backward => exact moves buffer _ holds
  have acceptsLeads (start agreed : Nat) : ∀ affix ∈ table.affixes,
      (accepts affix direction start agreed).Leads condition condition := by
    intro affix member
    unfold accepts
    split
    · exact .pure false
    · cases guarded : affix.guard? with
      | none => exact (passes affix start).andThen fun _ => .pure true
      | some guard =>
        apply (passes affix start).andThen
        intro _
        apply (guards affix member guard guarded).andThen
        intro accepted
        exact (passes affix start).andThen fun _ => .pure accepted
  have walkLeads (start agreed index : Nat) :
      (table.walk direction start agreed index).Leads condition condition := by
    have putsBack : (RuleM.modifyBuffer ({ · with cursor := start }) :
        RuleM Context Unit).Leads condition condition :=
      .modifyBuffer fun buffer holds => moves buffer start holds
    induction index using Nat.strongRecOn with
    | ind index ih =>
      rw [walk]
      split
      · exact putsBack.andThen fun _ => .pure 0
      case h_2 affix found =>
        apply (acceptsLeads start agreed affix (List.mem_of_getElem? found)).andThen
        intro accepted
        split
        · exact .pure affix.tag
        · split
          · exact putsBack.andThen fun _ => .pure 0
          · split
            case isTrue earlier => exact ih _ earlier
            case isFalse => exact putsBack.andThen fun _ => .fail _
  unfold find
  split
  · exact .pure 0
  · apply RuleM.Leads.buffer.andThen
    intro buffer
    exact walkLeads _ _ _

end AffixTable

/-! ## Rules -/

/-- A condition that buffers satisfy between rules and one that they satisfy from where a suffix is
marked until it is edited, with what makes the parts of a suffix rule carry them. -/
structure CarriedConditions where
  between : WordBuffer → Prop
  marked : WordBuffer → Prop
  between_of_marked : ∀ buffer, marked buffer → between buffer
  between_markEnd : ∀ buffer, between buffer → between buffer.markEnd
  marked_markStart : ∀ buffer, between buffer → marked buffer.markStart
  between_moveToDistance : ∀ buffer distance, between buffer →
    between (buffer.moveToDistance distance)
  marked_moveToDistance : ∀ buffer distance, marked buffer →
    marked (buffer.moveToDistance distance)
  between_next? : ∀ buffer moved, between buffer → buffer.next? .backward = some moved →
    between moved
  between_replaceSlice : ∀ buffer replacement edited, marked buffer →
    buffer.replaceSlice replacement = .ok edited → between edited

namespace CarriedConditions

variable (conditions : CarriedConditions) {Value : Type}

theorem keepingDistance_leads {rule : RuleM Context Value}
    (leads : rule.Leads conditions.between conditions.between) :
    rule.keepingDistance.Leads conditions.between conditions.between := by
  unfold RuleM.keepingDistance
  apply RuleM.Leads.buffer.andThen
  intro before
  apply leads.andThen
  intro value
  refine RuleM.Leads.andThen (.modifyBuffer fun buffer holds => ?_) fun _ => .pure value
  exact conditions.between_moveToDistance buffer _ holds

theorem replaceSlice_leads (replacement : String) :
    (RuleM.edit (WordBuffer.replaceSlice · replacement) : RuleM Context Unit).Leads
      conditions.marked conditions.between :=
  .edit conditions.between_of_marked fun buffer edited holds done =>
    conditions.between_replaceSlice buffer replacement edited holds done

theorem deleteSlice_leads :
    (RuleM.edit WordBuffer.deleteSlice : RuleM Context Unit).Leads
      conditions.marked conditions.between :=
  conditions.replaceSlice_leads ""

/-- The second half of the collapse of a doubled consonant marks what it deletes itself. -/
theorem dropDoubled_leads :
    (dropDoubled : RuleM Context Bool).Leads conditions.between conditions.between := by
  have steps : (RuleM.scan fun buffer => buffer.next? .backward : RuleM Context Bool).Leads
      conditions.between conditions.between := .scan conditions.between_next?
  apply steps.andThen
  intro stepped
  split
  · exact .pure false
  · apply RuleM.Leads.andThen (.modifyBuffer conditions.between_markEnd)
    intro _
    apply steps.andThen
    intro steppedAgain
    split
    · exact .pure false
    · refine RuleM.Leads.bind (.modifyBuffer conditions.marked_markStart) (fun _ => ?_)
        conditions.between_of_marked
      exact conditions.deleteSlice_leads.andThen fun _ => .pure true

variable {doubles? : Option (AffixTable Context)}

theorem endsInDouble_leads
    (doubled : ∀ doubles, doubles? = some doubles →
      (doubles.find .backward).Leads conditions.marked conditions.marked) :
    (endsInDouble doubles?).Leads conditions.marked conditions.marked := by
  unfold endsInDouble
  cases doubles? with
  | none => exact .pure false
  | some doubles =>
    apply RuleM.Leads.buffer.andThen
    intro before
    apply (doubled doubles rfl).andThen
    intro tag
    split
    · exact .pure false
    · refine RuleM.Leads.andThen (.modifyBuffer fun buffer holds => ?_) fun _ => .pure true
      exact conditions.marked_moveToDistance buffer _ holds

section Rules

variable {ruleHolds : AffixTable Context → (WordBuffer → Context → Bool) → Prop}
  {actionHolds : Action Context → Prop}

/-- The searches and the calls of a family of rules carry the conditions. -/
structure Carries (conditions : CarriedConditions) (doubles? : Option (AffixTable Context))
    (ruleHolds : AffixTable Context → (WordBuffer → Context → Bool) → Prop)
    (actionHolds : Action Context → Prop) : Prop where
  finds : ∀ table region, ruleHolds table region →
    (table.find .backward).Leads conditions.between conditions.between
  doubled : ∀ doubles, doubles? = some doubles →
    (doubles.find .backward).Leads conditions.marked conditions.marked
  calls : ∀ rule, actionHolds (.call rule) →
    rule.Leads conditions.marked conditions.between

variable {conditions}

mutual

/-- A suffix rule carries the condition that holds between rules. -/
theorem Carries.suffixRule (carries : conditions.Carries doubles? ruleHolds actionHolds)
    (rule : SuffixRule Context) (holds : rule.Throughout ruleHolds actionHolds) :
    (rule.apply doubles?).Leads conditions.between conditions.between := by
  match rule, holds with
  | ⟨table, region, outcome⟩, ⟨tableHolds, outcomeHolds⟩ =>
    rw [SuffixRule.apply]
    apply RuleM.Leads.andThen (.modifyBuffer conditions.between_markEnd)
    intro _
    apply (carries.finds table region tableHolds).andThen
    intro tag
    split
    · exact .pure false
    · refine RuleM.Leads.bind (.modifyBuffer conditions.marked_markStart) (fun _ => ?_)
        conditions.between_of_marked
      refine RuleM.Leads.buffer.bind (fun buffer => ?_) conditions.between_of_marked
      refine RuleM.Leads.context.bind (fun context => ?_) conditions.between_of_marked
      split
      · exact .answer conditions.between_of_marked _
      · exact carries.outcome outcome outcomeHolds tag

theorem Carries.outcome (carries : conditions.Carries doubles? ruleHolds actionHolds)
    (outcome : Outcome Context) (holds : outcome.Throughout ruleHolds actionHolds) (tag : Int) :
    (outcome.apply doubles? tag).Leads conditions.marked conditions.between := by
  match outcome, holds with
  | .always action, actionHolds =>
    rw [Outcome.apply]
    exact carries.action action actionHolds
  | .byTag actions, actionsHold =>
    rw [Outcome.apply]
    split
    · exact carries.actionNth actions actionsHold _
    · exact .answer conditions.between_of_marked _

theorem Carries.actionNth (carries : conditions.Carries doubles? ruleHolds actionHolds)
    (actions : List (Action Context))
    (holds : Action.AllThroughout ruleHolds actionHolds actions) (index : Nat) :
    (Action.applyNth doubles? actions index).Leads conditions.marked conditions.between := by
  match actions, holds, index with
  | [], _, _ =>
    rw [Action.applyNth]
    exact .answer conditions.between_of_marked _
  | action :: _, ⟨actionHolds, _⟩, 0 =>
    rw [Action.applyNth]
    exact carries.action action actionHolds
  | _ :: others, ⟨_, othersHold⟩, index + 1 =>
    rw [Action.applyNth]
    exact carries.actionNth others othersHold index

/-- An action begins where a suffix is marked. -/
theorem Carries.action (carries : conditions.Carries doubles? ruleHolds actionHolds)
    (action : Action Context) (holds : action.Throughout ruleHolds actionHolds) :
    (action.apply doubles?).Leads conditions.marked conditions.between := by
  match action, holds with
  | .delete, _ =>
    rw [Action.apply]
    exact conditions.deleteSlice_leads.andThen fun _ => .pure true
  | .replace replacement, _ =>
    rw [Action.apply]
    exact (conditions.replaceSlice_leads replacement).andThen fun _ => .pure true
  | .deleteThen next, ⟨_, nextHolds⟩ =>
    rw [Action.apply]
    have nextLeads := conditions.keepingDistance_leads (carries.suffixRule next nextHolds)
    exact conditions.deleteSlice_leads.andThen fun _ => nextLeads.andThen fun _ => .pure true
  | .undouble, _ =>
    rw [Action.apply]
    refine (conditions.endsInDouble_leads carries.doubled).bind (fun doubled => ?_)
      conditions.between_of_marked
    split
    · exact conditions.deleteSlice_leads.andThen fun _ => conditions.dropDoubled_leads
    · exact .answer conditions.between_of_marked _
  | .call rule, callHolds =>
    rw [Action.apply]
    exact carries.calls rule callHolds

end

end Rules

end CarriedConditions

end WordStem
