import WordStem.Proofs.CarriedConditions
import WordStem.Proofs.EditingGuards
import WordStem.Proofs.ProgramRewriting
import WordStem.Proofs.SearchVisits

/-! # Every step begins at the end of the word

A run comes back to the end of the word after every step, whatever the step did: it may have moved
the cursor, edited the word, matched or not. All that is asked of guards, calls and steps of their
own is to leave the floor where it is. A program without these does more: it never changes the word
before the place where the run was entered, at any depth of its rules. Main statement:
`run_isolates_steps`. -/
namespace WordStem

variable {Context : Type} {program : RuleProgram Context} {start entry final : Workspace Context}

/-! ## How a run proceeds -/

/-- The steps that a run has ahead of it when it comes to a workspace. It comes there from the
region pass, or from a step that ended. -/
inductive RuleProgram.Begins (program : RuleProgram Context) (start : Workspace Context) :
    List (Step Context) → Workspace Context → Prop
  | first {found : Bool} {marked : Workspace Context}
      (markRun : program.mark start = .ok found marked) :
      Begins program start program.steps { marked with buffer := marked.buffer.beginBackward }
  | next {step : Step Context} {others : List (Step Context)} {entry reached : Workspace Context}
      {matched : Bool} (before : Begins program start (step :: others) entry)
      (run : step.rule.apply program.doubles? entry = .ok matched reached) :
      Begins program start others
        { reached with buffer := reached.buffer.moveToDistance entry.buffer.distanceToLimit }

/-- The rest of a run: the steps ahead of it, and the turn to the floor. -/
def RuleProgram.finish (program : RuleProgram Context) (steps : List (Step Context)) :
    RuleM Context Unit := do
  program.runSteps steps
  RuleM.modifyBuffer fun buffer => buffer.moveTo buffer.floor

namespace RuleProgram

theorem keepingDistance_of_ok {rule : RuleM Context Bool} {matched : Bool}
    {reached : Workspace Context} (run : rule entry = .ok matched reached) :
    rule.keepingDistance entry = .ok matched
      { reached with buffer := reached.buffer.moveToDistance entry.buffer.distanceToLimit } := by
  rw [RuleM.keepingDistance, RuleM.buffer_bind, RuleM.bind_of_ok run]
  rfl

theorem runSteps_cons (step : Step Context) (others : List (Step Context)) :
    program.runSteps (step :: others) =
      (do
        let _ ← (step.rule.apply program.doubles?).keepingDistance
        program.runSteps others) := by
  rw [runSteps, List.forM_eq_forM, List.forM_cons, bind_assoc]
  rfl

theorem finish_cons_of_ok {step : Step Context} {others : List (Step Context)} {matched : Bool}
    {reached : Workspace Context}
    (run : step.rule.apply program.doubles? entry = .ok matched reached) :
    program.finish (step :: others) entry = program.finish others
      { reached with buffer := reached.buffer.moveToDistance entry.buffer.distanceToLimit } := by
  rw [finish, runSteps_cons, bind_assoc, RuleM.bind_of_ok (keepingDistance_of_ok run)]
  rfl

theorem finish_cons_of_error {step : Step Context} {others : List (Step Context)} {defect : Defect}
    {reached : Workspace Context}
    (run : step.rule.apply program.doubles? entry = .error defect reached) :
    program.finish (step :: others) entry = .error defect reached := by
  have stops : (step.rule.apply program.doubles?).keepingDistance entry =
      .error defect reached := by
    rw [RuleM.keepingDistance, RuleM.buffer_bind, RuleM.bind_of_error run]
  rw [finish, runSteps_cons, bind_assoc, RuleM.bind_of_error stops]

theorem run_of_mark {found : Bool} {marked : Workspace Context}
    (markRun : program.mark start = .ok found marked) :
    program.run start = program.finish program.steps
      { marked with buffer := marked.buffer.beginBackward } := by
  rw [run, RuleM.bind_of_ok markRun]
  rfl

/-- A run goes on from wherever it has come to. -/
theorem Begins.run_eq {steps : List (Step Context)} (begins : program.Begins start steps entry) :
    program.run start = program.finish steps entry := by
  induction begins with
  | first markRun => exact run_of_mark markRun
  | next before ran ih => rw [ih, finish_cons_of_ok ran]

/-- A run that ends has come to the end of its steps. -/
theorem Begins.exists_last {steps : List (Step Context)} (begins : program.Begins start steps entry)
    (ended : program.finish steps entry = .ok () final) :
    ∃ last, program.Begins start [] last ∧
      final = { last with buffer := last.buffer.moveTo last.buffer.floor } := by
  induction steps generalizing entry with
  | nil =>
    obtain ⟨-, rfl⟩ := EStateM.Result.ok.inj ended
    exact ⟨entry, begins, rfl⟩
  | cons step others ih =>
    cases ran : step.rule.apply program.doubles? entry with
    | ok matched reached =>
      rw [finish_cons_of_ok ran] at ended
      exact ih (begins.next ran) ended
    | error defect reached =>
      rw [finish_cons_of_error ran] at ended
      cases ended

theorem exists_last_of_run (ended : program.run start = .ok () final) :
    ∃ last, program.Begins start [] last ∧
      final = { last with buffer := last.buffer.moveTo last.buffer.floor } := by
  cases markRun : program.mark start with
  | ok found marked =>
    rw [run_of_mark markRun] at ended
    exact (Begins.first markRun).exists_last ended
  | error defect reached =>
    rw [run, RuleM.bind_of_error markRun] at ended
    cases ended

end RuleProgram

/-! ## The floor -/

/-- A rule keeps what is read off the buffer as it was. It may do anything else. -/
def RuleM.Keeps {Value Part : Type} (rule : RuleM Context Value) (read : WordBuffer → Part) :
    Prop :=
  ∀ workspace, read (rule.after workspace).buffer = read workspace.buffer

section Keeps

variable {Value Part : Type} {rule : RuleM Context Value} {read : WordBuffer → Part}

theorem RuleM.Keeps.leads (keeps : rule.Keeps read) (part : Part) :
    rule.Leads (fun buffer => read buffer = part) (fun buffer => read buffer = part) :=
  ⟨fun workspace holds => (keeps workspace).trans holds⟩

theorem RuleM.keeps_of_leads
    (leads : ∀ part, rule.Leads (fun buffer => read buffer = part)
      (fun buffer => read buffer = part)) : rule.Keeps read :=
  fun workspace => (leads (read workspace.buffer)).holds workspace rfl

end Keeps

def RuleM.KeepsFloor {Value : Type} (rule : RuleM Context Value) : Prop :=
  rule.Keeps WordBuffer.floor

def AffixTable.GuardsKeepFloor (table : AffixTable Context) : Prop :=
  ∀ affix ∈ table.affixes, ∀ guard, affix.guard? = some guard → guard.KeepsFloor

def Action.KeepsFloor : Action Context → Prop
  | .call rule => rule.KeepsFloor
  | _ => True

def StepRule.KeepsFloor : StepRule Context → Prop
  | .suffix rule => rule.Throughout (fun table _ => table.GuardsKeepFloor) Action.KeepsFloor
  | .custom rule => rule.KeepsFloor

/-- Neither the guards nor the calls nor the steps of a program move the floor. -/
structure RuleProgram.KeepsFloor (program : RuleProgram Context) : Prop where
  doubles : ∀ doubles, program.doubles? = some doubles → doubles.GuardsKeepFloor
  steps : ∀ step ∈ program.steps, step.rule.KeepsFloor

theorem WordBuffer.eq_advance_of_next? {buffer moved : WordBuffer} {direction : Direction}
    (stepped : buffer.next? direction = some moved) :
    ∃ count, moved = buffer.advance direction count := by
  rw [next?, stepIf?] at stepped
  split at stepped
  case h_1 character peeked =>
    obtain ⟨-, ⟨⟩⟩ := Option.ite_none_right_eq_some.mp stepped
    exact ⟨character.utf8Size, rfl⟩
  case h_2 => cases stepped

theorem WordBuffer.floor_of_splice {buffer edited : WordBuffer} {first last : Nat}
    {replacement : String} (done : buffer.splice first last replacement = .ok edited) :
    edited.floor = buffer.floor := by
  obtain ⟨before, inside, after, textEq, startEq, stopEq⟩ := exists_split_of_splice done
  rw [splice_of_split textEq startEq stopEq] at done
  obtain rfl := Except.ok.inj done
  rfl

/-- The floor is carried through all parts of a rule. -/
def floorConditions (floor : Nat) : CarriedConditions where
  between buffer := buffer.floor = floor
  marked buffer := buffer.floor = floor
  between_of_marked _ holds := holds
  between_markEnd _ holds := holds
  marked_markStart _ holds := holds
  between_moveToDistance _ _ holds := holds
  marked_moveToDistance _ _ holds := holds
  between_next? _ _ holds stepped := by
    obtain ⟨count, rfl⟩ := WordBuffer.eq_advance_of_next? stepped
    exact holds
  between_replaceSlice _ _ _ holds done := (WordBuffer.floor_of_splice done).trans holds

theorem AffixTable.GuardsKeepFloor.find_leads {table : AffixTable Context}
    (keep : table.GuardsKeepFloor) (floor : Nat) :
    (table.find .backward).Leads (fun buffer => buffer.floor = floor)
      (fun buffer => buffer.floor = floor) := by
  apply AffixTable.find_leads
  · intro buffer cursor holds
    exact holds
  · intro affix member guard guarded
    exact RuleM.Keeps.leads (keep affix member guard guarded) floor

theorem RuleProgram.KeepsFloor.carries (keeps : program.KeepsFloor) (floor : Nat) :
    (floorConditions floor).Carries program.doubles?
      (fun (table : AffixTable Context) _ => table.GuardsKeepFloor) Action.KeepsFloor where
  finds _ _ keep := keep.find_leads floor
  doubled doubles listed := (keeps.doubles doubles listed).find_leads floor
  calls _ keep := RuleM.Keeps.leads keep floor

theorem RuleProgram.KeepsFloor.step (keeps : program.KeepsFloor) {step : Step Context}
    (member : step ∈ program.steps) : (step.rule.apply program.doubles?).KeepsFloor := by
  intro workspace
  have stepKeeps := keeps.steps step member
  cases ruleEq : step.rule with
  | suffix rule =>
    rw [ruleEq] at stepKeeps
    have leads := (keeps.carries workspace.buffer.floor).suffixRule rule stepKeeps
    exact leads.holds workspace rfl
  | custom rule =>
    rw [ruleEq] at stepKeeps
    exact stepKeeps workspace

/-! ## The end of the word -/

/-- The cursor stands at the limit, and all of the word lies above the floor. -/
structure WordBuffer.AtEnd (buffer : WordBuffer) : Prop where
  floor_eq : buffer.floor = 0
  cursor_eq : buffer.cursor = buffer.limit

/-- A buffer comes back to the end from any place, after any edit. -/
theorem WordBuffer.AtEnd.moveToDistance {buffer reached : WordBuffer} (atEnd : buffer.AtEnd)
    (floorEq : reached.floor = buffer.floor) :
    (reached.moveToDistance buffer.distanceToLimit).AtEnd where
  floor_eq := floorEq.trans atEnd.floor_eq
  cursor_eq := by
    have distance : buffer.distanceToLimit = 0 := by
      rw [distanceToLimit, atEnd.cursor_eq, Nat.sub_self]
    change max (reached.limit - buffer.distanceToLimit) reached.floor = reached.limit
    rw [distance, floorEq, atEnd.floor_eq, Nat.sub_zero, Nat.max_zero]

namespace RuleProgram

/-- The region pass may leave the buffer in any state; only where it began counts. -/
theorem mark_atEnd {found : Bool} {marked : Workspace Context} (front : start.buffer.cursor = 0)
    (markRun : program.mark start = .ok found marked) : marked.buffer.beginBackward.AtEnd := by
  rw [mark, RuleM.buffer_bind] at markRun
  cases passed : program.markRegions start with
  | error defect reached =>
    rw [RuleM.bind_of_error passed] at markRun
    cases markRun
  | ok answer reached =>
    rw [RuleM.bind_of_ok passed] at markRun
    obtain ⟨-, rfl⟩ := EStateM.Result.ok.inj markRun
    refine ⟨?_, rfl⟩
    change min start.buffer.cursor reached.buffer.limit = 0
    rw [front, Nat.zero_min]

theorem Begins.steps_suffix {steps : List (Step Context)}
    (begins : program.Begins start steps entry) : steps <:+ program.steps := by
  induction begins with
  | first => exact List.suffix_rfl
  | next before ran ih => exact (List.suffix_cons _ _).trans ih

/-- One step after the other, a run that begins at the front of a word comes to the end of what is
left of it. -/
theorem Begins.atEnd {steps : List (Step Context)} (keeps : program.KeepsFloor)
    (front : start.buffer.cursor = 0) (begins : program.Begins start steps entry) :
    entry.buffer.AtEnd := by
  induction begins with
  | first markRun => exact mark_atEnd front markRun
  | @next step others entry reached matched before ran ih =>
    have member : step ∈ program.steps := before.steps_suffix.mem (.head _)
    have floorEq := keeps.step member entry
    rw [RuleM.after, ran] at floorEq
    exact ih.moveToDistance floorEq

end RuleProgram

/-! ## The text before the entry -/

namespace AffixTable

variable {table : AffixTable Context} {direction : Direction} {place agreed index : Nat}
  {workspace left : Workspace Context} {affix : Affix Context} {verdict : Verdict}
  {visits : List Visit} {result : EStateM.Result Defect (Workspace Context) Int}

/-- A visit to an entry without a guard moves the cursor past the affix if it is accepted, and
changes nothing otherwise. -/
theorem Judged.of_unguarded (unguarded : affix.guard? = none)
    (judged : Judged affix direction place agreed workspace verdict left) :
    verdict.Refuses ∧ left = workspace ∨
      verdict = .accepted ∧ ∃ landing, byteLength affix.literal.toList ≤ agreed ∧
        affix.landing? direction place = some landing ∧ left = workspace.withCursor landing := by
  cases judged with
  | mismatched => exact .inl ⟨trivial, rfl⟩
  | unguarded whole landed => exact .inr ⟨rfl, _, whole, landed, rfl⟩
  | accepted whole landed guarded =>
    rw [unguarded] at guarded
    cases guarded
  | rejected whole landed guarded =>
    rw [unguarded] at guarded
    cases guarded
  | failed whole landed guarded =>
    rw [unguarded] at guarded
    cases guarded

theorem Judged.eq_of_refused (unguarded : affix.guard? = none) (refused : verdict.Refuses)
    (judged : Judged affix direction place agreed workspace verdict left) : left = workspace := by
  rcases judged.of_unguarded unguarded with ⟨-, unchanged⟩ | ⟨rfl, -⟩
  · exact unchanged
  · exact refused.elim

/-- A walk over entries without guards moves the cursor past a match or back to the start. -/
theorem Walked.of_unguarded (unguarded : table.Unguarded)
    (walked : Walked table direction place agreed index workspace visits result) :
    ∃ cursor, RuleM.leftBy result = workspace.withCursor cursor ∧
      (cursor = place ∨ ∃ affix : Affix Context, byteLength affix.literal.toList ≤ agreed ∧
        affix.landing? direction place = some cursor) := by
  have noGuard {index : Nat} {affix : Affix Context} (found : table.affixes[index]? = some affix) :
      affix.guard? = none := unguarded affix (List.mem_of_getElem? found)
  induction walked with
  | accepted found judged =>
    rcases judged.of_unguarded (noGuard found) with
      ⟨refused, -⟩ | ⟨-, landing, whole, landed, rfl⟩
    · exact refused.elim
    · exact ⟨landing, rfl, .inr ⟨_, whole, landed⟩⟩
  | failed found judged =>
    rcases judged.of_unguarded (noGuard found) with ⟨refused, -⟩ | ⟨failed, -⟩
    · exact refused.elim
    · cases failed
  | ended found judged refused unlinked =>
    obtain rfl := judged.eq_of_refused (noGuard found) refused
    exact ⟨place, rfl, .inl rfl⟩
  | broken found judged refused linked notEarlier =>
    obtain rfl := judged.eq_of_refused (noGuard found) refused
    exact ⟨place, rfl, .inl rfl⟩
  | followed found judged refused linked earlier others ih =>
    obtain rfl := judged.eq_of_refused (noGuard found) refused
    exact ih

/-- A search on a table without guards changes nothing but the cursor, even if the table is not
valid, and keeps it between the floor and the limit. -/
theorem find_of_unguarded (unguarded : table.Unguarded) (direction : Direction)
    (floorLe : workspace.buffer.floor ≤ workspace.buffer.cursor)
    (cursorLe : workspace.buffer.cursor ≤ workspace.buffer.limit) :
    ∃ cursor, (table.find direction).after workspace = workspace.withCursor cursor ∧
      workspace.buffer.floor ≤ cursor ∧ cursor ≤ workspace.buffer.limit := by
  obtain ⟨visits, searched⟩ := exists_searched table direction workspace floorLe cursorLe
  rw [RuleM.after_eq_leftBy]
  generalize table.find direction workspace = result at searched ⊢
  cases searched with
  | empty => exact ⟨workspace.buffer.cursor, rfl, floorLe, cursorLe⟩
  | walked nonempty arrived walked =>
    obtain ⟨cursor, moved, rfl | ⟨affix, whole, landed⟩⟩ := walked.of_unguarded unguarded
    · exact ⟨workspace.buffer.cursor, moved, floorLe, cursorLe⟩
    · obtain ⟨interval, arrivedAgain, -, -, agreedLe⟩ :=
        exists_search? direction (List.length_pos_iff.mpr nonempty) floorLe cursorLe
      obtain rfl := Option.some.inj (arrived.symm.trans arrivedAgain)
      exact ⟨cursor, moved,
        landing?_between floorLe cursorLe (Nat.le_trans whole agreedLe) landed⟩

end AffixTable

/-- The text begins with a front that ends at the floor, and the cursor is not inside it. -/
structure WordBuffer.KeepsFront (front : List Char) (buffer : WordBuffer) : Prop where
  begins : front <+: buffer.text
  floor_eq : buffer.floor = byteLength front
  floor_le_cursor : buffer.floor ≤ buffer.cursor
  cursor_le_limit : buffer.cursor ≤ buffer.limit

namespace WordBuffer.KeepsFront

variable {front : List Char} {buffer moved edited : WordBuffer}

theorem floor_le_limit (keeps : buffer.KeepsFront front) : buffer.floor ≤ buffer.limit :=
  Nat.le_trans keeps.floor_le_cursor keeps.cursor_le_limit

theorem withCursor (keeps : buffer.KeepsFront front) {cursor : Nat}
    (floorLe : buffer.floor ≤ cursor) (cursorLe : cursor ≤ buffer.limit) :
    ({ buffer with cursor } : WordBuffer).KeepsFront front :=
  ⟨keeps.begins, keeps.floor_eq, floorLe, cursorLe⟩

theorem moveToDistance (keeps : buffer.KeepsFront front) (distance : Nat) :
    (buffer.moveToDistance distance).KeepsFront front :=
  keeps.withCursor (Nat.le_max_right _ _) (Nat.max_le.mpr ⟨Nat.sub_le _ _, keeps.floor_le_limit⟩)

/-- A backward step does not go into the front: it is over a whole character. -/
theorem next?_backward (keeps : buffer.KeepsFront front)
    (stepped : buffer.next? .backward = some moved) : moved.KeepsFront front := by
  have cursorCut : OnBoundary buffer.text buffer.cursor := by
    rw [OnBoundary, Option.isSome_iff_ne_none]
    intro uncut
    simp [next?, stepIf?, peek?, uncut] at stepped
  have floorCut : OnBoundary buffer.text buffer.floor := by
    obtain ⟨rest, split⟩ := keeps.begins
    exact onBoundary_iff_exists_split.mpr ⟨front, rest, split.symm, keeps.floor_eq.symm⟩
  have wellFormed : buffer.WellFormed :=
    ⟨keeps.floor_le_cursor, keeps.cursor_le_limit, cursorCut, floorCut⟩
  have moves := wellFormed.next? stepped
  have inside := moves.wellFormed
  rw [moves.eq_withCursor] at inside ⊢
  exact keeps.withCursor inside.floor_le_cursor inside.cursor_le_limit

/-- An edit that begins behind the front keeps it. -/
theorem splice (keeps : buffer.KeepsFront front) {start stop : Nat} {replacement : String}
    (behind : byteLength front ≤ start)
    (done : buffer.splice start stop replacement = .ok edited) : edited.KeepsFront front := by
  obtain ⟨before, inside, after, textEq, rfl, rfl⟩ := exists_split_of_splice done
  rw [splice_of_split textEq rfl rfl] at done
  obtain rfl := Except.ok.inj done
  obtain ⟨begins, floorEq, floorLe, cursorLe⟩ := keeps
  rw [limit, textEq, byteLength_append, byteLength_append] at cursorLe
  have frontBegins : front <+: before := by
    apply isPrefix_of_byteLength_le begins ⟨inside ++ after, _⟩ behind
    rw [textEq, List.append_assoc]
  refine ⟨?_, floorEq, ?_, ?_⟩
  · rw [List.append_assoc]
    exact frontBegins.trans (List.prefix_append _ _)
  · change buffer.floor ≤ ite _ _ _
    simp only [shifted]
    split <;> omega
  · change ite _ _ _ ≤ byteLength (before ++ replacement.toList ++ after)
    simp only [shifted, byteLength_append]
    split <;> omega

end WordBuffer.KeepsFront

/-- The front is carried through the parts of a rule, since a suffix is marked behind it. -/
def frontConditions (front : List Char) : CarriedConditions where
  between := WordBuffer.KeepsFront front
  marked buffer := buffer.KeepsFront front ∧ byteLength front ≤ buffer.sliceStart
  between_of_marked _ holds := holds.1
  between_markEnd _ holds := ⟨holds.begins, holds.floor_eq, holds.floor_le_cursor,
    holds.cursor_le_limit⟩
  marked_markStart _ holds := ⟨⟨holds.begins, holds.floor_eq, holds.floor_le_cursor,
    holds.cursor_le_limit⟩, by
      rw [← holds.floor_eq]
      exact holds.floor_le_cursor⟩
  between_moveToDistance _ distance holds := holds.moveToDistance distance
  marked_moveToDistance _ distance holds := ⟨holds.1.moveToDistance distance, holds.2⟩
  between_next? _ _ holds stepped := holds.next?_backward stepped
  between_replaceSlice _ _ _ holds done := holds.1.splice holds.2 done

theorem AffixTable.Unguarded.find_leads {table : AffixTable Context} (unguarded : table.Unguarded)
    (front : List Char) :
    (table.find .backward).Leads (frontConditions front).between (frontConditions front).between ∧
      (table.find .backward).Leads (frontConditions front).marked
        (frontConditions front).marked := by
  constructor
  · constructor
    intro workspace holds
    obtain ⟨cursor, moved, floorLe, cursorLe⟩ := AffixTable.find_of_unguarded unguarded .backward
      holds.floor_le_cursor holds.cursor_le_limit
    rw [moved]
    exact holds.withCursor floorLe cursorLe
  · constructor
    rintro workspace ⟨holds, behind⟩
    obtain ⟨cursor, moved, floorLe, cursorLe⟩ := AffixTable.find_of_unguarded unguarded .backward
      holds.floor_le_cursor holds.cursor_le_limit
    rw [moved]
    exact ⟨holds.withCursor floorLe cursorLe, behind⟩

/-- A step that is a suffix rule without guards and calls, at any depth. -/
def StepRule.IsUnguarded : StepRule Context → Prop
  | .suffix rule => rule.Throughout (fun table _ => table.Unguarded) Action.IsRewriting
  | .custom _ => False

/-- A program of suffix rules without guards and calls, whose region pass leaves the text as it
is. -/
structure RuleProgram.IsUnguarded (program : RuleProgram Context) : Prop where
  scans : program.markRegions.Keeps WordBuffer.text
  doubles : ∀ doubles, program.doubles? = some doubles → doubles.Unguarded
  steps : ∀ step ∈ program.steps, step.rule.IsUnguarded

namespace RuleProgram

variable {front : List Char}

theorem IsUnguarded.carries (unguarded : program.IsUnguarded) (front : List Char) :
    (frontConditions front).Carries program.doubles?
      (fun (table : AffixTable Context) _ => table.Unguarded) Action.IsRewriting where
  finds _ _ tableUnguarded := (tableUnguarded.find_leads front).1
  doubled doubles listed := ((unguarded.doubles doubles listed).find_leads front).2
  calls _ rewrites := rewrites.elim

theorem IsUnguarded.step_leads (unguarded : program.IsUnguarded) {step : Step Context}
    (member : step ∈ program.steps) :
    (step.rule.apply program.doubles?).Leads (frontConditions front).between
      (frontConditions front).between := by
  have stepUnguarded := unguarded.steps step member
  cases ruleEq : step.rule with
  | suffix rule =>
    rw [ruleEq] at stepUnguarded
    exact (unguarded.carries front).suffixRule rule stepUnguarded
  | custom rule =>
    rw [ruleEq] at stepUnguarded
    exact stepUnguarded.elim

theorem runSteps_leads {conditions : CarriedConditions} (steps : List (Step Context))
    (lead : ∀ step ∈ steps, (step.rule.apply program.doubles?).Leads conditions.between
      conditions.between) :
    (program.runSteps steps).Leads conditions.between conditions.between := by
  induction steps with
  | nil => exact .pure ()
  | cons step others ih =>
    rw [List.forall_mem_cons] at lead
    rw [runSteps_cons]
    exact (conditions.keepingDistance_leads lead.1).andThen fun _ => ih lead.2

theorem IsUnguarded.finish_leads (unguarded : program.IsUnguarded) (front : List Char) :
    (program.finish program.steps).Leads (frontConditions front).between
      (fun buffer => front <+: buffer.text) := by
  refine RuleM.Leads.bind (runSteps_leads program.steps fun step member =>
    unguarded.step_leads member) (fun _ => .modifyBuffer ?_) ?_
  · intro buffer holds
    exact holds.begins
  · intro buffer holds
    exact holds.begins

/-- Turning backward behind the front that was passed hides exactly that front. -/
theorem keepsFront_beginBackward {marked : WordBuffer} {rest : List Char}
    (textEq : marked.text = front ++ rest) (cursorEq : marked.cursor = byteLength front) :
    marked.beginBackward.KeepsFront front where
  begins := ⟨rest, textEq.symm⟩
  floor_eq := cursorEq
  floor_le_cursor := by
    change marked.cursor ≤ byteLength marked.text
    rw [cursorEq, textEq, byteLength_append]
    exact Nat.le_add_right _ _
  cursor_le_limit := Nat.le_refl _

/-- Wherever a run is entered and however it ends, the text before that place stays. -/
theorem IsUnguarded.run_begins (unguarded : program.IsUnguarded) {rest : List Char}
    (textEq : start.buffer.text = front ++ rest)
    (entered : start.buffer.cursor = byteLength front) :
    front <+: (program.run.after start).buffer.text := by
  have scanned := unguarded.scans start
  rw [RuleM.after] at scanned
  cases passed : program.markRegions start with
  | error defect reached =>
    rw [passed] at scanned
    have stopped : program.mark start = .error defect reached := by
      rw [mark, RuleM.buffer_bind, RuleM.bind_of_error passed]
    rw [RuleM.after, run, RuleM.bind_of_error stopped]
    exact ⟨rest, by rw [scanned, textEq]⟩
  | ok found reached =>
    rw [passed] at scanned
    have markRun : program.mark start =
        .ok found { reached with buffer := reached.buffer.moveTo start.buffer.cursor } := by
      rw [mark, RuleM.buffer_bind, RuleM.bind_of_ok passed]
      rfl
    have reachedEq : reached.buffer.text = front ++ rest := scanned.trans textEq
    have cursorEq : (reached.buffer.moveTo start.buffer.cursor).cursor = byteLength front := by
      change min start.buffer.cursor (byteLength reached.buffer.text) = byteLength front
      rw [entered, reachedEq, byteLength_append]
      exact Nat.min_eq_left (Nat.le_add_right _ _)
    rw [RuleM.after, run_of_mark markRun]
    exact (unguarded.finish_leads front).holds _ (keepsFront_beginBackward reachedEq cursorEq)

/-- Two things that steps cannot do to each other. If no guard, call or step of a program moves the
floor, then every step of a run on a loaded word begins at the end of what is left of the word, and
a run that ends has come to the end of its steps and leaves the cursor at the floor: the region pass
and the earlier steps may have done anything else. If a program consists of suffix rules without
guards and calls, then a run that is entered between two characters of the word leaves the text
before that place as it is, even if it stops at a defect. -/
theorem run_isolates_steps (program : RuleProgram Context) (buffer : WordBuffer) (word : String)
    (context : Context) :
    (program.KeepsFloor →
      (∀ steps entry, program.Begins ⟨buffer.reload word, context⟩ steps entry →
        program.run ⟨buffer.reload word, context⟩ = program.finish steps entry ∧
          entry.buffer.cursor = entry.buffer.limit) ∧
      ∀ final, program.run ⟨buffer.reload word, context⟩ = .ok () final →
        (∃ last, program.Begins ⟨buffer.reload word, context⟩ [] last ∧
          final = { last with buffer := last.buffer.moveTo last.buffer.floor }) ∧
          final.buffer.cursor = final.buffer.floor) ∧
    (program.IsUnguarded →
      ∀ position, OnBoundary word.toList position →
        ∃ front, byteLength front = position ∧ front <+: word.toList ∧
          front <+: (program.run.after
            ⟨(buffer.reload word).moveTo position, context⟩).buffer.text) := by
  constructor
  · intro keeps
    constructor
    · intro steps entry begins
      exact ⟨begins.run_eq, (begins.atEnd keeps rfl).cursor_eq⟩
    · intro final ended
      obtain ⟨last, begins, rfl⟩ := exists_last_of_run ended
      refine ⟨⟨last, begins, rfl⟩, ?_⟩
      have atEnd := begins.atEnd keeps rfl
      change min last.buffer.floor last.buffer.limit = last.buffer.floor
      rw [atEnd.floor_eq, Nat.zero_min]
  · intro unguarded position cut
    obtain ⟨front, rest, split, rfl⟩ := onBoundary_iff_exists_split.mp cut
    refine ⟨front, rfl, ⟨rest, split.symm⟩, unguarded.run_begins split ?_⟩
    exact Nat.min_eq_left cut.le_byteLength

/-- A program that leaves the cursor and the floor anywhere: its region pass moves both, its first
step drops the first character and does not match, and its last one has a guard and a call that go
back to the front. -/
def wanderingSteps : RuleProgram Unit where
  name := "wandering steps"
  markRegions := do
    RuleM.modifyBuffer fun buffer => { buffer with floor := 1, cursor := 1 }
    return false
  doubles? := none
  tables := []
  steps :=
    [{ name := "front"
       rule := .custom do
        RuleM.modifyBuffer fun buffer => buffer.moveTo 1
        RuleM.edit fun buffer => buffer.splice 0 1 ""
        return false },
      { name := "ending"
        rule := .suffix {
          table := {
            name := "endings"
            direction := .backward
            affixes :=
              [{ literal := "t", link := -1, tag := 1
                 guard? := some do
                  RuleM.modifyBuffer fun buffer => buffer.moveTo 0
                  return true }] }
          region := fun _ _ => true
          outcome := .always (.call do
            RuleM.modifyBuffer fun buffer => buffer.moveTo 0
            return false) } }]

theorem wanderingSteps_keepsFloor : wanderingSteps.KeepsFloor where
  doubles := by
    rintro doubles ⟨⟩
  steps := by
    intro step member
    simp only [wanderingSteps, List.mem_cons, List.not_mem_nil, or_false] at member
    rcases member with rfl | rfl
    · apply RuleM.keeps_of_leads
      intro floor
      refine RuleM.Leads.andThen (.modifyBuffer fun _ holds => ?_) fun _ => ?_
      · exact holds
      · refine RuleM.Leads.andThen (.edit ?_ ?_) fun _ => .pure false
        · exact fun _ holds => holds
        · exact fun _ _ holds done => (WordBuffer.floor_of_splice done).trans holds
    · refine ⟨?_, fun workspace => rfl⟩
      intro affix member guard guarded
      obtain rfl := List.mem_singleton.mp member
      obtain rfl := Option.some.inj guarded
      exact fun workspace => rfl

theorem text_of_hop? {moved : WordBuffer} {direction : Direction} {count : Nat}
    {buffer : WordBuffer} (hopped : buffer.hop? direction count = some moved) :
    moved.text = buffer.text := by
  induction count generalizing buffer with
  | zero =>
    obtain rfl := Option.some.inj hopped
    rfl
  | succ count ih =>
    rw [WordBuffer.hop?] at hopped
    split at hopped
    case h_1 next stepped =>
      obtain ⟨size, rfl⟩ := WordBuffer.eq_advance_of_next? stepped
      rw [ih hopped, WordBuffer.advance_text]
    case h_2 => cases hopped

theorem markAfterTwo_keepsText : markAfterTwo.Keeps WordBuffer.text := by
  apply RuleM.keeps_of_leads
  intro text
  have hops : (RuleM.scan fun buffer => buffer.hop? .forward 2 : RuleM Nat Bool).Leads
      (fun buffer => buffer.text = text) (fun buffer => buffer.text = text) :=
    .scan fun buffer moved holds hopped => (text_of_hop? hopped).trans holds
  unfold markAfterTwo
  apply RuleM.Leads.buffer.andThen
  intro start
  apply (RuleM.Leads.modifyContext _).andThen
  intro _
  apply hops.andThen
  intro hopped
  split
  · exact .pure false
  · apply RuleM.Leads.buffer.andThen
    intro reached
    exact (RuleM.Leads.modifyContext _).andThen fun _ => .pure true

theorem englishEndings_isUnguarded : englishEndings.IsUnguarded where
  scans := markAfterTwo_keepsText
  doubles := by
    rintro doubles ⟨⟩
    decide +kernel
  steps := by
    intro step member
    simp only [englishEndings, List.mem_cons, List.not_mem_nil, or_false] at member
    rcases member with rfl | rfl | rfl
    · exact ⟨by decide +kernel, trivial, by decide +kernel, trivial, trivial, trivial⟩
    · exact ⟨by decide +kernel, trivial, trivial, trivial⟩
    · exact ⟨by decide +kernel, trivial⟩

/-- On `kert` the wandering steps leave `ert`, and the second one begins at its end. In `runningly`
the endings are taken off behind `ru` when the run is entered there. -/
theorem run_isolates_steps_kert :
    wanderingSteps.KeepsFloor ∧ englishEndings.IsUnguarded ∧
      (∃ final, wanderingSteps.run ⟨.load "kert", ()⟩ = .ok () final ∧
        final.buffer.text = "ert".toList ∧ final.buffer.cursor = final.buffer.floor) ∧
      (∃ step entry, wanderingSteps.Begins ⟨.load "kert", ()⟩ [step] entry ∧
        entry.buffer.text = "ert".toList ∧ entry.buffer.cursor = entry.buffer.limit) ∧
      let left := englishEndings.run.after ⟨(WordBuffer.load "runningly").moveTo 2, 0⟩
      ∃ front, byteLength front = 2 ∧ front <+: "runningly".toList ∧ front <+: left.buffer.text ∧
        left.buffer.text = "run".toList := by
  obtain ⟨begins, ends⟩ :=
    (run_isolates_steps wanderingSteps .empty "kert" ()).1 wanderingSteps_keepsFloor
  obtain ⟨⟨⟩, final, ended, checked⟩ := RuleM.exists_of_endsWith wanderingSteps.run
    ⟨.load "kert", ()⟩ (fun _ final => final.buffer.text == "ert".toList) (by decide +kernel)
  have second : wanderingSteps.Begins ⟨.load "kert", ()⟩ (wanderingSteps.steps.drop 1) _ :=
    .next (.first rfl) rfl
  obtain ⟨front, lengthEq, inWord, inText⟩ :=
    (run_isolates_steps englishEndings .empty "runningly" 0).2 englishEndings_isUnguarded 2
      (by decide)
  exact ⟨wanderingSteps_keepsFloor, englishEndings_isUnguarded,
    ⟨final, ended, beq_iff_eq.mp checked, (ends final ended).2⟩,
    ⟨_, _, second, rfl, (begins _ _ second).2⟩,
    front, lengthEq, inWord, inText, by decide +kernel⟩

end RuleProgram

end WordStem
