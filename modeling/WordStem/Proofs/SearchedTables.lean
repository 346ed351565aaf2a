import WordStem.Proofs.ProgramRewriting
import WordStem.Proofs.StemmerAnswers

/-! # The tables that a program searches

A program searches the table of each step, the tables of the rules that its actions lead to, and
the table of doubled consonants. It is accepted by another list, the tables that it names itself.
If that list leaves none of the searched tables out, then every search of the program ends: the
links of a valid table lead to earlier entries only. A program whose list leaves a table out is
accepted all the same, and may stop at a broken chain. -/
namespace WordStem

variable {Context : Type}

/-! ## Which tables are searched -/

section Searched

variable (doubles? : Option (AffixTable Context))

mutual

/-- The tables that a suffix rule can search, those of all rules that it leads to included. -/
def SuffixRule.searched : SuffixRule Context → List (AffixTable Context)
  | ⟨table, _, outcome⟩ => table :: outcome.searched

def Outcome.searched : Outcome Context → List (AffixTable Context)
  | .always action => action.searched
  | .byTag actions => Action.searchedByAll actions

def Action.searchedByAll : List (Action Context) → List (AffixTable Context)
  | [] => []
  | action :: others => action.searched ++ Action.searchedByAll others

def Action.searched : Action Context → List (AffixTable Context)
  | .delete => []
  | .replace _ => []
  | .deleteThen next => next.searched
  | .undouble => doubles?.toList
  | .call _ => []

end

def StepRule.searched : StepRule Context → List (AffixTable Context)
  | .suffix rule => rule.searched doubles?
  | .custom _ => []

end Searched

/-- The tables that the steps of a program can search. -/
def RuleProgram.searched (program : RuleProgram Context) : List (AffixTable Context) :=
  program.steps.flatMap fun step => step.rule.searched program.doubles?

/-- A step that is a suffix rule and calls no rule of its own. -/
def StepRule.CallsNothing : StepRule Context → Prop
  | .suffix rule => rule.Throughout (fun _ _ => True) Action.IsRewriting
  | .custom _ => False

/-- A program without guards, steps of its own and calls, whose region pass only scans. -/
structure RuleProgram.IsPlain (program : RuleProgram Context) : Prop where
  onlyScans : program.markRegions.OnlyScans
  unguarded : ∀ table ∈ program.searched, table.Unguarded
  callsNothing : ∀ step ∈ program.steps, step.rule.CallsNothing

/-! ## Rules that break no chain -/

/-- A rule that does not stop at a broken chain, wherever it starts. -/
def RuleM.BreaksNoChain {Value : Type} (rule : RuleM Context Value) : Prop :=
  ∀ workspace table index reached, rule workspace ≠ .error (.brokenChain table index) reached

namespace RuleM.BreaksNoChain

variable {Value Result : Type}

theorem bind {first : RuleM Context Value} {next : Value → RuleM Context Result}
    (firstHolds : first.BreaksNoChain) (nextHolds : ∀ value, (next value).BreaksNoChain) :
    (first >>= next).BreaksNoChain := by
  intro workspace table index reached broken
  cases run : first workspace with
  | ok value middle =>
    rw [RuleM.bind_of_ok run] at broken
    exact nextHolds value middle table index reached broken
  | error defect middle =>
    rw [RuleM.bind_of_error run] at broken
    obtain ⟨rfl, rfl⟩ := EStateM.Result.error.inj broken
    exact firstHolds workspace table index middle run

theorem pure (value : Value) : (Pure.pure value : RuleM Context Value).BreaksNoChain := by
  intro workspace table index reached broken
  cases broken

theorem buffer : (RuleM.buffer : RuleM Context WordBuffer).BreaksNoChain := by
  intro workspace table index reached broken
  cases broken

theorem context : (RuleM.context : RuleM Context Context).BreaksNoChain := by
  intro workspace table index reached broken
  cases broken

theorem modifyBuffer (change : WordBuffer → WordBuffer) :
    (RuleM.modifyBuffer change : RuleM Context Unit).BreaksNoChain := by
  intro workspace table index reached broken
  cases broken

theorem scan (step : WordBuffer → Option WordBuffer) :
    (RuleM.scan step : RuleM Context Bool).BreaksNoChain := by
  intro workspace table index reached broken
  unfold RuleM.scan at broken
  split at broken <;> cases broken

/-- An edit is refused only for its slice. -/
theorem replaceSlice (replacement : String) :
    (RuleM.edit (WordBuffer.replaceSlice · replacement) : RuleM Context Unit).BreaksNoChain := by
  intro workspace table index reached broken
  simp only [RuleM.edit, WordBuffer.replaceSlice, WordBuffer.splice, WordBuffer.replaceText]
    at broken
  cases carved : carve? workspace.buffer.text workspace.buffer.sliceStart
      workspace.buffer.sliceEnd with
  | none =>
    rw [carved] at broken
    cases broken
  | some parts =>
    rw [carved] at broken
    cases broken

theorem deleteSlice : (RuleM.edit WordBuffer.deleteSlice : RuleM Context Unit).BreaksNoChain :=
  replaceSlice ""

theorem keepingDistance {rule : RuleM Context Value} (holds : rule.BreaksNoChain) :
    rule.keepingDistance.BreaksNoChain := by
  unfold RuleM.keepingDistance
  apply buffer.bind
  intro before
  apply holds.bind
  intro value
  exact (modifyBuffer _).bind fun _ => pure value

end RuleM.BreaksNoChain

/-! ## Searches -/

namespace AffixTable

variable {table : AffixTable Context}

/-- The links of a valid table lead to earlier entries, so a walk along them ends. -/
theorem walk_breaksNoChain (valid : table.validate = .ok ()) (unguarded : table.Unguarded)
    (direction : Direction) (start agreed index : Nat) :
    (table.walk direction start agreed index).BreaksNoChain := by
  induction index using Nat.strongRecOn with
  | ind index ih =>
    cases found : table.affixes[index]? with
    | none =>
      rw [walk, found]
      exact (RuleM.BreaksNoChain.modifyBuffer _).bind fun _ => .pure 0
    | some affix =>
      have noGuard := unguarded affix (List.mem_of_getElem? found)
      have acceptsEnds : (accepts affix direction start agreed).BreaksNoChain := by
        unfold accepts
        rw [noGuard]
        split
        · exact .pure false
        · exact (RuleM.BreaksNoChain.modifyBuffer _).bind fun _ => .pure true
      rw [walk_of_found found]
      apply acceptsEnds.bind
      intro accepted
      split
      · exact .pure affix.tag
      · unfold walkOn
        split
        · exact (RuleM.BreaksNoChain.modifyBuffer _).bind fun _ => .pure 0
        case h_2 target linked =>
          -- The direction of the search does not matter for where a link leads.
          have earlier := (validFor_direction valid).link_sound found linked
          rw [if_pos earlier.1]
          exact ih target earlier.1

theorem find_breaksNoChain (valid : table.validate = .ok ()) (unguarded : table.Unguarded)
    (direction : Direction) : (table.find direction).BreaksNoChain := by
  unfold find
  split
  · exact .pure 0
  · apply RuleM.BreaksNoChain.buffer.bind
    intro buffer
    exact walk_breaksNoChain valid unguarded direction _ _ _

end AffixTable

/-! ## Programs -/

section Programs

variable {doubles? : Option (AffixTable Context)}

theorem endsInDouble_breaksNoChain
    (searches : ∀ table ∈ doubles?.toList, (table.find .backward).BreaksNoChain) :
    (endsInDouble doubles?).BreaksNoChain := by
  unfold endsInDouble
  cases doubles? with
  | none => exact .pure false
  | some doubles =>
    apply RuleM.BreaksNoChain.buffer.bind
    intro before
    apply (searches doubles (by simp)).bind
    intro tag
    split
    · exact .pure false
    · exact (RuleM.BreaksNoChain.modifyBuffer _).bind fun _ => .pure true

theorem dropDoubled_breaksNoChain : (dropDoubled : RuleM Context Bool).BreaksNoChain := by
  apply (RuleM.BreaksNoChain.scan _).bind
  intro first
  split
  · exact .pure false
  · apply (RuleM.BreaksNoChain.modifyBuffer _).bind
    intro _
    apply (RuleM.BreaksNoChain.scan _).bind
    intro second
    split
    · exact .pure false
    · apply (RuleM.BreaksNoChain.modifyBuffer _).bind
      intro _
      exact RuleM.BreaksNoChain.deleteSlice.bind fun _ => .pure true

mutual

/-- A rule breaks no chain when the searches of its tables break none. -/
theorem SuffixRule.apply_breaksNoChain (rule : SuffixRule Context)
    (callsNothing : rule.Throughout (fun _ _ => True) Action.IsRewriting)
    (searches : ∀ table ∈ rule.searched doubles?, (table.find .backward).BreaksNoChain) :
    (rule.apply doubles?).BreaksNoChain := by
  match rule, callsNothing with
  | ⟨table, region, outcome⟩, ⟨_, outcomeCalls⟩ =>
    rw [SuffixRule.searched, List.forall_mem_cons] at searches
    rw [SuffixRule.apply]
    apply (RuleM.BreaksNoChain.modifyBuffer _).bind
    intro _
    apply searches.1.bind
    intro tag
    split
    · exact .pure false
    · apply (RuleM.BreaksNoChain.modifyBuffer _).bind
      intro _
      apply RuleM.BreaksNoChain.buffer.bind
      intro buffer
      apply RuleM.BreaksNoChain.context.bind
      intro context
      split
      · exact .pure false
      · exact outcome.apply_breaksNoChain outcomeCalls tag searches.2

theorem Outcome.apply_breaksNoChain (outcome : Outcome Context)
    (callsNothing : outcome.Throughout (fun _ _ => True) Action.IsRewriting) (tag : Int)
    (searches : ∀ table ∈ outcome.searched doubles?, (table.find .backward).BreaksNoChain) :
    (outcome.apply doubles? tag).BreaksNoChain := by
  match outcome, callsNothing with
  | .always action, actionCalls =>
    rw [Outcome.apply]
    exact action.apply_breaksNoChain actionCalls searches
  | .byTag actions, actionsCall =>
    rw [Outcome.apply]
    split
    · exact Action.applyNth_breaksNoChain actions actionsCall _ searches
    · exact .pure true

theorem Action.applyNth_breaksNoChain (actions : List (Action Context))
    (callsNothing : Action.AllThroughout (fun _ _ => True) Action.IsRewriting actions)
    (index : Nat)
    (searches : ∀ table ∈ Action.searchedByAll doubles? actions,
      (table.find .backward).BreaksNoChain) :
    (Action.applyNth doubles? actions index).BreaksNoChain := by
  match actions, callsNothing, index with
  | [], _, _ =>
    rw [Action.applyNth]
    exact .pure true
  | action :: others, ⟨actionCalls, othersCall⟩, index =>
    rw [Action.searchedByAll, List.forall_mem_append] at searches
    cases index with
    | zero =>
      rw [Action.applyNth]
      exact action.apply_breaksNoChain actionCalls searches.1
    | succ index =>
      rw [Action.applyNth]
      exact Action.applyNth_breaksNoChain others othersCall index searches.2

theorem Action.apply_breaksNoChain (action : Action Context)
    (callsNothing : action.Throughout (fun _ _ => True) Action.IsRewriting)
    (searches : ∀ table ∈ action.searched doubles?, (table.find .backward).BreaksNoChain) :
    (action.apply doubles?).BreaksNoChain := by
  match action, callsNothing with
  | .delete, _ =>
    rw [Action.apply]
    exact RuleM.BreaksNoChain.deleteSlice.bind fun _ => .pure true
  | .replace replacement, _ =>
    rw [Action.apply]
    exact (RuleM.BreaksNoChain.replaceSlice replacement).bind fun _ => .pure true
  | .deleteThen next, ⟨_, nextCalls⟩ =>
    rw [Action.apply]
    apply RuleM.BreaksNoChain.deleteSlice.bind
    intro _
    exact (next.apply_breaksNoChain nextCalls searches).keepingDistance.bind fun _ => .pure true
  | .undouble, _ =>
    rw [Action.apply]
    apply (endsInDouble_breaksNoChain searches).bind
    intro doubled
    split
    · exact RuleM.BreaksNoChain.deleteSlice.bind fun _ => dropDoubled_breaksNoChain
    · exact .pure false

end

theorem StepRule.apply_breaksNoChain {rule : StepRule Context} (callsNothing : rule.CallsNothing)
    (searches : ∀ table ∈ rule.searched doubles?, (table.find .backward).BreaksNoChain) :
    (rule.apply doubles?).BreaksNoChain := by
  cases rule with
  | suffix rule => exact rule.apply_breaksNoChain callsNothing searches
  | custom rule => exact callsNothing.elim

end Programs

namespace RuleProgram

variable {program : RuleProgram Context}

theorem runSteps_breaksNoChain (steps : List (Step Context))
    (holds : ∀ step ∈ steps, (step.rule.apply program.doubles?).BreaksNoChain) :
    (program.runSteps steps).BreaksNoChain := by
  induction steps with
  | nil => exact .pure ()
  | cons step others ih =>
    rw [List.forall_mem_cons] at holds
    rw [runSteps, List.forM_eq_forM, List.forM_cons]
    have stepHolds : (do let _ ← (step.rule.apply program.doubles?).keepingDistance
        : RuleM Context Unit).BreaksNoChain :=
      holds.1.keepingDistance.bind fun _ => .pure ()
    exact stepHolds.bind fun _ => ih holds.2

/-- A plain program whose searched tables are all valid runs on every word without meeting a
broken chain. -/
theorem run_breaksNoChain (plain : program.IsPlain)
    (valid : ∀ table ∈ program.searched, table.validate = .ok ()) (word : String)
    (context : Context) (table : String) (index : Nat) (reached : Workspace Context) :
    program.run ⟨.load word, context⟩ ≠ .error (.brokenChain table index) reached := by
  have stepHolds : ∀ step ∈ program.steps,
      (step.rule.apply program.doubles?).BreaksNoChain := by
    intro step member
    apply StepRule.apply_breaksNoChain (plain.callsNothing step member)
    intro table searched
    have tableSearched : table ∈ program.searched := List.mem_flatMap.mpr ⟨step, member, searched⟩
    exact AffixTable.find_breaksNoChain (valid table tableSearched)
      (plain.unguarded table tableSearched) .backward
  have stepsHold : (do
      RuleM.modifyBuffer WordBuffer.beginBackward
      program.runSteps program.steps
      RuleM.modifyBuffer fun buffer => buffer.moveTo buffer.floor
        : RuleM Context Unit).BreaksNoChain := by
    apply (RuleM.BreaksNoChain.modifyBuffer _).bind
    intro _
    exact (runSteps_breaksNoChain program.steps stepHolds).bind fun _ => .modifyBuffer _
  obtain ⟨found, marked, markRun, -⟩ := mark_of_onlyScans plain.onlyScans word context
  rw [run, RuleM.bind_of_ok markRun]
  exact stepsHold marked table index reached

theorem validate_eq_ok_iff :
    program.validate = .ok () ↔ ∀ table ∈ program.tables, table.validate = .ok () := by
  unfold RuleProgram.validate
  induction program.tables with
  | nil => simp [List.forM_eq_forM, pure, Except.pure]
  | cons first others ih =>
    rw [List.forM_eq_forM, List.forM_cons, List.forall_mem_cons, ← ih]
    cases first.validate with
    | error defect =>
      constructor
      · intro refused
        cases refused
      · rintro ⟨refused, -⟩
        cases refused
    | ok done => exact (and_iff_right rfl).symm

theorem validate_of_accepted {stemmer : ProgramStemmer Context}
    (accepted : ProgramStemmer.ofProgram program = .ok stemmer) : program.validate = .ok () := by
  unfold ProgramStemmer.ofProgram at accepted
  split at accepted
  · cases accepted
  · assumption

/-- If the list of an accepted program leaves out no table that its steps can search, then all of
these are valid, and a plain program never gives up a word for a broken chain, whatever its
stemmer has been used for before. -/
theorem listed_searches_end [Inhabited Context] {stemmer : ProgramStemmer Context}
    (accepted : ProgramStemmer.ofProgram program = .ok stemmer)
    (listed : ∀ table ∈ program.searched, table ∈ program.tables) :
    (∀ table ∈ program.searched, table.validate = .ok ()) ∧
      (program.IsPlain → ∀ used : ProgramStemmer Context, used.program = program →
        ∀ word table index, (used.stem word).1 ≠ .aborted (.brokenChain table index)) := by
  have valid : ∀ table ∈ program.searched, table.validate = .ok () := by
    intro table searched
    exact validate_eq_ok_iff.mp (validate_of_accepted accepted) table (listed table searched)
  refine ⟨valid, ?_⟩
  intro plain used usedProgram word table index aborted
  rw [ProgramStemmer.stem_answer, usedProgram, RuleProgram.outcome] at aborted
  cases ran : program.run ⟨.load word, default⟩ with
  | error defect reached =>
    rw [ran] at aborted
    obtain rfl := StemAnswer.aborted.inj aborted
    exact run_breaksNoChain plain valid word default table index reached ran
  | ok done reached =>
    rw [ran] at aborted
    dsimp only at aborted
    split at aborted <;> cases aborted

theorem englishEndings_isPlain : englishEndings.IsPlain where
  onlyScans := markAfterTwo_onlyScans
  unguarded := by decide +kernel
  callsNothing := by
    intro step member
    simp only [englishEndings, List.mem_cons, List.not_mem_nil, or_false] at member
    rcases member with rfl | rfl | rfl
    · exact ⟨trivial, trivial, trivial, trivial, trivial, trivial⟩
    · exact ⟨trivial, trivial, trivial, trivial⟩
    · exact ⟨trivial, trivial⟩

/-- The program for English endings lists the tables of its steps, that of the endings behind
`-ly` and that of the doubled consonants. -/
theorem listed_searches_end_englishEndings :
    ∃ stemmer, ProgramStemmer.ofProgram englishEndings = .ok stemmer ∧ englishEndings.IsPlain ∧
      ∀ word table index, (stemmer.stem word).1 ≠ .aborted (.brokenChain table index) := by
  have accepted : ProgramStemmer.ofProgram englishEndings =
      .ok { program := englishEndings, buffer := .empty } := rfl
  have listed : ∀ table ∈ englishEndings.searched, table ∈ englishEndings.tables := by
    simp [searched, englishEndings, StepRule.searched, SuffixRule.searched, Outcome.searched,
      Action.searchedByAll, Action.searched]
  exact ⟨_, accepted, englishEndings_isPlain,
    (listed_searches_end accepted listed).2 englishEndings_isPlain _ rfl⟩

/-- A program with one step. Its table is linked to itself, and it is not on the list. -/
def unlistedEndings : RuleProgram Unit where
  name := "unlisted endings"
  markRegions := return true
  doubles? := none
  tables := []
  steps :=
    [{ name := "endings"
       rule := .suffix {
        table := .ofRows "endings" .backward [("b", 0, 1)]
        region := fun _ _ => true
        outcome := .always .delete } }]

theorem unlistedEndings_isPlain : unlistedEndings.IsPlain where
  onlyScans := by
    intro word context
    exact ⟨true, _, rfl, rfl⟩
  unguarded := by decide +kernel
  callsNothing := by
    intro step member
    obtain rfl := List.mem_singleton.mp member
    exact ⟨trivial, trivial⟩

/-- The program is accepted, though it searches a table that is not valid, and it gives up the word
`a` for a broken chain. -/
theorem unlisted_table_breaks_chain :
    unlistedEndings.IsPlain ∧
      ∃ stemmer, ProgramStemmer.ofProgram unlistedEndings = .ok stemmer ∧
        (∃ table ∈ unlistedEndings.searched, table.validate ≠ .ok ()) ∧
        (stemmer.stem "a").1 = .aborted (.brokenChain "endings" 0) := by
  refine ⟨unlistedEndings_isPlain, { program := unlistedEndings, buffer := .empty }, rfl,
    ⟨.ofRows "endings" .backward [("b", 0, 1)], List.mem_singleton.mpr rfl, ?_⟩, ?_⟩
  · intro valid
    cases valid
  · decide +kernel

end RuleProgram

end WordStem
