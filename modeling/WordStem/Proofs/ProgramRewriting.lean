import WordStem.Proofs.BufferEdits
import WordStem.Proofs.BufferScans
import WordStem.Proofs.SuffixRewriting

/-! # A program of suffix rules rewrites its word

The buffer machine computes the functions on texts. Every step begins with the cursor at the end
of the text and nothing hidden, so the text behind the cursor is the whole text; after a suffix
is found, the marks enclose it and the cursor stands before it. The proof follows the recursion
of the rules: one lemma for each constructor, and then one step after the other. -/
namespace WordStem

variable {Context : Type} {Value : Type}

/-- A rule turns the text of a workspace into another one when it runs to its end and leaves that
text, with nothing hidden and the context as it was. -/
def RuleM.TurnsInto (rule : RuleM Context Value) (workspace : Workspace Context)
    (text : List Char) : Prop :=
  ∃ value reached, rule workspace = .ok value reached ∧ reached.buffer.text = text ∧
    reached.buffer.floor = 0 ∧ reached.context = workspace.context

/-- The cursor stands before a suffix of the text that the marks enclose. -/
structure WordBuffer.MarksSuffix (buffer : WordBuffer) (stem suffix : List Char) : Prop where
  text_eq : buffer.text = stem ++ suffix
  floor_eq : buffer.floor = 0
  cursor_eq : buffer.cursor = byteLength stem
  sliceStart_eq : buffer.sliceStart = byteLength stem
  sliceEnd_eq : buffer.sliceEnd = byteLength stem + byteLength suffix

section Marks

variable {buffer : WordBuffer} {stem suffix : List Char}

theorem WordBuffer.MarksSuffix.hasParts (marks : buffer.MarksSuffix stem suffix) :
    buffer.HasParts [] stem suffix where
  text_eq := by rw [marks.text_eq, List.nil_append]
  floor_eq := marks.floor_eq
  cursor_eq := by rw [marks.cursor_eq, byteLength_nil, Nat.zero_add]

theorem WordBuffer.MarksSuffix.replaceSlice (marks : buffer.MarksSuffix stem suffix)
    (replacement : String) :
    ∃ edited, buffer.replaceSlice replacement = .ok edited ∧
      edited.text = stem ++ replacement.toList ∧ edited.floor = 0 := by
  have split : buffer.text = stem ++ suffix ++ [] := by rw [marks.text_eq, List.append_nil]
  obtain ⟨edited, done, textEq, floorEq⟩ := exists_replaceSlice replacement
    split marks.sliceStart_eq.symm marks.sliceEnd_eq.symm
  rw [List.append_nil] at textEq
  exact ⟨edited, done, textEq, floorEq.trans marks.floor_eq⟩

theorem WordBuffer.MarksSuffix.deleteSlice (marks : buffer.MarksSuffix stem suffix) :
    ∃ edited, buffer.deleteSlice = .ok edited ∧ edited.HasParts [] stem [] := by
  have split : buffer.text = stem ++ suffix ++ [] := by rw [marks.text_eq, List.append_nil]
  refine ⟨_, splice_of_split split marks.sliceStart_eq.symm marks.sliceEnd_eq.symm, ?_,
    marks.floor_eq, ?_⟩
  · simp
  · simp only [shifted, marks.cursor_eq, marks.sliceStart_eq, marks.sliceEnd_eq,
      String.toList_empty, byteLength_nil, Nat.zero_add]
    split <;> omega

end Marks

variable {workspace : Workspace Context} {text stem suffix : List Char}
  {doubles? : Option (AffixTable Context)}

theorem RuleM.TurnsInto.keepingDistance {rule : RuleM Context Value} {result : List Char}
    (turns : rule.TurnsInto workspace result) (parts : workspace.buffer.HasParts [] text []) :
    ∃ value reached, rule.keepingDistance workspace = .ok value reached ∧
      reached.buffer.HasParts [] result [] ∧ reached.context = workspace.context := by
  obtain ⟨value, reached, run, textEq, floorEq, contextEq⟩ := turns
  have distance : workspace.buffer.distanceToLimit = 0 := by
    rw [WordBuffer.distanceToLimit, parts.limit_eq, parts.cursor_eq, byteLength_nil, Nat.add_zero,
      Nat.sub_self]
  refine ⟨value, { reached with buffer := reached.buffer.moveToDistance 0 }, ?_, ?_, contextEq⟩
  · rw [RuleM.keepingDistance, RuleM.buffer_bind, RuleM.bind_of_ok run, RuleM.modifyBuffer_bind,
      distance, RuleM.pure_apply]
  · refine ⟨?_, floorEq, ?_⟩
    · simp [WordBuffer.moveToDistance, textEq]
    · simp [WordBuffer.moveToDistance, WordBuffer.limit, textEq, floorEq]

theorem AffixTable.ReadsLongest.find_backward {table : AffixTable Context}
    (reads : table.ReadsLongest .backward) {hidden behind ahead : List Char}
    (parts : workspace.buffer.HasParts hidden behind ahead) :
    (table.cutSuffix? behind = none ∧ table.find .backward workspace = .ok 0 workspace) ∨
      ∃ stem suffix tag, behind = stem ++ suffix ∧ table.cutSuffix? behind = some (stem, tag) ∧
        table.find .backward workspace =
          .ok tag (workspace.withCursor (byteLength hidden + byteLength stem)) := by
  have searched := reads.find_eq_longest parts
  simp only [Direction.choose] at searched
  cases longest : table.longest? .backward behind with
  | none =>
    rw [longest] at searched
    exact .inl ⟨cutSuffix?_eq_none longest, searched⟩
  | some affix =>
    rw [longest] at searched
    obtain ⟨stem, split, cut⟩ := exists_suffix_of_longest longest
    refine .inr ⟨stem, affix.literal.toList, affix.tag, split, cut, ?_⟩
    have landing : affix.landing .backward workspace.buffer.cursor =
        byteLength hidden + byteLength stem := by
      rw [Affix.landing, parts.cursor_eq, split, byteLength_append]
      omega
    rw [searched, ← landing]

/-- A cursor above the floor comes back to its place with its distance to the limit. -/
theorem WordBuffer.HasParts.moveToDistance_withCursor {buffer : WordBuffer}
    {hidden behind ahead : List Char} (parts : buffer.HasParts hidden behind ahead)
    (position : Nat) :
    { buffer with cursor := position }.moveToDistance buffer.distanceToLimit = buffer := by
  have cursorEq := parts.cursor_eq
  have floorEq := parts.floor_eq
  have limitEq := parts.limit_eq
  have cursorBack : max (buffer.limit - (buffer.limit - buffer.cursor)) buffer.floor =
      buffer.cursor := by
    omega
  exact congrArg (fun cursor => { buffer with cursor }) cursorBack

/-- The test for a doubled consonant changes at most the cursor, and nothing when it succeeds. -/
theorem endsInDouble_apply (doublesRead : DoublesRead doubles?)
    (parts : workspace.buffer.HasParts [] stem suffix) :
    ∃ cursor, endsInDouble doubles? workspace =
        .ok (endsDoubled doubles? stem) (workspace.withCursor cursor) ∧
      (endsDoubled doubles? stem = true → cursor = workspace.buffer.cursor) := by
  cases doubles? with
  | none => exact ⟨workspace.buffer.cursor, rfl, fun _ => rfl⟩
  | some doubles =>
    simp only [endsInDouble, endsDoubled, Option.any_some]
    rcases (doublesRead doubles rfl).find_backward parts with
      ⟨cut, found⟩ | ⟨front, double, tag, split, cut, found⟩
    · refine ⟨workspace.buffer.cursor, ?_, fun _ => rfl⟩
      rw [cut, RuleM.buffer_bind, RuleM.bind_of_ok found]
      rfl
    · rw [cut, RuleM.buffer_bind, RuleM.bind_of_ok found, Option.any_some]
      by_cases untagged : tag = 0
      · refine ⟨byteLength [] + byteLength front, ?_, fun doubled => ?_⟩
        · simp only [untagged, if_true]
          rfl
        · simp [untagged] at doubled
      · refine ⟨workspace.buffer.cursor, ?_, fun _ => rfl⟩
        rw [if_neg untagged, RuleM.modifyBuffer_bind, Workspace.withCursor,
          parts.moveToDistance_withCursor, RuleM.pure_apply]
        simp only [ne_eq, untagged, not_false_eq_true, decide_true, Workspace.withCursor_self]

theorem dropDoubled_turnsInto (parts : workspace.buffer.HasParts [] text []) :
    dropDoubled.TurnsInto workspace (withoutLastButOne text) := by
  obtain rfl | ⟨front, last, rfl⟩ := List.eq_nil_or_concat text
  · refine ⟨false, workspace, ?_, parts.text_eq, parts.floor_eq, rfl⟩
    exact RuleM.scan_orElse_of_none (parts.stepIf?_backward_nil _)
  rw [List.concat_eq_append] at *
  have firstParts := parts.advance_backward_concat
  have firstMarked : (workspace.buffer.advance .backward last.utf8Size).markEnd.HasParts [] front
      [last] := ⟨firstParts.text_eq, firstParts.floor_eq, firstParts.cursor_eq⟩
  have firstStep : workspace.buffer.next? .backward = _ := parts.stepIf?_backward_concat _
  rw [if_pos rfl] at firstStep
  obtain rfl | ⟨front, before, rfl⟩ := List.eq_nil_or_concat front
  · refine ⟨false, { workspace with buffer :=
        (workspace.buffer.advance .backward last.utf8Size).markEnd }, ?_, firstMarked.text_eq,
        firstMarked.floor_eq, rfl⟩
    rw [dropDoubled, RuleM.scan_orElse_of_some firstStep]
    exact RuleM.scan_orElse_of_none (firstMarked.stepIf?_backward_nil _)
  · rw [List.concat_eq_append] at *
    have secondParts := firstMarked.advance_backward_concat
    have secondStep : (workspace.buffer.advance .backward last.utf8Size).markEnd.next? .backward =
        _ := firstMarked.stepIf?_backward_concat _
    rw [if_pos rfl] at secondStep
    have sliceStart : byteLength front = ((workspace.buffer.advance .backward
        last.utf8Size).markEnd.advance .backward before.utf8Size).cursor := by
      rw [secondParts.cursor_eq, byteLength_nil, Nat.zero_add]
    have sliceEnd : byteLength front + byteLength [before] =
        (workspace.buffer.advance .backward last.utf8Size).cursor := by
      rw [firstParts.cursor_eq, byteLength_nil, Nat.zero_add, byteLength_append]
    have split : ((workspace.buffer.advance .backward last.utf8Size).markEnd.advance .backward
        before.utf8Size).markStart.text = front ++ [before] ++ [last] :=
      secondParts.text_eq.trans (by simp)
    obtain ⟨edited, deleted, textEq, floorEq⟩ :=
      WordBuffer.exists_replaceSlice "" split sliceStart sliceEnd
    refine ⟨true, { workspace with buffer := edited }, ?_, ?_,
      floorEq.trans secondParts.floor_eq, rfl⟩
    · rw [dropDoubled, RuleM.scan_orElse_of_some firstStep, RuleM.modifyBuffer_bind,
        RuleM.scan_orElse_of_some secondStep, RuleM.modifyBuffer_bind,
        RuleM.edit_bind_of_ok deleted]
      rfl
    · simp [textEq, withoutLastButOne]

/-! ## One rule -/

section Found

variable {table : AffixTable Context} {region : WordBuffer → Context → Bool}
  {outcome : Outcome Context} {reached : Workspace Context}

theorem SuffixRule.apply_of_missing
    (missing : table.find .backward { workspace with buffer := workspace.buffer.markEnd } =
      .ok 0 reached) :
    SuffixRule.apply doubles? ⟨table, region, outcome⟩ workspace = .ok false reached := by
  rw [SuffixRule.apply, RuleM.modifyBuffer_bind, RuleM.bind_of_ok missing]
  rfl

theorem SuffixRule.apply_of_found {tag : Int}
    (found : table.find .backward { workspace with buffer := workspace.buffer.markEnd } =
      .ok tag reached) (tagged : tag ≠ 0) :
    SuffixRule.apply doubles? ⟨table, region, outcome⟩ workspace =
      if region reached.buffer.markStart reached.context then
        (outcome.apply doubles? tag) { reached with buffer := reached.buffer.markStart }
      else
        .ok false { reached with buffer := reached.buffer.markStart } := by
  rw [SuffixRule.apply, RuleM.modifyBuffer_bind, RuleM.bind_of_ok found, if_neg tagged,
    RuleM.modifyBuffer_bind, RuleM.buffer_bind, RuleM.context_bind]
  cases region reached.buffer.markStart reached.context <;> rfl

end Found

theorem ByPosition.eq_startsInside {region : WordBuffer → Context → Bool}
    (byPosition : ByPosition region) (buffer : WordBuffer) (context : Context) :
    region buffer context = startsInside region context buffer.cursor :=
  byPosition _ _ _ rfl

mutual

/-- At the end of the text, a suffix rule computes its function on texts. -/
theorem SuffixRule.apply_turnsInto (doublesRead : DoublesRead doubles?)
    (rule : SuffixRule Context) (rewrites : rule.Rewrites)
    {workspace : Workspace Context} {text : List Char}
    (parts : workspace.buffer.HasParts [] text []) :
    (rule.apply doubles?).TurnsInto workspace (rule.rewrite doubles? workspace.context text) := by
  match rule, rewrites with
  | ⟨table, region, outcome⟩, ⟨⟨reads, byPosition⟩, outcomeRewrites⟩ =>
    have markedParts : ({ workspace with buffer := workspace.buffer.markEnd } :
        Workspace Context).buffer.HasParts [] text [] :=
      ⟨parts.text_eq, parts.floor_eq, parts.cursor_eq⟩
    have textEq : workspace.buffer.text = text := by simp [parts.text_eq]
    rw [SuffixRule.rewrite]
    rcases reads.find_backward markedParts with
      ⟨cut, found⟩ | ⟨stem, suffix, tag, rfl, cut, found⟩
    · simp only [cut]
      exact ⟨false, _, SuffixRule.apply_of_missing found, textEq, parts.floor_eq, rfl⟩
    · simp only [cut]
      rw [byteLength_nil, Nat.zero_add] at found
      by_cases untagged : tag = 0
      · rw [if_neg fun selected => selected.1 untagged]
        subst untagged
        exact ⟨false, _, SuffixRule.apply_of_missing found, textEq, parts.floor_eq, rfl⟩
      -- From here on the marks enclose the suffix.
      have marks : ((({ workspace with buffer := workspace.buffer.markEnd } :
          Workspace Context).withCursor (byteLength stem)).buffer.markStart).MarksSuffix stem
            suffix := by
        refine ⟨textEq, parts.floor_eq, rfl, rfl, ?_⟩
        rw [← byteLength_append]
        exact parts.cursor_eq.trans (Nat.zero_add _)
      have run : SuffixRule.apply doubles? ⟨table, region, outcome⟩ workspace = _ :=
        SuffixRule.apply_of_found found untagged
      rw [byPosition.eq_startsInside, marks.cursor_eq] at run
      by_cases inside : startsInside region workspace.context (byteLength stem) = true
      · rw [if_pos ⟨untagged, inside⟩]
        rw [RuleM.TurnsInto, run.trans (if_pos inside)]
        exact outcome.apply_turnsInto doublesRead outcomeRewrites tag marks
      · rw [if_neg fun selected => inside selected.2]
        exact ⟨false, _, run.trans (if_neg inside), textEq, parts.floor_eq, rfl⟩

theorem Outcome.apply_turnsInto (doublesRead : DoublesRead doubles?)
    (outcome : Outcome Context) (rewrites : outcome.Throughout ReadsByPosition Action.IsRewriting)
    (tag : Int) {workspace : Workspace Context} {stem suffix : List Char}
    (marks : workspace.buffer.MarksSuffix stem suffix) :
    (outcome.apply doubles? tag).TurnsInto workspace
      (outcome.rewrite doubles? workspace.context tag stem (stem ++ suffix)) := by
  match outcome, rewrites with
  | .always action, actionRewrites =>
    rw [Outcome.apply, Outcome.rewrite]
    exact action.apply_turnsInto doublesRead actionRewrites marks
  | .byTag actions, actionsRewrite =>
    rw [Outcome.apply, Outcome.rewrite]
    split
    · exact Action.applyNth_turnsInto doublesRead actions actionsRewrite _ marks
    · exact ⟨true, workspace, rfl, marks.text_eq, marks.floor_eq, rfl⟩

theorem Action.applyNth_turnsInto (doublesRead : DoublesRead doubles?)
    (actions : List (Action Context))
    (rewrite : Action.AllThroughout ReadsByPosition Action.IsRewriting actions) (index : Nat)
    {workspace : Workspace Context} {stem suffix : List Char}
    (marks : workspace.buffer.MarksSuffix stem suffix) :
    (Action.applyNth doubles? actions index).TurnsInto workspace
      (Action.rewriteNth doubles? workspace.context stem (stem ++ suffix) actions index) := by
  match actions, rewrite, index with
  | [], _, _ =>
    rw [Action.applyNth, Action.rewriteNth]
    exact ⟨true, workspace, rfl, marks.text_eq, marks.floor_eq, rfl⟩
  | action :: _, ⟨actionRewrites, _⟩, 0 =>
    rw [Action.applyNth, Action.rewriteNth]
    exact action.apply_turnsInto doublesRead actionRewrites marks
  | _ :: others, ⟨_, othersRewrite⟩, index + 1 =>
    rw [Action.applyNth, Action.rewriteNth]
    exact Action.applyNth_turnsInto doublesRead others othersRewrite index marks

theorem Action.apply_turnsInto (doublesRead : DoublesRead doubles?)
    (action : Action Context) (rewrites : action.Throughout ReadsByPosition Action.IsRewriting)
    {workspace : Workspace Context} {stem suffix : List Char}
    (marks : workspace.buffer.MarksSuffix stem suffix) :
    (action.apply doubles?).TurnsInto workspace
      (action.rewrite doubles? workspace.context stem (stem ++ suffix)) := by
  match action, rewrites with
  | .delete, _ =>
    obtain ⟨edited, deleted, editedParts⟩ := marks.deleteSlice
    rw [Action.apply, Action.rewrite]
    refine ⟨true, { workspace with buffer := edited }, ?_, by simp [editedParts.text_eq],
      editedParts.floor_eq, rfl⟩
    rw [RuleM.edit_bind_of_ok deleted, RuleM.pure_apply]
  | .replace replacement, _ =>
    obtain ⟨edited, replaced, textEq, floorEq⟩ := marks.replaceSlice replacement
    rw [Action.apply, Action.rewrite]
    refine ⟨true, { workspace with buffer := edited }, ?_, textEq, floorEq, rfl⟩
    rw [RuleM.edit_bind_of_ok replaced, RuleM.pure_apply]
  | .deleteThen next, ⟨_, nextRewrites⟩ =>
    obtain ⟨edited, deleted, editedParts⟩ := marks.deleteSlice
    have turns : (next.apply doubles?).TurnsInto { workspace with buffer := edited } _ :=
      next.apply_turnsInto doublesRead nextRewrites editedParts
    obtain ⟨answer, reached, run, reachedParts, contextEq⟩ := turns.keepingDistance editedParts
    rw [Action.apply, Action.rewrite]
    refine ⟨true, reached, ?_, by simp [reachedParts.text_eq], reachedParts.floor_eq, contextEq⟩
    rw [RuleM.edit_bind_of_ok deleted, RuleM.bind_of_ok run, RuleM.pure_apply]
  | .undouble, _ =>
    obtain ⟨cursor, tested, unmoved⟩ := endsInDouble_apply doublesRead marks.hasParts
    rw [Action.apply, Action.rewrite]
    cases doubled : endsDoubled doubles? stem with
    | false =>
      rw [doubled] at tested
      refine ⟨false, workspace.withCursor cursor, ?_, marks.text_eq, marks.floor_eq, rfl⟩
      rw [RuleM.bind_of_ok tested]
      rfl
    | true =>
      rw [doubled, unmoved doubled, Workspace.withCursor_self] at tested
      obtain ⟨edited, deleted, editedParts⟩ := marks.deleteSlice
      have turns : dropDoubled.TurnsInto { workspace with buffer := edited } _ :=
        dropDoubled_turnsInto editedParts
      obtain ⟨answer, reached, run, textEq, floorEq, contextEq⟩ := turns
      refine ⟨answer, reached, ?_, textEq, floorEq, contextEq⟩
      rw [RuleM.bind_of_ok tested, if_pos rfl, RuleM.edit_bind_of_ok deleted, run]

end

theorem StepRule.apply_turnsInto (doublesRead : DoublesRead doubles?) {rule : StepRule Context}
    (rewrites : rule.Rewrites) (parts : workspace.buffer.HasParts [] text []) :
    (rule.apply doubles?).TurnsInto workspace
      (rule.rewrite doubles? workspace.context text) := by
  cases rule with
  | suffix rule => exact rule.apply_turnsInto doublesRead rewrites parts
  | custom rule => exact rewrites.elim

/-! ## One step after the other -/

namespace RuleProgram

variable {program : RuleProgram Context}

/-- Steps that rewrite run to their end and leave the text that they make one after the other. -/
theorem runSteps_turnsInto (doublesRead : DoublesRead program.doubles?)
    (steps : List (Step Context)) (rewrite : ∀ step ∈ steps, step.rule.Rewrites)
    (parts : workspace.buffer.HasParts [] text []) :
    ∃ reached, program.runSteps steps workspace = .ok () reached ∧
      reached.buffer.HasParts [] (program.rewriteSteps workspace.context steps text) [] ∧
      reached.context = workspace.context := by
  induction steps generalizing workspace text with
  | nil => exact ⟨workspace, rfl, parts, rfl⟩
  | cons step others ih =>
    have turns := StepRule.apply_turnsInto doublesRead (rewrite step (.head _)) parts
    obtain ⟨answer, stepped, stepRun, steppedParts, steppedContext⟩ := turns.keepingDistance parts
    obtain ⟨reached, run, reachedParts, contextEq⟩ :=
      ih (fun other member => rewrite other (.tail _ member)) steppedParts
    rw [steppedContext] at reachedParts contextEq
    have stepDone : (do let _ ← (step.rule.apply program.doubles?).keepingDistance
        : RuleM Context Unit) workspace = .ok () stepped := by
      rw [RuleM.bind_of_ok stepRun]
      rfl
    refine ⟨reached, ?_, reachedParts, contextEq⟩
    rw [runSteps, List.forM_eq_forM, List.forM_cons, RuleM.bind_of_ok stepDone]
    exact run

/-- Marking the regions of a loaded word leaves the buffer ready to be read. -/
theorem mark_of_onlyScans (onlyScans : program.markRegions.OnlyScans) (word : String)
    (context : Context) :
    ∃ found marked, program.mark ⟨.load word, context⟩ = .ok found marked ∧
      marked.buffer.beginBackward.HasParts [] word.toList [] := by
  obtain ⟨found, scanned, run, textEq⟩ := onlyScans word context
  refine ⟨found, { scanned with buffer := scanned.buffer.moveTo 0 }, ?_, ?_⟩
  · rw [mark, RuleM.buffer_bind, RuleM.bind_of_ok run]
    rfl
  · refine ⟨?_, Nat.zero_min _, ?_⟩
    · rw [List.nil_append, List.append_nil]
      exact textEq
    · rw [byteLength_nil, Nat.zero_add, ← textEq]
      rfl

/-- A run whose region pass succeeds leaves what the steps make of the word. -/
theorem exists_run {found : Bool} {marked : Workspace Context} (rewrites : program.Rewrites)
    (markRun : program.mark workspace = .ok found marked)
    (parts : marked.buffer.beginBackward.HasParts [] text []) :
    ∃ final, program.run workspace = .ok () final ∧
      final.buffer.text = program.rewriteSteps marked.context program.steps text := by
  have turned : ∃ reached, program.runSteps program.steps
      { marked with buffer := marked.buffer.beginBackward } = .ok () reached ∧ _ :=
    runSteps_turnsInto rewrites.doublesRead program.steps rewrites.steps parts
  obtain ⟨reached, run, reachedParts, -⟩ := turned
  refine ⟨{ reached with buffer := reached.buffer.moveTo reached.buffer.floor }, ?_, ?_⟩
  · rw [RuleProgram.run, RuleM.bind_of_ok markRun, RuleM.modifyBuffer_bind, RuleM.bind_of_ok run]
    rfl
  · simp [WordBuffer.moveTo, reachedParts.text_eq]

/-- A program that rewrites runs to its end on every word, and the text that it leaves is what the
functions of its steps make of the word, one after the other, with the regions that the region
pass has marked. -/
theorem run_rewrites_word (program : RuleProgram Context) (rewrites : program.Rewrites)
    (word : String) (context : Context) :
    ∃ found marked final, program.mark ⟨.load word, context⟩ = .ok found marked ∧
      program.run ⟨.load word, context⟩ = .ok () final ∧
      final.buffer.text =
        program.rewriteSteps marked.context program.steps word.toList := by
  obtain ⟨found, marked, markRun, parts⟩ := mark_of_onlyScans rewrites.onlyScans word context
  obtain ⟨final, run, textEq⟩ := exists_run rewrites markRun parts
  exact ⟨found, marked, final, markRun, run, textEq⟩

/-- A rule that finds where the region after two letters begins. -/
def markAfterTwo : RuleM Nat Bool := do
  let start ← RuleM.buffer
  RuleM.modifyContext fun _ => start.limit
  if !(← RuleM.scan fun buffer => buffer.hop? .forward 2) then
    return false
  let reached ← RuleM.buffer
  RuleM.modifyContext fun _ => reached.cursor
  return true

/-- A small program for English endings: `-ly` goes together with an ending before it, `-ies`
becomes `-y`, `-ing` goes after a doubled consonant, which is made single, and a final `-s`
goes. -/
def englishEndings : RuleProgram Nat :=
  let inside := fun (buffer : WordBuffer) (begin : Nat) => decide (begin ≤ buffer.cursor)
  let doubles := .ofRows "doubles" .backward [("bb", -1, -1), ("nn", -1, -1), ("pp", -1, -1)]
  let endings : SuffixRule Nat :=
    { table := .ofRows "endings" .backward [("ed", -1, 3), ("ing", -1, 2), ("ies", -1, 1)]
      region := inside
      outcome := .byTag [.replace "y", .undouble] }
  let adverbs := .ofRows "adverbs" .backward [("ly", -1, 1)]
  let plurals := .ofRows "plurals" .backward [("s", -1, 1)]
  { name := "english endings"
    markRegions := markAfterTwo
    doubles? := some doubles
    tables := [doubles, endings.table, adverbs, plurals]
    steps :=
      [{ name := "adverbs", rule := .suffix ⟨adverbs, inside, .always (.deleteThen endings)⟩ },
        { name := "endings", rule := .suffix endings },
        { name := "plurals", rule := .suffix ⟨plurals, inside, .always .delete⟩ }] }

theorem markAfterTwo_onlyScans : markAfterTwo.OnlyScans := by
  intro word context
  have marking : markAfterTwo ⟨.load word, context⟩ =
      (RuleM.scan (fun buffer => buffer.hop? .forward 2) >>= fun hopped =>
        if (!hopped) = true then pure false
        else RuleM.buffer >>= fun reached =>
          RuleM.modifyContext (fun _ => reached.cursor) >>= fun _ => pure true)
        ⟨.load word, (WordBuffer.load word).limit⟩ := rfl
  cases hopped : (WordBuffer.load word).hop? .forward 2 with
  | none =>
    rw [RuleM.scan_orElse_of_none hopped] at marking
    exact ⟨false, _, marking, rfl⟩
  | some moved =>
    rw [RuleM.scan_orElse_of_some hopped] at marking
    refine ⟨true, _, marking, ?_⟩
    have moves := (WordBuffer.load_wellFormed word).hop? hopped
    exact congrArg WordBuffer.text moves.eq_withCursor

theorem englishEndings_rewrites : englishEndings.Rewrites where
  onlyScans := markAfterTwo_onlyScans
  doublesRead := by
    rintro doubles ⟨⟩
    decide +kernel
  steps := by
    have byPosition : ByPosition fun (buffer : WordBuffer) (begin : Nat) =>
        decide (begin ≤ buffer.cursor) := by
      intro buffer other begin cursorEq
      simp only [cursorEq]
    intro step member
    simp only [englishEndings, List.mem_cons, List.not_mem_nil, or_false] at member
    rcases member with rfl | rfl | rfl
    · refine ⟨⟨by decide +kernel, byPosition⟩, trivial, ?_⟩
      exact ⟨⟨by decide +kernel, byPosition⟩, trivial, trivial, trivial⟩
    · exact ⟨⟨by decide +kernel, byPosition⟩, trivial, trivial, trivial⟩
    · exact ⟨⟨by decide +kernel, byPosition⟩, trivial⟩

/-- The program makes `run` of `runningly`: it deletes `-ly`, then `-ing`, and drops an `n`. -/
theorem englishEndings_run_runningly :
    englishEndings.Rewrites ∧
      ∃ final, englishEndings.run ⟨.load "runningly", 0⟩ = .ok () final ∧
        final.buffer.text = "run".toList := by
  refine ⟨englishEndings_rewrites, ?_⟩
  obtain ⟨found, marked, final, markRun, run, textEq⟩ :=
    run_rewrites_word englishEndings englishEndings_rewrites "runningly" 0
  have marking : englishEndings.mark ⟨.load "runningly", 0⟩ = .ok true ⟨.load "runningly", 2⟩ := rfl
  obtain ⟨-, rfl⟩ := EStateM.Result.ok.inj (marking.symm.trans markRun)
  refine ⟨final, run, textEq.trans ?_⟩
  decide +kernel

end RuleProgram

end WordStem
