import WordStem.Proofs.BufferEdits
import WordStem.Proofs.BufferScans
import WordStem.Proofs.SearchOutcome

/-! # Guards that edit the word

A search counts the places for the cursor from where it began and goes there whatever its guards
did to the text in the meantime. As long as every guard spares the text up to the places that are
still ahead of the search, the buffer ends well formed. A guard that edits in front of such a
place can leave the cursor behind the limit or inside a character. -/
namespace WordStem

namespace WordBuffer

variable {buffer edited : WordBuffer} {position place : Nat}

/-- An edited buffer has the floor and the text up to a position in common with the buffer before
the edit. -/
def SparesTo (position : Nat) (buffer edited : WordBuffer) : Prop :=
  edited.floor = buffer.floor ∧ ∃ front behind replaced, byteLength front = position ∧
    buffer.text = front ++ behind ∧ edited.text = front ++ replaced

theorem SparesTo.onBoundary_iff (spares : SparesTo position buffer edited)
    (inside : place ≤ position) : OnBoundary edited.text place ↔ OnBoundary buffer.text place := by
  obtain ⟨-, front, behind, replaced, rfl, textEq, editedEq⟩ := spares
  rw [textEq, editedEq, onBoundary_append_left inside, onBoundary_append_left inside]

/-- A place for the cursor stays one when the text up to it is spared. -/
theorem SparesTo.wellFormed (spares : SparesTo position buffer edited) (inside : place ≤ position)
    (wellFormed : ({ buffer with cursor := place } : WordBuffer).WellFormed) :
    ({ edited with cursor := place } : WordBuffer).WellFormed := by
  obtain ⟨floorLe, -, placeCut, floorCut⟩ := wellFormed
  have floorEq : edited.floor = buffer.floor := spares.1
  have placeKept : OnBoundary edited.text place := (spares.onBoundary_iff inside).mpr placeCut
  have floorKept : OnBoundary edited.text edited.floor := by
    rw [floorEq]
    exact (spares.onBoundary_iff (Nat.le_trans floorLe inside)).mpr floorCut
  refine ⟨?_, placeKept.le_byteLength, placeKept, floorKept⟩
  change edited.floor ≤ place
  rw [floorEq]
  exact floorLe

end WordBuffer

variable {Context : Type}

/-- A guard that is called at the place of the cursor behind a match spares the text up to that
place if it accepts; if it refuses, it also spares the text up to where the search began. -/
def RuleM.SparesMatch (guard : RuleM Context Bool) (start landing : Nat) : Prop :=
  ∀ workspace verdict reached, workspace.buffer.WellFormed → workspace.buffer.cursor = landing →
    guard workspace = .ok verdict reached →
      workspace.buffer.SparesTo (if verdict then landing else max start landing) reached.buffer

/-- Whether a rule ends without a defect and its answer and the workspace it leaves pass a check. -/
def RuleM.endsWith {Value : Type} (rule : RuleM Context Value) (workspace : Workspace Context)
    (check : Value → Workspace Context → Bool) : Bool :=
  match rule workspace with
  | .ok value reached => check value reached
  | .error _ _ => false

theorem RuleM.exists_of_endsWith {Value : Type} (rule : RuleM Context Value)
    (workspace : Workspace Context) (check : Value → Workspace Context → Bool)
    (ends : rule.endsWith workspace check = true) :
    ∃ value reached, rule workspace = .ok value reached ∧ check value reached = true := by
  rw [endsWith] at ends
  split at ends
  case h_1 value reached run => exact ⟨value, reached, run, ends⟩
  case h_2 => cases ends

theorem Affix.landing_le_max {longer shorter : Affix Context} (direction : Direction) (start : Nat)
    (less : byteLength shorter.literal.toList < byteLength longer.literal.toList) :
    shorter.landing direction start ≤ max start (longer.landing direction start) := by
  cases direction <;> simp only [landing] <;> omega

namespace AffixTable

variable {table : AffixTable Context} {direction : Direction} {start : Nat}

def GuardsSpareMatch (table : AffixTable Context) (direction : Direction) (start : Nat) : Prop :=
  ∀ affix ∈ table.affixes, ∀ guard, affix.guard? = some guard →
    guard.SparesMatch start (affix.landing direction start)

/-- Trying affixes whose guards spare the match. At every moment the start and the places behind
the affixes that are yet to be tried fit the text. -/
theorem tryEach_wellFormed {affixes : List (Affix Context)} {workspace reached : Workspace Context}
    {tag : Int}
    (startFits : (workspace.withCursor start).buffer.WellFormed)
    (landingsFit : ∀ affix ∈ affixes,
      (workspace.withCursor (affix.landing direction start)).buffer.WellFormed)
    (shrinking : affixes.Pairwise fun longer shorter =>
      byteLength shorter.literal.toList < byteLength longer.literal.toList)
    (spare : ∀ affix ∈ affixes, ∀ guard, affix.guard? = some guard →
      guard.SparesMatch start (affix.landing direction start))
    (tried : tryEach direction start affixes workspace = .ok tag reached) :
    reached.buffer.WellFormed := by
  induction affixes generalizing workspace with
  | nil =>
    obtain ⟨-, rfl⟩ := EStateM.Result.ok.inj tried
    exact startFits
  | cons affix others ih =>
    obtain ⟨shorter, shrinking⟩ := List.pairwise_cons.mp shrinking
    have matched := landingsFit affix (.head _)
    simp only [tryEach] at tried
    cases guarded : affix.guard? with
    | none =>
      simp only [guarded] at tried
      obtain ⟨-, rfl⟩ := EStateM.Result.ok.inj tried
      exact matched
    | some guard =>
      simp only [guarded] at tried
      cases run : guard (workspace.withCursor (affix.landing direction start)) with
      | error defect stopped =>
        rw [run] at tried
        cases tried
      | ok verdict left =>
        rw [run] at tried
        have spares := spare affix (.head _) guard guarded _ verdict left matched rfl run
        cases verdict with
        | true =>
          obtain ⟨-, rfl⟩ := EStateM.Result.ok.inj tried
          exact spares.wellFormed (Nat.le_refl _) matched
        | false =>
          apply ih _ _ shrinking (fun other member => spare other (.tail _ member)) tried
          · exact spares.wellFormed (Nat.le_max_left _ _) startFits
          · intro other member
            exact spares.wellFormed (Affix.landing_le_max direction start (shorter other member))
              (landingsFit other (.tail _ member))

/-- A search on a valid table from a well-formed buffer moves the cursor behind an affix that was
tried or back to the start. If every guard spares the text up to the places that are still ahead of
the search, the buffer is well formed again, however the guards edited the rest. -/
theorem sparing_guards_leave_wellFormed (valid : table.validate = .ok ())
    (workspace : Workspace Context) (wellFormed : workspace.buffer.WellFormed)
    (spare : table.GuardsSpareMatch table.direction workspace.buffer.cursor) :
    ∃ candidates,
      Candidates table table.direction (workspace.buffer.view table.direction) candidates ∧
      EndsAt table.direction workspace.buffer.cursor candidates
        (table.find table.direction workspace) ∧
      ∀ tag reached, table.find table.direction workspace = .ok tag reached →
        reached.buffer.WellFormed := by
  obtain ⟨candidates, tried, searched⟩ := (validFor_direction valid).find_eq_tryEach workspace
  refine ⟨candidates, tried, searched ▸ endsAt_tryEach candidates workspace, ?_⟩
  intro tag reached found
  have landingsFit : ∀ affix ∈ candidates,
      (workspace.withCursor
        (affix.landing table.direction workspace.buffer.cursor)).buffer.WellFormed := by
    intro affix member
    apply (wellFormed.advance (tried.isPrefix member)).congr
    · rw [WordBuffer.advance_text]
      rfl
    · rw [WordBuffer.advance_floor]
      rfl
    · cases table.direction <;> rfl
  exact tryEach_wellFormed wellFormed landingsFit
    ((validFor_direction valid).candidates_pairwise tried)
    (fun affix member => spare affix (tried.mem_affixes member)) (searched ▸ found)

/-- Two endings, the longer of which has a guard that cuts it off together with all that follows
it. -/
def truncatedEndings : AffixTable Unit where
  name := "endings"
  direction := .backward
  affixes :=
    [{ literal := "k", link := -1, tag := 1 },
      { literal := "ek", link := 0, tag := 2,
        guard? := some do
          RuleM.edit fun buffer => buffer.splice buffer.cursor buffer.limit ""
          return true }]

theorem truncatedEndings_spareMatch (start : Nat) :
    truncatedEndings.GuardsSpareMatch .backward start := by
  intro affix member guard guarded workspace verdict reached wellFormed atLanding ran
  simp only [truncatedEndings, List.mem_cons, List.not_mem_nil, or_false] at member
  rcases member with rfl | rfl
  · cases guarded
  · cases guarded
    obtain ⟨hidden, behind, ahead, parts⟩ :=
      WordBuffer.wellFormed_iff_exists_parts.mp wellFormed
    have textEq : workspace.buffer.text = (hidden ++ behind) ++ ahead ++ [] := by
      rw [parts.text_eq, List.append_nil]
    have cursorEq : byteLength (hidden ++ behind) = workspace.buffer.cursor := by
      rw [byteLength_append, parts.cursor_eq]
    have limitEq : byteLength (hidden ++ behind) + byteLength ahead = workspace.buffer.limit := by
      rw [byteLength_append, parts.limit_eq]
    have cut := @WordBuffer.splice_of_split workspace.buffer _ _ _ _ _ "" textEq cursorEq limitEq
    rw [RuleM.edit_bind_of_ok cut] at ran
    obtain ⟨rfl, rfl⟩ := EStateM.Result.ok.inj ran
    exact ⟨rfl, hidden ++ behind, ahead, _, cursorEq.trans atLanding, parts.text_eq,
      List.append_assoc _ _ _⟩

/-- At the end of `kertek` the guard cuts the ending off, and the cursor stays at the limit. -/
theorem sparing_guards_leave_wellFormed_kertek :
    let workspace : Workspace Unit := ⟨(WordBuffer.load "kertek").beginBackward, ()⟩
    truncatedEndings.validate = .ok () ∧ workspace.buffer.WellFormed ∧
      truncatedEndings.GuardsSpareMatch .backward workspace.buffer.cursor ∧
      ∃ reached, truncatedEndings.find .backward workspace = .ok 2 reached ∧
        reached.buffer.text = "kert".toList ∧ reached.buffer.WellFormed := by
  intro workspace
  have wellFormed : workspace.buffer.WellFormed :=
    (WordBuffer.load_hasParts "kertek").beginBackward.wellFormed
  have valid : truncatedEndings.validate = .ok () := rfl
  obtain ⟨candidates, -, -, keeps⟩ := sparing_guards_leave_wellFormed valid workspace wellFormed
    (truncatedEndings_spareMatch _)
  obtain ⟨tag, reached, found, checked⟩ := RuleM.exists_of_endsWith
    (truncatedEndings.find .backward) workspace
    (fun tag reached => tag == 2 && reached.buffer.text == "kert".toList) (by decide +kernel)
  simp only [Bool.and_eq_true, beq_iff_eq] at checked
  obtain ⟨rfl, textEq⟩ := checked
  exact ⟨valid, wellFormed, truncatedEndings_spareMatch _, reached, found, textEq,
    keeps 2 reached found⟩

/-! ## Guards that do not spare the match -/

/-- Drops the character before the cursor. -/
def dropCharacter : RuleM Unit Bool := do
  RuleM.modifyBuffer WordBuffer.markEnd
  if !(← RuleM.scan fun buffer => buffer.next? .backward) then
    return false
  RuleM.modifyBuffer WordBuffer.markStart
  RuleM.edit WordBuffer.deleteSlice
  return true

def GuardsKeepWellFormed (table : AffixTable Unit) : Prop :=
  ∀ affix ∈ table.affixes, ∀ guard, affix.guard? = some guard →
    ∀ workspace, workspace.buffer.WellFormed →
      (guard.after workspace).buffer.WellFormed ∧
        (guard.after workspace).buffer.floor = workspace.buffer.floor

theorem dropCharacter_wellFormed (workspace : Workspace Unit)
    (wellFormed : workspace.buffer.WellFormed) :
    (dropCharacter.after workspace).buffer.WellFormed ∧
      (dropCharacter.after workspace).buffer.floor = workspace.buffer.floor := by
  have marked : workspace.buffer.markEnd.WellFormed := wellFormed.congr rfl rfl rfl
  rw [RuleM.after, dropCharacter, RuleM.modifyBuffer_bind]
  cases stepped : workspace.buffer.markEnd.next? .backward with
  | none =>
    rw [RuleM.scan_orElse_of_none stepped]
    exact ⟨marked, rfl⟩
  | some moved =>
    have moves := marked.next? stepped
    have floorEq : moved.floor = workspace.buffer.floor := by
      rw [moves.eq_withCursor]
      rfl
    rw [RuleM.scan_orElse_of_some stepped, RuleM.modifyBuffer_bind]
    have ready : moved.markStart.WellFormed := moves.wellFormed.congr rfl rfl rfl
    cases deleted : moved.markStart.deleteSlice with
    | error defect =>
      have refused : RuleM.edit WordBuffer.deleteSlice
          (⟨moved.markStart, workspace.context⟩ : Workspace Unit) =
            .error defect ⟨moved.markStart, workspace.context⟩ := by
        simp only [RuleM.edit, deleted]
      rw [RuleM.bind_of_error refused]
      exact ⟨ready, floorEq⟩
    | ok edited =>
      rw [RuleM.edit_bind_of_ok deleted]
      have above : moved.markStart.floor ≤ moved.markStart.sliceStart :=
        moves.wellFormed.floor_le_cursor
      obtain ⟨before, inside, after, textEq, startEq, stopEq⟩ :=
        WordBuffer.exists_split_of_splice deleted
      have editedEq := deleted.symm.trans
        (@WordBuffer.splice_of_split moved.markStart _ _ _ _ _ "" textEq startEq stopEq)
      refine ⟨ready.splice above deleted, ?_⟩
      obtain rfl := Except.ok.inj editedEq
      exact floorEq

/-- A single affix with a guard that drops a character. -/
def clippedAffix (direction : Direction) (literal : String) : AffixTable Unit where
  name := "clipped"
  direction := direction
  affixes := [{ literal, link := -1, tag := 1, guard? := some dropCharacter }]

theorem clippedAffix_keepWellFormed (direction : Direction) (literal : String) :
    (clippedAffix direction literal).GuardsKeepWellFormed := by
  intro affix member guard guarded
  obtain rfl := List.mem_singleton.mp member
  obtain rfl := Option.some.inj guarded
  exact dropCharacter_wellFormed

/-- Guards that keep every buffer well formed, and yet the search does not: going forward over `ab`
the guard shortens the word and the cursor ends behind the limit; going backward over the end of
`xé` it drops the letter in front of the match and the cursor ends inside the one that is left. -/
theorem editing_guards_mislay_cursor :
    ((clippedAffix .forward "ab").validate = .ok () ∧ (WordBuffer.load "ab").WellFormed ∧
      (clippedAffix .forward "ab").GuardsKeepWellFormed ∧
      ∃ tag reached, (clippedAffix .forward "ab").find .forward ⟨.load "ab", ()⟩ =
        .ok tag reached ∧ reached.buffer.limit < reached.buffer.cursor) ∧
    ((clippedAffix .backward "é").validate = .ok () ∧
      (WordBuffer.load "xé").beginBackward.WellFormed ∧
      (clippedAffix .backward "é").GuardsKeepWellFormed ∧
      ∃ tag reached, (clippedAffix .backward "é").find .backward
          ⟨(WordBuffer.load "xé").beginBackward, ()⟩ = .ok tag reached ∧
        ¬ OnBoundary reached.buffer.text reached.buffer.cursor) := by
  refine ⟨⟨rfl, WordBuffer.load_wellFormed "ab", clippedAffix_keepWellFormed _ _, ?_⟩,
    rfl, (WordBuffer.load_hasParts "xé").beginBackward.wellFormed,
    clippedAffix_keepWellFormed _ _, ?_⟩
  · obtain ⟨tag, reached, found, checked⟩ := RuleM.exists_of_endsWith
      ((clippedAffix .forward "ab").find .forward) ⟨.load "ab", ()⟩
      (fun _ reached => decide (reached.buffer.limit < reached.buffer.cursor))
      (by decide +kernel)
    exact ⟨tag, reached, found, of_decide_eq_true checked⟩
  · obtain ⟨tag, reached, found, checked⟩ := RuleM.exists_of_endsWith
      ((clippedAffix .backward "é").find .backward) ⟨(WordBuffer.load "xé").beginBackward, ()⟩
      (fun _ reached => decide (¬ OnBoundary reached.buffer.text reached.buffer.cursor))
      (by decide +kernel)
    exact ⟨tag, reached, found, of_decide_eq_true checked⟩

end AffixTable

end WordStem
