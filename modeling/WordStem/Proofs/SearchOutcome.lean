import WordStem.Proofs.AffixMatching

/-! # The state after a search

A search leaves the word alone, provided that the guards do, and puts the cursor either past an
affix that it tried or back to where it began. Since an affix that matches byte by byte covers
whole characters, the buffer stays well formed. -/
namespace WordStem.AffixTable

variable {Context : Type} {table : AffixTable Context} {direction : Direction} {start : Nat}

def GuardsKeepWord (table : AffixTable Context) : Prop :=
  ∀ affix ∈ table.affixes, ∀ guard, affix.guard? = some guard → guard.KeepsWord

/-- How a search can end: with the tag of an affix that was tried, the cursor being past that
affix, or with zero and the cursor at the start, or at a defect of a guard. -/
def EndsAt (direction : Direction) (start : Nat) (affixes : List (Affix Context)) :
    EStateM.Result Defect (Workspace Context) Int → Prop
  | .ok tag reached =>
    (∃ affix ∈ affixes, tag = affix.tag ∧
      reached.buffer.cursor = affix.landing direction start) ∨
    tag = 0 ∧ reached.buffer.cursor = start
  | .error _ _ => True

theorem endsAt_tryEach (affixes : List (Affix Context)) (workspace : Workspace Context) :
    EndsAt direction start affixes (tryEach direction start affixes workspace) := by
  induction affixes generalizing workspace with
  | nil => exact .inr ⟨rfl, rfl⟩
  | cons affix others ih =>
    cases guarded : affix.guard? with
    | none =>
      simp only [tryEach, guarded]
      exact .inl ⟨affix, .head _, rfl, rfl⟩
    | some guard =>
      simp only [tryEach, guarded]
      cases guard (workspace.withCursor (affix.landing direction start)) with
      | error defect reached => trivial
      | ok verdict reached =>
        cases verdict with
        | true => exact .inl ⟨affix, .head _, rfl, rfl⟩
        | false =>
          have ended := ih reached
          simp only
          cases run : tryEach direction start others reached with
          | error defect final => trivial
          | ok tag final =>
            rw [run] at ended
            rcases ended with ⟨other, member, tagEq, cursorEq⟩ | none
            · exact .inl ⟨other, .tail _ member, tagEq, cursorEq⟩
            · exact .inr none

theorem tryEach_keepsWord {affixes : List (Affix Context)}
    (keep : ∀ affix ∈ affixes, ∀ guard, affix.guard? = some guard → guard.KeepsWord) :
    (tryEach direction start affixes).KeepsWord := by
  induction affixes with
  | nil => exact fun workspace => ⟨rfl, rfl⟩
  | cons affix others ih =>
    intro workspace
    cases guarded : affix.guard? with
    | none =>
      simp only [RuleM.after, tryEach, guarded]
      exact ⟨rfl, rfl⟩
    | some guard =>
      have kept := keep affix (.head _) guard guarded
        (workspace.withCursor (affix.landing direction start))
      simp only [RuleM.after, tryEach, guarded] at kept ⊢
      cases run : guard (workspace.withCursor (affix.landing direction start)) with
      | error defect reached =>
        rw [run] at kept
        exact kept
      | ok verdict reached =>
        rw [run] at kept
        cases verdict with
        | true => exact kept
        | false =>
          obtain ⟨textEq, floorEq⟩ := ih (fun other member => keep other (.tail _ member)) reached
          exact ⟨textEq.trans kept.1, floorEq.trans kept.2⟩

/-- A search that keeps the word leaves a well-formed buffer. -/
theorem wellFormed_of_endsAt {candidates : List (Affix Context)}
    {workspace reached : Workspace Context} {tag : Int}
    (wellFormed : workspace.buffer.WellFormed)
    (matching : ∀ affix ∈ candidates,
      key direction affix <+: workspace.buffer.view direction)
    (textEq : reached.buffer.text = workspace.buffer.text)
    (floorEq : reached.buffer.floor = workspace.buffer.floor)
    (ended : EndsAt direction workspace.buffer.cursor candidates (.ok tag reached)) :
    reached.buffer.WellFormed := by
  rcases ended with ⟨affix, member, -, cursorEq⟩ | ⟨-, cursorEq⟩
  · apply (wellFormed.advance (matching affix member)).congr
    · rw [textEq, WordBuffer.advance_text]
    · rw [floorEq, WordBuffer.advance_floor]
    · rw [cursorEq]
      cases direction <;> rfl
  · exact wellFormed.congr textEq floorEq cursorEq

/-- The meaning of a search on a valid table. It tries the entries that the text starts with,
along the chain of the greatest entry that is not above the text, the longest first. If the
guards keep the word, so does the search, and afterwards the cursor is past the accepted affix or
back at the start. -/
theorem find_tries_candidates (valid : table.validate = .ok ())
    (workspace : Workspace Context) (wellFormed : workspace.buffer.WellFormed)
    (keep : table.GuardsKeepWord) :
    ∃ candidates,
      Candidates table table.direction (workspace.buffer.view table.direction) candidates ∧
      (candidates.Pairwise fun longer shorter =>
        byteLength shorter.literal.toList < byteLength longer.literal.toList) ∧
      table.find table.direction workspace =
        tryEach table.direction workspace.buffer.cursor candidates workspace ∧
      EndsAt table.direction workspace.buffer.cursor candidates
        (table.find table.direction workspace) ∧
      ((table.find table.direction).after workspace).buffer.text = workspace.buffer.text ∧
      ((table.find table.direction).after workspace).buffer.floor = workspace.buffer.floor ∧
      ∀ tag reached, table.find table.direction workspace = .ok tag reached →
        reached.buffer.WellFormed := by
  obtain ⟨candidates, tried, searched⟩ := (validFor_direction valid).find_eq_tryEach workspace
  have ended : EndsAt table.direction workspace.buffer.cursor candidates _ :=
    endsAt_tryEach candidates workspace
  have kept : (tryEach table.direction workspace.buffer.cursor candidates).KeepsWord :=
    tryEach_keepsWord fun affix member => keep affix (tried.mem_affixes member)
  obtain ⟨textEq, floorEq⟩ := kept workspace
  have afterEq : (table.find table.direction).after workspace =
      (tryEach table.direction workspace.buffer.cursor candidates).after workspace := by
    simp only [RuleM.after, searched]
  refine ⟨candidates, tried, (validFor_direction valid).candidates_pairwise tried, searched,
    searched ▸ ended, afterEq ▸ textEq, afterEq ▸ floorEq, fun tag reached run => ?_⟩
  rw [searched] at run
  simp only [RuleM.after, run] at textEq floorEq
  exact wellFormed_of_endsAt wellFormed (fun affix member => tried.isPrefix member)
    textEq floorEq (run ▸ ended)

/-- Two endings, the longer of which is always refused by a guard that moves the cursor and
counts how often it ran. -/
def guardedEndings : AffixTable Nat where
  name := "endings"
  direction := .backward
  affixes :=
    [{ literal := "s", link := -1, tag := 1 },
      { literal := "és", link := 0, tag := 2,
        guard? := some fun workspace =>
          .ok false ⟨workspace.buffer.moveTo 0, workspace.context + 1⟩ }]

theorem guardedEndings_keepWord : guardedEndings.GuardsKeepWord := by
  intro affix member guard guarded workspace
  simp only [guardedEndings, List.mem_cons, List.not_mem_nil, or_false] at member
  rcases member with rfl | rfl
  · cases guarded
  · cases guarded
    exact ⟨rfl, rfl⟩

/-- At the end of `kés` the search tries both endings and comes back to the shorter one. -/
theorem find_tries_candidates_guardedEndings :
    let workspace : Workspace Nat := ⟨(WordBuffer.load "kés").beginBackward, 0⟩
    guardedEndings.validate = .ok () ∧ workspace.buffer.WellFormed ∧
      guardedEndings.GuardsKeepWord ∧
      (∃ candidates, Candidates guardedEndings .backward (workspace.buffer.view .backward)
          candidates ∧
        guardedEndings.find .backward workspace =
          tryEach .backward workspace.buffer.cursor candidates workspace ∧
        EndsAt .backward workspace.buffer.cursor candidates
          (guardedEndings.find .backward workspace)) ∧
      (match guardedEndings.find .backward workspace with
        | .ok tag reached => tag == 1 && reached.buffer.cursor == 3 && reached.context == 1
        | .error _ _ => false) = true := by
  intro workspace
  have wellFormed : workspace.buffer.WellFormed :=
    (WordBuffer.load_hasParts "kés").beginBackward.wellFormed
  obtain ⟨candidates, tried, -, searched, ended, -⟩ :=
    find_tries_candidates rfl workspace wellFormed guardedEndings_keepWord
  exact ⟨rfl, wellFormed, guardedEndings_keepWord, ⟨candidates, tried, searched, ended⟩,
    by decide +kernel⟩

end WordStem.AffixTable
