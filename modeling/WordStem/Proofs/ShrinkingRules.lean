import WordStem.Proofs.SuffixRewriting

/-! # Rules that shrink a text behind its opening

When suffixes are touched only from a position on, the text before that position stays. The one
action that could reach further is the collapse of a doubled consonant, since it removes a
character before the suffix. It keeps the opening of the text all the same, provided that the
opening does not end in a doubled consonant itself: a doubled consonant that straddles the
position either has two equal letters, or has a doubled consonant in front of its last letter. -/
namespace WordStem

variable {Context : Type} {opening text stem suffix : List Char}
  {doubles? : Option (AffixTable Context)}

/-- A text that still begins with an opening and has no more bytes and characters than before. -/
structure KeepsOpening (opening before after : List Char) : Prop where
  begins : opening <+: after
  byteLength_le : byteLength after ≤ byteLength before
  length_le : after.length ≤ before.length

theorem KeepsOpening.refl (begins : opening <+: text) : KeepsOpening opening text text :=
  ⟨begins, Nat.le_refl _, Nat.le_refl _⟩

theorem KeepsOpening.trans {first second third : List Char}
    (earlier : KeepsOpening opening first second) (later : KeepsOpening opening second third) :
    KeepsOpening opening first third where
  begins := later.begins
  byteLength_le := Nat.le_trans later.byteLength_le earlier.byteLength_le
  length_le := Nat.le_trans later.length_le earlier.length_le

theorem length_le_byteLength (text : List Char) : text.length ≤ byteLength text := by
  induction text with
  | nil => exact Nat.le_refl 0
  | cons character rest ih =>
    have positive := character.utf8Size_pos
    rw [List.length_cons, byteLength_cons]
    omega

theorem keepsOpening_stem (begins : opening <+: stem ++ suffix)
    (inside : byteLength opening ≤ byteLength stem) :
    KeepsOpening opening (stem ++ suffix) stem where
  begins := isPrefix_of_byteLength_le begins (List.prefix_append _ _) inside
  byteLength_le := by
    rw [byteLength_append]
    omega
  length_le := by
    rw [List.length_append]
    omega

/-! ## Collapsing a doubled consonant -/

/-- Every affix of a table has two letters at least. The last two are equal, or what precedes the
last one is an affix as well. -/
def AffixTable.Collapses (table : AffixTable Context) : Prop :=
  ∀ affix ∈ table.affixes, 2 ≤ affix.literal.toList.length ∧
    (affix.literal.toList.dropLast.getLast? = affix.literal.toList.getLast? ∨
      ∃ other ∈ table.affixes, other.literal.toList = affix.literal.toList.dropLast)

instance (table : AffixTable Context) : Decidable table.Collapses :=
  inferInstanceAs (Decidable (∀ affix ∈ table.affixes, 2 ≤ affix.literal.toList.length ∧
    (affix.literal.toList.dropLast.getLast? = affix.literal.toList.getLast? ∨
      ∃ other ∈ table.affixes, other.literal.toList = affix.literal.toList.dropLast)))

/-- The doubled consonants collapse, and the opening ends in none of them. -/
def CollapsesBehind (doubles? : Option (AffixTable Context)) (opening : List Char) : Prop :=
  ∀ doubles, doubles? = some doubles →
    doubles.Collapses ∧ ∀ double ∈ doubles.affixes, ¬ double.literal.toList <:+ opening

theorem exists_double_of_endsDoubled (doubled : endsDoubled doubles? text = true) :
    ∃ doubles, doubles? = some doubles ∧
      ∃ double ∈ doubles.affixes, double.literal.toList <:+ text := by
  cases doubles? with
  | none => cases doubled
  | some doubles =>
    rw [endsDoubled, Option.any_some] at doubled
    cases cut : doubles.cutSuffix? text with
    | none =>
      rw [cut] at doubled
      cases doubled
    | some parts =>
      obtain ⟨front, tag⟩ := parts
      obtain ⟨double, member, split, -⟩ := AffixTable.exists_affix_of_cutSuffix? cut
      exact ⟨doubles, rfl, double, member, ⟨front, split.symm⟩⟩

theorem withoutLastButOne_concat (front : List Char) (first second : Char) :
    withoutLastButOne (front ++ [first] ++ [second]) = front ++ [second] := by
  simp [withoutLastButOne]

theorem exists_eq_concat_concat (long : 2 ≤ text.length) :
    ∃ front first second, text = front ++ [first] ++ [second] := by
  obtain rfl | ⟨rest, second, rfl⟩ := List.eq_nil_or_concat text
  · simp at long
  obtain rfl | ⟨front, first, rfl⟩ := List.eq_nil_or_concat rest
  · simp at long
  · exact ⟨front, first, second, by simp only [List.concat_eq_append]⟩

theorem isPrefix_concat_concat {front : List Char} {first second : Char}
    (begins : opening <+: front ++ [first] ++ [second]) :
    opening = front ++ [first] ++ [second] ∨ opening = front ++ [first] ∨ opening <+: front := by
  rcases List.prefix_concat_iff.mp begins with whole | shorter
  · exact .inl whole
  · rcases List.prefix_concat_iff.mp shorter with most | rest
    · exact .inr (.inl most)
    · exact .inr (.inr rest)

/-- Collapsing a doubled consonant keeps an opening that does not end in one. -/
theorem keepsOpening_withoutLastButOne (collapses : CollapsesBehind doubles? opening)
    (begins : opening <+: text) (doubled : endsDoubled doubles? text = true) :
    KeepsOpening opening text (withoutLastButOne text) := by
  obtain ⟨doubles, listed, double, member, front, split⟩ := exists_double_of_endsDoubled doubled
  obtain ⟨collapse, endsNone⟩ := collapses doubles listed
  obtain ⟨long, last⟩ := collapse double member
  have noDouble := endsNone double member
  obtain ⟨before, first, second, literalEq⟩ := exists_eq_concat_concat long
  rw [literalEq] at split last noDouble
  have textEq : text = (front ++ before) ++ [first] ++ [second] := by
    rw [← split]
    simp only [List.append_assoc]
  subst textEq
  rw [withoutLastButOne_concat]
  refine ⟨?_, ?_, by simp⟩
  · rcases isPrefix_concat_concat begins with rfl | rfl | shorter
    · exact absurd ⟨front, split⟩ noDouble
    · -- The doubled consonant straddles the end of the opening.
      rcases last with equal | ⟨other, otherMember, otherEq⟩
      · obtain rfl : first = second := by simpa using equal
        exact List.prefix_rfl
      · rw [List.dropLast_concat] at otherEq
        exact absurd ⟨front, by rw [otherEq, List.append_assoc]⟩ (endsNone other otherMember)
    · exact shorter.trans (List.prefix_append _ _)
  · simp only [byteLength_append]
    omega

/-! ## One rule -/

/-- A rule looks for suffixes that are not empty and touches them only from a position on. -/
def TouchesFrom (context : Context) (position : Nat) (table : AffixTable Context)
    (region : WordBuffer → Context → Bool) : Prop :=
  (∀ affix ∈ table.affixes, affix.literal.toList ≠ []) ∧
    ∀ place, startsInside region context place = true → position ≤ place

/-- An action that puts no more than one byte in place of a suffix. -/
def Action.IsShort : Action Context → Prop
  | .replace replacement => byteLength replacement.toList ≤ 1
  | _ => True

theorem TouchesFrom.ne_nil_of_cut {context : Context} {position : Nat}
    {table : AffixTable Context} {region : WordBuffer → Context → Bool} {tag : Int}
    (touches : TouchesFrom context position table region)
    (cut : table.cutSuffix? text = some (stem, tag)) :
    ∃ suffix, text = stem ++ suffix ∧ suffix ≠ [] := by
  obtain ⟨affix, member, split, -⟩ := AffixTable.exists_affix_of_cutSuffix? cut
  exact ⟨_, split, touches.1 affix member⟩

section Rules

variable {context : Context} {position : Nat}

mutual

/-- A rule that touches suffixes only behind the opening keeps the opening. -/
theorem SuffixRule.rewrite_keepsOpening (collapses : CollapsesBehind doubles? opening)
    (rule : SuffixRule Context)
    (shrinks : rule.Throughout (TouchesFrom context (byteLength opening)) Action.IsShort)
    {text : List Char} (begins : opening <+: text) :
    KeepsOpening opening text (rule.rewrite doubles? context text) := by
  match rule, shrinks with
  | ⟨table, region, outcome⟩, ⟨touches, outcomeShrinks⟩ =>
    rw [SuffixRule.rewrite]
    cases cut : table.cutSuffix? text with
    | none => exact .refl begins
    | some parts =>
      obtain ⟨stem, tag⟩ := parts
      obtain ⟨suffix, rfl, nonempty⟩ := touches.ne_nil_of_cut cut
      simp only
      split
      case isTrue selected =>
        exact outcome.rewrite_keepsOpening collapses outcomeShrinks tag begins nonempty
          (touches.2 _ selected.2)
      case isFalse => exact .refl begins

theorem Outcome.rewrite_keepsOpening (collapses : CollapsesBehind doubles? opening)
    (outcome : Outcome Context)
    (shrinks : outcome.Throughout (TouchesFrom context (byteLength opening)) Action.IsShort)
    (tag : Int) {stem suffix : List Char} (begins : opening <+: stem ++ suffix)
    (nonempty : suffix ≠ []) (inside : byteLength opening ≤ byteLength stem) :
    KeepsOpening opening (stem ++ suffix)
      (outcome.rewrite doubles? context tag stem (stem ++ suffix)) := by
  match outcome, shrinks with
  | .always action, actionShrinks =>
    rw [Outcome.rewrite]
    exact action.rewrite_keepsOpening collapses actionShrinks begins nonempty inside
  | .byTag actions, actionsShrink =>
    rw [Outcome.rewrite]
    split
    · exact Action.rewriteNth_keepsOpening collapses actions actionsShrink _ begins nonempty inside
    · exact .refl begins

theorem Action.rewriteNth_keepsOpening (collapses : CollapsesBehind doubles? opening)
    (actions : List (Action Context))
    (shrink : Action.AllThroughout (TouchesFrom context (byteLength opening)) Action.IsShort
      actions)
    (index : Nat) {stem suffix : List Char} (begins : opening <+: stem ++ suffix)
    (nonempty : suffix ≠ []) (inside : byteLength opening ≤ byteLength stem) :
    KeepsOpening opening (stem ++ suffix)
      (Action.rewriteNth doubles? context stem (stem ++ suffix) actions index) := by
  match actions, shrink, index with
  | [], _, _ =>
    rw [Action.rewriteNth]
    exact .refl begins
  | action :: _, ⟨actionShrinks, _⟩, 0 =>
    rw [Action.rewriteNth]
    exact action.rewrite_keepsOpening collapses actionShrinks begins nonempty inside
  | _ :: others, ⟨_, othersShrink⟩, index + 1 =>
    rw [Action.rewriteNth]
    exact Action.rewriteNth_keepsOpening collapses others othersShrink index begins nonempty
      inside

theorem Action.rewrite_keepsOpening (collapses : CollapsesBehind doubles? opening)
    (action : Action Context)
    (shrinks : action.Throughout (TouchesFrom context (byteLength opening)) Action.IsShort)
    {stem suffix : List Char} (begins : opening <+: stem ++ suffix) (nonempty : suffix ≠ [])
    (inside : byteLength opening ≤ byteLength stem) :
    KeepsOpening opening (stem ++ suffix)
      (action.rewrite doubles? context stem (stem ++ suffix)) := by
  have kept : KeepsOpening opening (stem ++ suffix) stem := keepsOpening_stem begins inside
  match action, shrinks with
  | .delete, _ =>
    rw [Action.rewrite]
    exact kept
  | .replace replacement, short =>
    rw [Action.rewrite]
    have shorter := length_le_byteLength replacement.toList
    have positive := List.length_pos_iff.mpr nonempty
    have longer := length_le_byteLength suffix
    rw [Action.Throughout, Action.IsShort] at short
    refine ⟨kept.begins.trans (List.prefix_append _ _), ?_, ?_⟩
    · rw [byteLength_append, byteLength_append]
      omega
    · rw [List.length_append, List.length_append]
      omega
  | .deleteThen next, ⟨_, nextShrinks⟩ =>
    rw [Action.rewrite]
    exact kept.trans (next.rewrite_keepsOpening collapses nextShrinks kept.begins)
  | .undouble, _ =>
    rw [Action.rewrite]
    split
    case isTrue doubled =>
      exact kept.trans (keepsOpening_withoutLastButOne collapses kept.begins doubled)
    case isFalse => exact .refl begins
  | .call _, _ =>
    rw [Action.rewrite]
    exact .refl begins

end

theorem SuffixRule.rewrite_whole {rule : SuffixRule Context}
    (shrinks : rule.Throughout (TouchesFrom context (byteLength text)) Action.IsShort) :
    rule.rewrite doubles? context text = text := by
  match rule, shrinks with
  | ⟨table, region, outcome⟩, ⟨touches, _⟩ =>
    rw [SuffixRule.rewrite]
    cases cut : table.cutSuffix? text with
    | none => rfl
    | some parts =>
      obtain ⟨stem, tag⟩ := parts
      obtain ⟨suffix, rfl, nonempty⟩ := touches.ne_nil_of_cut cut
      have positive := List.length_pos_iff.mpr nonempty
      have longer := length_le_byteLength suffix
      refine if_neg fun selected => ?_
      have inside := touches.2 _ selected.2
      rw [byteLength_append] at inside
      omega

end Rules

/-! ## One step after the other -/

/-- The rule of a step shrinks a text when it touches its end only, from a position on. A rule
that is no suffix rule rewrites nothing. -/
def StepRule.Shrinks (context : Context) (position : Nat) : StepRule Context → Prop
  | .suffix rule => rule.Throughout (TouchesFrom context position) Action.IsShort
  | .custom _ => True

namespace RuleProgram

variable {program : RuleProgram Context} {context : Context}

/-- Steps that touch suffixes only behind the opening keep the opening. -/
theorem rewriteSteps_keepsOpening (collapses : CollapsesBehind program.doubles? opening)
    (steps : List (Step Context))
    (shrink : ∀ step ∈ steps, step.rule.Shrinks context (byteLength opening))
    (begins : opening <+: text) :
    KeepsOpening opening text (program.rewriteSteps context steps text) := by
  induction steps generalizing text with
  | nil => exact .refl begins
  | cons step others ih =>
    have kept : KeepsOpening opening text
        (step.rule.rewrite program.doubles? context text) := by
      have stepShrinks := shrink step (.head _)
      cases ruleEq : step.rule with
      | suffix rule =>
        rw [ruleEq] at stepShrinks
        exact rule.rewrite_keepsOpening collapses stepShrinks begins
      | custom rule => exact .refl begins
    exact kept.trans (ih (fun other member => shrink other (.tail _ member)) kept.begins)

theorem rewriteSteps_whole (steps : List (Step Context))
    (shrink : ∀ step ∈ steps, step.rule.Shrinks context (byteLength text)) :
    program.rewriteSteps context steps text = text := by
  induction steps with
  | nil => rfl
  | cons step others ih =>
    have unchanged : step.rule.rewrite program.doubles? context text = text := by
      have stepShrinks := shrink step (.head _)
      cases ruleEq : step.rule with
      | suffix rule =>
        rw [ruleEq] at stepShrinks
        exact SuffixRule.rewrite_whole stepShrinks
      | custom rule => rfl
    rw [rewriteSteps, List.foldl_cons, unchanged]
    exact ih fun other member => shrink other (.tail _ member)

end RuleProgram

end WordStem
