import WordStem.Proofs.HungarianRegions
import WordStem.Proofs.ProgramRewriting
import WordStem.Proofs.ShrinkingRules
import WordStem.ProgramStemmer

/-! # The stems of Hungarian words

All steps of the Hungarian program rewrite their text, and they touch suffixes only inside R1. So
the program runs to its end on every word, and the stem begins with the opening of the word. The
one thing to check is that an opening never ends in a doubled consonant: it ends in a vowel, in a
vowel and one consonant, or in a vowel and a digraph. -/
namespace WordStem.Hungarian

/-! ## The steps of the program -/

theorem tables_readLongest :
    ∀ table ∈ program.tables, table.direction = .backward → table.ReadsLongest .backward := by
  decide +kernel

theorem affixes_ne_nil :
    ∀ table ∈ program.tables, ∀ affix ∈ table.affixes, affix.literal.toList ≠ [] := by
  decide +kernel

/-- What holds of the tables for suffixes inside R1 and of the actions that the program is made
of holds throughout all its steps. -/
theorem steps_throughout
    (ruleHolds : AffixTable Regions → (WordBuffer → Regions → Bool) → Prop)
    (actionHolds : Action Regions → Prop)
    (tables : ∀ table ∈ program.tables, table.direction = .backward → ruleHolds table insideR1)
    (delete : actionHolds .delete) (undouble : actionHolds .undouble)
    (deleteThen : actionHolds (.deleteThen shortenVowel)) (toA : actionHolds toA)
    (toE : actionHolds toE) :
    ∀ step ∈ steps, ∃ rule, step.rule = .suffix rule ∧
      rule.Throughout ruleHolds actionHolds := by
  have shorten : shortenVowel.Throughout ruleHolds actionHolds :=
    ⟨tables vowelEndings (by simp [program]) rfl, toA, toE, trivial⟩
  have byTag (table : AffixTable Regions) (listed : table ∈ program.tables)
      (backward : table.direction = .backward) (actions : List (Action Regions))
      (edits : Action.AllThroughout ruleHolds actionHolds actions) :
      SuffixRule.Throughout ruleHolds actionHolds ⟨table, insideR1, .byTag actions⟩ :=
    ⟨tables table listed backward, edits⟩
  intro step member
  simp only [steps, List.mem_cons, List.not_mem_nil, or_false] at member
  rcases member with rfl | rfl | rfl | rfl | rfl | rfl | rfl | rfl | rfl
  · exact ⟨_, rfl, tables instrumental (by simp [program]) rfl, undouble⟩
  · exact ⟨_, rfl, tables cases (by simp [program]) rfl, deleteThen, shorten⟩
  · exact ⟨_, rfl, byTag specialCases (by simp [program]) rfl _ ⟨toE, toA, toA, trivial⟩⟩
  · refine ⟨_, rfl, byTag otherCases (by simp [program]) rfl _ ?_⟩
    simp only [Action.AllThroughout, Action.Throughout, delete, toA, toE, and_self]
  · exact ⟨_, rfl, tables factive (by simp [program]) rfl, undouble⟩
  · refine ⟨_, rfl, byTag owned (by simp [program]) rfl _ ?_⟩
    simp only [Action.AllThroughout, Action.Throughout, delete, toA, toE, and_self]
  · refine ⟨_, rfl, byTag singularOwner (by simp [program]) rfl _ ?_⟩
    simp only [Action.AllThroughout, Action.Throughout, delete, toA, toE, and_self]
  · refine ⟨_, rfl, byTag pluralOwner (by simp [program]) rfl _ ?_⟩
    simp only [Action.AllThroughout, Action.Throughout, delete, toA, toE, and_self]
  · refine ⟨_, rfl, byTag plurals (by simp [program]) rfl _ ?_⟩
    simp only [Action.AllThroughout, Action.Throughout, delete, toA, toE, and_self]

/-- The Hungarian program is a composition of functions on texts. -/
theorem program_rewrites : program.Rewrites where
  onlyScans := by
    intro word context
    obtain ⟨cursor, run⟩ := exists_markRegions_load word context
    exact ⟨_, _, run, rfl⟩
  doublesRead := by
    rintro table ⟨⟩
    exact tables_readLongest doubles (by simp [program]) rfl
  steps := by
    have byPosition : ByPosition insideR1 := by
      intro buffer other regions cursorEq
      rw [insideR1, insideR1, cursorEq]
    intro step member
    have reads : ∀ table ∈ program.tables, table.direction = .backward →
        ReadsByPosition table insideR1 :=
      fun table listed backward => ⟨tables_readLongest table listed backward, byPosition⟩
    obtain ⟨rule, ruleEq, rewrites⟩ := steps_throughout ReadsByPosition Action.IsRewriting reads
      trivial trivial trivial trivial trivial step member
    rw [ruleEq]
    exact rewrites

theorem steps_shrink (regions : Regions) :
    ∀ step ∈ steps, step.rule.Shrinks regions regions.r1 := by
  intro step member
  have touches : ∀ table ∈ program.tables, table.direction = .backward →
      TouchesFrom regions regions.r1 table insideR1 :=
    fun table listed _ => ⟨affixes_ne_nil table listed, fun _ inside => of_decide_eq_true inside⟩
  obtain ⟨rule, ruleEq, shrinks⟩ := steps_throughout _ Action.IsShort touches
    trivial trivial trivial (Nat.le_refl 1) (Nat.le_refl 1) step member
  rw [ruleEq]
  exact shrinks

/-! ## Openings and doubled consonants -/

theorem doubles_collapse : doubles.Collapses := by
  decide +kernel

theorem doubles_consonants :
    ∀ double ∈ doubles.affixes, ∀ letter ∈ double.literal.toList, isVowel letter = false := by
  have checked : (doubles.affixes.all fun double =>
      double.literal.toList.all fun letter => !isVowel letter) = true := by
    decide +kernel
  intro double member letter inside
  have consonants := List.all_eq_true.mp checked double member
  have consonant := List.all_eq_true.mp consonants letter inside
  rwa [Bool.not_eq_true'] at consonant

theorem not_double_isSuffix_digraph :
    ∀ digraph ∈ digraphs.affixes, ∀ double ∈ doubles.affixes,
      ¬ double.literal.toList <:+ digraph.literal.toList := by
  decide +kernel

/-- A doubled consonant at the end of a text lies behind every vowel of the text. -/
theorem double_isSuffix_of_vowel {double : Affix Regions} (listed : double ∈ doubles.affixes)
    {front rest : List Char} {vowel : Char} (isVowel_vowel : isVowel vowel = true)
    (ends : double.literal.toList <:+ front ++ vowel :: rest) :
    double.literal.toList <:+ rest := by
  have restEnds : rest <:+ front ++ vowel :: rest :=
    (List.suffix_cons vowel rest).trans (List.suffix_append front _)
  rcases Nat.lt_or_ge rest.length double.literal.toList.length with longer | shorter
  · have vowelEnds : vowel :: rest <:+ double.literal.toList :=
      List.suffix_of_suffix_length_le (List.suffix_append front _) ends longer
    have consonant := doubles_consonants double listed vowel (vowelEnds.mem (.head _))
    rw [isVowel_vowel] at consonant
    cases consonant
  · exact List.suffix_of_suffix_length_le ends restEnds shorter

/-- The opening of a word does not end in a doubled consonant. -/
theorem not_double_isSuffix_opening {word opening : List Char}
    (found : opening? word = some opening) :
    ∀ double ∈ doubles.affixes, ¬ double.literal.toList <:+ opening := by
  intro double listed ends
  have long := (doubles_collapse double listed).1
  rcases Option.or_eq_some_iff.mp found with vowelCase | ⟨-, consonantCase⟩
  · obtain ⟨startNonempty, -, rfl⟩ := eq_of_vowelOpening? vowelCase
    obtain ⟨start, vowel, startEq⟩ := (List.eq_nil_or_concat _).resolve_left startNonempty
    rw [List.concat_eq_append] at startEq
    have isVowel_vowel : isVowel vowel = true := by
      apply List.all_eq_true.mp (List.all_takeWhile (l := word))
      rw [startEq]
      simp
    rw [startEq, List.append_assoc, List.singleton_append] at ends
    have shorter := double_isSuffix_of_vowel listed isVowel_vowel ends
    rw [firstConsonant] at shorter
    cases longest : digraphs.longest? .forward (word.dropWhile isVowel) with
    | some digraph =>
      rw [longest] at shorter
      exact not_double_isSuffix_digraph digraph (AffixTable.mem_of_longest?_eq_some longest).1
        double listed shorter
    | none =>
      rw [longest] at shorter
      have short := shorter.length_le
      rw [List.length_take] at short
      omega
  · obtain ⟨vowel, rest, -, isVowel_vowel, rfl⟩ := eq_of_consonantOpening? consonantCase
    have short := (double_isSuffix_of_vowel listed isVowel_vowel ends).length_le
    rw [List.length_nil] at short
    omega

/-! ## The stem of a word -/

/-- The text that the steps make of a word begins with the opening of the word. Without an
opening it is the word. -/
theorem rewriteSteps_word (word : List Char) :
    KeepsOpening ((opening? word).getD word) word
      (program.rewriteSteps { r1 := byteLength ((opening? word).getD word) } steps word) := by
  cases found : opening? word with
  | none =>
    have whole : program.rewriteSteps { r1 := byteLength word } steps word = word :=
      RuleProgram.rewriteSteps_whole steps (steps_shrink _)
    rw [Option.getD_none, whole]
    exact .refl List.prefix_rfl
  | some opening =>
    have collapses : CollapsesBehind program.doubles? opening := by
      rintro table ⟨⟩
      exact ⟨doubles_collapse, not_double_isSuffix_opening found⟩
    exact RuleProgram.rewriteSteps_keepsOpening collapses steps (steps_shrink _)
      (opening?_isPrefix found).2

/-- The program runs to its end on every word and leaves what its steps make of the word. -/
theorem exists_run_rewritten (word : String) (regions : Regions) :
    ∃ final, program.run ⟨.load word, regions⟩ = .ok () final ∧
      final.buffer.text = program.rewriteSteps
        { r1 := byteLength ((opening? word.toList).getD word.toList) } steps word.toList := by
  obtain ⟨final, run, textEq⟩ := RuleProgram.exists_run program_rewrites (mark_apply word regions)
    (WordBuffer.load_hasParts word).beginBackward
  exact ⟨final, run, textEq⟩

theorem exists_run_word (word : String) (regions : Regions) :
    ∃ final, program.run ⟨.load word, regions⟩ = .ok () final ∧
      KeepsOpening ((opening? word.toList).getD word.toList) word.toList final.buffer.text := by
  obtain ⟨final, run, textEq⟩ := exists_run_rewritten word regions
  refine ⟨final, run, ?_⟩
  rw [textEq]
  exact rewriteSteps_word word.toList

theorem getD_opening?_isPrefix (word : List Char) : (opening? word).getD word <+: word := by
  cases found : opening? word with
  | none => exact List.prefix_rfl
  | some opening => exact (opening?_isPrefix found).2

theorem getD_opening?_ne_nil {word : List Char} (nonempty : word ≠ []) :
    (opening? word).getD word ≠ [] := by
  cases found : opening? word with
  | none => exact nonempty
  | some opening => exact (opening?_isPrefix found).1

/-- The stemmer of the program never reports a defect. -/
theorem stem_ending_ne_aborted (buffer : WordBuffer) (word : String) :
    ((ProgramStemmer.mk program buffer).stem word).1.ending ≠ .aborted := by
  obtain ⟨final, run, -⟩ := exists_run_word word default
  have ran : program.run ⟨buffer.reload word, default⟩ = .ok () final := run
  rw [ProgramStemmer.stem]
  simp only [ran]
  split <;> exact StemEnd.noConfusion

/-- The Hungarian program stems every word. The stem begins with the part of the word before R1,
has no more bytes and characters than the word, is empty only for the empty word, and is the word
itself when no region was found. -/
theorem stem_begins_with_opening (word : String) (regions : Regions) :
    ∃ found marked final, program.mark ⟨.load word, regions⟩ = .ok found marked ∧
      program.run ⟨.load word, regions⟩ = .ok () final ∧
      (utf8Bytes word.toList).take marked.context.r1 <+: utf8Bytes final.buffer.text ∧
      byteLength final.buffer.text ≤ byteLength word.toList ∧
      final.buffer.text.length ≤ word.toList.length ∧
      (word ≠ "" → final.buffer.text ≠ []) ∧
      (found = false → final.buffer.text = word.toList) ∧
      ∀ buffer, ((ProgramStemmer.mk program buffer).stem word).1.ending ≠ .aborted := by
  obtain ⟨final, run, kept⟩ := exists_run_word word regions
  refine ⟨_, _, final, mark_apply word regions, run, ?_, kept.byteLength_le, kept.length_le, ?_,
    ?_, fun buffer => stem_ending_ne_aborted buffer word⟩
  · obtain ⟨rest, split⟩ := getD_opening?_isPrefix word.toList
    have before : (utf8Bytes word.toList).take
        (byteLength ((opening? word.toList).getD word.toList)) =
          utf8Bytes ((opening? word.toList).getD word.toList) := by
      conv => lhs; arg 2; rw [← split]
      exact take_utf8Bytes _ rest
    simp only [before]
    exact utf8Bytes_isPrefix_iff.mpr kept.begins
  · intro nonempty empty
    have opened := kept.begins
    rw [empty, List.prefix_nil] at opened
    exact getD_opening?_ne_nil (by simpa using nonempty) opened
  · intro none
    have opened := kept.begins
    rw [Option.isSome_eq_false_iff, Option.isNone_iff_eq_none] at none
    rw [none, Option.getD_none] at opened
    exact (opened.eq_of_length_le kept.length_le).symm

end WordStem.Hungarian
