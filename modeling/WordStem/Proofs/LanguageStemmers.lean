import WordStem.Proofs.HungarianStems
import WordStem.Proofs.SearchedTables
import WordStem.Proofs.WrittenCharacters
import WordStem.Tokenizer

/-! # Stemmers of languages

Every language has a stemmer. A stemmer answers about one word after the other, each time as the
words before have left it. The Hungarian stemmer runs the same program on every word, which takes
characters off and writes no others than `a` and `e`: a stem of letters and numbers is left of
every word of letters and numbers. Main statements: `exists_ofLanguageWith` and
`Stemmer.RunsHungarian.stemOr_stem`. -/
namespace WordStem

theorem Hungarian.validate_program : Hungarian.program.validate = .ok () := by
  have valid : ∀ table ∈ Hungarian.program.tables, table.ValidFor table.direction := by
    decide +kernel
  exact RuleProgram.validate_eq_ok_iff.mpr valid

theorem ProgramStemmer.ofProgram_of_validate {Context : Type} {program : RuleProgram Context}
    (valid : program.validate = .ok ()) : ofProgram program = .ok ⟨program, .empty⟩ := by
  rw [ofProgram, valid]

theorem Stemmer.ofLanguageWith_of_snowball {language : Language}
    (engine : language.engine = .snowball) (outside : OutsideStems) :
    Stemmer.ofLanguageWith outside language = .ok (.program ⟨Hungarian.program, .empty⟩) := by
  have made := ProgramStemmer.ofProgram_of_validate Hungarian.validate_program
  unfold Stemmer.ofLanguageWith
  -- The kernel must not check all tables again to see which way the match goes.
  generalize ProgramStemmer.ofProgram Hungarian.program = result at made
  rw [engine, made]

theorem exists_ofLanguageWith (outside : OutsideStems) (language : Language) :
    ∃ stemmer, Stemmer.ofLanguageWith outside language = .ok stemmer := by
  cases engine : language.engine with
  | snowball => exact ⟨_, Stemmer.ofLanguageWith_of_snowball engine outside⟩
  | library =>
    exact ⟨.library (outside language),
      by simp only [Stemmer.ofLanguageWith, Stemmer.ofLibraryWith, engine]⟩
  | identity => exact ⟨.identity, by simp only [Stemmer.ofLanguageWith, engine]⟩

/-! ## Words one after the other -/

section Words

variable {Working : Type} (stem : Working → String → StemAnswer × Working)

/-- A stemmer as it is after some words. -/
def afterWords (stemmer : Working) (words : List String) : Working :=
  words.foldl (fun working word => (stem working word).2) stemmer

theorem length_stemEach (stemmer : Working) (words : List String) :
    (stemEach stem stemmer words).1.length = words.length := by
  induction words generalizing stemmer with
  | nil => rfl
  | cons word others ih => simp [stemEach, ih]

/-- The answer about a word is the one of the stemmer as the words before it have left it. -/
theorem getElem?_stemEach (stemmer : Working) (words : List String) (index : Nat) :
    (stemEach stem stemmer words).1[index]? = words[index]?.map fun word =>
      (stem (afterWords stem stemmer (words.take index)) word).1 := by
  induction words generalizing stemmer index with
  | nil => rfl
  | cons word others ih =>
    cases index with
    | zero => rfl
    | succ index =>
      simp only [stemEach, List.getElem?_cons_succ, ih]
      rfl

theorem snd_stemEach (stemmer : Working) (words : List String) :
    (stemEach stem stemmer words).2 = afterWords stem stemmer words := by
  induction words generalizing stemmer with
  | nil => rfl
  | cons word others ih =>
    simp only [stemEach, ih]
    rfl

/-- What holds of a stemmer after every word if it held before holds after any number of words. -/
theorem afterWords_induction {holds : Working → Prop}
    (step : ∀ working word, holds working → holds (stem working word).2) {stemmer : Working}
    (start : holds stemmer) (words : List String) : holds (afterWords stem stemmer words) := by
  induction words generalizing stemmer with
  | nil => exact start
  | cons word others ih => exact ih (step stemmer word start)

end Words

/-! ## Hungarian stems -/

theorem ProgramStemmer.stemOr_stem {Context : Type} [Inhabited Context]
    {stemmer : ProgramStemmer Context} {word text : String}
    (left : stemmer.program.outcome word = .ok text) :
    (stemmer.stem word).1.stemOr word = text := by
  rw [stem_answer, left]
  simp only
  split
  case isTrue same => rw [same, StemAnswer.stemOr, StemAnswer.stem?, Option.getD_none]
  case isFalse => rfl

namespace Hungarian

theorem steps_write : ∀ step ∈ steps,
    step.rule.WritesWithin fun character => isAlphanumeric character = true := by
  have writesLetters :
      "a".toList.all isAlphanumeric = true ∧ "e".toList.all isAlphanumeric = true := by
    decide +kernel
  intro step member
  obtain ⟨rule, ruleEq, writes⟩ := steps_throughout (fun _ _ => True)
    (Action.WritesWithin fun character => isAlphanumeric character = true)
    (fun _ _ _ => trivial) trivial trivial trivial (List.all_eq_true.mp writesLetters.1)
    (List.all_eq_true.mp writesLetters.2) step member
  rw [ruleEq]
  exact writes

/-- The stem of a word of letters and numbers is such a word too. -/
theorem exists_outcome (word : String) :
    ∃ stem, program.outcome word = .ok stem ∧ (word ≠ "" → stem ≠ "") ∧
      ((∀ character ∈ word.toList, isAlphanumeric character = true) →
        ∀ character ∈ stem.toList, isAlphanumeric character = true) := by
  obtain ⟨final, run, textEq⟩ := exists_run_rewritten word default
  refine ⟨final.buffer.word, by rw [RuleProgram.outcome, run], ?_, ?_⟩
  · intro nonempty empty
    have kept := (rewriteSteps_word word.toList).begins
    have final_nil : final.buffer.text = [] := by
      simpa [WordBuffer.word] using congrArg String.toList empty
    rw [← textEq, final_nil, List.prefix_nil] at kept
    exact getD_opening?_ne_nil (by simpa using nonempty) kept
  · intro within
    rw [WordBuffer.word, String.toList_ofList, textEq]
    exact RuleProgram.rewriteSteps_within steps steps_write within

end Hungarian

/-- A stemmer that runs the Hungarian program, whatever its buffer holds. -/
def Stemmer.RunsHungarian : Stemmer → Prop
  | .program inner => inner.program = Hungarian.program
  | _ => False

namespace Stemmer.RunsHungarian

variable {stemmer : Stemmer}

theorem stem (runs : stemmer.RunsHungarian) (word : String) :
    (stemmer.stem word).2.RunsHungarian := by
  cases stemmer with
  | program inner => exact (inner.stem_program word).trans runs
  | library outside => exact runs
  | identity => exact runs

theorem afterWords (runs : stemmer.RunsHungarian) (words : List String) :
    (afterWords Stemmer.stem stemmer words).RunsHungarian :=
  afterWords_induction Stemmer.stem (fun _ word holds => holds.stem word) runs words

theorem stemOr_stem (runs : stemmer.RunsHungarian) {token : String} (nonempty : token ≠ "")
    (within : ∀ character ∈ token.toList, isAlphanumeric character = true) :
    (stemmer.stem token).1.stemOr token ≠ "" ∧
      ∀ character ∈ ((stemmer.stem token).1.stemOr token).toList,
        isAlphanumeric character = true := by
  cases stemmer with
  | program inner =>
    obtain ⟨stem, left, stemNonempty, stemWithin⟩ := Hungarian.exists_outcome token
    have programEq : inner.program = Hungarian.program := runs
    rw [← programEq] at left
    have stemEq : (inner.stem token).1.stemOr token = stem := ProgramStemmer.stemOr_stem left
    simp only [Stemmer.stem, stemEq]
    exact ⟨stemNonempty nonempty, stemWithin within⟩
  | library outside => exact runs.elim
  | identity => exact runs.elim

end Stemmer.RunsHungarian

end WordStem
