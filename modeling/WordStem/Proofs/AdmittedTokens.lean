import WordStem.Proofs.LanguageStemmers
import WordStem.Proofs.MaximalRuns

/-! # The tokens of a text and their stems

The tokens of a text are the maximal runs of letters and numbers of its lowercase form that are
long enough and are no stop words, each one as often as it stands there. Stemming puts one word in
the place of each, which is what the stemmer answers when it comes to that token. The Hungarian
stemmer takes characters off a token and writes no others than `a` and `e`, so its stems are made
of letters and numbers as well. Main statement: `tokens_and_stems`. -/
namespace WordStem

/-! ## The places of the tokens -/

/-- A token stands at a place: a maximal run of letters and numbers that has enough characters and,
where stop words are left out and the language has a list of them, is not on the list. -/
structure IsTokenPlace (options : TokenOptions) (text : List Char) (start stop : Nat) : Prop
    extends IsMaximalRun isAlphanumeric text start stop where
  long : options.minimumLength ≤ stop - start
  notExcluded : options.stopWords = true → ∀ words, options.language.stopWords? = some words →
    String.ofList (text.extract start stop) ∉ words

theorem TokenOptions.excludes_eq_false_iff {options : TokenOptions} {token : String} :
    options.excludes token = false ↔ (options.stopWords = true →
      ∀ words, options.language.stopWords? = some words → token ∉ words) := by
  rw [excludes]
  cases options.stopWords with
  | false => simp
  | true => cases options.language.stopWords? <;> simp

theorem isTokenPlace_iff {options : TokenOptions} {text : List Char} {start stop : Nat} :
    IsTokenPlace options text start stop ↔ IsMaximalRun isAlphanumeric text start stop ∧
      options.admits (text.extract start stop) = true := by
  have length (run : IsMaximalRun isAlphanumeric text start stop) :
      (text.extract start stop).length = stop - start := by
    have inside := run.inside
    rw [List.extract_eq_take_drop, List.length_take, List.length_drop]
    omega
  simp only [TokenOptions.admits, Bool.and_eq_true, decide_eq_true_eq, Bool.not_eq_true',
    TokenOptions.excludes_eq_false_iff]
  constructor
  · intro token
    exact ⟨token.toIsMaximalRun, (length token.toIsMaximalRun).symm ▸ token.long,
      token.notExcluded⟩
  · rintro ⟨run, long, notExcluded⟩
    exact ⟨run, length run ▸ long, notExcluded⟩

/-- The places of the tokens of a text in lowercase, in their order. -/
def tokenPlaces (options : TokenOptions) (text : List Char) : List (Nat × Nat) :=
  (spans isAlphanumeric text).filter fun span => options.admits (text.extract span.1 span.2)

theorem tokenize_eq_map_tokenPlaces (options : TokenOptions) (text : String) :
    tokenize options text = (tokenPlaces options (lowercase text.toList)).map fun span =>
      String.ofList ((lowercase text.toList).extract span.1 span.2) := by
  rw [tokenize, runs_eq_map_spans, List.filter_map, List.map_map]
  rfl

theorem mem_tokenPlaces_iff {options : TokenOptions} {text : List Char} {start stop : Nat} :
    (start, stop) ∈ tokenPlaces options text ↔ IsTokenPlace options text start stop := by
  rw [tokenPlaces, List.mem_filter, mem_spans_iff, isTokenPlace_iff]

/-- A token is made of letters and numbers, of which it has at least one. -/
theorem of_mem_tokenize {options : TokenOptions} {text token : String}
    (member : token ∈ tokenize options text) :
    token ≠ "" ∧ ∀ character ∈ token.toList, isAlphanumeric character = true := by
  rw [tokenize_eq_map_tokenPlaces] at member
  obtain ⟨⟨start, stop⟩, place, rfl⟩ := List.mem_map.mp member
  have run := (mem_tokenPlaces_iff.mp place).toIsMaximalRun
  have nonempty := run.nonempty
  have inside := run.inside
  simp only [List.extract_eq_take_drop, String.toList_ofList]
  constructor
  · intro empty
    have lengthEq := congrArg (fun token : String => token.toList.length) empty
    simp only [String.toList_ofList, List.length_take, List.length_drop, String.toList_empty,
      List.length_nil] at lengthEq
    omega
  · intro character inRun
    obtain ⟨offset, found⟩ := List.mem_iff_getElem?.mp inRun
    rw [List.getElem?_take, List.getElem?_drop] at found
    split at found
    case isTrue before => exact run.kept (start + offset) character (by omega) (by omega) found
    case isFalse => cases found

/-! ## One term for each token -/

section Terms

variable {Working : Type} (stem : Working → String → StemAnswer × Working)

theorem length_tokenizeAndStemWith (options : TokenOptions) (stemmer : Working) (text : String) :
    (tokenizeAndStemWith stem options stemmer text).1.length = (tokenize options text).length := by
  simp [tokenizeAndStemWith, length_stemEach]

theorem getElem?_tokenizeAndStemWith {options : TokenOptions} {stemmer : Working}
    {text token : String} {index : Nat} (found : (tokenize options text)[index]? = some token) :
    (tokenizeAndStemWith stem options stemmer text).1[index]? =
      some ((stem (afterWords stem stemmer ((tokenize options text).take index)) token).1.stemOr
        token) := by
  simp [tokenizeAndStemWith, List.getElem?_zipWith, getElem?_stemEach, found]

end Terms

theorem Stemmer.RunsHungarian.of_mem_tokenizeAndStem {stemmer : Stemmer}
    (runs : stemmer.RunsHungarian) {options : TokenOptions} {text term : String}
    (member : term ∈ (tokenizeAndStem options stemmer text).1) :
    term ≠ "" ∧ ∀ character ∈ term.toList, isAlphanumeric character = true := by
  obtain ⟨index, found⟩ := List.mem_iff_getElem?.mp member
  have inside : index < (tokenize options text).length := by
    rw [← length_tokenizeAndStemWith Stemmer.stem options stemmer]
    exact (List.getElem?_eq_some_iff.mp found).1
  have tokenFound := List.getElem?_eq_getElem inside
  rw [tokenizeAndStem, getElem?_tokenizeAndStemWith Stemmer.stem tokenFound] at found
  obtain rfl := Option.some.inj found
  obtain ⟨nonempty, within⟩ := of_mem_tokenize (List.getElem_mem inside)
  exact (runs.afterWords _).stemOr_stem nonempty within

/-- The tokens of a text stand one by one, from left to right, at the places of the admitted runs
of its lowercase form. Any stemmer gives one term for each token, what it answers about the token
after the tokens before it, or the token itself; so do the stemmers of the program. The terms of the
Hungarian stemmer, whatever words it has stemmed before, are nonempty and made of letters and
numbers. -/
theorem tokens_and_stems (options : TokenOptions) (text : String) :
    (∃ places : List (Nat × Nat),
      (places.Pairwise fun earlier later => earlier.2 < later.1) ∧
      (∀ start stop, (start, stop) ∈ places ↔
        IsTokenPlace options (lowercase text.toList) start stop) ∧
      tokenize options text = places.map fun place =>
        String.ofList ((lowercase text.toList).extract place.1 place.2)) ∧
    (∀ (Working : Type) (stem : Working → String → StemAnswer × Working) (stemmer : Working),
      (tokenizeAndStemWith stem options stemmer text).1.length =
        (tokenize options text).length ∧
      ∀ index token, (tokenize options text)[index]? = some token →
        (tokenizeAndStemWith stem options stemmer text).1[index]? =
          some ((stem (afterWords stem stemmer ((tokenize options text).take index))
            token).1.stem?.getD token)) ∧
    (∀ stemmer : Stemmer,
      (tokenizeAndStem options stemmer text).1.length = (tokenize options text).length ∧
      ∀ index token, (tokenize options text)[index]? = some token →
        (tokenizeAndStem options stemmer text).1[index]? =
          some (((afterWords Stemmer.stem stemmer ((tokenize options text).take index)).stem
            token).1.stem?.getD token)) ∧
    (∃ stemmer, Stemmer.ofLanguage .hungarian = .ok stemmer ∧ ∀ words : List String,
      ∀ term ∈ (tokenizeAndStem options (stemmer.stemAll words).2 text).1,
        term ≠ "" ∧ ∀ character ∈ term.toList, isAlphanumeric character = true) := by
  refine ⟨⟨tokenPlaces options (lowercase text.toList), ?_, ?_, ?_⟩, ?_, ?_, ?_⟩
  · exact (spans_pairwise isAlphanumeric _).filter _
  · exact fun start stop => mem_tokenPlaces_iff
  · exact tokenize_eq_map_tokenPlaces options text
  · intro Working stem stemmer
    exact ⟨length_tokenizeAndStemWith stem options stemmer text,
      fun index token found => getElem?_tokenizeAndStemWith stem found⟩
  · intro stemmer
    exact ⟨length_tokenizeAndStemWith Stemmer.stem options stemmer text,
      fun index token found => getElem?_tokenizeAndStemWith Stemmer.stem found⟩
  · refine ⟨_, Stemmer.ofLanguageWith_of_snowball rfl .none, fun words term member => ?_⟩
    rw [Stemmer.stemAll, snd_stemEach] at member
    have runs : Stemmer.RunsHungarian (.program ⟨Hungarian.program, .empty⟩) := rfl
    exact (runs.afterWords words).of_mem_tokenizeAndStem member

/-- The article is left out. A stemmer that takes the last letter off every word but the first one
leaves the first word as it is. -/
theorem tokens_and_stems_hazban :
    let options : TokenOptions := ⟨.hungarian, true, 1⟩
    let text := "A kutya a házban"
    let stem (stemmed : Nat) (word : String) : StemAnswer × Nat :=
      (if stemmed = 0 then .same else .stem (String.ofList word.toList.dropLast), stemmed + 1)
    ((tokenize options text)[0]? = some "kutya" ∧ (tokenize options text)[1]? = some "házban") ∧
      (tokenizeAndStemWith stem options 0 text).1[0]? = some "kutya" ∧
      (tokenizeAndStemWith stem options 0 text).1[1]? = some "házba" := by
  intro options text stem
  have first : (tokenize options text)[0]? = some "kutya" := by decide +kernel
  have second : (tokenize options text)[1]? = some "házban" := by decide +kernel
  have terms := ((tokens_and_stems options text).2.1 Nat stem 0).2
  refine ⟨⟨first, second⟩, ?_, ?_⟩
  · exact terms 0 "kutya" first
  · exact (terms 1 "házban" second).trans (congrArg some (by decide +kernel))

end WordStem
