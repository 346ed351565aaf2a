import WordStem.Proofs.HungarianRegions

/-! # The grammar of regions

Where R1 begins is said by a grammar on the letters of a word, with no mention of scanning: after
the vowels that the word begins with and the consonant or digraph that follows, or after the
consonants that it begins with and the vowel that follows. A word that is not divided in such a way
has no region. The main statement, `mark_iff_regionAt`, says that marking a word computes this. -/
namespace WordStem

namespace CharacterSet

variable {members : List Char} {lowest highest : Char}

theorem testBit_ofMembers (members : List Char) (lowest highest : Char) (place : Nat) :
    (ofMembers members lowest highest).pattern.testBit place = true ↔
      ∃ member ∈ members, member.toNat - lowest.toNat = place := by
  rw [ofMembers]
  induction members with
  | nil => simp
  | cons member members ih =>
    rw [List.foldr_cons, Nat.testBit_or, Bool.or_eq_true, ih, Nat.one_shiftLeft,
      Nat.testBit_two_pow, decide_eq_true_iff, List.exists_mem_cons_iff]
    exact or_comm

/-- Members between the bounds, and only those, belong to the set. -/
theorem contains_ofMembers (between : ∀ member ∈ members,
      lowest.toNat ≤ member.toNat ∧ member.toNat ≤ highest.toNat) (character : Char) :
    (ofMembers members lowest highest).contains character = true ↔ character ∈ members := by
  rw [contains, Bool.and_eq_true, Bool.and_eq_true, decide_eq_true_iff, decide_eq_true_iff,
    testBit_ofMembers]
  constructor
  · rintro ⟨⟨lowestLe, -⟩, member, listed, samePlace⟩
    have memberLe := (between member listed).1
    have characterLe : lowest.toNat ≤ character.toNat := lowestLe
    have samePlace : member.toNat - lowest.toNat = character.toNat - lowest.toNat := samePlace
    obtain rfl : member = character := Char.toNat_inj.mp (by omega)
    exact listed
  · intro listed
    exact ⟨between character listed, character, listed, rfl⟩

end CharacterSet

namespace Hungarian

/-! ## The grammar -/

def vowelLetters : List Char :=
  "aeiouáéíóõöúûü".toList

def digraphSpellings : List String :=
  ["cs", "dzs", "gy", "ly", "ny", "sz", "ty", "zs"]

/-- Whether a word has a region and where R1 begins in it. -/
inductive RegionAt : List Char → Bool → Nat → Prop
  | afterConsonant {start rest : List Char} {consonant : Char} (nonempty : start ≠ [])
      (vowels : ∀ letter ∈ start, letter ∈ vowelLetters) (notVowel : consonant ∉ vowelLetters)
      (noDigraph : ∀ digraph ∈ digraphSpellings, ¬ digraph.toList <+: consonant :: rest) :
      RegionAt (start ++ consonant :: rest) true (byteLength (start ++ [consonant]))
  | afterDigraph {start rest : List Char} {digraph : String} (nonempty : start ≠ [])
      (vowels : ∀ letter ∈ start, letter ∈ vowelLetters) (listed : digraph ∈ digraphSpellings) :
      RegionAt (start ++ (digraph.toList ++ rest)) true (byteLength (start ++ digraph.toList))
  | afterVowel {start rest : List Char} {vowel : Char} (nonempty : start ≠ [])
      (consonants : ∀ letter ∈ start, letter ∉ vowelLetters) (isVowel : vowel ∈ vowelLetters) :
      RegionAt (start ++ vowel :: rest) true (byteLength (start ++ [vowel]))
  | onlyVowels {word : List Char} (vowels : ∀ letter ∈ word, letter ∈ vowelLetters) :
      RegionAt word false (byteLength word)
  | onlyConsonants {word : List Char} (consonants : ∀ letter ∈ word, letter ∉ vowelLetters) :
      RegionAt word false (byteLength word)

/-- A word consists of letters of one kind or has a first letter of another kind. -/
theorem exists_run (kind : Char → Prop) (word : List Char) :
    (∀ letter ∈ word, kind letter) ∨
      ∃ start other rest, word = start ++ other :: rest ∧ (∀ letter ∈ start, kind letter) ∧
        ¬ kind other := by
  induction word with
  | nil => exact .inl (List.forall_mem_nil kind)
  | cons first rest ih =>
    by_cases same : kind first
    · rcases ih with whole | ⟨start, other, behind, rfl, kinds, different⟩
      · exact .inl (List.forall_mem_cons.mpr ⟨same, whole⟩)
      · exact .inr ⟨first :: start, other, behind, rfl,
          List.forall_mem_cons.mpr ⟨same, kinds⟩, different⟩
    · exact .inr ⟨[], first, rest, rfl, List.forall_mem_nil kind, same⟩

/-- The grammar describes every word. -/
theorem exists_regionAt (word : List Char) : ∃ found r1, RegionAt word found r1 := by
  rcases exists_run (fun letter => letter ∈ vowelLetters) word with
    vowels | ⟨start, consonant, rest, rfl, vowels, notVowel⟩
  · exact ⟨_, _, .onlyVowels vowels⟩
  · by_cases opened : start = []
    · -- The word begins with a consonant.
      subst opened
      rcases exists_run (fun letter => letter ∉ vowelLetters) (consonant :: rest) with
        consonants | ⟨start, vowel, behind, wordEq, consonants, isVowel⟩
      · exact ⟨_, _, .onlyConsonants consonants⟩
      · rw [List.nil_append, wordEq]
        refine ⟨_, _, .afterVowel ?_ consonants (Decidable.not_not.mp isVowel)⟩
        rintro rfl
        obtain ⟨rfl, -⟩ := List.cons.inj wordEq
        exact isVowel notVowel
    · by_cases digraphs : ∃ digraph ∈ digraphSpellings, digraph.toList <+: consonant :: rest
      · obtain ⟨digraph, listed, behind, restEq⟩ := digraphs
        rw [← restEq]
        exact ⟨_, _, .afterDigraph opened vowels listed⟩
      · refine ⟨_, _, .afterConsonant opened vowels notVowel ?_⟩
        intro digraph listed begins
        exact digraphs ⟨digraph, listed, begins⟩

/-! ## The grammar and the opening -/

variable {word start rest : List Char} {found : Bool} {r1 : Nat}

theorem vowelLetters_between :
    ∀ letter ∈ vowelLetters, 'a'.toNat ≤ letter.toNat ∧ letter.toNat ≤ 'ü'.toNat := by
  have listed : (vowelLetters.all fun letter =>
      decide ('a'.toNat ≤ letter.toNat ∧ letter.toNat ≤ 'ü'.toNat)) = true := by
    decide
  intro letter member
  exact of_decide_eq_true (List.all_eq_true.mp listed letter member)

theorem isVowel_iff (letter : Char) : isVowel letter = true ↔ letter ∈ vowelLetters :=
  CharacterSet.contains_ofMembers vowelLetters_between letter

theorem isVowel_eq_false_iff (letter : Char) : isVowel letter = false ↔ letter ∉ vowelLetters := by
  rw [← isVowel_iff, Bool.not_eq_true]

theorem not_isVowel_iff (letter : Char) : (!isVowel letter) = true ↔ letter ∉ vowelLetters := by
  rw [Bool.not_eq_true', isVowel_eq_false_iff]

theorem digraphSpellings_eq : digraphSpellings = digraphs.affixes.map Affix.literal := rfl

theorem digraphSpellings_begin_with_consonant :
    ∀ digraph ∈ digraphSpellings, digraph.toList.head?.any (fun letter => !isVowel letter) := by
  decide +kernel

/-- No digraph begins another one. -/
theorem digraphSpellings_unrelated :
    ∀ first ∈ digraphSpellings, ∀ second ∈ digraphSpellings,
      first.toList <+: second.toList → first = second := by
  decide +kernel

theorem spelled_of_longest? {text : List Char} {affix : Affix Regions}
    (longest : digraphs.longest? .forward text = some affix) :
    affix.literal ∈ digraphSpellings ∧ affix.literal.toList <+: text := by
  obtain ⟨member, starts⟩ := AffixTable.mem_of_longest?_eq_some longest
  rw [digraphSpellings_eq]
  exact ⟨List.mem_map_of_mem member, List.isPrefixOf_iff_prefix.mp starts⟩

theorem firstConsonant_of_digraph {digraph : String} (listed : digraph ∈ digraphSpellings)
    (rest : List Char) : firstConsonant (digraph.toList ++ rest) = digraph.toList := by
  have begins : digraph.toList <+: digraph.toList ++ rest := List.prefix_append _ _
  rw [firstConsonant]
  cases longest : digraphs.longest? .forward (digraph.toList ++ rest) with
  | none =>
    rw [digraphSpellings_eq] at listed
    obtain ⟨affix, member, rfl⟩ := List.mem_map.mp listed
    have empty := List.filter_eq_nil_iff.mp (List.argmax_eq_none.mp longest) affix member
    exact absurd (List.isPrefixOf_iff_prefix.mpr begins) empty
  | some affix =>
    obtain ⟨spelled, starts⟩ := spelled_of_longest? longest
    have same : affix.literal = digraph := by
      rcases List.prefix_or_prefix_of_prefix starts begins with shorter | longer
      · exact digraphSpellings_unrelated _ spelled _ listed shorter
      · exact (digraphSpellings_unrelated _ listed _ spelled longer).symm
    exact congrArg String.toList same

theorem firstConsonant_of_noDigraph {consonant : Char}
    (noDigraph : ∀ digraph ∈ digraphSpellings, ¬ digraph.toList <+: consonant :: rest) :
    firstConsonant (consonant :: rest) = [consonant] := by
  rw [firstConsonant]
  cases longest : digraphs.longest? .forward (consonant :: rest) with
  | none => rfl
  | some affix =>
    obtain ⟨spelled, starts⟩ := spelled_of_longest? longest
    exact absurd starts (noDigraph _ spelled)

section Runs

variable {test : Char → Bool}

/-- A run of letters of one kind that is followed by a letter of the other kind. -/
theorem span_of_run {other : Char} (kinds : ∀ letter ∈ start, test letter = true)
    (different : test other = false) :
    (start ++ other :: rest).takeWhile test = start ∧
      (start ++ other :: rest).dropWhile test = other :: rest := by
  rw [← Bool.not_eq_true] at different
  rw [List.takeWhile_append_of_pos kinds, List.dropWhile_append_of_pos kinds,
    List.takeWhile_cons_of_neg different, List.dropWhile_cons_of_neg different, List.append_nil]
  exact ⟨rfl, rfl⟩

theorem takeWhile_eq_nil_of_head {first : Char} (fails : test first = false) :
    (first :: rest).takeWhile test = [] := by
  rw [List.takeWhile_cons_of_neg]
  rwa [Bool.not_eq_true]

/-- A word of letters of one kind has no opening, for either kind. -/
theorem stuck_of_run (kinds : ∀ letter ∈ word, test letter = true) :
    word.dropWhile test = [] ∧ (word.takeWhile fun letter => !test letter) = [] := by
  constructor
  · rw [← List.append_nil word, List.dropWhile_append_of_pos kinds]
    rfl
  · cases word with
    | nil => rfl
    | cons first rest => exact takeWhile_eq_nil_of_head (by rw [kinds first (.head _)]; rfl)

end Runs

theorem vowelOpening?_of_run {consonant : Char} (nonempty : start ≠ [])
    (vowels : ∀ letter ∈ start, letter ∈ vowelLetters) (notVowel : consonant ∉ vowelLetters) :
    vowelOpening? (start ++ consonant :: rest) =
      some (start ++ firstConsonant (consonant :: rest)) := by
  obtain ⟨startEq, restEq⟩ := @span_of_run start rest isVowel consonant
    (fun letter member => (isVowel_iff letter).mpr (vowels letter member))
    ((isVowel_eq_false_iff consonant).mpr notVowel)
  rw [vowelOpening?, startEq, restEq, if_neg (by simp [nonempty])]

theorem consonantOpening?_of_run {vowel : Char} (nonempty : start ≠ [])
    (consonants : ∀ letter ∈ start, letter ∉ vowelLetters) (sought : vowel ∈ vowelLetters) :
    consonantOpening? (start ++ vowel :: rest) = some (start ++ [vowel]) := by
  obtain ⟨startEq, restEq⟩ := @span_of_run start rest (fun letter => !isVowel letter) vowel
    (fun letter member => (not_isVowel_iff letter).mpr (consonants letter member))
    (by rwa [Bool.not_eq_false', isVowel_iff])
  rw [consonantOpening?, startEq, restEq, if_neg (by simp [nonempty])]
  rfl

/-- The opening of a word is where the grammar says that R1 begins. -/
theorem RegionAt.opening? (region : RegionAt word found r1) :
    (Hungarian.opening? word).isSome = found ∧
      byteLength ((Hungarian.opening? word).getD word) = r1 := by
  cases region with
  | afterConsonant nonempty vowels notVowel noDigraph =>
    rw [Hungarian.opening?, vowelOpening?_of_run nonempty vowels notVowel,
      firstConsonant_of_noDigraph noDigraph]
    exact ⟨rfl, rfl⟩
  | @afterDigraph start rest digraph nonempty vowels listed =>
    have opens := firstConsonant_of_digraph listed rest
    have begins := digraphSpellings_begin_with_consonant digraph listed
    cases spelling : digraph.toList with
    | nil =>
      rw [spelling] at begins
      cases begins
    | cons first others =>
      rw [spelling] at begins opens
      have notVowel : first ∉ vowelLetters := by
        rw [← isVowel_eq_false_iff]
        simpa using begins
      rw [List.cons_append] at opens ⊢
      rw [Hungarian.opening?, vowelOpening?_of_run nonempty vowels notVowel, opens]
      exact ⟨rfl, rfl⟩
  | @afterVowel start rest vowel nonempty consonants sought =>
    have noVowels : vowelOpening? (start ++ vowel :: rest) = none := by
      obtain ⟨first, others, rfl⟩ := List.exists_cons_of_ne_nil nonempty
      have fails := (isVowel_eq_false_iff first).mpr (consonants first (.head _))
      rw [vowelOpening?, if_pos (.inl (takeWhile_eq_nil_of_head fails))]
    rw [Hungarian.opening?, noVowels, consonantOpening?_of_run nonempty consonants sought]
    exact ⟨rfl, rfl⟩
  | onlyVowels vowels =>
    obtain ⟨whole, noConsonants⟩ := @stuck_of_run word isVowel
      fun letter member => (isVowel_iff letter).mpr (vowels letter member)
    rw [Hungarian.opening?, vowelOpening?, if_pos (.inr whole), consonantOpening?,
      if_pos (.inl noConsonants)]
    exact ⟨rfl, rfl⟩
  | onlyConsonants consonants =>
    obtain ⟨whole, noVowels⟩ := @stuck_of_run word (fun letter => !isVowel letter)
      fun letter member => (not_isVowel_iff letter).mpr (consonants letter member)
    simp only [Bool.not_not] at noVowels
    rw [Hungarian.opening?, vowelOpening?, if_pos (.inl noVowels), consonantOpening?,
      if_pos (.inr whole)]
    exact ⟨rfl, rfl⟩

theorem regionAt_opening? (word : List Char) :
    RegionAt word (opening? word).isSome (byteLength ((opening? word).getD word)) := by
  obtain ⟨found, r1, region⟩ := exists_regionAt word
  obtain ⟨rfl, rfl⟩ := region.opening?
  exact region

theorem onBoundary_opening? (word : List Char) :
    OnBoundary word (byteLength ((opening? word).getD word)) := by
  rw [onBoundary_iff_exists_split]
  cases opened : opening? word with
  | none => exact ⟨word, [], (List.append_nil word).symm, rfl⟩
  | some opening =>
    obtain ⟨-, rest, split⟩ := opening?_isPrefix opened
    exact ⟨opening, rest, split.symm, rfl⟩

/-- Marking a word that was just loaded, into whatever buffer and with whatever regions before,
ends without a defect and leaves the buffer as it was. It reports a region, and where R1 begins,
exactly as the grammar has it; that place lies between two characters of the word or at its end. -/
theorem mark_iff_regionAt (buffer : WordBuffer) (word : String) (regions : Regions) :
    (∃ found r1, program.mark ⟨buffer.reload word, regions⟩ =
        .ok found ⟨buffer.reload word, { r1 }⟩ ∧
      OnBoundary word.toList r1 ∧ r1 ≤ (buffer.reload word).limit) ∧
    ∀ found r1, program.mark ⟨buffer.reload word, regions⟩ =
        .ok found ⟨buffer.reload word, { r1 }⟩ ↔
      RegionAt word.toList found r1 := by
  have marked := mark_apply word regions
  rw [← buffer.reload_eq_load] at marked
  refine ⟨⟨_, _, marked, onBoundary_opening? _, (onBoundary_opening? _).le_byteLength⟩, ?_⟩
  intro found r1
  constructor
  · intro reported
    obtain ⟨rfl, left⟩ := EStateM.Result.ok.inj (marked.symm.trans reported)
    obtain ⟨-, regionsEq⟩ := Workspace.mk.inj left
    obtain rfl := Regions.mk.inj regionsEq
    exact regionAt_opening? _
  · intro region
    obtain ⟨rfl, rfl⟩ := region.opening?
    exact marked

end Hungarian

end WordStem
