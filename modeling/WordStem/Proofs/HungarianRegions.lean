import WordStem.Hungarian
import WordStem.Proofs.BufferScans
import WordStem.Proofs.LongestAffix

/-! # Where R1 begins

The region pass reads the opening of a word: its vowels and the consonant or digraph after them,
or its consonants and the vowel after them. A word without such an opening has no region. The
opening is defined on the word itself, and the pass is shown to stop right after it. -/
namespace WordStem.Hungarian

/-- Whether a character is a vowel. -/
def isVowel (character : Char) : Bool :=
  vowels.contains character

/-- The consonant or digraph that a text begins with. -/
def firstConsonant (text : List Char) : List Char :=
  match digraphs.longest? .forward text with
  | some digraph => digraph.literal.toList
  | none => text.take 1

/-- The vowels that a word begins with and the consonant or digraph after them. -/
def vowelOpening? (word : List Char) : Option (List Char) :=
  let start := word.takeWhile isVowel
  let rest := word.dropWhile isVowel
  if start = [] ∨ rest = [] then none else some (start ++ firstConsonant rest)

/-- The consonants that a word begins with and the vowel after them. -/
def consonantOpening? (word : List Char) : Option (List Char) :=
  let start := word.takeWhile fun character => !isVowel character
  let rest := word.dropWhile fun character => !isVowel character
  if start = [] ∨ rest = [] then none else some (start ++ rest.take 1)

/-- The opening of a word, which R1 comes after, if the word has one. -/
def opening? (word : List Char) : Option (List Char) :=
  (vowelOpening? word).or (consonantOpening? word)

theorem digraphs_readsLongest : digraphs.ReadsLongest .forward := by
  decide +kernel

theorem digraphs_tags : ∀ digraph ∈ digraphs.affixes, digraph.tag ≠ 0 := by
  decide +kernel

variable {workspace : Workspace Regions} {word : List Char}

/-- Going to the end of the first part of a word cuts the word there. -/
theorem hasParts_withCursor {front rest : List Char}
    (parts : workspace.buffer.HasParts [] [] (front ++ rest)) :
    (workspace.withCursor (byteLength front)).buffer.HasParts [] front rest where
  text_eq := parts.text_eq
  floor_eq := parts.floor_eq
  cursor_eq := (Nat.zero_add _).symm

/-- Stepping over one character of a kind and then seeking one of the other kind stops after the
run of characters of the first kind, unless there is no such run or nothing after it. -/
theorem skipRun_bind (test sought : Char → Bool) (next : RuleM Regions Bool)
    (parts : workspace.buffer.HasParts [] [] word)
    (opposite : ∀ character, (!sought character) = test character) :
    ∃ cursor,
      (RuleM.scan (fun buffer => buffer.stepIf? .forward test) >>= fun stepped =>
        if (!stepped) = true then pure false
        else RuleM.scan (fun buffer => buffer.seek? sought) >>= fun stopped =>
          if (!stopped) = true then pure false else next) workspace =
        if word.takeWhile test = [] ∨ word.dropWhile test = [] then
          .ok false (workspace.withCursor cursor)
        else next (workspace.withCursor (byteLength (word.takeWhile test))) := by
  have start : workspace.buffer.cursor = 0 := parts.cursor_eq
  cases word with
  | nil =>
    refine ⟨workspace.buffer.cursor, ?_⟩
    rw [if_pos (.inl rfl), RuleM.scan_orElse_of_none (parts.stepIf?_forward_nil test)]
    rfl
  | cons first rest =>
    have steps := parts.stepIf?_forward_cons test
    cases passes : test first with
    | false =>
      refine ⟨workspace.buffer.cursor, ?_⟩
      rw [passes] at steps
      rw [if_pos (.inl (by simp [passes])), RuleM.scan_orElse_of_none steps]
      rfl
    | true =>
      refine ⟨first.utf8Size, ?_⟩
      rw [if_pos passes] at steps
      rw [List.takeWhile_cons_of_pos passes, List.dropWhile_cons_of_pos passes,
        RuleM.scan_orElse_of_some steps]
      have kinds : (fun character => !sought character) = test := funext opposite
      have seeking := parts.advance_forward_cons.seek?_eq sought
      simp only [kinds] at seeking
      have split := List.takeWhile_append_dropWhile (p := test) (l := rest)
      by_cases whole : rest.dropWhile test = []
      · rw [whole, List.append_nil] at split
        rw [split, if_neg (Nat.lt_irrefl _)] at seeking
        rw [if_pos (.inr whole), RuleM.scan_orElse_of_none seeking]
        simp [WordBuffer.advance, Workspace.withCursor, start]
      · have before : (rest.takeWhile test).length < rest.length := by
          have length := congrArg List.length split
          have positive := List.length_pos_iff.mpr whole
          rw [List.length_append] at length
          omega
        rw [if_pos before] at seeking
        rw [if_neg (by simp [whole]), RuleM.scan_orElse_of_some seeking]
        simp [WordBuffer.advance, Workspace.withCursor, start]

theorem scan_next_apply {front : List Char} {first : Char} {rest : List Char}
    (parts : workspace.buffer.HasParts [] front (first :: rest)) :
    RuleM.scan (fun buffer => buffer.next? .forward) workspace =
      .ok true (workspace.withCursor (byteLength (front ++ [first]))) := by
  have start : workspace.buffer.cursor = byteLength front := by
    rw [parts.cursor_eq, byteLength_nil, Nat.zero_add]
  have stepped : workspace.buffer.next? .forward = _ := parts.stepIf?_forward_cons _
  rw [if_pos rfl] at stepped
  simp [RuleM.scan, stepped, WordBuffer.advance, Workspace.withCursor, start]

/-- At the end of the vowels, the pass steps over a digraph or else over one character. -/
theorem skipConsonant_apply {front : List Char} {first : Char} {rest : List Char}
    (parts : workspace.buffer.HasParts [] front (first :: rest)) :
    (do
      if (← digraphs.find .forward) = 0 then
        RuleM.scan fun buffer => buffer.next? .forward
      else
        return true : RuleM Regions Bool) workspace =
      .ok true
        (workspace.withCursor (byteLength (front ++ firstConsonant (first :: rest)))) := by
  have start : workspace.buffer.cursor = byteLength front := by
    rw [parts.cursor_eq, byteLength_nil, Nat.zero_add]
  have found := digraphs_readsLongest.find_eq_longest parts
  simp only [Direction.choose] at found
  rw [firstConsonant]
  cases longest : digraphs.longest? .forward (first :: rest) with
  | none =>
    rw [longest] at found
    rw [RuleM.bind_of_ok found, if_pos rfl]
    exact scan_next_apply parts
  | some digraph =>
    rw [longest] at found
    have tagged := digraphs_tags digraph (AffixTable.mem_of_longest?_eq_some longest).1
    rw [RuleM.bind_of_ok found, if_neg tagged, RuleM.pure_apply, Affix.landing, start,
      byteLength_append]

theorem skipVowelsAndConsonant_apply (parts : workspace.buffer.HasParts [] [] word) :
    ∃ cursor, skipVowelsAndConsonant workspace =
        .ok (vowelOpening? word).isSome (workspace.withCursor cursor) ∧
      ∀ opening ∈ vowelOpening? word, cursor = byteLength opening := by
  obtain ⟨cursor, skipping⟩ := skipRun_bind isVowel
    (fun character => !vowels.contains character)
    (do
      if (← digraphs.find .forward) = 0 then
        RuleM.scan fun buffer => buffer.next? .forward
      else
        return true)
    parts fun character => Bool.not_not _
  have skip : skipVowelsAndConsonant workspace = _ := skipping
  rw [vowelOpening?]
  by_cases stuck : word.takeWhile isVowel = [] ∨ word.dropWhile isVowel = []
  · simp only [if_pos stuck] at skip ⊢
    exact ⟨cursor, skip, by simp⟩
  · simp only [if_neg stuck] at skip ⊢
    rw [← List.takeWhile_append_dropWhile (p := isVowel) (l := word)] at parts
    obtain ⟨first, rest, restEq⟩ := List.exists_cons_of_ne_nil (not_or.mp stuck).2
    rw [restEq] at parts ⊢
    rw [skipConsonant_apply (hasParts_withCursor parts)] at skip
    refine ⟨_, skip, ?_⟩
    rintro opening ⟨⟩
    rfl

theorem skipConsonantsAndVowel_apply (parts : workspace.buffer.HasParts [] [] word) :
    ∃ cursor, skipConsonantsAndVowel workspace =
        .ok (consonantOpening? word).isSome (workspace.withCursor cursor) ∧
      ∀ opening ∈ consonantOpening? word, cursor = byteLength opening := by
  obtain ⟨cursor, skipping⟩ := skipRun_bind (fun character => !isVowel character)
    vowels.contains (RuleM.scan fun buffer => buffer.next? .forward) parts fun character => rfl
  have skip : skipConsonantsAndVowel workspace = _ := skipping
  rw [consonantOpening?]
  by_cases stuck : (word.takeWhile fun character => !isVowel character) = [] ∨
      (word.dropWhile fun character => !isVowel character) = []
  · simp only [if_pos stuck] at skip ⊢
    exact ⟨cursor, skip, by simp⟩
  · simp only [if_neg stuck] at skip ⊢
    rw [← List.takeWhile_append_dropWhile (p := fun character => !isVowel character)
      (l := word)] at parts
    obtain ⟨first, rest, restEq⟩ := List.exists_cons_of_ne_nil (not_or.mp stuck).2
    rw [restEq] at parts ⊢
    rw [scan_next_apply (hasParts_withCursor parts)] at skip
    refine ⟨_, skip, ?_⟩
    rintro opening ⟨⟩
    rfl

/-- The region pass finds the opening of the word. -/
theorem markRegions_apply (parts : workspace.buffer.HasParts [] [] word) :
    ∃ cursor, markRegions workspace =
      .ok (opening? word).isSome
        ⟨(workspace.withCursor cursor).buffer, { r1 := byteLength ((opening? word).getD word) }⟩ := by
  have limitEq : workspace.buffer.limit = byteLength word := by
    simp [parts.limit_eq]
  have marking : markRegions workspace =
      (skipVowelsAndConsonant >>= fun skipped =>
        if skipped = true then beginR1
        else RuleM.modifyBuffer (fun buffer => buffer.moveTo workspace.buffer.cursor) >>= fun _ =>
          skipConsonantsAndVowel >>= fun skipped =>
            if skipped = true then beginR1 else pure false)
        { workspace with context := { r1 := byteLength word } } := by
    rw [← limitEq]
    rfl
  have markedParts : ({ workspace with context := { r1 := byteLength word } } :
      Workspace Regions).buffer.HasParts [] [] word := parts
  obtain ⟨cursor, skip, cursorEq⟩ := skipVowelsAndConsonant_apply markedParts
  rw [RuleM.bind_of_ok skip] at marking
  rw [opening?, marking]
  cases vowelCase : vowelOpening? word with
  | some opening =>
    rw [cursorEq opening vowelCase]
    exact ⟨byteLength opening, rfl⟩
  | none =>
    have restarted : min workspace.buffer.cursor workspace.buffer.limit =
        workspace.buffer.cursor := by
      rw [parts.cursor_eq, byteLength_nil, Nat.zero_add, Nat.zero_min]
    obtain ⟨cursor, skip, cursorEq⟩ := skipConsonantsAndVowel_apply markedParts
    simp only [Option.isSome_none, Bool.false_eq_true, if_false, Option.none_or]
    rw [RuleM.modifyBuffer_bind]
    simp only [WordBuffer.moveTo, Workspace.withCursor, WordBuffer.limit] at restarted ⊢
    rw [restarted, RuleM.bind_of_ok skip]
    cases consonantCase : consonantOpening? word with
    | some opening =>
      rw [cursorEq opening consonantCase]
      exact ⟨byteLength opening, rfl⟩
    | none => exact ⟨cursor, rfl⟩

theorem exists_markRegions_load (word : String) (regions : Regions) :
    ∃ cursor, program.markRegions ⟨.load word, regions⟩ =
      .ok (opening? word.toList).isSome
        ⟨{ WordBuffer.load word with cursor },
          { r1 := byteLength ((opening? word.toList).getD word.toList) }⟩ := by
  have parts : (⟨.load word, regions⟩ : Workspace Regions).buffer.HasParts [] [] word.toList :=
    WordBuffer.load_hasParts word
  exact markRegions_apply parts

/-- Marking a loaded word changes nothing but the context. -/
theorem mark_apply (word : String) (regions : Regions) :
    program.mark ⟨.load word, regions⟩ =
      .ok (opening? word.toList).isSome
        ⟨.load word, { r1 := byteLength ((opening? word.toList).getD word.toList) }⟩ := by
  obtain ⟨cursor, run⟩ := exists_markRegions_load word regions
  rw [RuleProgram.mark, RuleM.buffer_bind, RuleM.bind_of_ok run]
  rfl

/-! ## The opening as a part of the word -/

theorem firstConsonant_isPrefix (text : List Char) : firstConsonant text <+: text := by
  rw [firstConsonant]
  cases longest : digraphs.longest? .forward text with
  | some digraph =>
    exact List.isPrefixOf_iff_prefix.mp (AffixTable.mem_of_longest?_eq_some longest).2
  | none => exact List.take_prefix 1 text

/-- The opening of a word that begins with vowels. -/
theorem eq_of_vowelOpening? {opening : List Char} (found : vowelOpening? word = some opening) :
    word.takeWhile isVowel ≠ [] ∧ word.dropWhile isVowel ≠ [] ∧
      opening = word.takeWhile isVowel ++ firstConsonant (word.dropWhile isVowel) := by
  rw [vowelOpening?] at found
  obtain ⟨nonempty, ⟨⟩⟩ := Option.ite_none_left_eq_some.mp found
  exact ⟨(not_or.mp nonempty).1, (not_or.mp nonempty).2, rfl⟩

/-- The opening of a word that begins with consonants. -/
theorem eq_of_consonantOpening? {opening : List Char}
    (found : consonantOpening? word = some opening) :
    ∃ vowel rest, (word.dropWhile fun character => !isVowel character) = vowel :: rest ∧
      isVowel vowel = true ∧
      opening = (word.takeWhile fun character => !isVowel character) ++ [vowel] := by
  rw [consonantOpening?] at found
  obtain ⟨nonempty, ⟨⟩⟩ := Option.ite_none_left_eq_some.mp found
  obtain ⟨vowel, rest, restEq⟩ := List.exists_cons_of_ne_nil (not_or.mp nonempty).2
  refine ⟨vowel, rest, restEq, ?_, by rw [restEq]; rfl⟩
  have notDropped := List.head_dropWhile_not (fun character => !isVowel character)
    (not_or.mp nonempty).2
  simpa [restEq] using notDropped

/-- The opening of a word is not empty, and the word begins with it. -/
theorem opening?_isPrefix {opening : List Char} (found : opening? word = some opening) :
    opening ≠ [] ∧ opening <+: word := by
  rcases Option.or_eq_some_iff.mp found with vowelCase | ⟨-, consonantCase⟩
  · obtain ⟨startNonempty, -, rfl⟩ := eq_of_vowelOpening? vowelCase
    refine ⟨fun empty => startNonempty (List.append_eq_nil_iff.mp empty).1, ?_⟩
    conv => rhs; rw [← List.takeWhile_append_dropWhile (p := isVowel) (l := word)]
    exact (List.prefix_append_right_inj _).mpr (firstConsonant_isPrefix _)
  · obtain ⟨vowel, rest, restEq, -, rfl⟩ := eq_of_consonantOpening? consonantCase
    refine ⟨by simp, rest, ?_⟩
    rw [List.append_assoc, List.singleton_append, ← restEq, List.takeWhile_append_dropWhile]

end WordStem.Hungarian
