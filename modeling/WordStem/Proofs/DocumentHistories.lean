import Mathlib.Algebra.BigOperators.Group.Finset.Piecewise
import Mathlib.Algebra.Order.BigOperators.Group.Finset
import WordStem.DocumentVectors
import WordStem.Proofs.ExactCounts
import WordStem.Proofs.SparseEntries
import WordStem.Proofs.VocabularyNumbers

/-! # Histories of document collections

Documents are added to a collection one after the other. A term that occurs often in a document
counts often for the document and once for the collection, and a term that is new takes the next
number. Main statement: `histories_keep_books`, that the vocabulary, the counts and the frequencies
tell what the texts hold and that later documents change nothing of it. -/
namespace WordStem.DocumentVectors

open SparseMapping Finset

variable {vocabulary : Vocabulary} {seen text : List String} {counts : SparseMapping}

/-! ## Counting the terms of one document -/

/-- What stands for a number of occurrences; nothing is stored for a term that does not occur. -/
def tally (count : Nat) : Option Float :=
  if count = 0 then none else some count.toFloat

theorem tally_count (term : String) (text : List String) :
    tally (text.count term) = if term ∈ text then some (text.count term).toFloat else none := by
  by_cases member : term ∈ text
  · rw [tally, if_neg (by simpa [List.count_eq_zero] using member), if_pos member]
  · rw [tally, if_pos (List.count_eq_zero_of_not_mem member), if_neg member]

theorem getD_tally (count : Nat) : (tally count).getD 0.0 = count.toFloat := by
  rw [tally]
  split
  next none => rw [none]; decide
  next => rfl

/-- One more occurrence is counted exactly and never stored as zero. -/
theorem nonzero?_tally_add_one {count : Nat} (fits : count + 1 < 2 ^ 53) :
    nonzero? ((tally count).getD 0.0 + 1.0) = tally (count + 1) := by
  rw [getD_tally, ExactCount.toFloat_add_one fits, tally, if_neg (Nat.succ_ne_zero count)]
  exact nonzero?_of_not_zero (ExactCount.toFloat_not_zero (Nat.succ_pos count) fits)

/-- A mapping counts a text: at the number of each term stand its occurrences. -/
structure Counts (vocabulary : Vocabulary) (text : List String) (counts : SparseMapping) :
    Prop where
  sound : counts.Sound
  get?_eq : ∀ number,
    counts.get? number = (vocabulary.term? number).bind fun term => tally (text.count term)

/-- New numbers are of no account to a text that has all its terms numbered. -/
theorem Counts.grow {later : Vocabulary} {laterSeen : List String}
    (counted : Counts vocabulary text counts) (lists : vocabulary.Lists seen)
    (laterLists : later.Lists laterSeen) (known : ∀ term ∈ text, term ∈ seen)
    (grows : ∀ number term, vocabulary.term? number = some term →
      later.term? number = some term) : Counts later text counts where
  sound := counted.sound
  get?_eq := by
    intro number
    rw [counted.get?_eq]
    cases numbered : vocabulary.term? number with
    | some term => rw [grows number term numbered]
    | none =>
      cases laterNumbered : later.term? number with
      | none => rfl
      | some term =>
        have absent : term ∉ text := by
          intro member
          obtain ⟨other, otherNumbered⟩ := (lists.mem_iff term).mp (known term member)
          have same := laterLists.number_unique laterNumbered (grows other term otherNumbered)
          rw [same, otherNumbered] at numbered
          cases numbered
        rw [Option.bind_none, Option.bind_some, tally_count, if_neg absent]

theorem Counts.countTerm (counted : Counts vocabulary text counts)
    (lists : vocabulary.Lists seen) (known : ∀ term ∈ text, term ∈ seen) {term : String}
    (fits : text.count term + 1 < 2 ^ 53) :
    Counts (vocabulary.intern term).2 (text ++ [term])
      (counts.add (vocabulary.intern term).1 1.0) where
  sound := counted.sound.set _ _
  get?_eq := by
    obtain ⟨nextLists, numbered⟩ := lists.intern term
    have grown := counted.grow lists nextLists known fun _ _ => Vocabulary.term?_intern term
    intro other
    rw [add, get?_set counted.sound, SparseMapping.get, grown.get?_eq, grown.get?_eq, numbered,
      Option.bind_some]
    by_cases same : other = (vocabulary.intern term).1
    · rw [if_pos same, same, numbered, Option.bind_some, nonzero?_tally_add_one fits]
      simp
    · rw [if_neg same]
      cases otherNumbered : (vocabulary.intern term).2.term? other with
      | none => rfl
      | some otherTerm =>
        have different : term ≠ otherTerm := by
          rintro rfl
          exact same (nextLists.number_unique otherNumbered numbered)
        simp [List.count_append, different]

/-- Counting the terms of a document interns them. -/
theorem foldl_countTerm_vocabulary (rest : List String) (counts : SparseMapping) :
    (rest.foldl countTerm (vocabulary, counts)).1 = vocabulary.internAll rest := by
  induction rest generalizing vocabulary counts with
  | nil => rfl
  | cons term rest ih => exact ih _

theorem Counts.foldl_countTerm (rest : List String) (counted : Counts vocabulary text counts)
    (lists : vocabulary.Lists seen) (known : ∀ term ∈ text, term ∈ seen)
    (fits : ∀ term, (text ++ rest).count term < 2 ^ 53) :
    Counts (rest.foldl DocumentVectors.countTerm (vocabulary, counts)).1 (text ++ rest)
      (rest.foldl DocumentVectors.countTerm (vocabulary, counts)).2 := by
  induction rest generalizing vocabulary seen text counts with
  | nil => simpa using counted
  | cons term rest ih =>
    have fitsTerm : text.count term + 1 < 2 ^ 53 := by
      have bound := fits term
      rw [List.count_append, List.count_cons_self] at bound
      omega
    have knownNext : ∀ other ∈ text ++ [term], other ∈ seen ++ [term] := by
      intro other member
      rcases List.mem_append.mp member with before | last
      · exact List.mem_append_left _ (known other before)
      · exact List.mem_append_right _ last
    rw [List.append_cons] at fits ⊢
    exact ih (counted.countTerm lists known fitsTerm) (lists.intern term).1 knownNext fits

theorem withCapacity_counts (vocabulary : Vocabulary) (room : Nat) :
    Counts vocabulary [] (.withCapacity room) where
  sound := withCapacity_sound room
  get?_eq := by
    intro number
    cases vocabulary.term? number <;> rfl

/-! ## Counting documents -/

theorem getElem?_countDocument (frequencies : Array Nat) (numbers : List Nat) (number : Nat) :
    (countDocument frequencies numbers)[number]? =
      frequencies[number]?.map (· + numbers.count number) := by
  induction numbers generalizing frequencies with
  | nil => simp [countDocument]
  | cons first numbers ih =>
    have rest := ih (frequencies.modify first (· + 1))
    rw [countDocument] at rest ⊢
    rw [List.foldl_cons, rest, Array.getElem?_modify, List.count_cons]
    by_cases same : first = number
    · subst same
      cases frequencies[first]? <;> simp; omega
    · simp [same]

theorem size_countDocument (frequencies : Array Nat) (numbers : List Nat) :
    (countDocument frequencies numbers).size = frequencies.size := by
  induction numbers generalizing frequencies with
  | nil => rfl
  | cons first numbers ih => exact (ih _).trans Array.size_modify

/-- After counting a document each frequency of before, or none for a new number, has grown by the
document's entries for the number. -/
theorem getD_countDocument (frequencies : Array Nat) (more : Nat) (numbers : List Nat)
    (number : Nat) :
    (countDocument (frequencies ++ Array.replicate more 0) numbers).getD number 0 =
      frequencies.getD number 0 +
        if number < frequencies.size + more then numbers.count number else 0 := by
  simp only [Array.getD_eq_getD_getElem?, getElem?_countDocument, Array.getElem?_append,
    Array.getElem?_replicate]
  by_cases old : number < frequencies.size
  · have inside : number < frequencies.size + more := by omega
    simp [old, inside]
  · by_cases new : number < frequencies.size + more
    · have inside : number - frequencies.size < more := by omega
      simp [old, new, inside]
    · have outside : ¬ number - frequencies.size < more := by omega
      simp [old, new, outside]

/-! ## A whole collection -/

variable {documents : DocumentVectors} {texts : List (List String)}

def addAll (documents : DocumentVectors) (texts : List (List String)) : DocumentVectors :=
  texts.foldl (fun documents text => (documents.addDocument text).2) documents

/-- What is counted of one more document: the vocabulary after it and the counts of its terms. -/
def countAll (documents : DocumentVectors) (text : List String) : Vocabulary × SparseMapping :=
  text.foldl countTerm (documents.vocabulary, .withCapacity documents.initialCapacity)

theorem addDocument_eq (documents : DocumentVectors) (text : List String) :
    documents.addDocument text = (documents.counts.size,
      { vocabulary := (documents.countAll text).1
        counts := documents.counts.push (documents.countAll text).2
        frequencies := countDocument (documents.frequencies ++ Array.replicate
          ((documents.countAll text).1.size - documents.frequencies.size) 0)
            (documents.countAll text).2.indices
        initialCapacity := documents.initialCapacity }) :=
  rfl

/-- The books of a collection to which texts were added. -/
structure Holds (documents : DocumentVectors) (texts : List (List String)) : Prop where
  lists : documents.vocabulary.Lists texts.flatten
  counts_size : documents.counts.size = texts.length
  counts_eq : ∀ (position : Nat) (text : List String), texts[position]? = some text →
    ∃ counts, documents.counts[position]? = some counts ∧
      Counts documents.vocabulary text counts
  frequencies_size : documents.frequencies.size = documents.vocabulary.size
  frequency_eq : ∀ number, documents.frequency number =
    documents.counts.toList.countP fun counts => (counts.get? number).isSome

theorem empty_holds (room : Nat) : (empty room).Holds [] where
  lists := Vocabulary.empty_lists
  counts_size := rfl
  counts_eq := by simp
  frequencies_size := rfl
  frequency_eq := by simp [frequency, empty]

theorem countAll_vocabulary (documents : DocumentVectors) (text : List String) :
    (documents.countAll text).1 = documents.vocabulary.internAll text :=
  foldl_countTerm_vocabulary text _

theorem Holds.countAll (holds : documents.Holds texts) (text : List String) :
    (documents.countAll text).1.Lists (texts.flatten ++ text) := by
  rw [countAll_vocabulary]
  exact holds.lists.internAll text

theorem Holds.countAll_counts (holds : documents.Holds texts)
    (fits : ∀ term, text.count term < 2 ^ 53) :
    Counts (documents.countAll text).1 text (documents.countAll text).2 :=
  (withCapacity_counts documents.vocabulary documents.initialCapacity).foldl_countTerm text
    holds.lists (by simp) (by simpa using fits)

theorem Holds.size_le (holds : documents.Holds texts) (text : List String) :
    documents.vocabulary.size ≤ (documents.countAll text).1.size := by
  rw [holds.lists.size_eq, (holds.countAll text).size_eq, List.eraseDups_append,
    List.length_append]
  exact Nat.le_add_right _ _

theorem Holds.counts_of_mem (holds : documents.Holds texts) {counts : SparseMapping}
    (member : counts ∈ documents.counts.toList) :
    ∃ text ∈ texts, Counts documents.vocabulary text counts := by
  obtain ⟨position, stored⟩ := List.mem_iff_getElem?.mp member
  rw [Array.getElem?_toList] at stored
  have inside : position < texts.length := by
    rw [← holds.counts_size]
    exact (Array.getElem?_eq_some_iff.mp stored).1
  obtain ⟨other, otherStored, counted⟩ :=
    holds.counts_eq position texts[position] (List.getElem?_eq_getElem inside)
  obtain rfl := Option.some.inj (stored.symm.trans otherStored)
  exact ⟨_, List.getElem_mem inside, counted⟩

/-- A stored number is the number of a term of the vocabulary. -/
theorem Counts.lt_size (counted : Counts vocabulary text counts) {number : Nat}
    (stored : (counts.get? number).isSome) : number < vocabulary.size := by
  rw [counted.get?_eq] at stored
  cases numbered : vocabulary.term? number with
  | none => simp [numbered] at stored
  | some term => exact (Array.getElem?_eq_some_iff.mp numbered).1

theorem Counts.isSome_iff (counted : Counts vocabulary text counts) {number : Nat}
    {term : String} (numbered : vocabulary.term? number = some term) :
    (counts.get? number).isSome ↔ term ∈ text := by
  rw [counted.get?_eq, numbered, Option.bind_some, tally_count]
  by_cases member : term ∈ text <;> simp [member]

theorem indices_nodup (sound : counts.Sound) : counts.indices.Nodup :=
  List.pairwise_map.mpr (sound.ascending.imp fun less => Nat.ne_of_lt less)

theorem Holds.addDocument (holds : documents.Holds texts)
    (fits : ∀ term, text.count term < 2 ^ 53) :
    (documents.addDocument text).2.Holds (texts ++ [text]) := by
  have lists := holds.countAll text
  have counted := holds.countAll_counts fits
  have larger := holds.size_le text
  have room : documents.frequencies.size +
      ((documents.countAll text).1.size - documents.frequencies.size) =
        (documents.countAll text).1.size := by
    rw [holds.frequencies_size]
    omega
  rw [addDocument_eq]
  refine ⟨by simpa using lists, by simp [holds.counts_size], ?_, ?_, ?_⟩
  · intro position other stored
    rw [Array.getElem?_push, holds.counts_size]
    by_cases last : position = texts.length
    · subst last
      rw [List.getElem?_concat_length] at stored
      obtain rfl := Option.some.inj stored
      exact ⟨_, if_pos rfl, counted⟩
    · have inside : position < texts.length := by
        have bound := (List.getElem?_eq_some_iff.mp stored).1
        rw [List.length_append, List.length_singleton] at bound
        omega
      rw [List.getElem?_append_left inside] at stored
      obtain ⟨counts, countsStored, before⟩ := holds.counts_eq position other stored
      have known : ∀ term ∈ other, term ∈ texts.flatten := fun term member =>
        List.mem_flatten.mpr ⟨other, List.mem_of_getElem? stored, member⟩
      rw [if_neg last]
      refine ⟨counts, countsStored, before.grow holds.lists lists known ?_⟩
      intro number term numbered
      rw [countAll_vocabulary]
      exact Vocabulary.term?_internAll text numbered
  · rw [size_countDocument, Array.size_append, Array.size_replicate, room]
  · intro number
    have before := holds.frequency_eq number
    rw [frequency] at before ⊢
    rw [getD_countDocument, before, room, Array.toList_push, List.countP_append,
      List.countP_singleton]
    congr 1
    by_cases stored : ((documents.countAll text).2.get? number).isSome
    · have member := (mem_indices_iff _ number).mpr stored
      rw [if_pos (counted.lt_size stored), if_pos stored,
        List.count_eq_one_of_mem (indices_nodup counted.sound) member]
    · have absent := mt (mem_indices_iff _ number).mp stored
      rw [if_neg stored, List.count_eq_zero_of_not_mem absent, ite_self]

theorem Holds.addAll (later : List (List String)) (holds : documents.Holds texts)
    (fits : ∀ text ∈ later, ∀ term, text.count term < 2 ^ 53) :
    (documents.addAll later).Holds (texts ++ later) := by
  induction later generalizing documents texts with
  | nil => simpa [DocumentVectors.addAll] using holds
  | cons text later ih =>
    obtain ⟨fitsText, fitsLater⟩ := List.forall_mem_cons.mp fits
    rw [List.append_cons]
    exact ih (holds.addDocument fitsText) fitsLater

/-! ## What the books tell -/

theorem Holds.frequency_le (holds : documents.Holds texts) (number : Nat) :
    documents.frequency number ≤ documents.size := by
  rw [holds.frequency_eq, size, ← Array.length_toList]
  exact List.countP_le_length

theorem Holds.frequency_pos (holds : documents.Holds texts) {number : Nat}
    (inside : number < documents.vocabulary.size) : 1 ≤ documents.frequency number := by
  have numbered : documents.vocabulary.term? number =
      some documents.vocabulary.terms[number] := Array.getElem?_eq_getElem inside
  have seenTerm := (holds.lists.mem_iff _).mpr ⟨number, numbered⟩
  obtain ⟨text, member, occurs⟩ := List.mem_flatten.mp seenTerm
  obtain ⟨position, stored⟩ := List.mem_iff_getElem?.mp member
  obtain ⟨counts, countsStored, counted⟩ := holds.counts_eq position text stored
  rw [holds.frequency_eq]
  refine List.countP_pos_iff.mpr ⟨counts, ?_, (counted.isSome_iff numbered).mpr occurs⟩
  rw [← Array.getElem?_toList] at countsStored
  exact List.mem_of_getElem? countsStored

theorem Holds.frequency_eq_zero (holds : documents.Holds texts) {number : Nat}
    (outside : documents.vocabulary.size ≤ number) : documents.frequency number = 0 := by
  rw [holds.frequency_eq, List.countP_eq_zero]
  intro counts member stored
  obtain ⟨text, -, counted⟩ := holds.counts_of_mem member
  exact Nat.not_lt.mpr outside (counted.lt_size stored)

/-- The numbers stored for a document are as many as its entries. -/
theorem Counts.card_stored (counted : Counts vocabulary text counts) :
    ((range vocabulary.size).filter fun number => (counts.get? number).isSome).card =
      counts.size := by
  have same : ((range vocabulary.size).filter fun number => (counts.get? number).isSome) =
      counts.indices.toFinset := by
    ext number
    rw [mem_filter, mem_range, List.mem_toFinset, mem_indices_iff]
    exact ⟨fun stored => stored.2, fun stored => ⟨counted.lt_size stored, stored⟩⟩
  rw [same, List.toFinset_card_of_nodup (indices_nodup counted.sound)]
  exact List.length_map _

theorem Holds.sum_frequency (holds : documents.Holds texts) :
    ∑ number ∈ range documents.vocabulary.size, documents.frequency number =
      (documents.counts.toList.map SparseMapping.size).sum := by
  have each : ∀ counts ∈ documents.counts.toList,
      ((range documents.vocabulary.size).filter fun number =>
        (counts.get? number).isSome).card = counts.size := by
    intro counts member
    obtain ⟨text, -, counted⟩ := holds.counts_of_mem member
    exact counted.card_stored
  simp only [holds.frequency_eq]
  generalize documents.counts.toList = all at each
  induction all with
  | nil => simp
  | cons counts all ih =>
    obtain ⟨first, others⟩ := List.forall_mem_cons.mp each
    simp only [List.countP_cons, List.map_cons, List.sum_cons, sum_add_distrib, ih others]
    rw [← first, card_filter, Nat.add_comm]

/-! ## Later documents -/

theorem addAll_counts (documents : DocumentVectors) (later : List (List String)) {position : Nat}
    (earlier : position < documents.size) :
    (documents.addAll later).counts[position]? = documents.counts[position]? := by
  induction later generalizing documents with
  | nil => rfl
  | cons text later ih =>
    have pushed : (documents.addDocument text).2.counts =
        documents.counts.push (documents.countAll text).2 := rfl
    have stillEarlier : position < (documents.addDocument text).2.size := by
      rw [size, pushed, Array.size_push]
      exact Nat.lt_succ_of_lt earlier
    refine (ih (documents.addDocument text).2 stillEarlier).trans ?_
    have notLast : position ≠ documents.counts.size := Nat.ne_of_lt earlier
    rw [pushed, Array.getElem?_push, if_neg notLast]

/-- Adding documents interns their terms one after the other. -/
theorem addAll_vocabulary (documents : DocumentVectors) (later : List (List String)) :
    (documents.addAll later).vocabulary = documents.vocabulary.internAll later.flatten := by
  induction later generalizing documents with
  | nil => rfl
  | cons text later ih =>
    rw [List.flatten_cons, Vocabulary.internAll_append, ← countAll_vocabulary]
    exact ih (documents.addDocument text).2

theorem addAll_term? (documents : DocumentVectors) (later : List (List String)) {number : Nat}
    {term : String} (numbered : documents.vocabulary.term? number = some term) :
    (documents.addAll later).vocabulary.term? number = some term := by
  rw [addAll_vocabulary]
  exact Vocabulary.term?_internAll _ numbered

theorem addAll_number? (later : List (List String)) (lists : documents.vocabulary.Lists seen)
    {term : String} {number : Nat} (numbered : documents.vocabulary.number? term = some number) :
    (documents.addAll later).vocabulary.number? term = some number := by
  rw [addAll_vocabulary]
  exact lists.number?_internAll _ numbered

/-- The books after any texts: the vocabulary lists the terms in the order of first sight, each
document has its terms counted, the frequencies say how many documents hold a term, and no later
text changes the counts of a document or the number of a term. -/
theorem histories_keep_books (room : Nat) (texts : List (List String))
    (fits : ∀ text ∈ texts, ∀ term, text.count term < 2 ^ 53) :
    let documents : DocumentVectors := (empty room).addAll texts
    documents.vocabulary.terms.toList = texts.flatten.eraseDups ∧
    (∀ term number, documents.vocabulary.number? term = some number ↔
      documents.vocabulary.term? number = some term) ∧
    documents.size = texts.length ∧
    (∀ (position : Nat) (text : List String), texts[position]? = some text →
      ∃ counts, documents.counts[position]? = some counts ∧ ∀ number,
        counts.get? number = (documents.vocabulary.term? number).bind fun term =>
          if term ∈ text then some (text.count term).toFloat else none) ∧
    (∀ number, documents.frequency number =
      documents.counts.toList.countP fun counts => (counts.get? number).isSome) ∧
    (∀ number, number < documents.vocabulary.size →
      1 ≤ documents.frequency number ∧ documents.frequency number ≤ documents.size) ∧
    (∀ number, documents.vocabulary.size ≤ number → documents.frequency number = 0) ∧
    ∑ number ∈ range documents.vocabulary.size, documents.frequency number =
      (documents.counts.toList.map SparseMapping.size).sum ∧
    (∀ text, (documents.addDocument text).1 = texts.length) ∧
    ∀ later,
      (∀ position, position < documents.size →
        (documents.addAll later).counts[position]? = documents.counts[position]?) ∧
      (∀ number term, documents.vocabulary.term? number = some term →
        (documents.addAll later).vocabulary.term? number = some term) ∧
      ∀ term number, documents.vocabulary.number? term = some number →
        (documents.addAll later).vocabulary.number? term = some number := by
  intro documents
  have holds : documents.Holds texts := (empty_holds room).addAll texts fits
  refine ⟨holds.lists.terms_eq, holds.lists.number?_eq_some_iff, holds.counts_size, ?_,
    holds.frequency_eq, ?_, fun number outside => holds.frequency_eq_zero outside,
    holds.sum_frequency, fun _ => holds.counts_size, fun later => ⟨?_, ?_, ?_⟩⟩
  · intro position text stored
    obtain ⟨counts, countsStored, counted⟩ := holds.counts_eq position text stored
    refine ⟨counts, countsStored, fun number => ?_⟩
    simp only [counted.get?_eq, tally_count]
  · intro number inside
    exact ⟨holds.frequency_pos inside, holds.frequency_le number⟩
  · intro position earlier
    exact documents.addAll_counts later earlier
  · intro number term numbered
    exact documents.addAll_term? later numbered
  · intro term number numbered
    exact addAll_number? later holds.lists numbered

def gardenTexts : List (List String) :=
  [["ház", "kert", "ház"], [], ["fa", "kert"]]

/-- The house stands twice in the first text and the garden in two texts. -/
theorem histories_keep_books_gardenTexts :
    (∀ text ∈ gardenTexts, ∀ term, text.count term < 2 ^ 53) ∧
      let documents : DocumentVectors := (empty 2).addAll gardenTexts
      documents.vocabulary.terms.toList = ["ház", "kert", "fa"] ∧
      (∃ counts, documents.counts[0]? = some counts ∧ counts.get? 0 = some 2.0 ∧
        counts.get? 2 = none) ∧
      1 ≤ documents.frequency 1 ∧ documents.frequency 1 ≤ 3 ∧ documents.frequency 3 = 0 := by
  have fits : ∀ text ∈ gardenTexts, ∀ term, text.count term < 2 ^ 53 := by
    intro text member term
    have short : ∀ text ∈ gardenTexts, text.length < 2 ^ 53 := by decide
    exact Nat.lt_of_le_of_lt List.count_le_length (short text member)
  obtain ⟨termsEq, -, sizeEq, stored, -, bounds, beyond, -⟩ :=
    histories_keep_books 2 gardenTexts fits
  have terms : ((empty 2).addAll gardenTexts).vocabulary.terms.toList = ["ház", "kert", "fa"] :=
    termsEq.trans (by decide)
  have term?_eq (number : Nat) : ((empty 2).addAll gardenTexts).vocabulary.term? number =
      ["ház", "kert", "fa"][number]? := by
    rw [Vocabulary.term?, ← Array.getElem?_toList, terms]
  have vocabularySize : ((empty 2).addAll gardenTexts).vocabulary.size = 3 := by
    rw [Vocabulary.size, ← Array.length_toList, terms]
    rfl
  obtain ⟨counts, countsStored, countsEq⟩ := stored 0 ["ház", "kert", "ház"] rfl
  obtain ⟨some, few⟩ := bounds 1 (by rw [vocabularySize]; decide)
  refine ⟨fits, terms, ⟨counts, countsStored, ?_, ?_⟩, some, few.trans_eq sizeEq,
    beyond 3 vocabularySize.le⟩
  · rw [countsEq, term?_eq]
    decide
  · rw [countsEq, term?_eq]
    decide

end WordStem.DocumentVectors
