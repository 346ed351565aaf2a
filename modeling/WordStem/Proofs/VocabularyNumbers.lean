import Mathlib.Data.List.Nodup
import WordStem.Vocabulary

/-! # The numbers of a vocabulary

A vocabulary keeps its terms twice, by number and by term. Main statement:
`histories_stay_bijective`, that the two agree after any terms have been interned, that the terms
stand in the order in which they were first seen, and that a number once given stays. -/
namespace WordStem.Vocabulary

/-- A vocabulary lists the terms seen so far, each once and in the order of first sight, and the
numbers of terms are their places in that list. -/
structure Lists (vocabulary : Vocabulary) (seen : List String) : Prop where
  terms_eq : vocabulary.terms.toList = seen.eraseDups
  number?_eq_some_iff : ∀ term number,
    vocabulary.number? term = some number ↔ vocabulary.term? number = some term

variable {vocabulary : Vocabulary} {seen : List String}

theorem empty_lists : empty.Lists [] where
  terms_eq := rfl
  number?_eq_some_iff := by simp [number?, term?, empty]

theorem eraseDups_concat (seen : List String) (term : String) :
    (seen ++ [term]).eraseDups =
      if term ∈ seen then seen.eraseDups else seen.eraseDups ++ [term] := by
  rw [List.eraseDups_append, List.cons_removeAll]
  by_cases known : term ∈ seen <;> simp [known, List.removeAll, List.eraseDups_cons]

namespace Lists

theorem term?_eq (lists : vocabulary.Lists seen) (number : Nat) :
    vocabulary.term? number = seen.eraseDups[number]? := by
  rw [term?, ← lists.terms_eq, Array.getElem?_toList]

theorem size_eq (lists : vocabulary.Lists seen) : vocabulary.size = seen.eraseDups.length := by
  rw [size, ← lists.terms_eq, Array.length_toList]

theorem mem_iff (lists : vocabulary.Lists seen) (term : String) :
    term ∈ seen ↔ ∃ number, vocabulary.term? number = some term := by
  rw [← List.mem_eraseDups, List.mem_iff_getElem?]
  simp only [lists.term?_eq]

/-- A term has one number only. -/
theorem number_unique (lists : vocabulary.Lists seen) {term : String} {first second : Nat}
    (atFirst : vocabulary.term? first = some term)
    (atSecond : vocabulary.term? second = some term) : first = second := by
  rw [← lists.number?_eq_some_iff] at atFirst atSecond
  exact Option.some.inj (atFirst.symm.trans atSecond)

theorem terms_nodup (lists : vocabulary.Lists seen) : vocabulary.terms.toList.Nodup := by
  rw [List.nodup_iff_getElem?_ne_getElem?]
  intro first second before inside same
  have atSecond : vocabulary.term? second = some vocabulary.terms.toList[second] := by
    rw [term?, ← Array.getElem?_toList, List.getElem?_eq_getElem inside]
  have atFirst : vocabulary.term? first = some vocabulary.terms.toList[second] := by
    rw [term?, ← Array.getElem?_toList, same, List.getElem?_eq_getElem inside]
  exact Nat.ne_of_lt before (lists.number_unique atFirst atSecond)

theorem number?_eq_none_iff (lists : vocabulary.Lists seen) (term : String) :
    vocabulary.number? term = none ↔ term ∉ seen := by
  rw [lists.mem_iff, Option.eq_none_iff_forall_ne_some, not_exists]
  simp only [ne_eq, lists.number?_eq_some_iff]

end Lists

/-! ## Interning -/

theorem intern_of_some {term : String} {number : Nat}
    (known : vocabulary.number? term = some number) :
    vocabulary.intern term = (number, vocabulary) := by
  rw [intern, known]

theorem intern_of_none {term : String} (unknown : vocabulary.number? term = none) :
    vocabulary.intern term = (vocabulary.size,
      { terms := vocabulary.terms.push term
        numbers := vocabulary.numbers.insert term vocabulary.size }) := by
  rw [intern, unknown]

/-- Interning takes no number away and gives none to another term. -/
theorem term?_intern (term : String) {number : Nat} {earlier : String}
    (numbered : vocabulary.term? number = some earlier) :
    (vocabulary.intern term).2.term? number = some earlier := by
  cases known : vocabulary.number? term with
  | some found => rwa [intern_of_some known]
  | none =>
    have before : number < vocabulary.terms.size := (Array.getElem?_eq_some_iff.mp numbered).1
    rw [intern_of_none known, term?, Array.getElem?_push, if_neg (Nat.ne_of_lt before)]
    exact numbered

theorem Lists.intern (lists : vocabulary.Lists seen) (term : String) :
    (vocabulary.intern term).2.Lists (seen ++ [term]) ∧
      (vocabulary.intern term).2.term? (vocabulary.intern term).1 = some term := by
  cases known : vocabulary.number? term with
  | some number =>
    have numbered := (lists.number?_eq_some_iff term number).mp known
    have member : term ∈ seen := (lists.mem_iff term).mpr ⟨number, numbered⟩
    rw [intern_of_some known]
    refine ⟨⟨?_, lists.number?_eq_some_iff⟩, numbered⟩
    rw [eraseDups_concat, if_pos member, lists.terms_eq]
  | none =>
    have absent := (lists.number?_eq_none_iff term).mp known
    rw [intern_of_none known]
    refine ⟨⟨?_, ?_⟩, by simp [term?, size]⟩
    · rw [eraseDups_concat, if_neg absent, Array.toList_push, lists.terms_eq]
    · intro other number
      have before := lists.number?_eq_some_iff other number
      simp only [number?, term?] at before
      simp only [number?, term?, size, Std.HashMap.getElem?_insert, Array.getElem?_push]
      by_cases same : term = other
      · subst same
        have numberless : vocabulary.terms[number]? ≠ some term := fun numbered =>
          absent ((lists.mem_iff term).mpr ⟨number, numbered⟩)
        by_cases last : number = vocabulary.terms.size
        · simp [last]
        · simp [last, numberless, eq_comm]
      · rw [if_neg (by simpa using same), before]
        by_cases last : number = vocabulary.terms.size
        · simp [last, same]
        · rw [if_neg last]

/-! ## Interning one term after the other -/

def internAll (vocabulary : Vocabulary) (terms : List String) : Vocabulary :=
  terms.foldl (fun vocabulary term => (vocabulary.intern term).2) vocabulary

theorem internAll_append (vocabulary : Vocabulary) (terms later : List String) :
    vocabulary.internAll (terms ++ later) = (vocabulary.internAll terms).internAll later :=
  List.foldl_append

theorem term?_internAll (terms : List String) {number : Nat} {earlier : String}
    (numbered : vocabulary.term? number = some earlier) :
    (vocabulary.internAll terms).term? number = some earlier := by
  induction terms generalizing vocabulary with
  | nil => exact numbered
  | cons term terms ih => exact ih (term?_intern term numbered)

theorem Lists.internAll (lists : vocabulary.Lists seen) (terms : List String) :
    (vocabulary.internAll terms).Lists (seen ++ terms) := by
  induction terms generalizing vocabulary seen with
  | nil => simpa [Vocabulary.internAll] using lists
  | cons term terms ih =>
    rw [List.append_cons]
    exact ih (lists.intern term).1

theorem Lists.number?_internAll (lists : vocabulary.Lists seen) (terms : List String)
    {term : String} {number : Nat} (known : vocabulary.number? term = some number) :
    (vocabulary.internAll terms).number? term = some number := by
  rw [(lists.internAll terms).number?_eq_some_iff]
  exact term?_internAll terms ((lists.number?_eq_some_iff term number).mp known)

/-- After any terms have been interned, the vocabulary holds each of them once and in the order of
first sight, numbers and terms determine each other, the number that is answered for a term stands
for it, and no later term changes what a number or a term of before stands for. -/
theorem histories_stay_bijective (interned : List String) :
    let vocabulary : Vocabulary := empty.internAll interned
    vocabulary.terms.toList.Nodup ∧
    vocabulary.terms.toList = interned.eraseDups ∧
    (∀ term number, vocabulary.number? term = some number ↔
      vocabulary.term? number = some term) ∧
    (∀ term, (vocabulary.intern term).2.term? (vocabulary.intern term).1 = some term) ∧
    ∀ later,
      (∀ number term, vocabulary.term? number = some term →
        (vocabulary.internAll later).term? number = some term) ∧
      ∀ term number, vocabulary.number? term = some number →
        (vocabulary.internAll later).number? term = some number := by
  intro vocabulary
  have lists : vocabulary.Lists interned := empty_lists.internAll interned
  refine ⟨lists.terms_nodup, lists.terms_eq, lists.number?_eq_some_iff,
    fun term => (lists.intern term).2, fun later => ⟨?_, ?_⟩⟩
  · intro number term numbered
    exact term?_internAll later numbered
  · intro term number known
    exact lists.number?_internAll later known

/-- The garden keeps its number when the house is seen again and when other terms follow. -/
theorem histories_stay_bijective_garden :
    let vocabulary : Vocabulary := empty.internAll ["ház", "kert", "ház"]
    vocabulary.terms.toList = ["ház", "kert"] ∧ vocabulary.number? "kert" = some 1 ∧
      (vocabulary.internAll ["fa", "kert"]).number? "kert" = some 1 := by
  intro vocabulary
  obtain ⟨-, termsEq, numbers, -, later⟩ := histories_stay_bijective ["ház", "kert", "ház"]
  have terms : vocabulary.terms.toList = ["ház", "kert"] := termsEq.trans (by decide)
  have numbered : vocabulary.term? 1 = some "kert" := by
    rw [term?, ← Array.getElem?_toList, terms]
    rfl
  have known : vocabulary.number? "kert" = some 1 := (numbers "kert" 1).mpr numbered
  exact ⟨terms, known, (later ["fa", "kert"]).2 "kert" 1 known⟩

end WordStem.Vocabulary
