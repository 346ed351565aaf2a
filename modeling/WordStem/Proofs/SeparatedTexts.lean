import WordStem.Tokenizer
import WordStem.WhiteSpace

/-! # Texts with white space between them

The lowercase form of a letter may depend on the text around it, since a capital sigma looks for
cased letters on both sides and passes over any number of characters on its way. It never looks
past white space: such a character counts for case, and it is not cased. It belongs to no token
either. So the tokens of a text are those of the pieces into which it is cut at white space. Main
statement: `tokenize_at_whiteSpace`. -/
namespace WordStem

/-! ## White space among the other characters -/

namespace CodePointSet

/-- The code points between each odd change and the one that follows it. -/
def spanned : List Nat → List Nat
  | first :: stop :: later => List.range' first (stop - first) ++ spanned later
  | _ => []

/-- A set whose last change ends an interval has no members but those between its changes. -/
theorem mem_spanned {changes : List Nat} {code : Nat} (even : changes.length % 2 = 0)
    (behind : behindOdd code changes = true) : code ∈ spanned changes := by
  induction changes using spanned.induct with
  | case1 first stop later ih =>
    simp only [behindOdd] at behind
    split at behind
    · cases behind
    case isFalse notBefore =>
      rw [spanned, List.mem_append, List.mem_range'_1]
      by_cases inside : code < stop
      · exact .inl (by omega)
      · rw [if_neg inside, Bool.not_not] at behind
        exact .inr (ih (by simpa [Nat.add_assoc] using even) behind)
  | case2 changes short =>
    match changes with
    | [] => cases behind
    | [_] => cases even
    | first :: stop :: later => exact absurd rfl (short first stop later)

end CodePointSet

/-- A character that belongs to no token, ends every case context and is its own lowercase form. -/
structure StandsApart (character : Char) : Prop where
  notAlphanumeric : isAlphanumeric character = false
  notCased : isCased character = false
  notIgnorable : isCaseIgnorable character = false
  notSigma : character ≠ 'Σ'
  lowercase_eq : lowercaseCharacter character = [character]

instance (character : Char) : Decidable (StandsApart character) :=
  decidable_of_iff (isAlphanumeric character = false ∧ isCased character = false ∧
      isCaseIgnorable character = false ∧ character ≠ 'Σ' ∧
        lowercaseCharacter character = [character])
    ⟨fun ⟨notAlphanumeric, notCased, notIgnorable, notSigma, lowercase_eq⟩ =>
        ⟨notAlphanumeric, notCased, notIgnorable, notSigma, lowercase_eq⟩,
      fun apart => ⟨apart.notAlphanumeric, apart.notCased, apart.notIgnorable, apart.notSigma,
        apart.lowercase_eq⟩⟩

theorem standsApart_of_isWhiteSpace {character : Char} (white : isWhiteSpace character = true) :
    StandsApart character := by
  have each : ∀ code ∈ CodePointSet.spanned whiteSpaceCodePoints.changes,
      StandsApart (Char.ofNat code) := by
    decide +kernel
  have member : character.toNat ∈ CodePointSet.spanned whiteSpaceCodePoints.changes :=
    CodePointSet.mem_spanned (by decide) white
  have apart := each character.toNat member
  rwa [Char.ofNat_toNat] at apart

/-! ## Lowercase pieces -/

section Apart

variable {separator : Char} (apart : StandsApart separator)

include apart

/-- No case context reaches beyond a character that stands apart. -/
theorem StandsApart.meetsCased_append (text hidden : List Char) :
    meetsCased (text ++ separator :: hidden) = meetsCased text := by
  induction text with
  | nil => simp [meetsCased, apart.notIgnorable, apart.notCased]
  | cons character text ih =>
    simp only [meetsCased, List.cons_append, List.dropWhile_cons] at ih ⊢
    by_cases ignorable : isCaseIgnorable character
    · simpa only [ignorable, if_true] using ih
    · simp only [ignorable, Bool.false_eq_true, if_false]

theorem StandsApart.lowercaseAfter_append (before text rest : List Char) :
    lowercaseAfter before (text ++ separator :: rest) =
      lowercaseAfter before text ++
        separator :: lowercaseAfter (separator :: (text.reverse ++ before)) rest := by
  induction text generalizing before with
  | nil => simp [lowercaseAfter, apart.notSigma, apart.lowercase_eq]
  | cons character text ih =>
    simp only [List.cons_append, lowercaseAfter, apart.meetsCased_append, ih, List.append_assoc,
      List.reverse_cons, List.nil_append]

theorem StandsApart.lowercaseAfter_behind (before hidden text : List Char) :
    lowercaseAfter (before ++ separator :: hidden) text = lowercaseAfter before text := by
  induction text generalizing before with
  | nil => rfl
  | cons character text ih =>
    simp only [lowercaseAfter, apart.meetsCased_append]
    rw [← List.cons_append, ih]

theorem StandsApart.lowercase_append (text rest : List Char) :
    lowercase (text ++ separator :: rest) = lowercase text ++ separator :: lowercase rest := by
  have behind := apart.lowercaseAfter_behind [] (text.reverse ++ []) rest
  rw [List.nil_append] at behind
  rw [lowercase, apart.lowercaseAfter_append, behind, ← lowercase, ← lowercase]

end Apart

/-! ## Runs and tokens of pieces -/

theorem runsFrom_append {keep : Char → Bool} {separator : Char} (dropped : keep separator = false)
    (current text rest : List Char) :
    runsFrom keep current (text ++ separator :: rest) =
      runsFrom keep current text ++ runs keep rest := by
  induction text generalizing current with
  | nil =>
    cases current with
    | nil => simp [runsFrom, dropped, runs]
    | cons last current => simp [runsFrom, dropped, runs]
  | cons character text ih =>
    simp only [List.cons_append, runsFrom, ih]
    split
    · rfl
    · split <;> simp

theorem StandsApart.tokenize_append {separator : Char} (apart : StandsApart separator)
    (options : TokenOptions) (before after : String) :
    tokenize options (before ++ String.singleton separator ++ after) =
      tokenize options before ++ tokenize options after := by
  have characters : (before ++ String.singleton separator ++ after).toList =
      before.toList ++ separator :: after.toList := by
    simp
  rw [tokenize, characters, apart.lowercase_append, runs, runsFrom_append apart.notAlphanumeric,
    List.filter_append, List.map_append]
  rfl

/-- A text put together from pieces, each with the character that stands before it. -/
def joinPieces (first : String) (others : List (Char × String)) : String :=
  others.foldl (fun text other => text ++ String.singleton other.1 ++ other.2) first

theorem tokenize_joinPieces (options : TokenOptions) {others : List (Char × String)}
    (apart : ∀ other ∈ others, StandsApart other.1) (first : String) :
    tokenize options (joinPieces first others) =
      tokenize options first ++ others.flatMap fun other => tokenize options other.2 := by
  induction others generalizing first with
  | nil => simp [joinPieces]
  | cons other others ih =>
    obtain ⟨otherApart, othersApart⟩ := List.forall_mem_cons.mp apart
    rw [joinPieces, List.foldl_cons, ← joinPieces, ih othersApart, otherApart.tokenize_append,
      List.flatMap_cons, List.append_assoc]

/-- The tokens of a text that is cut at white space, once or any number of times, are the tokens of
the pieces in their order. -/
theorem tokenize_at_whiteSpace (options : TokenOptions) :
    (∀ (before after : String) (separator : Char), isWhiteSpace separator = true →
      tokenize options (before ++ String.singleton separator ++ after) =
        tokenize options before ++ tokenize options after) ∧
    (∀ (first : String) (others : List (Char × String)),
      (∀ other ∈ others, isWhiteSpace other.1 = true) →
      tokenize options (joinPieces first others) =
        tokenize options first ++ others.flatMap fun other => tokenize options other.2) := by
  constructor
  · intro before after separator white
    exact (standsApart_of_isWhiteSpace white).tokenize_append options before after
  · intro first others white
    exact tokenize_joinPieces options (fun other member =>
      standsApart_of_isWhiteSpace (white other member)) first

/-- The first word ends in a final sigma, though the next one begins with a cased letter. -/
theorem tokenize_at_whiteSpace_odos :
    let options : TokenOptions := { language := .hungarian, stopWords := true, minimumLength := 2 }
    isWhiteSpace '\u2003' = true ∧
      tokenize options ("ΟΔΟΣ" ++ String.singleton '\u2003' ++ "Σ ΣΑΣ") = ["οδος", "σας"] ∧
      tokenize options (joinPieces "ΟΔΟΣ" [('\u2003', "Σ"), (' ', "ΣΑΣ")]) = ["οδος", "σας"] := by
  intro options
  have white : isWhiteSpace '\u2003' = true := by decide +kernel
  have pieces : ∀ piece ∈ [('\u2003', "Σ"), (' ', "ΣΑΣ")], isWhiteSpace piece.1 = true := by
    decide +kernel
  obtain ⟨cut, joined⟩ := tokenize_at_whiteSpace options
  refine ⟨white, ?_, ?_⟩
  · rw [cut _ _ _ white]
    decide +kernel
  · rw [joined _ _ pieces]
    decide +kernel

end WordStem
