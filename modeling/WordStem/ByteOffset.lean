/-! # Byte offsets into a text

Positions in a word are counted in UTF-8 bytes. A text is a list of characters, so it is always
well formed; an offset is usable only where it falls between two characters, which is what
`cutAt?` decides. The main statement, `cutAt?_eq_some_iff`, says that a cut at an offset is a
splitting of the text whose first part has that many bytes. -/
namespace WordStem

def byteLength (text : List Char) : Nat :=
  text.foldr (fun character length => character.utf8Size + length) 0

def utf8Bytes (text : List Char) : List UInt8 :=
  text.flatMap String.utf8EncodeChar

/-- Cuts a text at a byte offset. There is no cut inside a character or past the end. -/
def cutAt? : List Char → Nat → Option (List Char × List Char)
  | text, 0 => some ([], text)
  | [], _ + 1 => none
  | character :: rest, offset + 1 =>
    if character.utf8Size ≤ offset + 1 then
      (cutAt? rest (offset + 1 - character.utf8Size)).map fun parts =>
        (character :: parts.1, parts.2)
    else
      none

/-- An offset lies on a boundary when the text can be cut there. -/
def OnBoundary (text : List Char) (offset : Nat) : Prop :=
  (cutAt? text offset).isSome

instance (text : List Char) (offset : Nat) : Decidable (OnBoundary text offset) :=
  inferInstanceAs (Decidable ((cutAt? text offset).isSome = true))

/-- Carves the text between two offsets out of a text, giving what lies before, inside and
after it. -/
def carve? (text : List Char) (start stop : Nat) :
    Option (List Char × List Char × List Char) := do
  let (head, after) ← cutAt? text stop
  let (before, inside) ← cutAt? head start
  return (before, inside, after)

@[simp] theorem byteLength_nil : byteLength [] = 0 := rfl

@[simp] theorem byteLength_cons (character : Char) (text : List Char) :
    byteLength (character :: text) = character.utf8Size + byteLength text := rfl

@[simp] theorem byteLength_append (left right : List Char) :
    byteLength (left ++ right) = byteLength left + byteLength right := by
  induction left with
  | nil => rw [List.nil_append, byteLength_nil, Nat.zero_add]
  | cons character left ih =>
    rw [List.cons_append, byteLength_cons, byteLength_cons, ih, Nat.add_assoc]

@[simp] theorem utf8Bytes_nil : utf8Bytes [] = [] := rfl

@[simp] theorem utf8Bytes_append (left right : List Char) :
    utf8Bytes (left ++ right) = utf8Bytes left ++ utf8Bytes right := by
  simp [utf8Bytes]

@[simp] theorem length_utf8Bytes (text : List Char) :
    (utf8Bytes text).length = byteLength text := by
  induction text with
  | nil => rfl
  | cons character rest inductionHypothesis =>
    simp only [utf8Bytes, List.flatMap_cons, List.length_append, byteLength_cons] at *
    rw [inductionHypothesis, String.length_utf8EncodeChar]

@[simp] theorem cutAt?_zero (text : List Char) : cutAt? text 0 = some ([], text) := by
  cases text <;> rfl

/-- A cut at an offset is a splitting whose first part has that many bytes. -/
theorem cutAt?_eq_some_iff {text before after : List Char} {offset : Nat} :
    cutAt? text offset = some (before, after) ↔
      text = before ++ after ∧ byteLength before = offset := by
  induction text generalizing before offset with
  | nil =>
    cases offset with
    | zero => cases before <;> simp [eq_comm]
    | succ offset =>
      constructor
      · intro cut
        simp [cutAt?] at cut
      · rintro ⟨split, length⟩
        obtain ⟨rfl, rfl⟩ := List.append_eq_nil_iff.mp split.symm
        simp at length
  | cons character rest inductionHypothesis =>
    have positive := character.utf8Size_pos
    cases offset with
    | zero =>
      cases before with
      | nil => simp [eq_comm]
      | cons first others =>
        simp only [cutAt?_zero, Option.some.injEq, Prod.mk.injEq, byteLength_cons]
        constructor
        · rintro ⟨impossible, _⟩
          cases impossible
        · rintro ⟨_, length⟩
          have := first.utf8Size_pos
          omega
    | succ offset =>
      simp only [cutAt?]
      cases before with
      | nil => split <;> simp
      | cons first others =>
        split
        case isTrue fits =>
          simp only [Option.map_eq_some_iff, Prod.mk.injEq, Prod.exists, List.cons.injEq,
            List.cons_append, byteLength_cons]
          constructor
          · rintro ⟨front, back, cut, ⟨rfl, rfl⟩, rfl⟩
            obtain ⟨rfl, length⟩ := inductionHypothesis.mp cut
            exact ⟨⟨rfl, rfl⟩, by omega⟩
          · rintro ⟨⟨rfl, split⟩, length⟩
            exact ⟨others, after, inductionHypothesis.mpr ⟨split, by omega⟩, ⟨rfl, rfl⟩, rfl⟩
        case isFalse tooLong =>
          simp only [reduceCtorEq, false_iff, not_and, List.cons_append, List.cons.injEq,
            byteLength_cons, and_imp]
          rintro rfl _ length
          omega

end WordStem
