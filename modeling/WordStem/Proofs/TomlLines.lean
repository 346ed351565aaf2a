import WordStem.Proofs.TomlNumbers
import WordStem.TomlText

/-! # Lines of TOML

Settings are written line by line: blank lines, headers of tables, and assignments of a name, a
truth value or a number. Each value is read as itself wherever its line ends, so each line is read
as what it says and leaves the lines behind it; by induction a text of such lines is read as the
document that they make. Main statement: `readDocument?_lines`. -/
namespace WordStem.Toml

/-! ## Plain words -/

/-- A word of the characters of keys, which needs no quotes as a key. -/
def IsPlain (word : List Char) : Prop :=
  word ≠ [] ∧ word.all isKeyCharacter = true

instance (word : List Char) : Decidable (IsPlain word) :=
  inferInstanceAs (Decidable (_ ∧ _))

theorem IsPlain.isKeyCharacter {word : List Char} (plain : IsPlain word) :
    ∀ character ∈ word, isKeyCharacter character = true :=
  List.all_eq_true.mp plain.2

theorem IsPlain.exists_cons {word : List Char} (plain : IsPlain word) :
    ∃ character others, word = character :: others ∧ Toml.isKeyCharacter character = true := by
  obtain ⟨character, others, rfl⟩ := List.exists_cons_of_ne_nil plain.1
  exact ⟨character, others, rfl, plain.isKeyCharacter character List.mem_cons_self⟩

section Characters

variable {character : Char} (plain : isKeyCharacter character = true)

include plain

theorem ne_of_isKeyCharacter {other : Char} (noKey : isKeyCharacter other = false) :
    character ≠ other := by
  rintro rfl
  rw [plain] at noKey
  cases noKey

theorem isBlank_of_isKeyCharacter : isBlank character = false := by
  have noSpace : character ≠ ' ' := ne_of_isKeyCharacter plain rfl
  have noTab : character ≠ '\t' := ne_of_isKeyCharacter plain rfl
  simp [isBlank, noSpace, noTab]

theorem isScalarCharacter_of_isKeyCharacter : isScalarCharacter character = true := by
  have noMark : "=,[]\x7b\x7d#\r\n".toList.contains character = false := by
    have noKeys : ("=,[]\x7b\x7d#\r\n".toList.all fun mark => !isKeyCharacter mark) = true := by
      decide
    rw [← Bool.not_eq_true]
    intro contained
    have noKey := List.all_eq_true.mp noKeys character (List.elem_iff.mp contained)
    rw [plain] at noKey
    cases noKey
  rw [isScalarCharacter, isBlank_of_isKeyCharacter plain, noMark]
  rfl

theorem isControl_of_isKeyCharacter : isControl character = false := by
  rw [← Bool.not_eq_true]
  intro control
  have noKey : ∀ code < 128, isControl (Char.ofNat code) = true →
      isKeyCharacter (Char.ofNat code) = false := by decide
  have small : character.toNat < 128 := by
    simp only [isControl, Bool.or_eq_true, Bool.and_eq_true, decide_eq_true_eq,
      beq_iff_eq] at control
    omega
  rw [← Char.ofNat_toNat character] at plain control
  rw [noKey _ small control] at plain
  cases plain

theorem beginsQuoted_of_isKeyCharacter (rest : List Char) :
    beginsQuoted (character :: rest) = false := by
  have noQuote : character ≠ '"' := ne_of_isKeyCharacter plain rfl
  have noApostrophe : character ≠ '\x27' := ne_of_isKeyCharacter plain rfl
  simp [beginsQuoted, noQuote, noApostrophe]

theorem skipBlanks_of_isKeyCharacter (rest : List Char) :
    skipBlanks (character :: rest) = character :: rest := by
  rw [skipBlanks, List.dropWhile_cons, isBlank_of_isKeyCharacter plain]
  rfl

theorem skipFiller_of_isKeyCharacter (rest : List Char) :
    skipFiller false (character :: rest) = character :: rest := by
  have noHash : character ≠ '#' := ne_of_isKeyCharacter plain rfl
  rw [skipFiller]
  · simp [noHash, isBlank_of_isKeyCharacter plain]
  · exact ne_of_isKeyCharacter plain rfl
  · intro others isReturn
    exact absurd isReturn (ne_of_isKeyCharacter plain rfl)

end Characters

/-! ## Values -/

/-- A text is read as a value wherever its line ends, and it begins with no blank. -/
def ReadsAs (text : List Char) (value : Value) : Prop :=
  (∀ rest, skipBlanks (text ++ rest) = text ++ rest) ∧
    ∀ rest, readValue? greatestDepth (text ++ '\n' :: rest) = some (value, '\n' :: rest)

theorem readQuoted?_plain {word : List Char}
    (plain : ∀ character ∈ word, isKeyCharacter character = true) (rest : List Char) :
    readQuoted? ⟨'"', false⟩ (word ++ '"' :: rest) = some (word, rest) := by
  induction word with
  | nil =>
    rw [List.nil_append, readQuoted?.eq_def]
    simp [Quotation.closing?]
  | cons character word ih =>
    obtain ⟨first, others⟩ := List.forall_mem_cons.mp plain
    have noQuote : character ≠ '"' := ne_of_isKeyCharacter first rfl
    have noBackslash : character ≠ '\\' := ne_of_isKeyCharacter first rfl
    have goesOn : Quotation.closing? ⟨'"', false⟩ (character :: (word ++ '"' :: rest)) = none := by
      simp [Quotation.closing?, noQuote]
    rw [List.cons_append, readQuoted?, goesOn]
    · simp only [noBackslash, isControl_of_isKeyCharacter first, ih others, false_and, if_false,
        Bool.false_eq_true, prepend, Option.map_some]
      rfl
    · exact ne_of_isKeyCharacter first rfl
    · intro others isReturn
      exact absurd isReturn (ne_of_isKeyCharacter first rfl)

theorem takeScalar_plain {word : List Char}
    (plain : ∀ character ∈ word, isKeyCharacter character = true) (rest : List Char) :
    takeScalar (word ++ '\n' :: rest) = (word, '\n' :: rest) := by
  induction word with
  | nil => rfl
  | cons character word ih =>
    obtain ⟨first, others⟩ := List.forall_mem_cons.mp plain
    rw [List.cons_append, takeScalar, isScalarCharacter_of_isKeyCharacter first, ih others]
    rfl

/-- A plain word that has a value without quotes is read as that value. -/
theorem readsAs_of_scalar? {word : List Char} {value : Value} (plain : IsPlain word)
    (valueEq : scalar? word = some value) : ReadsAs word value := by
  have scalar (rest : List Char) :
      readScalar? (word ++ '\n' :: rest) = some (value, '\n' :: rest) := by
    rw [readScalar?, takeScalar_plain plain.isKeyCharacter]
    simp only [valueEq, Option.map_some]
  obtain ⟨character, others, rfl, first⟩ := plain.exists_cons
  refine ⟨fun rest => skipBlanks_of_isKeyCharacter first _, fun rest => ?_⟩
  rw [List.cons_append, readValue?, beginsQuoted_of_isKeyCharacter first]
  · exact scalar rest
  · intro depth others _ bracket
    exact ne_of_isKeyCharacter first rfl (List.cons.inj bracket).1
  · intro depth others _ brace
    exact ne_of_isKeyCharacter first rfl (List.cons.inj brace).1

theorem readText?_plain {word : List Char} (plain : IsPlain word) (rest : List Char) :
    readText? true ('"' :: (word ++ '"' :: rest)) = some (String.ofList word, rest) := by
  have body := readQuoted?_plain plain.isKeyCharacter rest
  -- A plain word is not empty, so the quotes do not begin a long text.
  obtain ⟨second, others, rfl, first⟩ := plain.exists_cons
  have noQuote : second ≠ '"' := ne_of_isKeyCharacter first rfl
  obtain ⟨third, tail, tailEq⟩ : ∃ third tail, others ++ '"' :: rest = third :: tail := by
    cases others <;> exact ⟨_, _, rfl⟩
  rw [List.cons_append, tailEq] at body ⊢
  rw [readText?]
  simp only [noQuote, false_and, and_false, if_false, body, Option.map_some]

theorem readsAs_quoted {word : List Char} (plain : IsPlain word) :
    ReadsAs ('"' :: (word ++ ['"'])) (.text (String.ofList word)) := by
  refine ⟨fun rest => rfl, fun rest => ?_⟩
  have quoted := readText?_plain plain ('\n' :: rest)
  rw [List.cons_append, List.append_assoc, List.singleton_append, readValue?]
  · have begins : beginsQuoted ('"' :: (word ++ '"' :: '\n' :: rest)) = true := rfl
    rw [begins, quoted]
    rfl
  · intro depth others _ bracket
    cases bracket
  · intro depth others _ brace
    cases brace

theorem readsAs_bool (value : Bool) : ReadsAs (toString value).toList (.bool value) := by
  cases value with
  | false => exact readsAs_of_scalar? (by decide) rfl
  | true => exact readsAs_of_scalar? (by decide) rfl

theorem readsAs_integer {value : Nat} (small : value < Nat.pow 2 128) :
    ReadsAs (toString value).toList (.integer value) := by
  rw [Nat.toString_eq_repr, Nat.toList_repr]
  apply readsAs_of_scalar? ⟨Nat.toDigits_ne_nil, List.all_eq_true.mpr fun digit member => ?_⟩
    (scalar?_toDigits small)
  have isDigit := Nat.isDigit_of_mem_toDigits (by decide) (by decide) member
  simp [isKeyCharacter, Char.isAlphanum, isDigit]

/-! ## Lines -/

/-- A value that a line of settings holds. -/
inductive Scalar where
  | name (text : String)
  | truth (value : Bool)
  | count (value : Nat)
deriving DecidableEq, Repr

namespace Scalar

def text : Scalar → List Char
  | name text => '"' :: (text.toList ++ ['"'])
  | truth value => (toString value).toList
  | count value => (toString value).toList

def value : Scalar → Value
  | name text => .text text
  | truth value => .bool value
  | count value => .integer value

/-- Whether a value is read as it is written: a name needs no escapes, and a number is not too
large. -/
def IsReadable : Scalar → Prop
  | name text => IsPlain text.toList
  | truth _ => True
  | count value => value < Nat.pow 2 128

theorem readsAs {scalar : Scalar} (readable : scalar.IsReadable) :
    ReadsAs scalar.text scalar.value := by
  cases scalar with
  | name text =>
    have quoted := readsAs_quoted readable
    rwa [String.ofList_toList] at quoted
  | truth value => exact readsAs_bool value
  | count value => exact readsAs_integer readable

end Scalar

/-- A line of settings: a header with a blank line in front of it, or an assignment. -/
inductive Line where
  | header (key : String)
  | assignment (key : String) (scalar : Scalar)
deriving DecidableEq, Repr

namespace Line

def text : Line → List Char
  | header key => '\n' :: '[' :: (key.toList ++ [']', '\n'])
  | assignment key scalar => key.toList ++ ([' ', '=', ' '] ++ (scalar.text ++ ['\n']))

/-- Puts what a line says in front of a document. -/
def addTo : Line → Document → Document
  | header key, document => document.withHeader (.table ⟨[], key⟩)
  | assignment key scalar, document => document.withAssignment ⟨⟨[], key⟩, scalar.value⟩

def IsReadable : Line → Prop
  | header key => IsPlain key.toList
  | assignment key scalar => IsPlain key.toList ∧ scalar.IsReadable

end Line

theorem readKey?_plain {key : String} (plain : IsPlain key.toList) {mark : Char}
    (noKey : isKeyCharacter mark = false) (rest : List Char) :
    readKey? (key.toList ++ mark :: rest) = some (key, mark :: rest) := by
  obtain ⟨character, others, keyEq, first⟩ := plain.exists_cons
  have unquoted : beginsQuoted (key.toList ++ mark :: rest) = false := by
    rw [keyEq, List.cons_append]
    exact beginsQuoted_of_isKeyCharacter first _
  have taken : (key.toList ++ mark :: rest).takeWhile isKeyCharacter = key.toList := by
    rw [List.takeWhile_append_of_pos plain.isKeyCharacter,
      List.takeWhile_cons_of_neg (by simp [noKey]), List.append_nil]
  have left : (key.toList ++ mark :: rest).dropWhile isKeyCharacter = mark :: rest := by
    rw [List.dropWhile_append_of_pos plain.isKeyCharacter,
      List.dropWhile_cons_of_neg (by simp [noKey])]
  have something : key.toList.isEmpty = false := by rw [keyEq, List.isEmpty_cons]
  rw [readKey?, unquoted, taken, left, something, String.ofList_toList]
  rfl

theorem skipBlanks_plain {key : List Char} (plain : IsPlain key) (rest : List Char) :
    skipBlanks (key ++ rest) = key ++ rest := by
  obtain ⟨character, others, rfl, first⟩ := plain.exists_cons
  exact skipBlanks_of_isKeyCharacter first _

theorem readPath?_plain {key : String} (plain : IsPlain key.toList) {mark : Char}
    (noKey : isKeyCharacter mark = false) (rest : List Char)
    (noPoint : ∀ others, skipBlanks (mark :: rest) ≠ '.' :: others) (bound : Nat) :
    readPath? (bound + 1) (key.toList ++ mark :: rest) =
      some (⟨[], key⟩, skipBlanks (mark :: rest)) := by
  rw [readPath?, skipBlanks_plain plain, readKey?_plain plain noKey]
  -- The path ends with its first key, since no point comes next.
  simp only [bind, Option.bind]
  rfl

theorem readHeader?_plain {key : String} (plain : IsPlain key.toList) (rest : List Char) :
    readHeader? ('[' :: (key.toList ++ ']' :: rest)) = some (.table ⟨[], key⟩, rest) := by
  have path := readPath?_plain plain (rfl : isKeyCharacter ']' = false) rest
    (fun others point => by cases point) 79
  rw [readHeader?]
  · rw [show longestPath = 79 + 1 from rfl, path]
    rfl
  · intro others bracket
    obtain ⟨character, letters, keyEq, first⟩ := plain.exists_cons
    rw [keyEq, List.cons_append] at bracket
    exact ne_of_isKeyCharacter first rfl (List.cons.inj bracket).1

theorem readAssignment?_plain {key : String} (plain : IsPlain key.toList) {scalar : Scalar}
    (readable : scalar.IsReadable) (rest : List Char) :
    readAssignment? skipBlanks (readValue? greatestDepth)
        (key.toList ++ ([' ', '=', ' '] ++ (scalar.text ++ '\n' :: rest))) =
      some (⟨⟨[], key⟩, scalar.value⟩, '\n' :: rest) := by
  obtain ⟨noBlank, reads⟩ := Scalar.readsAs readable
  have path := readPath?_plain plain (rfl : isKeyCharacter ' ' = false)
    ('=' :: ' ' :: (scalar.text ++ '\n' :: rest)) (fun others point => by cases point) 79
  have equals : take? '=' (skipBlanks (skipBlanks
      (' ' :: '=' :: ' ' :: (scalar.text ++ '\n' :: rest)))) =
      some (' ' :: (scalar.text ++ '\n' :: rest)) := rfl
  have begins : skipBlanks (' ' :: (scalar.text ++ '\n' :: rest)) =
      scalar.text ++ '\n' :: rest := noBlank _
  rw [readAssignment?, show longestPath = 79 + 1 from rfl]
  simp only [List.cons_append, List.nil_append, path, equals, begins, reads, bind, Option.bind]
  rfl

theorem endOfLine?_newline (rest : List Char) : endOfLine? ('\n' :: rest) = some rest := rfl

/-- A line is read as what it says, and the lines behind it are read as without it. -/
theorem readLines?_line {line : Line} (readable : line.IsReadable) (bound : Nat)
    (rest : List Char) :
    readLines? (bound + 1) (line.text ++ rest) = (readLines? bound rest).map line.addTo := by
  cases line with
  | header key =>
    have skipped : skipFiller false ('\n' :: '[' :: (key.toList ++ ']' :: '\n' :: rest)) =
        '[' :: (key.toList ++ ']' :: '\n' :: rest) := rfl
    have textEq : (Line.header key).text ++ rest =
        '\n' :: '[' :: (key.toList ++ ']' :: '\n' :: rest) := by
      simp [Line.text]
    rw [textEq, readLines?, skipped]
    simp only [readHeader?_plain readable, bind, Option.bind, endOfLine?_newline]
    cases readLines? bound rest <;> rfl
  | assignment key scalar =>
    obtain ⟨plain, scalarReadable⟩ := readable
    have read := readAssignment?_plain plain scalarReadable rest
    obtain ⟨character, others, keyEq, first⟩ := plain.exists_cons
    have textEq : (Line.assignment key scalar).text ++ rest =
        character :: (others ++ ([' ', '=', ' '] ++ (scalar.text ++ '\n' :: rest))) := by
      simp [Line.text, keyEq]
    rw [keyEq, List.cons_append] at read
    rw [textEq, readLines?, skipFiller_of_isKeyCharacter first]
    split
    case h_1 isEmpty => cases isEmpty
    case h_2 others bracket =>
      exact absurd (List.cons.inj bracket).1 (ne_of_isKeyCharacter first rfl)
    case h_3 =>
      simp only [read, bind, Option.bind, endOfLine?_newline]
      cases readLines? bound rest <;> rfl

/-- The document that lines make. -/
def documentOf (lines : List Line) : Document :=
  lines.foldr Line.addTo { leading := [], sections := [] }

/-- A text of lines is read one line after the other, so the bound need only exceed their number. -/
theorem readLines?_lines {lines : List Line} (readable : ∀ line ∈ lines, line.IsReadable)
    {bound : Nat} (enough : lines.length < bound) :
    readLines? bound (lines.flatMap Line.text) = some (documentOf lines) := by
  induction lines generalizing bound with
  | nil =>
    cases bound with
    | zero => exact absurd enough (Nat.not_lt_zero _)
    | succ bound => rfl
  | cons line lines ih =>
    obtain ⟨first, others⟩ := List.forall_mem_cons.mp readable
    cases bound with
    | zero => exact absurd enough (Nat.not_lt_zero _)
    | succ bound =>
      have read := ih others (Nat.lt_of_succ_lt_succ enough)
      rw [List.flatMap_cons, readLines?_line first, read]
      rfl

/-- A line is not empty, and no byte order mark stands in front of it. -/
theorem Line.exists_text_eq_cons {line : Line} (readable : line.IsReadable) :
    ∃ character others, line.text = character :: others ∧ character ≠ '\ufeff' := by
  cases line with
  | header key => exact ⟨'\n', _, rfl, by decide⟩
  | assignment key scalar =>
    obtain ⟨character, others, keyEq, first⟩ := readable.1.exists_cons
    exact ⟨character, _, by rw [Line.text, keyEq]; rfl, ne_of_isKeyCharacter first rfl⟩

theorem length_le_length_flatMap_text {lines : List Line}
    (readable : ∀ line ∈ lines, line.IsReadable) :
    lines.length ≤ (lines.flatMap Line.text).length := by
  induction lines with
  | nil => exact Nat.le_refl 0
  | cons line lines ih =>
    obtain ⟨first, others⟩ := List.forall_mem_cons.mp readable
    obtain ⟨character, rest, textEq, -⟩ := Line.exists_text_eq_cons first
    have shorter := ih others
    rw [List.flatMap_cons, List.length_append, textEq, List.length_cons, List.length_cons]
    omega

/-- A text of lines is read as the document that the lines make. -/
theorem readDocument?_lines {lines : List Line} (readable : ∀ line ∈ lines, line.IsReadable) :
    readDocument? (String.ofList (lines.flatMap Line.text)) = some (documentOf lines) := by
  have enough := Nat.lt_succ_of_le (length_le_length_flatMap_text readable)
  have read := readLines?_lines readable enough
  rw [readDocument?, String.toList_ofList]
  split
  case h_1 text rest marked =>
    cases lines with
    | nil => cases marked
    | cons line lines =>
      obtain ⟨character, others, textEq, noMark⟩ :=
        Line.exists_text_eq_cons (readable line List.mem_cons_self)
      rw [List.flatMap_cons, textEq] at marked
      exact absurd (List.cons.inj marked).1 noMark
  case h_2 => exact read

end WordStem.Toml
