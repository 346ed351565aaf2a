import WordStem.TomlScalar

/-! # Reading TOML

Reads the text of a TOML document. Lists and inline tables may be nested up to a fixed depth, and
paths may have up to a fixed number of keys. Line breaks and comments may stand between the parts
of lists and inline tables, and around the equals signs of inline tables. -/
namespace WordStem

namespace Toml

/-- The control characters that no text may hold as they are. -/
def isControl (character : Char) : Bool :=
  (character.toNat < 32 && character != '\t') || character.toNat == 127

def skipBlanks (text : List Char) : List Char :=
  text.dropWhile isBlank

def lineBreak? : List Char → Option (List Char)
  | '\n' :: rest => some rest
  | '\r' :: '\n' :: rest => some rest
  | _ => none

def skipSpace : List Char → List Char
  | '\n' :: rest => skipSpace rest
  | '\r' :: '\n' :: rest => skipSpace rest
  | character :: rest => if isBlank character then skipSpace rest else character :: rest
  | [] => []

/-- Drops leading blanks, line breaks and comments. A comment ends with its line. -/
def skipFiller (inComment : Bool) : List Char → List Char
  | '\n' :: rest => skipFiller false rest
  | '\r' :: '\n' :: rest => skipFiller false rest
  | character :: rest =>
    if inComment then
      if isControl character then character :: rest else skipFiller true rest
    else if character = '#' then skipFiller true rest
    else if isBlank character then skipFiller false rest
    else character :: rest
  | [] => []

/-- Reads the rest of a line that holds nothing more but blanks and a comment. -/
def endOfLine? (text : List Char) : Option (List Char) :=
  let rest :=
    match skipBlanks text with
    | '#' :: comment => comment.dropWhile fun character => !isControl character
    | rest => rest
  if rest = [] then some [] else lineBreak? rest

/-! ## Texts in quotes -/

/-- How a text is quoted: the quote, and whether three of them stand on each side, in which case
the text may hold line breaks. -/
structure Quotation where
  quote : Char
  long : Bool

/-- The end of a quoted text. Up to two quotes before a long end still belong to the text. Answers
what belongs to the text, and what comes after the end. -/
def Quotation.closing? (quotation : Quotation) (text : List Char) :
    Option (List Char × List Char) :=
  let count := (text.takeWhile (· == quotation.quote)).length
  if quotation.long then
    if count < 3 then none
    else
      let kept := min count 5 - 3
      some (List.replicate kept quotation.quote, text.drop (kept + 3))
  else if count = 0 then none
  else some ([], text.drop 1)

/-- The character whose number stands in a count of digits to the base sixteen. -/
def numbered? (count : Nat) (text : List Char) : Option Char :=
  let digits := text.take count
  let number := valueOf 16 digits
  if digits.length = count ∧ digits.all (isDigitOf 16) ∧ number.isValidChar then
    some (Char.ofNat number)
  else
    none

/-- What the characters behind a backslash mean, and how many they are. In a long text a backslash
at the end of a line makes the line go on at the next visible character. -/
def escape? (long : Bool) : List Char → Option (List Char × Nat)
  | [] => none
  | mark :: rest =>
    match mark with
    | '"' => some (['"'], 1)
    | '\\' => some (['\\'], 1)
    | 'b' => some (['\x08'], 1)
    | 'e' => some (['\x1b'], 1)
    | 'f' => some (['\x0c'], 1)
    | 'n' => some (['\n'], 1)
    | 'r' => some (['\r'], 1)
    | 't' => some (['\t'], 1)
    | 'x' => (numbered? 2 rest).map fun character => ([character], 3)
    | 'u' => (numbered? 4 rest).map fun character => ([character], 5)
    | 'U' => (numbered? 8 rest).map fun character => ([character], 9)
    | _ =>
      if long && (lineBreak? (skipBlanks (mark :: rest))).isSome then
        some ([], (mark :: rest).length - (skipSpace (mark :: rest)).length)
      else
        none

/-- Puts characters in front of a text that has been read. -/
def prepend (characters : List Char) (read? : Option (List Char × List Char)) :
    Option (List Char × List Char) :=
  read?.map fun (text, rest) => (characters ++ text, rest)

/-- Reads a quoted text from behind its opening quotes. -/
def readQuoted? (quotation : Quotation) (text : List Char) : Option (List Char × List Char) :=
  match quotation.closing? text with
  | some closing => some closing
  | none =>
    match text with
    | [] => none
    | '\n' :: rest => if quotation.long then prepend ['\n'] (readQuoted? quotation rest) else none
    | '\r' :: '\n' :: rest =>
      if quotation.long then prepend ['\n'] (readQuoted? quotation rest) else none
    | character :: rest =>
      if character = '\\' ∧ quotation.quote = '"' then
        match escape? quotation.long rest with
        | some (meant, count) => prepend meant (readQuoted? quotation (rest.drop count))
        | none => none
      else if isControl character then none
      else prepend [character] (readQuoted? quotation rest)
termination_by text.length
decreasing_by all_goals (simp only [List.length_cons, List.length_drop]; omega)

/-- Reads a text with its quotes. Three quotes are tried first if long texts are allowed; a line
break right behind them does not belong to the text. -/
def readText? (longAllowed : Bool) : List Char → Option (String × List Char)
  | quote :: rest =>
    let opened? :=
      match rest with
      | second :: third :: rest =>
        if longAllowed ∧ second = quote ∧ third = quote then some ((lineBreak? rest).getD rest)
        else none
      | _ => none
    let read? :=
      match opened? with
      | some rest => readQuoted? ⟨quote, true⟩ rest
      | none => readQuoted? ⟨quote, false⟩ rest
    read?.map fun (text, rest) => (String.ofList text, rest)
  | [] => none

def beginsQuoted (text : List Char) : Bool :=
  text.head? == some '"' || text.head? == some '\x27'

/-! ## Keys and values -/

def isKeyCharacter (character : Char) : Bool :=
  character.isAlphanum || character == '_' || character == '-'

def readKey? (text : List Char) : Option (String × List Char) :=
  if beginsQuoted text then readText? false text
  else if (text.takeWhile isKeyCharacter).isEmpty then none
  else some (String.ofList (text.takeWhile isKeyCharacter), text.dropWhile isKeyCharacter)

/-- Reads keys with points between them. The bound limits their number. -/
def readPath? : Nat → List Char → Option (Path × List Char)
  | 0, _ => none
  | bound + 1, text => do
    let (key, rest) ← readKey? (skipBlanks text)
    match skipBlanks rest with
    | '.' :: rest =>
      let (path, rest) ← readPath? bound rest
      return ({ path with parents := key :: path.parents }, rest)
    | rest => return ({ parents := [], key }, rest)

def longestPath : Nat := 80

/-- Reads an assignment, given what may stand around the equals sign and how a value is read. -/
def readAssignment? (skip : List Char → List Char)
    (readOne? : List Char → Option (Value × List Char)) (text : List Char) :
    Option (Assignment × List Char) := do
  let (path, rest) ← readPath? longestPath text
  let rest ← take? '=' (skip rest)
  let (value, rest) ← readOne? (skip rest)
  return ({ path, value }, rest)

/-- Reads parts with commas between them up to a closing bracket, given how a part is read. There
may be a comma after the last part. The bound limits the number of parts. -/
def readSeries? {Part : Type} (closing : Char) (readOne? : List Char → Option (Part × List Char)) :
    Nat → List Char → Option (List Part × List Char)
  | 0, _ => none
  | bound + 1, text =>
    let text := skipFiller false text
    match take? closing text with
    | some rest => some ([], rest)
    | none => do
      let (part, rest) ← readOne? text
      let rest := skipFiller false rest
      match take? closing rest with
      | some rest => return ([part], rest)
      | none =>
        let (parts, rest) ← readSeries? closing readOne? bound (← take? ',' rest)
        return (part :: parts, rest)

/-- Reads a value, in which lists and inline tables are nested at most up to a depth. -/
def readValue? : Nat → List Char → Option (Value × List Char)
  | depth, text =>
    if beginsQuoted text then
      (readText? true text).map fun (value, rest) => (.text value, rest)
    else
      match depth, text with
      | depth + 1, '[' :: rest => do
        let (items, rest) ← readSeries? ']' (readValue? depth) text.length rest
        return (.list false items, rest)
      | depth + 1, '\x7b' :: rest => do
        let readOne? := readAssignment? (skipFiller false) (readValue? depth)
        let (assignments, rest) ← readSeries? '\x7d' readOne? text.length rest
        return (.table .inline (← fill [] assignments), rest)
      | _, text => readScalar? text

def greatestDepth : Nat := 80

/-! ## Documents -/

def readHeader? : List Char → Option (Header × List Char)
  | '[' :: '[' :: rest => do
    let (path, rest) ← readPath? longestPath rest
    return (.item path, ← take? ']' (← take? ']' rest))
  | '[' :: rest => do
    let (path, rest) ← readPath? longestPath rest
    return (.table path, ← take? ']' rest)
  | _ => none

def Document.withAssignment (document : Document) (assignment : Assignment) : Document :=
  { document with leading := assignment :: document.leading }

/-- Puts a header in front of a document, so that it heads the leading assignments. -/
def Document.withHeader (document : Document) (header : Header) : Document :=
  { leading := [], sections := { header, assignments := document.leading } :: document.sections }

/-- Reads headers and assignments, each of which ends its line. The bound limits their number. -/
def readLines? : Nat → List Char → Option Document
  | 0, _ => none
  | bound + 1, text =>
    match skipFiller false text with
    | [] => some { leading := [], sections := [] }
    | '[' :: rest => do
      let (header, rest) ← readHeader? ('[' :: rest)
      let document ← readLines? bound (← endOfLine? rest)
      return document.withHeader header
    | text => do
      let (assignment, rest) ← readAssignment? skipBlanks (readValue? greatestDepth) text
      let document ← readLines? bound (← endOfLine? rest)
      return document.withAssignment assignment

/-- Reads a document. A byte order mark in front of it is skipped. -/
def readDocument? (text : String) : Option Document :=
  let text :=
    match text.toList with
    | '\ufeff' :: rest => rest
    | text => text
  readLines? (text.length + 1) text

def read? (text : String) : Option (List (String × Value)) :=
  readDocument? text >>= Document.entries?

end Toml

end WordStem
