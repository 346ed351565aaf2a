import WordStem.CaseTable

/-! # Lowercase text

Text is lowercased character by character with one exception: a capital sigma becomes a final
sigma where a cased letter comes before it and none after it, characters that do not count for
case being passed over on both sides. -/
namespace WordStem

/-- Whether a character has an uppercase, lowercase or titlecase form. -/
def isCased (character : Char) : Bool :=
  casedCodePoints.contains character

/-- Whether a character is passed over when the case context is looked at. -/
def isCaseIgnorable (character : Char) : Bool :=
  caseIgnorableCodePoints.contains character

def LowercaseRun.covers (run : LowercaseRun) (character : Char) : Bool :=
  let code := character.toNat
  run.first ≤ code && code ≤ run.last && (code - run.first) % run.stride == 0

/-- The lowercase form of a character on its own. The capital I with a dot is the one character
whose lowercase form has two characters. -/
def lowercaseCharacter (character : Char) : List Char :=
  if character = 'İ' then
    ['i', '\u0307']
  else
    match lowercaseRuns.find? fun run => run.covers character with
    | some run => [Char.ofNat ((character.toNat : Int) + run.offset).toNat]
    | none => [character]

/-- Whether the first character of a text that counts for case is a cased one. -/
def meetsCased (text : List Char) : Bool :=
  match text.dropWhile isCaseIgnorable with
  | [] => false
  | character :: _ => isCased character

/-- The lowercase form of a text that follows the characters in `before`, which are given in
reverse. -/
def lowercaseAfter (before : List Char) : List Char → List Char
  | [] => []
  | character :: after =>
    let lowered :=
      if character = 'Σ' then
        if meetsCased before && !meetsCased after then ['ς'] else ['σ']
      else
        lowercaseCharacter character
    lowered ++ lowercaseAfter (character :: before) after

def lowercase (text : List Char) : List Char :=
  lowercaseAfter [] text

end WordStem
