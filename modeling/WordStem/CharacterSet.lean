/-! # Character sets

A class of characters, such as the vowels of a language, is a bit pattern over an interval of
code points. Bits outside the pattern count as absent, so a short pattern describes an interval
whose upper part is empty. -/
namespace WordStem

/-- A set of characters between two bounds: bit `n` of the pattern says whether the character
`n` places after the lowest one belongs to the set. -/
structure CharacterSet where
  pattern : Nat
  lowest : Char
  highest : Char
deriving DecidableEq, Repr

namespace CharacterSet

/-- The set whose pattern is written as bytes, the byte of the lowest characters first. -/
def ofBytes (bytes : List UInt8) (lowest highest : Char) : CharacterSet where
  pattern := bytes.foldr (fun byte pattern => byte.toNat + 256 * pattern) 0
  lowest := lowest
  highest := highest

/-- The set with the given members, which are expected between the bounds. -/
def ofMembers (members : List Char) (lowest highest : Char) : CharacterSet where
  pattern := members.foldr
    (fun member pattern => pattern ||| 1 <<< (member.toNat - lowest.toNat)) 0
  lowest := lowest
  highest := highest

/-- Membership; characters outside the bounds never belong to the set. -/
def contains (set : CharacterSet) (character : Char) : Bool :=
  set.lowest ≤ character && character ≤ set.highest &&
    set.pattern.testBit (character.toNat - set.lowest.toNat)

/-- All members in ascending order. The bits of the pattern end at its binary logarithm. -/
def members (set : CharacterSet) : List Char :=
  (List.range (set.pattern.log2 + 1)).filterMap fun place =>
    let code := set.lowest.toNat + place
    if code.isValidChar then
      let character := Char.ofNat code
      if set.contains character then some character else none
    else
      none

end CharacterSet

end WordStem
