import WordStem.CodePointSet

/-! # White space

The characters with the Unicode property White_Space, and the two ways in which text is cut at
them. -/
namespace WordStem

def whiteSpaceCodePoints : CodePointSet where
  changes := [
    9, 14, 32, 33, 133, 134, 160, 161, 5760, 5761, 8192, 8203, 8232, 8234, 8239, 8240, 8287,
    8288, 12288, 12289]

def isWhiteSpace (character : Char) : Bool :=
  whiteSpaceCodePoints.contains character

def trimWhiteSpace (text : List Char) : List Char :=
  ((text.dropWhile isWhiteSpace).reverse.dropWhile isWhiteSpace).reverse

end WordStem
