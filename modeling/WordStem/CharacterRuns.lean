/-! # Runs of characters

Cuts a text into the maximal runs of the characters that pass a test, such as the letters of a
sentence or the words between white space. -/
namespace WordStem

/-- The maximal runs of the characters that pass a test, in order, when the characters in
`current`, in reverse, have been read of the first run. -/
def runsFrom (keep : Char → Bool) (current : List Char) : List Char → List (List Char)
  | [] => if current.isEmpty then [] else [current.reverse]
  | character :: rest =>
    if keep character then
      runsFrom keep (character :: current) rest
    else if current.isEmpty then
      runsFrom keep [] rest
    else
      current.reverse :: runsFrom keep [] rest

/-- The maximal runs of the characters that pass a test. -/
def runs (keep : Char → Bool) (text : List Char) : List (List Char) :=
  runsFrom keep [] text

end WordStem
