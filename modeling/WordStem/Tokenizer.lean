import WordStem.AlphanumericTable
import WordStem.CharacterRuns
import WordStem.Lowercase
import WordStem.Stemmer
import WordStem.StopWords

/-! # Tokenizing text

The tokens of a text are the maximal runs of letters and numbers of its lowercase form, less the
runs that are too short and the stop words of the language. -/
namespace WordStem

def isAlphanumeric (character : Char) : Bool :=
  alphanumericCodePoints.contains character

/-- How text is cut into tokens: the language, whether its stop words are left out, and the least
number of characters of a token. -/
structure TokenOptions where
  language : Language
  stopWords : Bool
  minimumLength : Nat
deriving DecidableEq, Repr

namespace TokenOptions

/-- Whether a token is one of the stop words to be left out. -/
def excludes (options : TokenOptions) (token : String) : Bool :=
  options.stopWords &&
    match options.language.stopWords? with
    | some words => words.contains token
    | none => false

def admits (options : TokenOptions) (run : List Char) : Bool :=
  options.minimumLength ≤ run.length && !options.excludes (String.ofList run)

end TokenOptions

def tokenize (options : TokenOptions) (text : String) : List String :=
  ((runs isAlphanumeric (lowercase text.toList)).filter options.admits).map String.ofList

/-- Cuts a text into tokens and puts the stem in place of each, with any stemmer. -/
def tokenizeAndStemWith {Working : Type} (stem : Working → String → StemAnswer × Working)
    (options : TokenOptions) (stemmer : Working) (text : String) : List String × Working :=
  let tokens := tokenize options text
  let (answers, next) := stemEach stem stemmer tokens
  (List.zipWith StemAnswer.stemOr answers tokens, next)

def tokenizeAndStem (options : TokenOptions) (stemmer : Stemmer) (text : String) :
    List String × Stemmer :=
  tokenizeAndStemWith Stemmer.stem options stemmer text

end WordStem
