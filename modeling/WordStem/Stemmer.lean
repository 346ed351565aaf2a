import WordStem.Failure
import WordStem.Hungarian
import WordStem.ProgramStemmer

/-! # Stemmers of languages

The stemmer of a language is a rule program where there is one. Some languages are served from
outside, by stemmers that are not part of this library: such a stemmer is any function of words
here. A language without stemming keeps its words. -/
namespace WordStem

/-- Stems words one after the other with any stemmer, which answers about a word and goes on. -/
def stemEach {Working : Type} (stem : Working → String → StemAnswer × Working)
    (stemmer : Working) : List String → List StemAnswer × Working
  | [] => ([], stemmer)
  | word :: others =>
    let (answer, next) := stem stemmer word
    let (answers, last) := stemEach stem next others
    (answer :: answers, last)

/-- A stemmer of a language. -/
inductive Stemmer where
  | program (stemmer : ProgramStemmer Hungarian.Regions)
  | library (stem : String → String)
  | identity

/-- The stems of the languages that are served from outside. -/
abbrev OutsideStems := Language → String → String

/-- Nothing is supplied from outside, so words are kept. -/
def OutsideStems.none : OutsideStems := fun _ word => word

namespace Stemmer

/-- The stemmer of a language that is served from outside. -/
def ofLibraryWith (outside : OutsideStems) (language : Language) : Except Failure Stemmer :=
  match language.engine with
  | .library => .ok (library (outside language))
  | .snowball | .identity => .error (.unknownLanguage language.name)

def ofLanguageWith (outside : OutsideStems) (language : Language) : Except Failure Stemmer :=
  match language.engine with
  | .snowball =>
    match ProgramStemmer.ofProgram Hungarian.program with
    | .ok stemmer => .ok (program stemmer)
    | .error cause => .error (.defect cause)
  | .library => ofLibraryWith outside language
  | .identity => .ok identity

def ofLibrary (language : Language) : Except Failure Stemmer :=
  ofLibraryWith .none language

def ofLanguage (language : Language) : Except Failure Stemmer :=
  ofLanguageWith .none language

def stem (stemmer : Stemmer) (word : String) : StemAnswer × Stemmer :=
  match stemmer with
  | program inner =>
    let (answer, next) := inner.stem word
    (answer, program next)
  | library stem =>
    let text := stem word
    (if text = word then .same else .stem text, library stem)
  | identity => (.same, identity)

def stemAll (stemmer : Stemmer) (words : List String) : List StemAnswer × Stemmer :=
  stemEach stem stemmer words

end Stemmer

/-- Counts the answers about words, one after the other. -/
def StemCounts.recordAll (counts : StemCounts) (answers : List StemAnswer) : StemCounts :=
  answers.foldl (fun counts answer => counts.record answer.ending) counts

end WordStem
