import WordStem.Configuration
import WordStem.DocumentVectors
import WordStem.Invocation
import WordStem.PairListText
import WordStem.SimilarityRanking

/-! # Reports of the commands

What each command prints, for people and in JSON, given its results. A report is the list of what is
printed one after the other, each with a line break behind it. -/
namespace WordStem

def padBehind (width : Nat) (text : String) : String :=
  text ++ String.ofList (List.replicate (width - text.length) ' ')

def padInFront (width : Nat) (text : String) : String :=
  String.ofList (List.replicate (width - text.length) ' ') ++ text

/-- A JSON value, which takes several lines but is printed at once. -/
def jsonReport (value : JsonValue) : List String :=
  [value.indented]

/-! ## Languages -/

/-- The languages and what stems each of them, with a mark at the chosen one. -/
def languagesReport (format : OutputFormat) (chosen : Language) : List String :=
  match format with
  | .human =>
    Language.all.map fun language =>
      padBehind 12 language.name ++ " " ++ language.engine.name ++
        if language = chosen then " *" else ""
  | .json =>
    jsonReport (.list (Language.all.map fun language =>
      .record [("default", .bool (language = chosen)), ("engine", .text language.engine.name),
        ("name", .text language.name)]))

/-! ## Stems -/

def stemsReport (format : OutputFormat) (language : Language) (words : List String)
    (answers : List StemAnswer) : List String :=
  match format with
  | .human =>
    List.zipWith (fun word answer => word ++ " -> " ++ answer.stemOr word) words answers
  | .json =>
    jsonReport (.record [
      ("language", .text language.name),
      ("stems", .list (List.zipWith (fun word (answer : StemAnswer) =>
        .record [("changed", .bool answer.stem?.isSome), ("stem", .text (answer.stemOr word)),
          ("word", .text word)]) words answers))])

/-! ## Vectors -/

/-- Documents that come from files, with their weights and the paths as they are shown. -/
structure Corpus where
  paths : List String
  documents : DocumentVectors
  weighting : Weighting
  vectors : List SparseMapping

/-- The terms of a corpus and the vector of each file. People who want it quiet are spared the
terms. -/
def vectorsReport (format : OutputFormat) (quiet : Bool) (language : Language) (corpus : Corpus) :
    List String :=
  let terms := corpus.documents.vocabulary.terms.toList
  match format with
  | .human =>
    let heading := "Vocabulary (" ++ toString terms.length ++ " terms, " ++ corpus.weighting.name ++
      " weighting):"
    let listed := terms.zipIdx.map fun (term, index) =>
      "  " ++ padInFront 4 (toString index) ++ "  " ++ term
    let vectors := List.zipWith (fun path (vector : SparseMapping) =>
      path ++ ": " ++ vector.description) corpus.paths corpus.vectors
    if quiet then vectors else heading :: listed ++ "" :: vectors
  | .json =>
    jsonReport (.record [
      ("documents", .list (List.zipWith (fun path (vector : SparseMapping) =>
        .record [("path", .text path), ("vector", vector.toJson)]) corpus.paths corpus.vectors)),
      ("language", .text language.name),
      ("vocabulary", .list (terms.map .text)),
      ("weighting", .text corpus.weighting.name)])

/-! ## Similar pairs -/

def Corpus.path (corpus : Corpus) (position : Nat) : String :=
  corpus.paths.getD position ""

def pairsReport (format : OutputFormat) (quiet : Bool) (corpus : Corpus)
    (pairs : List SimilarityPair) : List String :=
  match format with
  | .human =>
    let note := if pairs.isEmpty && !quiet then ["No similar pairs found"] else []
    note ++ pairs.map fun pair =>
      fixedPlaces 4 pair.score.value ++ "  " ++ corpus.path pair.left ++ "  " ++
        corpus.path pair.right
  | .json =>
    jsonReport (.list (pairs.map fun pair =>
      .record [("left", .text (corpus.path pair.left)), ("right", .text (corpus.path pair.right)),
        ("score", .real pair.score.value)]))

end WordStem
