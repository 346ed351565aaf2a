import WordStem.SettingsFormat
import WordStem.SparseMapping
import WordStem.Tokenizer
import WordStem.TomlText
import WordStem.Weighting

/-! # Configuration

The settings of the program, their defaults, and how they are written and read. Every setting may
be left out of a text. -/
namespace WordStem

/-- How document vectors are made: the room that each starts with, the weighting, and whether
vectors are scaled to unit length. -/
structure VectorSettings where
  initialCapacity : Nat := SparseMapping.defaultCapacity
  weighting : Weighting := .tf
  normalize : Bool := false
deriving DecidableEq, Repr

/-- All settings: the language, whether stop words are left out, the least length of a token, and
how vectors are made. -/
structure Configuration where
  language : Language := .hungarian
  stopWords : Bool := true
  minimumTokenLength : Nat := 1
  vector : VectorSettings := {}
deriving DecidableEq, Repr

namespace Configuration

def default : Configuration := {}

def tokenOptions (configuration : Configuration) : TokenOptions where
  language := configuration.language
  stopWords := configuration.stopWords
  minimumLength := configuration.minimumTokenLength

/-- Refuses settings that make no sense: no token is shorter than one character. -/
def validate (configuration : Configuration) : Except Failure Unit :=
  if configuration.minimumTokenLength = 0 then
    .error (.invalidValue "min_token_len (must be at least 1)" "0")
  else
    .ok ()

def readVector? {Value : Type} (format : SettingsFormat Value) (value : Value) :
    Option VectorSettings := do
  let group ← format.group? ["initial_capacity", "weighting", "normalize"] value
  let settings : VectorSettings := {}
  return {
    initialCapacity :=
      ← SettingsFormat.read? group "initial_capacity" settings.initialCapacity format.count?
    weighting :=
      ← SettingsFormat.read? group "weighting" settings.weighting
        fun value => format.name? value >>= Weighting.ofName?
    normalize := ← SettingsFormat.read? group "normalize" settings.normalize format.truth? }

def read? {Value : Type} (format : SettingsFormat Value) (value : Value) :
    Option Configuration := do
  let group ← format.group? ["language", "stop_words", "min_token_len", "vector"] value
  return {
    language :=
      ← SettingsFormat.read? group "language" default.language
        fun value => format.name? value >>= Language.ofName?
    stopWords := ← SettingsFormat.read? group "stop_words" default.stopWords format.truth?
    minimumTokenLength :=
      ← SettingsFormat.read? group "min_token_len" default.minimumTokenLength format.count?
    vector := ← SettingsFormat.read? group "vector" default.vector (readVector? format) }

def ofToml (text : String) : Except Failure Configuration :=
  match Toml.read? text with
  | none => .error (.toml "the text is not a TOML document")
  | some entries =>
    match read? .toml (.table .headed entries) with
    | none => .error (.toml "a setting has a value that it cannot have")
    | some configuration => .ok configuration

def ofJson (value : JsonValue) : Except Failure Configuration :=
  match read? .json value with
  | none => .error (.json "a setting has a value that it cannot have")
  | some configuration => .ok configuration

def toToml (configuration : Configuration) : String :=
  let { language, stopWords, minimumTokenLength, vector } := configuration
  "language = \"" ++ language.name ++ "\"\nstop_words = " ++ toString stopWords ++
    "\nmin_token_len = " ++ toString minimumTokenLength ++
    "\n\n[vector]\ninitial_capacity = " ++ toString vector.initialCapacity ++
    "\nweighting = \"" ++ vector.weighting.name ++ "\"\nnormalize = " ++
    toString vector.normalize ++ "\n"

end Configuration

end WordStem
