import WordStem.DecimalReading
import WordStem.Weighting

/-! # Commands and their options

The commands of the program, the options that each of them takes, and the values that options can
have. The options of the program itself can be given before or after the name of a command. -/
namespace WordStem

/-- How results and failures are printed. -/
inductive OutputFormat where
  | human
  | json
deriving DecidableEq, Repr

def OutputFormat.ofName? : String → Option OutputFormat
  | "human" => some human
  | "json" => some json
  | _ => none

/-- The commands. -/
inductive CommandName where
  | stem
  | vectorize
  | similar
  | languages
deriving DecidableEq, Repr

namespace CommandName

def all : List CommandName :=
  [stem, vectorize, similar, languages]

def name : CommandName → String
  | stem => "stem"
  | vectorize => "vectorize"
  | similar => "similar"
  | languages => "languages"

def ofName? (name : String) : Option CommandName :=
  all.find? fun command => command.name == name

/-- Whether the free arguments of a command are the paths of files, at least one of them. -/
def takesPaths : CommandName → Bool
  | vectorize | similar => true
  | stem | languages => false

def takesWords : CommandName → Bool
  | stem | vectorize | similar => true
  | languages => false

end CommandName

/-- The options of the program and of its commands. -/
inductive OptionName where
  | format
  | config
  | language
  | quiet
  | verbose
  | logLevel
  | logJson
  | help
  | version
  | lowercase
  | weighting
  | normalize
  | noStem
  | minScore
  | limit
deriving DecidableEq, Repr

namespace OptionName

def name : OptionName → String
  | format => "format"
  | config => "config"
  | language => "language"
  | quiet => "quiet"
  | verbose => "verbose"
  | logLevel => "log-level"
  | logJson => "log-json"
  | help => "help"
  | version => "version"
  | lowercase => "lowercase"
  | weighting => "weighting"
  | normalize => "normalize"
  | noStem => "no-stem"
  | minScore => "min-score"
  | limit => "limit"

def letter? : OptionName → Option Char
  | language => some 'l'
  | quiet => some 'q'
  | verbose => some 'v'
  | help => some 'h'
  | version => some 'V'
  | _ => none

def takesValue : OptionName → Bool
  | format | config | language | logLevel | weighting | minScore | limit => true
  | quiet | verbose | logJson | help | version | lowercase | normalize | noStem => false

/-- The variable of the environment that stands in for an option. -/
def variableName? : OptionName → Option String
  | config => some "LEXIS_CONFIG"
  | language => some "LEXIS_LANGUAGE"
  | _ => none

def shared : List OptionName :=
  [format, config, language, quiet, verbose, logLevel, logJson, help, version]

/-- The options that can be given before the name of a command, or after it. -/
def available : Option CommandName → List OptionName
  | none | some .languages => shared
  | some .stem => shared ++ [lowercase]
  | some .vectorize => shared ++ [weighting, normalize, noStem]
  | some .similar => shared ++ [weighting, normalize, noStem, minScore, limit]

end OptionName

/-- An option as it was given. -/
inductive Setting where
  | flag (option : OptionName)
  | format (format : OutputFormat)
  | config (path : String)
  | language (name : String)
  | logLevel (text : String)
  | weighting (weighting : Weighting)
  | minScore (score : Float)
  | limit (count : Nat)

namespace Setting

def option : Setting → OptionName
  | flag option => option
  | format _ => .format
  | config _ => .config
  | language _ => .language
  | logLevel _ => .logLevel
  | weighting _ => .weighting
  | minScore _ => .minScore
  | limit _ => .limit

def largestLimit : Nat := UInt64.size - 1

/-- An option with a value, unless it cannot have this value. A path must not be empty. -/
def ofValue? (option : OptionName) (value : String) : Option Setting :=
  match option with
  | .format => (OutputFormat.ofName? value).map format
  | .config => if value = "" then none else some (config value)
  | .language => some (language value)
  | .logLevel => some (logLevel value)
  | .weighting => (Weighting.parse value).toOption.map weighting
  | .minScore => (readDecimal? value).map minScore
  | .limit => (readCount? largestLimit value).map limit
  | .quiet | .verbose | .logJson | .help | .version | .lowercase | .normalize | .noStem => none

end Setting

end WordStem
