import WordStem.CommandArguments

/-! # Invocations

What a call of the program asks for. A setting given behind the name of a command counts before
one given in front of it, and both count before a variable of the environment. -/
namespace WordStem

/-- Which files are made into vectors, and how. The paths of files need not be texts. -/
structure VectorRequest (Path : Type) where
  paths : List Path
  weighting? : Option Weighting
  normalize : Bool
  stemmed : Bool

/-- A command with all that it was given. -/
inductive Command (Path : Type) where
  /-- Stem words, or the words of the standard input if there are none. -/
  | stem (words : List String) (lowercased : Bool)
  /-- Print the vectors of files. -/
  | vectorize (request : VectorRequest Path)
  /-- Print the pairs of files that score at least a minimum, and at most a limit of them. -/
  | similar (request : VectorRequest Path) (minimumScore : Float) (limit? : Option Nat)
  /-- Print the languages. -/
  | languages

/-- What a call of the program asks for. -/
structure Invocation (Path : Type) where
  format : OutputFormat
  configurationPath? : Option Path
  language? : Option String
  quiet : Bool
  command? : Option (Command Path)

def hasFlag (settings : List Setting) (option : OptionName) : Bool :=
  settings.any fun setting =>
    match setting with
    | .flag other => other == option
    | _ => false

/-- The format that the first of the settings about it asks for. -/
def formatOf (settings : List Setting) : OutputFormat :=
  (settings.findSome? fun setting =>
    match setting with
    | .format format => some format
    | _ => none).getD .human

def VectorRequest.ofSettings (settings : List Setting) (paths : List String) :
    VectorRequest String where
  paths := paths
  weighting? := settings.findSome? fun setting =>
    match setting with
    | .weighting weighting => some weighting
    | _ => none
  normalize := hasFlag settings .normalize
  stemmed := !hasFlag settings .noStem

/-- The command that a name, settings and free arguments make. -/
def Command.ofSettings (name : CommandName) (settings : List Setting) (words : List String) :
    Command String :=
  match name with
  | .stem => .stem words (hasFlag settings .lowercase)
  | .vectorize => .vectorize (.ofSettings settings words)
  | .similar =>
    let minimumScore? := settings.findSome? fun setting =>
      match setting with
      | .minScore score => some score
      | _ => none
    let limit? := settings.findSome? fun setting =>
      match setting with
      | .limit count => some count
      | _ => none
    .similar (.ofSettings settings words) (minimumScore?.getD 0.0) limit?
  | .languages => .languages

namespace Invocation

def ofSettings (settings : List Setting) (command? : Option (Command String)) :
    Invocation String where
  format := formatOf settings
  configurationPath? := settings.findSome? fun setting =>
    match setting with
    | .config path => some path
    | _ => none
  language? := settings.findSome? fun setting =>
    match setting with
    | .language name => some name
    | _ => none
  quiet := hasFlag settings .quiet
  command? := command?

/-- Reads the arguments of a call, the name of the program left out. The arguments behind the name
of a command are judged before those in front of it. -/
def read (environment : String → Option String) (arguments : List String) :
    Except Interruption (Invocation String) := do
  let (outer, command?) ← readArguments none {} false arguments
  match command? with
  | none =>
    let (settings, fromVariables, _) ← outer.finish none environment
    return ofSettings (settings ++ fromVariables) none
  | some (name, rest) =>
    let (inner, _) ← readArguments (some name) {} false rest
    let (innerSettings, _, words) ← inner.finish (some name) environment
    let (outerSettings, fromVariables, _) ← outer.finish none environment
    let settings := innerSettings ++ outerSettings ++ fromVariables
    return ofSettings settings (some (.ofSettings name settings words))

end Invocation

/-- Whether arguments ask for JSON, as far as can be told without reading them in full. An argument
that is not a text is none, and the search breaks off at it. -/
def findJsonRequest : List (Option String) → Option Bool
  | [] => some false
  | none :: _ => none
  | some argument :: rest =>
    if argument = "--format" then
      match rest with
      | [] => some false
      | none :: _ => none
      | some value :: others => if value = "json" then some true else findJsonRequest others
    else if argument = "--format=json" then some true
    else findJsonRequest rest

/-- Whether arguments ask for JSON that are texts. -/
def asksForJson (arguments : List String) : Bool :=
  (findJsonRequest (arguments.map some)).getD false

end WordStem
