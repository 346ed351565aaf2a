import WordStem.Call
import WordStem.CommandReport
import WordStem.ConfigurationFile
import WordStem.LanguageName

/-! # The command line

A call of the program is a function of its arguments and of what it reads. The arguments make an
invocation, which need not be made of texts: paths can be anything that leads to a file. All memory
that is asked for is taken to be there, and all that is printed to be received. -/
namespace WordStem

/-- What a call can read besides its arguments. -/
structure Sources (Path : Type) where
  files : FileView Path
  /-- Where settings are looked for, or why the working directory is not known. -/
  settingsPath : Except FileRefusal Path
  standardInput : ByteArray
  /-- Why nothing can be read of the standard input behind those bytes, if it does not end there. -/
  inputRefusal? : Option FileRefusal := none
  outside : OutsideStems := .none

/-- All that a call of the program depends on whose arguments are texts. What is printed on a
request for help is not the program's own, so it is a part of the surroundings. -/
structure Surroundings extends Sources String where
  arguments : List String
  environment : String → Option String
  directory : String
  helpText : Option CommandName → String := fun _ => ""
  settingsPath := .ok (Configuration.defaultPath directory)

/-- What comes of a call of the program: its exit code, and what it prints to its output and to its
error output. -/
structure CallResult where
  exitCode : ExitCode
  output : String
  errors : String
deriving DecidableEq, Repr

namespace CommandLine

/-- The name and the version of the program, or of one of its commands. -/
def versionText (command? : Option CommandName) : String :=
  match command? with
  | none => "lexis 0.1.0\n"
  | some command => "lexis-" ++ command.name ++ " 0.1.0\n"

def introduction : List String :=
  ["lexis 0.1.0", "", "Word stemming and sparse term vectors.", "",
    "Run `lexis --help` for usage information."]

section Calls

variable {Path : Type}

/-- The settings of the named file, or else those found in the working directory. -/
def readSettings (sources : Sources Path) (invocation : Invocation Path) : CallM Configuration :=
  match invocation.configurationPath? with
  | some path => CallM.ofExcept (Configuration.load sources.files path)
  | none =>
    match sources.settingsPath with
    | .ok path => CallM.ofExcept (Configuration.loadIfFile sources.files path)
    | .error refusal => CallM.fail (.inputOutput refusal.reason)

/-- The settings that hold for a call, with the language that was asked for. -/
def resolveConfiguration (sources : Sources Path) (invocation : Invocation Path) :
    CallM Configuration := do
  let configuration ← readSettings sources invocation
  match invocation.language? with
  | some name => return { configuration with language := ← CallM.ofExcept (Language.parse name) }
  | none => return configuration

/-- Decodes bytes of the standard input. -/
def decodeInput (bytes : ByteArray) : CallM String :=
  match decodeText bytes with
  | .ok text => return text
  | .error refusal => CallM.fail (.inputOutput refusal.reason)

/-- The text of the standard input. A line that does not end is not decoded if nothing can be read
behind it. -/
def readInput (sources : Sources Path) : CallM String := do
  match sources.inputRefusal? with
  | none => decodeInput sources.standardInput
  | some refusal =>
    let _ ← decodeInput (completeLines sources.standardInput)
    CallM.fail (.inputOutput refusal.reason)

/-- The words to be stemmed: those given, or else those of the standard input. -/
def wordsToStem (sources : Sources Path) (given : List String) : CallM (List String) :=
  if given.isEmpty then do
    let text ← readInput sources
    return (runs (fun one => !isWhiteSpace one) text.toList).map String.ofList
  else
    return given

/-- A collection of documents, and the stemmer as it has become. -/
abbrev DocumentReading := DocumentVectors × Stemmer

/-- Adds a document, unless its vector would start with more room than there can be. -/
def addDocument (documents : DocumentVectors) (terms : List String) : CallM DocumentVectors :=
  if SparseMapping.largestRoom < documents.initialCapacity then
    CallM.breakOff "capacity overflow"
  else
    return (documents.addDocument terms).2

def readDocument (files : FileView Path) (options : TokenOptions) (stemmed : Bool)
    (reading : DocumentReading) (path : Path) : CallM DocumentReading := do
  let (documents, stemmer) := reading
  match files.readText path with
  | .error refusal => CallM.fail (.failedOperation "read" (files.shown path) refusal.reason)
  | .ok text =>
    let (tokens, stemmer) :=
      if stemmed then tokenizeAndStem options stemmer text else (tokenize options text, stemmer)
    return (← addDocument documents tokens, stemmer)

/-- Reads the requested files in order and weighs their terms. -/
def readCorpus (sources : Sources Path) (configuration : Configuration)
    (request : VectorRequest Path) : CallM Corpus := do
  let stemmer ← CallM.ofExcept (Stemmer.ofLanguageWith sources.outside configuration.language)
  let empty := DocumentVectors.empty configuration.vector.initialCapacity
  let (documents, _) ← request.paths.foldlM
    (readDocument sources.files configuration.tokenOptions request.stemmed) (empty, stemmer)
  let weighting := request.weighting?.getD configuration.vector.weighting
  let normalize := request.normalize || configuration.vector.normalize
  return {
    paths := request.paths.map sources.files.shown
    documents, weighting
    vectors := documents.weighted weighting normalize }

/-- Does what a command asks for and prints its report. -/
def performCommand (sources : Sources Path) (format : OutputFormat) (quiet : Bool)
    (configuration : Configuration) : Command Path → CallM Unit
  | .languages => CallM.printLines (languagesReport format configuration.language)
  | .stem given lowercased => do
    let words ← wordsToStem sources given
    let words :=
      if lowercased then words.map fun word => String.ofList (lowercase word.toList) else words
    let stemmer ← CallM.ofExcept (Stemmer.ofLanguageWith sources.outside configuration.language)
    CallM.printLines
      (stemsReport format configuration.language words (stemmer.stemAll words).1)
  | .vectorize request => do
    let corpus ← readCorpus sources configuration request
    CallM.printLines (vectorsReport format quiet configuration.language corpus)
  | .similar request minimumScore limit? =>
    if request.paths.length < 2 then
      CallM.fail (.usage "similar needs at least two files")
    else do
      let corpus ← readCorpus sources configuration request
      CallM.printLines
        (pairsReport format quiet corpus (bestPairs corpus.vectors minimumScore limit?))

def perform (sources : Sources Path) (invocation : Invocation Path) : CallM Unit := do
  let configuration ← resolveConfiguration sources invocation
  match invocation.command? with
  | none => CallM.printLines introduction
  | some command =>
    performCommand sources invocation.format invocation.quiet configuration command

/-! ## How a call ends -/

def failureLine (failure : Failure) : String :=
  failure.envelope.compact ++ "\n"

/-- How a call ends that fails after its arguments have been read. JSON is printed even if it
should be quiet. -/
def failed (format : OutputFormat) (quiet : Bool) (failure : Failure) (printed : String) :
    CallResult where
  exitCode := failure.exitCode
  output := printed
  errors :=
    match format with
    | .json => failureLine failure
    | .human => if quiet then "" else "error: " ++ failure.message ++ "\n"

/-- How a call ends that is broken off. Of what the system says about it, the reason is kept. -/
def brokenOff (reason printed : String) : CallResult where
  exitCode := .brokenOff
  output := printed
  errors := reason ++ "\n"

def execute (sources : Sources Path) (invocation : Invocation Path) : CallResult :=
  match (perform sources invocation).run "" with
  | .ok () printed => { exitCode := .success, output := printed, errors := "" }
  | .error (.failed failure) printed => failed invocation.format invocation.quiet failure printed
  | .error (.brokenOff reason) printed => brokenOff reason printed

/-- How a call ends whose arguments are not a request for a command. -/
def interrupted (helpText : Option CommandName → String) (wantsJson : Bool)
    (interruption : Interruption) : CallResult :=
  match interruption with
  | .help command? => { exitCode := .success, output := helpText command?, errors := "" }
  | .version command? => { exitCode := .success, output := versionText command?, errors := "" }
  | .refusal refusal =>
    if wantsJson then
      { exitCode := refusal.failure.exitCode
        output := ""
        errors := failureLine refusal.failure }
    else
      { exitCode := .usage
        output := ""
        errors := "error: " ++ refusal.message ++ "\n\nFor more information, try '--help'.\n" }

/-- A call with arguments as they are handed over, an argument that is not a text being none, and
with what has been read in them. The arguments are searched for a request for JSON first. -/
def start (sources : Sources Path) (helpText : Option CommandName → String)
    (handed : List (Option String)) (read : Except Interruption (Invocation Path)) : CallResult :=
  match findJsonRequest handed with
  | none => brokenOff "an argument is not a text" ""
  | some wantsJson =>
    match read with
    | .ok invocation => execute sources invocation
    | .error interruption => interrupted helpText wantsJson interruption

end Calls

/-- The paths of the files that a call may read: that of the settings and those of documents. -/
def pathsRead (directory : String) (invocation : Invocation String) : List String :=
  let settingsPath := invocation.configurationPath?.getD (Configuration.defaultPath directory)
  match invocation.command? with
  | some (.vectorize request) | some (.similar request _ _) => settingsPath :: request.paths
  | _ => [settingsPath]

def readsInput (invocation : Invocation String) : Bool :=
  match invocation.command? with
  | some (.stem [] _) => true
  | _ => false

/-- A call whose arguments are texts. -/
def run (surroundings : Surroundings) : CallResult :=
  start surroundings.toSources surroundings.helpText (surroundings.arguments.map some)
    (Invocation.read surroundings.environment surroundings.arguments)

end CommandLine

end WordStem
