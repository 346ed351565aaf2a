import WordStem.CommandOption

/-! # Reading the arguments of the program

Arguments are read from left to right, first those of the program itself and then those of a
command. An option or a run of free arguments is judged when the next one begins, or at the end,
so that an earlier request for help can come before a later complaint. -/
namespace WordStem

/-- Why arguments are refused. -/
inductive ArgumentRefusal where
  /-- There is no such option, or no place for a free argument. -/
  | unexpected (argument : String)
  /-- An option without a value was given one. -/
  | needlessValue (option : OptionName) (value : String)
  /-- The value of an option is missing. -/
  | missingValue (option : OptionName)
  /-- An option was given twice. -/
  | repeated (option : OptionName)
  /-- An option cannot have this value. -/
  | invalidValue (option : OptionName) (value : String)
  /-- The path of a file is empty. -/
  | emptyPath
  /-- No file was named. -/
  | missingPaths
  /-- Help was asked for on something that is not a command. -/
  | unknownCommand (name : String)
deriving DecidableEq, Repr

namespace ArgumentRefusal

def message : ArgumentRefusal → String
  | unexpected argument => "unexpected argument '" ++ argument ++ "' found"
  | needlessValue option value =>
    "unexpected value '" ++ value ++ "' for '--" ++ option.name ++ "' found; no more were expected"
  | missingValue option => "a value is required for '--" ++ option.name ++ "' but none was supplied"
  | repeated option => "the argument '--" ++ option.name ++ "' cannot be used multiple times"
  | invalidValue option value => "invalid value '" ++ value ++ "' for '--" ++ option.name ++ "'"
  | emptyPath => "a value is required for '<FILES>...' but none was supplied"
  | missingPaths => "the following required arguments were not provided: <FILES>..."
  | unknownCommand name => "unrecognized subcommand '" ++ name ++ "'"

/-- The failure that a refusal amounts to. A needless value is not one of the usage failures. -/
def failure (refusal : ArgumentRefusal) : Failure :=
  match refusal with
  | needlessValue _ _ => .other refusal.message
  | _ => .usage refusal.message

end ArgumentRefusal

/-- What ends the reading of arguments early. -/
inductive Interruption where
  | help (command? : Option CommandName)
  | version (command? : Option CommandName)
  | refusal (cause : ArgumentRefusal)
deriving DecidableEq, Repr

/-- What has been read last and is not judged yet. -/
inductive PendingArgument where
  | nothing
  | option (option : OptionName) (value? : Option String)
  | words (words : List String)
deriving DecidableEq, Repr

/-- What has been read so far: settings, free arguments, and what is not judged yet. -/
structure ArgumentReading where
  settings : List Setting := []
  words : List String := []
  pending : PendingArgument := .nothing

namespace ArgumentReading

def add (reading : ArgumentReading) (setting : Setting) : Except Interruption ArgumentReading :=
  if reading.settings.any fun other => other.option = setting.option then
    .error (.refusal (.repeated setting.option))
  else
    .ok { reading with settings := reading.settings ++ [setting] }

def addValue (reading : ArgumentReading) (option : OptionName) (value : String) :
    Except Interruption ArgumentReading :=
  match Setting.ofValue? option value with
  | some setting => reading.add setting
  | none => .error (.refusal (.invalidValue option value))

def settle (command? : Option CommandName) (reading : ArgumentReading) :
    Except Interruption ArgumentReading :=
  let settled := { reading with pending := .nothing }
  match reading.pending with
  | .nothing => .ok settled
  | .option option none => .error (.refusal (.missingValue option))
  | .option option (some value) => settled.addValue option value
  | .words words =>
    if command?.any CommandName.takesPaths && words.contains "" then
      .error (.refusal .emptyPath)
    else
      .ok { settled with words := settled.words ++ words }

/-- Whether the next argument is the value of an option. -/
def awaitsValue (reading : ArgumentReading) : Bool :=
  match reading.pending with
  | .option _ none => true
  | _ => false

def addWord (command? : Option CommandName) (reading : ArgumentReading) (word : String) :
    Except Interruption ArgumentReading :=
  if command?.any CommandName.takesWords then
    match reading.pending with
    | .words words => .ok { reading with pending := .words (words ++ [word]) }
    | _ => do return { ← reading.settle command? with pending := .words [word] }
  else
    .error (.refusal (.unexpected word))

/-- Takes an argument that does not look like an option. -/
def takePlain (command? : Option CommandName) (reading : ArgumentReading) (argument : String) :
    Except Interruption ArgumentReading :=
  match reading.pending with
  | .option option none => .ok { reading with pending := .option option (some argument) }
  | _ => reading.addWord command? argument

/-- Takes an option without a value. Asking for help or for the version ends the reading. -/
def takeFlag (command? : Option CommandName) (reading : ArgumentReading) (option : OptionName) :
    Except Interruption ArgumentReading := do
  let settled ← reading.settle command?
  match option with
  | .help => .error (.help command?)
  | .version => .error (.version command?)
  | _ => settled.add (.flag option)

/-- Takes an option with a value, which may still have to come. -/
def takeOption (command? : Option CommandName) (reading : ArgumentReading) (option : OptionName)
    (value? : Option String) : Except Interruption ArgumentReading := do
  let settled ← reading.settle command?
  match value? with
  | some value => settled.addValue option value
  | none => return { settled with pending := .option option none }

/-- Takes what is written behind two hyphens: the name of an option, and perhaps an equals sign
and a value. -/
def takeNamed (command? : Option CommandName) (reading : ArgumentReading) (text : List Char) :
    Except Interruption ArgumentReading :=
  let name := String.ofList (text.takeWhile (· != '='))
  let value? :=
    match text.dropWhile (· != '=') with
    | _ :: value => some (String.ofList value)
    | [] => none
  match (OptionName.available command?).find? fun option => option.name == name, value? with
  | none, _ => .error (.refusal (.unexpected ("--" ++ name)))
  | some option, value? =>
    if option.takesValue then reading.takeOption command? option value?
    else
      match value? with
      | some value => .error (.refusal (.needlessValue option value))
      | none => reading.takeFlag command? option

/-- Takes the letters behind one hyphen. What follows the letter of an option with a value is that
value, perhaps with an equals sign in front of it. -/
def takeLetters (command? : Option CommandName) (reading : ArgumentReading) :
    List Char → Except Interruption ArgumentReading
  | [] => .ok reading
  | letter :: rest =>
    match (OptionName.available command?).find? fun option => option.letter? = some letter with
    | none => .error (.refusal (.unexpected (String.ofList ['-', letter])))
    | some option =>
      if option.takesValue then
        let value? :=
          match rest with
          | [] => none
          | '=' :: value => some (String.ofList value)
          | value => some (String.ofList value)
        reading.takeOption command? option value?
      else do
        (← reading.takeFlag command? option).takeLetters command? rest

end ArgumentReading

def helpOn (command? : Option CommandName) : List String → Interruption
  | [] => .help command?
  | name :: names =>
    match command? with
    | some _ => .refusal (.unknownCommand name)
    | none =>
      if name = "help" then helpOn none names
      else
        match CommandName.ofName? name with
        | some command => helpOn (some command) names
        | none => .refusal (.unknownCommand name)

/-- Reads arguments up to the end or to the name of a command, which can be given once and is
answered with the arguments behind it. Behind two hyphens alone, all arguments are free. -/
def readArguments (command? : Option CommandName) (reading : ArgumentReading) (allFree : Bool) :
    List String → Except Interruption (ArgumentReading × Option (CommandName × List String))
  | [] => .ok (reading, none)
  | argument :: rest =>
    if allFree then do
      readArguments command? (← reading.addWord command? argument) true rest
    else
      let nameAllowed := command?.isNone && !reading.awaitsValue
      match CommandName.ofName? argument with
      | some command =>
        if nameAllowed then .ok (reading, some (command, rest))
        else do readArguments command? (← reading.takePlain command? argument) false rest
      | none =>
        if nameAllowed && argument == "help" then .error (helpOn none rest)
        else
          match argument.toList with
          | ['-', '-'] => readArguments command? reading true rest
          | '-' :: '-' :: text => do
            readArguments command? (← reading.takeNamed command? text) false rest
          | '-' :: letter :: letters => do
            let next ← reading.takeLetters command? (letter :: letters)
            readArguments command? next false rest
          | _ => do readArguments command? (← reading.takePlain command? argument) false rest

/-- The settings that variables of the environment make for options that are not given. -/
def settingsOfVariables (environment : String → Option String) (given : List Setting) :
    Except Interruption (List Setting) :=
  let missing := OptionName.shared.filter fun option => !given.any fun one => one.option = option
  let named := missing.filterMap fun option => do
    return (option, ← environment (← option.variableName?))
  named.mapM fun (option, value) =>
    match Setting.ofValue? option value with
    | some setting => .ok setting
    | none => .error (.refusal (.invalidValue option value))

/-- Ends the reading of the arguments of the program or of a command. Answers the settings given
by arguments, those given by variables, and the free arguments. -/
def ArgumentReading.finish (command? : Option CommandName) (environment : String → Option String)
    (reading : ArgumentReading) :
    Except Interruption (List Setting × List Setting × List String) := do
  let settled ← reading.settle command?
  let fromVariables ← settingsOfVariables environment settled.settings
  if command?.any CommandName.takesPaths && settled.words.isEmpty then
    .error (.refusal .missingPaths)
  else
    return (settled.settings, fromVariables, settled.words)

end WordStem
