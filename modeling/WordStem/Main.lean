import WordStem.CommandLine

/-! # The program

Gathers the surroundings of a call, lets the command line decide what comes of it, and prints
that. -/
namespace WordStem

namespace Program

/-- The number of a system error. Some layers of the system count them downward from zero. -/
def errorNumber (code : UInt32) : Nat :=
  if code.toNat < Nat.pow 2 31 then code.toNat else UInt32.size - code.toNat

/-- Why the system refused to read a file, in its own words where no cause of ours fits. -/
def refusalOf (cause : IO.Error) : FileRefusal :=
  match cause with
  | .noFileOrDirectory _ _ _ => .missing
  | .inappropriateType _ code details
  | .invalidArgument _ code details
  | .permissionDenied _ code details
  | .resourceExhausted _ code details
  | .otherError code details
  | .resourceBusy code details =>
    match errorNumber code with
    | 20 => .notDirectory
    | 21 => .isDirectory
    | 36 => .nameTooLong
    | number => .other (details.capitalize ++ " (os error " ++ toString number ++ ")")
  | cause => .other (toString cause)

def readFile (path : String) : IO (Except FileRefusal ByteArray) := do
  try
    return .ok (← IO.FS.readBinFile path)
  catch cause =>
    return .error (refusalOf cause)

def isFile (path : String) : IO Bool := do
  try
    match (← (← IO.FS.realPath path).metadata).type with
    | .file => return true
    | _ => return false
  catch _ =>
    return false

/-- Looks at the files at some paths. Nothing is known of other paths. -/
def viewFiles (paths : List String) : IO (FileView String) := do
  let contents ← paths.mapM fun path => do
    return (path, ← readFile path)
  let found ← paths.filterM isFile
  let view := FileView.ofTexts fun path => (List.lookup path contents).getD (.error .missing)
  return { view with isFile := fun path => found.contains path }

/-- The variables of the environment that stand in for options. -/
def viewEnvironment : IO (String → Option String) := do
  let values ← (OptionName.shared.filterMap OptionName.variableName?).mapM fun name => do
    return (name, ← IO.getEnv name)
  return fun name => (List.lookup name values).join

/-- The name of the working directory, or why it is not known. -/
def findDirectory : IO (Except FileRefusal String) := do
  try
    return .ok (← IO.currentDir).toString
  catch cause =>
    return .error (refusalOf cause)

/-- Reads the standard input until it ends or cannot be read on. -/
def readInput : IO (ByteArray × Option FileRefusal) := do
  try
    return (← (← IO.getStdin).readBinToEnd, none)
  catch cause =>
    return (.empty, some (refusalOf cause))

/-- Help in the words of this program; what it should say is laid down nowhere. -/
def helpText (command? : Option CommandName) : String :=
  let usage :=
    match command? with
    | none => "Usage: lexis [OPTIONS] [COMMAND]"
    | some command =>
      "Usage: lexis " ++ command.name ++ " [OPTIONS]" ++
        (if command.takesPaths then " <FILES>..."
        else if command.takesWords then " [WORDS]..."
        else "")
  let options := (OptionName.available command?).map fun option => "  --" ++ option.name
  "\n".intercalate (usage :: "" :: "Options:" :: options) ++ "\n"

/-- Gathers what a call depends on. Files and the standard input are read only where the call asks
for them. No stems are supplied from outside. -/
def gather (arguments : List String) : IO Surroundings := do
  let environment ← viewEnvironment
  let found ← findDirectory
  let directory := found.toOption.getD "."
  let settingsPath := found.map Configuration.defaultPath
  match Invocation.read environment arguments with
  | .error _ =>
    let files ← viewFiles []
    return { arguments, environment, directory, files, settingsPath, helpText,
             standardInput := .empty }
  | .ok invocation =>
    let files ← viewFiles (CommandLine.pathsRead directory invocation)
    let (standardInput, inputRefusal?) ←
      if CommandLine.readsInput invocation then readInput else pure (.empty, none)
    return { arguments, environment, directory, files, settingsPath, helpText, standardInput,
             inputRefusal? }

end Program

end WordStem

open WordStem in
def main (arguments : List String) : IO UInt32 := do
  let result := CommandLine.run (← Program.gather arguments)
  IO.print result.output
  (← IO.getStderr).putStr result.errors
  return UInt32.ofNat result.exitCode.number
