import WordStem.Configuration
import WordStem.FileTable

/-! # Configuration files

Settings are kept in a file, by default one of a fixed name in the working directory. -/
namespace WordStem

namespace Configuration

/-- The name of the file in which settings are looked for. -/
def fileName : String := "lexis.toml"

section Loading

variable {Path : Type}

def load (files : FileView Path) (path : Path) : Except Failure Configuration := do
  let text ←
    match files.readText path with
    | .ok text => .ok text
    | .error refusal => .error (.failedOperation "read config" (files.shown path) refusal.reason)
  let configuration ← ofToml text
  match configuration.validate with
  | .ok () => .ok configuration
  | .error failure =>
    .error (.invalidConfiguration (files.shown path) failure.message (files.quoted path))

/-- Loads the settings from the file at a path. Without such a file the defaults hold. -/
def loadIfFile (files : FileView Path) (path : Path) : Except Failure Configuration :=
  if files.isFile path then load files path else .ok default

end Loading

/-- The path at which settings are looked for in a directory. -/
def defaultPath (directory : String) : String :=
  if FileTable.endsWithSlash directory then directory ++ fileName
  else directory ++ "/" ++ fileName

/-- Loads the settings from the file of the fixed name in a directory, if it is there. -/
def discover (files : FileView String) (directory : String) : Except Failure Configuration :=
  loadIfFile files (defaultPath directory)

def save (configuration : Configuration) (table : FileTable) (path : String) :
    Except Failure FileTable :=
  match table.writeText path configuration.toToml with
  | .ok saved => .ok saved
  | .error refusal => .error (.inputOutput refusal.reason)

end Configuration

end WordStem
