import WordStem.Defect
import WordStem.JsonValue
import WordStem.Language
import WordStem.QuotedText

/-! # Failures

Everything that can go wrong outside a rule, by cause. The wording, the exit code and the name
of the kind of failure are each one function, and the JSON form is made from them. -/
namespace WordStem

/-- The exit codes of the command line. -/
inductive ExitCode where
  | success
  | failure
  | usage
  | data
  /-- The program was broken off where it stood. -/
  | brokenOff
deriving DecidableEq, Repr

def ExitCode.number : ExitCode → Nat
  | success => 0
  | failure => 1
  | usage => 2
  | data => 3
  | brokenOff => 101

/-- The causes of failure. -/
inductive Failure where
  /-- A rule program is wrong. -/
  | defect (cause : Defect)
  /-- No language has this name. -/
  | unknownLanguage (name : String)
  /-- No output format has this name. -/
  | unknownFormat (name : String)
  /-- The program was called in a wrong way. -/
  | usage (text : String)
  /-- A value is not allowed where it stands. -/
  | invalidValue (context value : String)
  /-- The configuration at a path is readable but makes no sense. A path that is not a text is not
  quoted as it is shown elsewhere. -/
  | invalidConfiguration (path reason : String) (quotedPath : String := quoted path)
  /-- Input or output failed. -/
  | inputOutput (reason : String)
  /-- A text is not the JSON that was expected. -/
  | json (reason : String)
  /-- A text is not the TOML that was expected. -/
  | toml (reason : String)
  /-- An operation on a target failed. -/
  | failedOperation (operation target reason : String)
  /-- Any other cause. -/
  | other (text : String)
deriving DecidableEq, Repr

namespace Failure

def message : Failure → String
  | defect cause => cause.message
  | unknownLanguage name =>
    "unknown language: " ++ name ++ " (expected one of: " ++ Language.supportedNames ++ ")"
  | unknownFormat name => "unknown format: " ++ name ++ " (expected: human or json)"
  | usage text => text
  | invalidValue context value => "invalid " ++ context ++ ": " ++ value
  | invalidConfiguration _ reason quotedPath => "invalid config in " ++ quotedPath ++ ": " ++ reason
  | inputOutput reason => "IO error: " ++ reason
  | json reason => "JSON error: " ++ reason
  | toml reason => "TOML error: " ++ reason
  | failedOperation operation target reason =>
    "failed to " ++ operation ++ " " ++ target ++ ": " ++ reason
  | other text => text

/-- The exit code of a failure: wrong calls and bad data have codes of their own. -/
def exitCode : Failure → ExitCode
  | unknownLanguage _ | unknownFormat _ | usage _ | invalidValue _ _ => .usage
  | invalidConfiguration _ _ _ | toml _ => .data
  | defect _ | inputOutput _ | json _ | failedOperation _ _ _ | other _ => .failure

def kind : Failure → String
  | defect (.faultySlice _ _ _) => "faulty_slice"
  | defect (.brokenChain _ _) => "broken_among_chain"
  | defect (.unsortedTable _ _) => "unsorted_among_table"
  | unknownLanguage _ => "unknown_language"
  | unknownFormat _ => "unknown_format"
  | usage _ => "usage_error"
  | invalidValue _ _ => "invalid_value"
  | invalidConfiguration _ _ _ => "invalid_config"
  | inputOutput _ => "io_error"
  | json _ => "json_error"
  | toml _ => "toml_error"
  | failedOperation _ _ _ => "failed_operation_with_target"
  | other _ => "other"

/-- Whether the failure tells of a wrong rule program rather than of bad input. -/
def isProgramDefect : Failure → Bool
  | defect _ => true
  | _ => false

def envelope (failure : Failure) : JsonValue :=
  .record [("error", .record [
    ("code", .whole failure.exitCode.number),
    ("message", .text failure.message),
    ("type", .text failure.kind)])]

end Failure

end WordStem
