import WordStem.Failure
import WordStem.Lowercase
import WordStem.WhiteSpace

/-! # Reading the names of languages

A person may write the name of a language in any case and with white space around it. -/
namespace WordStem

/-- The language that a name written by a person means. A refusal shows the name as written. -/
def Language.parse (name : String) : Except Failure Language :=
  match ofName? (String.ofList (lowercase (trimWhiteSpace name.toList))) with
  | some language => .ok language
  | none => .error (.unknownLanguage name)

end WordStem
