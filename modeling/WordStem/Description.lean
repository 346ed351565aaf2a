import WordStem.Language
import WordStem.ProgramStemmer
import WordStem.QuotedText

/-! # Descriptions for developers

One-line descriptions of programs, tables and stemmers that show their names and sizes but not
what they hold. -/
namespace WordStem

def describeParts (typeName : String) (parts : List (String × String)) : String :=
  typeName ++ " \x7b " ++
    String.intercalate ", " (parts.map fun part => part.1 ++ ": " ++ part.2) ++ " \x7d"

def describeSomeParts (typeName : String) (parts : List (String × String)) : String :=
  typeName ++ " \x7b " ++
    String.intercalate ", " ((parts.map fun part => part.1 ++ ": " ++ part.2) ++ [".."]) ++ " \x7d"

def describeTexts (texts : List String) : String :=
  "[" ++ String.intercalate ", " (texts.map quoted) ++ "]"

def capitalized (name : String) : String :=
  match name.toList with
  | [] => ""
  | first :: rest => String.ofList (first.toUpper :: rest)

def Direction.description : Direction → String
  | forward => "Forward"
  | backward => "Backward"

def Language.description (language : Language) : String :=
  capitalized language.name

def Engine.description (engine : Engine) : String :=
  capitalized engine.name

variable {Context : Type}

def AffixTable.description (table : AffixTable Context) : String :=
  describeParts "AmongTable"
    [("name", quoted table.name), ("direction", table.direction.description),
      ("entries", toString table.affixes.length)]

def RuleProgram.description (program : RuleProgram Context) : String :=
  describeParts "RuleProgram"
    [("name", quoted program.name), ("tables", toString program.tables.length),
      ("steps", describeTexts (program.steps.map Step.name))]

def ProgramStemmer.description (stemmer : ProgramStemmer Context) : String :=
  describeSomeParts "SnowballStemmer" [("program", quoted stemmer.program.name)]

/-- The description of a stemmer that is supplied from outside. -/
def describeLibraryStemmer (language : Language) : String :=
  describeSomeParts "LibraryStemmer" [("language", language.description)]

/-- The description of a stemmer that changes nothing and counts nothing. -/
def describeIdentityStemmer : String :=
  describeParts "IdentityStemmer" [("stats", "None")]

end WordStem
