import WordStem.RuleProgram
import WordStem.StemCounts

/-! # Stemming by a rule program

A stemmer runs one program over one word after the other in a buffer that it keeps. A word whose
program stops at a defect has no stem and is left as it is, so a wrong program never takes a
whole text down. -/
namespace WordStem

/-- The answer of a stemmer about one word. -/
inductive StemAnswer where
  /-- The word has a stem of its own. -/
  | stem (text : String)
  /-- The word is its own stem. -/
  | same
  /-- The program stopped at a defect, so the word is left as it is. -/
  | aborted (defect : Defect)
deriving DecidableEq, Repr

namespace StemAnswer

def stem? : StemAnswer → Option String
  | stem text => some text
  | same => none
  | aborted _ => none

/-- The stem, or the word itself when it was not changed. -/
def stemOr (answer : StemAnswer) (word : String) : String :=
  answer.stem?.getD word

def ending : StemAnswer → StemEnd
  | stem _ => .changed
  | same => .unchanged
  | aborted _ => .aborted

end StemAnswer

/-- A rule program with the buffer in which it works. -/
structure ProgramStemmer (Context : Type) where
  program : RuleProgram Context
  buffer : WordBuffer

namespace ProgramStemmer

variable {Context : Type}

def ofProgram (program : RuleProgram Context) : Except Defect (ProgramStemmer Context) :=
  match program.validate with
  | .error defect => .error defect
  | .ok () => .ok { program, buffer := .empty }

/-- Stems a word. The context starts anew for every word, and the buffer is kept for the next. -/
def stem [Inhabited Context] (stemmer : ProgramStemmer Context) (word : String) :
    StemAnswer × ProgramStemmer Context :=
  let start : Workspace Context :=
    { buffer := stemmer.buffer.reload word, context := default }
  match stemmer.program.run start with
  | .error defect reached => (.aborted defect, { stemmer with buffer := reached.buffer })
  | .ok () reached =>
    let answer : StemAnswer :=
      if reached.buffer.word = word then .same else .stem reached.buffer.word
    (answer, { stemmer with buffer := reached.buffer })

end ProgramStemmer

end WordStem
