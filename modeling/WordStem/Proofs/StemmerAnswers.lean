import WordStem.Stemmer

/-! # The answer about one word

A stemmer keeps its buffer from word to word, and a program that stops at a defect leaves it as it
was at the defect. The answer about a word is nevertheless a function of the program and the word
alone: no text if the program stops, and otherwise the text that it leaves unless that is the word
itself. -/
namespace WordStem

/-- The text that a program leaves of a word, or the defect at which it stops. -/
def RuleProgram.outcome {Context : Type} [Inhabited Context] (program : RuleProgram Context)
    (word : String) : Except Defect String :=
  match program.run { buffer := .load word, context := default } with
  | .error defect _ => .error defect
  | .ok () reached => .ok reached.buffer.word

namespace ProgramStemmer

variable {Context : Type} [Inhabited Context]

/-- Nothing that the buffer still holds from earlier words reaches the answer. -/
theorem stem_answer (stemmer : ProgramStemmer Context) (word : String) :
    (stemmer.stem word).1 =
      match stemmer.program.outcome word with
      | .error defect => .aborted defect
      | .ok text => if text = word then .same else .stem text := by
  simp only [stem, RuleProgram.outcome, WordBuffer.reload_eq_load]
  cases stemmer.program.run { buffer := .load word, context := default } with
  | error defect reached => rfl
  | ok done reached => rfl

theorem stem_program (stemmer : ProgramStemmer Context) (word : String) :
    (stemmer.stem word).2.program = stemmer.program := by
  simp only [stem]
  split <;> rfl

end ProgramStemmer

/-- What a stemmer is made from. -/
inductive StemmerPlan where
  | program {Context : Type} [Inhabited Context] (rules : RuleProgram Context)
  | identity

/-- A stemmer at work, whatever the context of its program. -/
inductive WorkingStemmer where
  | program {Context : Type} [Inhabited Context] (stemmer : ProgramStemmer Context)
  | identity

namespace WorkingStemmer

def stem : WorkingStemmer → String → StemAnswer × WorkingStemmer
  | program inner, word =>
    let (answer, next) := inner.stem word
    (answer, program next)
  | identity, word => ((Stemmer.identity.stem word).1, identity)

def answer (stemmer : WorkingStemmer) (word : String) : StemAnswer :=
  (stemmer.stem word).1

/-- A word leaves no trace in the answers about later words. -/
theorem answer_stem (stemmer : WorkingStemmer) (earlier : String) :
    (stemmer.stem earlier).2.answer = stemmer.answer := by
  funext word
  cases stemmer with
  | identity => rfl
  | program inner =>
    change ((inner.stem earlier).2.stem word).1 = (inner.stem word).1
    rw [ProgramStemmer.stem_answer, ProgramStemmer.stem_answer, ProgramStemmer.stem_program]

end WorkingStemmer

namespace StemmerPlan

def outcome : StemmerPlan → String → Except Defect String
  | @program _ _ rules, word => rules.outcome word
  | identity, word => .ok word

variable {plan : StemmerPlan} {fresh : WorkingStemmer}

end StemmerPlan

end WordStem
