import WordStem.AffixSearch

/-! # Running rules step by step

A rule is a function of its workspace. These lemmas run the first part of a rule and leave the
rest, so that the proofs about searches and programs follow the text of the rules. -/
namespace WordStem

variable {Context : Type}

def Workspace.withCursor (workspace : Workspace Context) (position : Nat) : Workspace Context :=
  { workspace with buffer := { workspace.buffer with cursor := position } }

@[simp] theorem Workspace.withCursor_self (workspace : Workspace Context) :
    workspace.withCursor workspace.buffer.cursor = workspace := rfl

namespace RuleM

variable {Value Result : Type} {first : RuleM Context Value}
  {next : Value → RuleM Context Result} {workspace reached : Workspace Context}

/-- The workspace that a rule leaves, whether it stops at a defect or not. -/
def after (rule : RuleM Context Value) (workspace : Workspace Context) : Workspace Context :=
  match rule workspace with
  | .ok _ reached => reached
  | .error _ reached => reached

/-- A rule keeps the word when it leaves the text and the floor as they are. It may move the
cursor and the marks, and change the context. -/
def KeepsWord (rule : RuleM Context Value) : Prop :=
  ∀ workspace, (rule.after workspace).buffer.text = workspace.buffer.text ∧
    (rule.after workspace).buffer.floor = workspace.buffer.floor

theorem bind_of_ok {value : Value} (run : first workspace = .ok value reached) :
    (first >>= next) workspace = next value reached := by
  simp only [bind, EStateM.bind, run]

theorem bind_of_error {defect : Defect} (run : first workspace = .error defect reached) :
    (first >>= next) workspace = .error defect reached := by
  simp only [bind, EStateM.bind, run]

theorem pure_apply (value : Value) :
    (pure value : RuleM Context Value) workspace = .ok value workspace := rfl

theorem buffer_bind {next : WordBuffer → RuleM Context Result} :
    (RuleM.buffer >>= next) workspace = next workspace.buffer workspace := rfl

theorem context_bind {next : Context → RuleM Context Result} :
    (RuleM.context >>= next) workspace = next workspace.context workspace := rfl

theorem modifyBuffer_bind {change : WordBuffer → WordBuffer} {next : Unit → RuleM Context Result} :
    (RuleM.modifyBuffer change >>= next) workspace =
      next () { workspace with buffer := change workspace.buffer } := rfl

theorem edit_bind_of_ok {change : WordBuffer → Except Defect WordBuffer} {edited : WordBuffer}
    {next : Unit → RuleM Context Result} (done : change workspace.buffer = .ok edited) :
    (RuleM.edit change >>= next) workspace = next () { workspace with buffer := edited } :=
  bind_of_ok (by simp only [RuleM.edit, done])

/-- A rule that goes on only when a scan succeeds. -/
theorem scan_orElse_of_some {step : WordBuffer → Option WordBuffer} {moved : WordBuffer}
    {next : RuleM Context Bool} (scanned : step workspace.buffer = some moved) :
    (RuleM.scan step >>= fun succeeded => if (!succeeded) = true then pure false else next)
        workspace =
      next { workspace with buffer := moved } := by
  have run : RuleM.scan step workspace = .ok true { workspace with buffer := moved } := by
    simp only [RuleM.scan, scanned]
  rw [bind_of_ok run]
  rfl

theorem scan_orElse_of_none {step : WordBuffer → Option WordBuffer} {next : RuleM Context Bool}
    (stuck : step workspace.buffer = none) :
    (RuleM.scan step >>= fun succeeded => if (!succeeded) = true then pure false else next)
        workspace =
      .ok false workspace := by
  have run : RuleM.scan step workspace = .ok false workspace := by
    simp only [RuleM.scan, stuck]
  rw [bind_of_ok run]
  rfl

end RuleM

end WordStem
