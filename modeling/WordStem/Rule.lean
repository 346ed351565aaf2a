import WordStem.WordBufferEdit
import WordStem.WordBufferScan

/-! # Rules

A rule works on the buffer and on the context of its program, such as the boundary of a region,
and answers whether it matched. A defect stops the rule; whatever it had changed by then stays
changed, because the state is carried along with the defect. -/
namespace WordStem

/-- What a rule works on. -/
structure Workspace (Context : Type) where
  buffer : WordBuffer
  context : Context

/-- A computation over a workspace that may stop at a defect and keeps the workspace reached. -/
abbrev RuleM (Context : Type) : Type → Type :=
  EStateM Defect (Workspace Context)

namespace RuleM

variable {Context : Type}

def buffer : RuleM Context WordBuffer :=
  fun workspace => .ok workspace.buffer workspace

def context : RuleM Context Context :=
  fun workspace => .ok workspace.context workspace

def modifyContext (change : Context → Context) : RuleM Context Unit :=
  fun workspace => .ok () { workspace with context := change workspace.context }

def modifyBuffer (change : WordBuffer → WordBuffer) : RuleM Context Unit :=
  fun workspace => .ok () { workspace with buffer := change workspace.buffer }

/-- Scans the buffer, answering whether the scan succeeded. -/
def scan (step : WordBuffer → Option WordBuffer) : RuleM Context Bool :=
  fun workspace =>
    match step workspace.buffer with
    | some moved => .ok true { workspace with buffer := moved }
    | none => .ok false workspace

def edit (change : WordBuffer → Except Defect WordBuffer) : RuleM Context Unit :=
  fun workspace =>
    match change workspace.buffer with
    | .ok edited => .ok () { workspace with buffer := edited }
    | .error defect => .error defect workspace

def fail {Value : Type} (defect : Defect) : RuleM Context Value :=
  fun workspace => .error defect workspace

end RuleM

end WordStem
