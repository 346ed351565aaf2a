import WordStem.Failure

/-! # Calls in progress

A call of the program reads, computes and prints, line by line. It can end early at any point, and
what has been printed by then stays printed. -/
namespace WordStem

/-- What ends a call early. -/
inductive Stop where
  /-- The call fails, and the program says why. -/
  | failed (failure : Failure)
  /-- The call is broken off where it stands: something happens that the program does not expect. -/
  | brokenOff (reason : String)
deriving DecidableEq, Repr

/-- A call in progress, with all that it has printed. -/
abbrev CallM := EStateM Stop String

namespace CallM

def fail {α : Type} (failure : Failure) : CallM α :=
  throw (.failed failure)

def breakOff {α : Type} (reason : String) : CallM α :=
  throw (.brokenOff reason)

/-- Goes on with a result, or fails as it does. -/
def ofExcept {α : Type} (result : Except Failure α) : CallM α :=
  match result with
  | .ok value => return value
  | .error failure => fail failure

def printLine (line : String) : CallM Unit :=
  modify fun printed => printed ++ line ++ "\n"

def printLines (lines : List String) : CallM Unit :=
  lines.forM printLine

end CallM

end WordStem
