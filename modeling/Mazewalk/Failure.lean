import Mazewalk.Text.Padding

/-!
# Failures

What a command says when it cannot go on: a message, and the messages of what the failure goes
back to, the nearest first.
-/

namespace Mazewalk

/-- A message and the messages of its causes. -/
structure Failure where
  message : String
  causes : List String := []
  deriving DecidableEq, Repr

namespace Failure

def within (message : String) (cause : Failure) : Failure :=
  ⟨message, cause.message :: cause.causes⟩

/-- All messages on one line. -/
def chain (failure : Failure) : String :=
  ": ".intercalate (failure.message :: failure.causes)

/-- A text in which every line but the first is indented. -/
def hanging (indent : Nat) (text : String) : String :=
  String.ofList (text.toList.flatMap fun c =>
    if c = '\n' then c :: List.replicate indent ' ' else [c])

/-- The lines for a cause.  Several causes are numbered from zero, and the lines of one cause
start in the same column. -/
def causeLines (numbered : Bool) (number : Nat) (cause : String) : String :=
  if numbered then Text.padLeft 5 (toString number) ++ ": " ++ hanging 7 cause
  else "    " ++ hanging 4 cause

def report (failure : Failure) : String :=
  let numbered := 1 < failure.causes.length
  let causes := failure.causes.zipIdx.map fun (cause, number) =>
    causeLines numbered number cause ++ "\n"
  "Error: " ++ failure.message ++ "\n" ++
    (if causes.isEmpty then "" else "\nCaused by:\n" ++ String.join causes)

end Failure

end Mazewalk
