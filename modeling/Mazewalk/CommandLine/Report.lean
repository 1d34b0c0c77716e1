import Mazewalk.Level
import Mazewalk.Program.Text
import Mazewalk.Text.Padding

/-!
# Reports

The report on a program that was run on a level without a screen: a note for each instruction
that the level does not allow, the name of the level, a line for each step, a line for each
warning, and the outcome.  Instructions and steps are counted from one.
-/

namespace Mazewalk.CommandLine

/-- The note on the instruction at a place that the level does not allow. -/
def noteLine (program : Program) (place : Nat) : String :=
  let text := (program[place]?.map Instruction.text).getD ""
  s!"note: instruction {place + 1} ({text}) is not in this level's palette"

def levelLine (level : Level) : String :=
  s!"Level {level.id}: {level.name}"

def stepLine (number : Nat) (step : Step) : String :=
  let p := step.walker.position
  s!"{Text.padLeft 3 (toString number)}. [{step.index + 1}] " ++
    s!"{Text.padRight 8 step.action.word} -> ({p.x}, {p.y}) facing {step.walker.heading.title}"

def warningLine (warning : Warning) : String :=
  s!"warning: {warning.message}"

def outcomeLine (outcome : Level.Outcome) : String :=
  let verdict := if outcome.success then "Success" else "Try again"
  let p := outcome.walker.position
  s!"{verdict} at ({p.x}, {p.y}) with {outcome.stars} star(s)"

/-- The report on a program and a level, line by line. -/
def report (level : Level) (program : Program) : List String :=
  let outcome := level.play program
  (level.offPalette program).map (noteLine program) ++
    [levelLine level] ++
    outcome.trace.toList.zipIdx.map (fun (step, i) => stepLine (i + 1) step) ++
    outcome.warnings.toList.map warningLine ++
    [outcomeLine outcome]

end Mazewalk.CommandLine
