import Mazewalk.World
import Mazewalk.Text.Word

/-!
# Conditions

A condition guards a loop.  It looks at the world and changes nothing.  In a program it has two
spellings, with and without underscores, and the case of its letters does not matter.
-/

namespace Mazewalk

/-- What a guarded loop asks before each round. -/
inductive Condition where
  /-- The cell ahead is inside the maze and not a wall. -/
  | pathAhead
  /-- The walker does not stand on a goal tile. -/
  | notAtGoal
  deriving DecidableEq, Repr, Inhabited

namespace Condition

def all : List Condition := [pathAhead, notAtGoal]

/-- Whether the condition holds in a world.  Outside the maze no tile is a goal. -/
def holds (c : Condition) (w : World) : Bool :=
  match c with
  | pathAhead => w.wayAhead?.isSome
  | notAtGoal =>
      match w.grid.get? w.walker.position with
      | some tile => tile.terrain != .goal
      | none => true

/-- The name of the condition, in programs and in stored runs. -/
def name : Condition → String
  | pathAhead => "path_ahead"
  | notAtGoal => "not_at_goal"

def ofName? (text : String) : Option Condition :=
  all.find? fun condition => condition.name == text

/-- The spellings a program may use, in lower case. -/
def spellings : Condition → List String
  | pathAhead => ["path_ahead", "pathahead"]
  | notAtGoal => ["not_at_goal", "notatgoal"]

/-- Reads one word of a program, whatever the case of its letters. -/
def ofWord? (word : List Char) : Option Condition :=
  all.find? fun condition => condition.spellings.contains (Text.lower word)

/-- The text shown for a word that names no condition. -/
def unknownMessage (word : String) : String :=
  s!"unknown condition '{word}'"

@[simp] theorem ofName?_name (c : Condition) : ofName? c.name = some c := by
  cases c <;> rfl

end Condition

end Mazewalk
