import Mazewalk.Run

/-!
# Runs with checks

A run looks at the cell ahead of its walker, when it steps there or asks for a way ahead, and at the
cell that the walker stands on.  If the grid numbers its cells with checks, such a look may break
off, and the run with it.  A run with checks is the run without them, made turn by turn, each one
only after its looks have been found not to break off.
-/

namespace Mazewalk

namespace World

/-- Breaks off where a look at the cell ahead does. -/
def checkAhead (w : World) : Except Panic Unit :=
  match w.grid.neighbor? w.walker.position w.walker.heading with
  | some target => w.grid.check target
  | none => .ok ()

/-- Breaks off where a look at the walker's own cell does. -/
def checkHere (w : World) : Except Panic Unit :=
  w.grid.check w.walker.position

/-- Breaks off where an action does. -/
def check (w : World) : Action → Except Panic Unit
  | .forward => w.checkAhead
  | .turnLeft => .ok ()
  | .turnRight => .ok ()
  | .pickup => w.checkHere

end World

def Condition.check (w : World) : Condition → Except Panic Unit
  | .pathAhead => w.checkAhead
  | .notAtGoal => w.checkHere

/-- Breaks off where the question of the guarded loop does in which the cursor is. -/
def Cursor.check (w : World) : Cursor → Except Panic Unit
  | .looping _ _ condition _ _ _ => condition.check w
  | _ => .ok ()

namespace Run

/-- Breaks off where the next turn does. -/
def check (r : Run) : Except Panic Unit := do
  r.cursor.check r.world
  match r.cursor.move r.world with
  | .act _ action _ => r.world.check action
  | _ => return ()

/-- Performs the next action, with checks. -/
def checkedStep (r : Run) : Except Panic (Option Step × Run) := do
  r.check
  match _h : r.cursor.move r.world with
  | .act index action next => return (some (r.stepOf index action), r.perform index action next)
  | .pass warning? next => (r.pass warning? next).checkedStep
  | .stop => return (none, r.stop)
termination_by r.cursor.passes
decreasing_by
  rw [cursor_pass]
  exact Cursor.passes_lt_of_pass _h

/-- Performs all the actions that are left, with checks. -/
def checkedFinish (r : Run) : Except Panic Walk := do
  r.check
  match _h : r.cursor.move r.world with
  | .act index action next => (r.perform index action next).checkedFinish
  | .pass warning? next => (r.pass warning? next).checkedFinish
  | .stop => return ⟨r.world, r.trace, r.warnings⟩
termination_by (r.cursor.actions, r.cursor.passes)
decreasing_by
  · exact Prod.Lex.left _ _ (Cursor.actions_lt_of_act _h)
  · rw [cursor_pass]
    exact Cursor.lex_of_pass _h

end Run

end Mazewalk
