import Mazewalk.Program

/-!
# Runs

A run drives a program against a world, one action at a time.  Its cursor says where in the
program it is: ready for the next instruction, inside a loop with a fixed number of rounds,
inside a guarded loop, or stopped.  The cursor carries the instructions that are still ahead,
so a run never looks a position up again.

One *turn* of the cursor either performs an action, or passes over something that performs
none, or finds the program exhausted.  Every turn lowers the pair of the actions still possible
and the places still to pass, so a run always comes to its end.  Nothing in a run fails: a
wrapper without a simple instruction after it is passed over, a guarded loop that reaches its
ceiling is left, and both leave a warning.
-/

namespace Mazewalk

/-- One performed action and the walker right after it.  The index is the place in the program
of the instruction that caused it, which for a loop is the place of the wrapper. -/
structure Step where
  index : Nat
  action : Action
  walker : Walker
  deriving DecidableEq, Repr

/-- Something odd that a run met and went past. -/
inductive Warning where
  /-- A guarded loop reached its ceiling while its condition still held. -/
  | ceiling (index limit : Nat)
  /-- A wrapper is the last instruction. -/
  | dangling (index : Nat)
  /-- A wrapper is followed by another wrapper. -/
  | nested (index : Nat)
  deriving DecidableEq, Repr

/-- The text shown for a warning.  Instructions are counted from one. -/
def Warning.message : Warning → String
  | .ceiling index limit =>
      s!"instruction {index + 1}: while loop stopped after {limit} iterations"
  | .dangling index => s!"instruction {index + 1}: loop has nothing to repeat"
  | .nested index =>
      s!"instruction {index + 1}: loop cannot wrap another loop and was skipped"

/-- Where a run is in its program, together with the instructions after that place. -/
inductive Cursor where
  /-- About to look at the first of the remaining instructions. -/
  | ready (index : Nat) (rest : Program)
  /-- Inside a loop with this many rounds left. -/
  | repeating (index : Nat) (action : Action) (remaining : Nat) (rest : Program)
  /-- Inside a guarded loop after this many rounds. -/
  | looping (index : Nat) (action : Action) (condition : Condition) (ceiling done : Nat)
      (rest : Program)
  /-- The program is exhausted. -/
  | stopped
  deriving DecidableEq, Repr

/-- How many rounds a wrapper allows at most. -/
def Wrapper.rounds : Wrapper → Nat
  | times count => count.val
  | whilst _ ceiling => ceiling.val

/-- How many actions a program can cause at most. -/
def Program.actions : Program → Nat
  | [] => 0
  | .act _ :: rest => 1 + actions rest
  | .wrap wrapper :: rest => 1 + wrapper.rounds + actions rest

namespace Cursor

/-- The place of the instruction being executed, if there is one. -/
def index? : Cursor → Option Nat
  | ready _ [] => none
  | ready index (_ :: _) => some index
  | repeating index _ _ _ => some index
  | looping index _ _ _ _ _ => some index
  | stopped => none

/-- How many actions can still follow from here at most. -/
def actions : Cursor → Nat
  | ready _ rest => rest.actions
  | repeating _ _ remaining rest => remaining + rest.actions
  | looping _ _ _ ceiling done rest => ceiling - done + rest.actions
  | stopped => 0

/-- How many turns without an action can still follow from here at most, the last one
included. -/
def passes : Cursor → Nat
  | ready _ rest => rest.length + 1
  | repeating _ _ _ rest => rest.length + 2
  | looping _ _ _ _ _ rest => rest.length + 2
  | stopped => 0

end Cursor

/-- The cursor at the entrance of a loop around an action. -/
def Wrapper.enter (wrapper : Wrapper) (index : Nat) (action : Action) (rest : Program) : Cursor :=
  match wrapper with
  | times count => .repeating index action count.val rest
  | whilst condition ceiling => .looping index action condition ceiling.val 0 rest

theorem Wrapper.actions_enter (w : Wrapper) (i : Nat) (a : Action) (rest : Program) :
    (w.enter i a rest).actions = w.rounds + rest.actions := by
  cases w <;> rfl

theorem Wrapper.passes_enter (w : Wrapper) (i : Nat) (a : Action) (rest : Program) :
    (w.enter i a rest).passes = rest.length + 2 := by
  cases w <;> rfl

/-! ### Moving the cursor -/

/-- What the cursor finds where it stands. -/
inductive Move where
  /-- An action to perform on behalf of the instruction at `index`. -/
  | act (index : Nat) (action : Action) (next : Cursor)
  /-- Nothing to perform here, and perhaps a warning to leave. -/
  | pass (warning? : Option Warning) (next : Cursor)
  /-- The end of the program. -/
  | stop
  deriving DecidableEq, Repr

/-- What the cursor does next in a world. -/
def Cursor.move (w : World) : Cursor → Move
  | stopped => .stop
  | ready _ [] => .stop
  | ready i (.act action :: rest) => .act i action (ready (i + 1) rest)
  | ready i (.wrap wrapper :: .act action :: rest) => .pass none (wrapper.enter i action rest)
  | ready i [.wrap _] => .pass (some (.dangling i)) (ready (i + 1) [])
  | ready i (.wrap _ :: .wrap inner :: rest) =>
      .pass (some (.nested i)) (ready (i + 1) (.wrap inner :: rest))
  | repeating i _ 0 rest => .pass none (ready (i + 2) rest)
  | repeating i action (remaining + 1) rest => .act i action (repeating i action remaining rest)
  | looping i action condition ceiling done rest =>
      if condition.holds w = false then .pass none (ready (i + 2) rest)
      else if ceiling ≤ done then .pass (some (.ceiling i ceiling)) (ready (i + 2) rest)
      else .act i action (looping i action condition ceiling (done + 1) rest)

/-- An action uses up one of the actions still possible. -/
theorem Cursor.actions_lt_of_act {c next : Cursor} {w : World} {i : Nat} {a : Action}
    (h : c.move w = .act i a next) : next.actions < c.actions := by
  revert h
  fun_cases Cursor.move w c <;> intro h <;> cases h
  all_goals
    simp only [Cursor.actions, Program.actions]
    omega

/-- A turn without an action makes no new action possible. -/
theorem Cursor.actions_le_of_pass {c next : Cursor} {w : World} {warning? : Option Warning}
    (h : c.move w = .pass warning? next) : next.actions ≤ c.actions := by
  revert h
  fun_cases Cursor.move w c <;> intro h <;> cases h <;> try rw [Wrapper.actions_enter]
  all_goals
    simp only [Cursor.actions, Program.actions]
    omega

/-- A turn without an action uses up one of the places to pass. -/
theorem Cursor.passes_lt_of_pass {c next : Cursor} {w : World} {warning? : Option Warning}
    (h : c.move w = .pass warning? next) : next.passes < c.passes := by
  revert h
  fun_cases Cursor.move w c <;> intro h <;> cases h <;> try rw [Wrapper.passes_enter]
  all_goals
    simp only [Cursor.passes, List.length_cons, List.length_nil]
    omega

/-- A turn without an action uses up one of the places to pass, if not an action. -/
theorem Cursor.lex_of_pass {c next : Cursor} {w : World} {warning? : Option Warning}
    (h : c.move w = .pass warning? next) :
    Prod.Lex (· < ·) (· < ·) (next.actions, next.passes) (c.actions, c.passes) := by
  rcases Nat.lt_or_eq_of_le (Cursor.actions_le_of_pass h) with less | same
  · exact Prod.Lex.left _ _ less
  · rw [same]
    exact Prod.Lex.right _ (Cursor.passes_lt_of_pass h)

/-! ### Runs in progress -/

/-- A run in progress: the cursor, the world as it is now, and the record so far. -/
structure Run where
  cursor : Cursor
  world : World
  trace : Array Step
  warnings : Array Warning
  deriving DecidableEq, Repr

/-- The result of a run that has come to its end. -/
structure Walk where
  world : World
  trace : Array Step
  warnings : Array Warning
  deriving DecidableEq, Repr

namespace Run

/-- A run of a program that has not begun yet. -/
def start (program : Program) (world : World) : Run :=
  ⟨.ready 0 program, world, #[], #[]⟩

/-- The program is known to be exhausted. -/
def isFinished (r : Run) : Bool :=
  r.cursor == .stopped

def stepOf (r : Run) (index : Nat) (action : Action) : Step :=
  ⟨index, action, (r.world.act action).walker⟩

/-- The run after an action on behalf of the instruction at `index`. -/
def perform (r : Run) (index : Nat) (action : Action) (next : Cursor) : Run :=
  ⟨next, r.world.act action, r.trace.push (r.stepOf index action), r.warnings⟩

/-- The run after its cursor has moved on, with the warning that this leaves. -/
def pass (r : Run) (warning? : Option Warning) (next : Cursor) : Run :=
  match warning? with
  | none => { r with cursor := next }
  | some warning => { r with cursor := next, warnings := r.warnings.push warning }

def stop (r : Run) : Run :=
  { r with cursor := .stopped }

@[simp] theorem cursor_pass (r : Run) (warning? : Option Warning) (next : Cursor) :
    (r.pass warning? next).cursor = next := by
  cases warning? <;> rfl

@[simp] theorem world_pass (r : Run) (warning? : Option Warning) (next : Cursor) :
    (r.pass warning? next).world = r.world := by
  cases warning? <;> rfl

@[simp] theorem trace_pass (r : Run) (warning? : Option Warning) (next : Cursor) :
    (r.pass warning? next).trace = r.trace := by
  cases warning? <;> rfl

/-! ### Stepping and finishing -/

/-- Performs the next action.  There is none once the program is exhausted. -/
def step (r : Run) : Option Step × Run :=
  match _h : r.cursor.move r.world with
  | .act index action next => (some (r.stepOf index action), r.perform index action next)
  | .pass warning? next => (r.pass warning? next).step
  | .stop => (none, r.stop)
termination_by r.cursor.passes
decreasing_by
  rw [cursor_pass]
  exact Cursor.passes_lt_of_pass _h

/-- Performs all the actions that are left. -/
def finish (r : Run) : Walk :=
  match _h : r.cursor.move r.world with
  | .act index action next => (r.perform index action next).finish
  | .pass warning? next => (r.pass warning? next).finish
  | .stop => ⟨r.world, r.trace, r.warnings⟩
termination_by (r.cursor.actions, r.cursor.passes)
decreasing_by
  · exact Prod.Lex.left _ _ (Cursor.actions_lt_of_act _h)
  · rw [cursor_pass]
    exact Cursor.lex_of_pass _h

end Run

def Program.run (program : Program) (world : World) : Walk :=
  (Run.start program world).finish

end Mazewalk
