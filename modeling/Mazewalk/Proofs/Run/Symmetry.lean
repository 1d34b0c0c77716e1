import Mazewalk.Program.Text
import Mazewalk.Proofs.Run.Meaning
import Mazewalk.Proofs.World.Turning

/-!
# Symmetries of a run

A run looks at its world in two ways only: it performs actions, and it asks conditions.  So a change
of the world that goes along with both is a symmetry of runs, whatever it does to the grid and to
the walker: begun in the changed world, a run takes the same turns, performs the same actions on
behalf of the same instructions and leaves the same warnings, and it ends in the changed world
(`World.Symmetry.run`).

The clockwise quarter turn is such a change, for worlds with the walker inside the grid
(`turned_symmetry`).  There is no up and no left in the rules of the maze (`Program.run_turned`).
-/

namespace Mazewalk

/-- The step with its walker changed. -/
def Step.map (g : Walker → Walker) (e : Step) : Step :=
  { e with walker := g e.walker }

/-- The walk with its world and the walkers of its trace changed. -/
def Walk.map (f : World → World) (g : Walker → Walker) (s : Walk) : Walk :=
  ⟨f s.world, s.trace.map (Step.map g), s.warnings⟩

/-- The run with its world and the walkers of its trace changed. -/
def Run.map (f : World → World) (g : Walker → Walker) (r : Run) : Run :=
  ⟨r.cursor, f r.world, r.trace.map (Step.map g), r.warnings⟩

/-- Changing worlds by `f`, and their walkers by `g`, goes along with the actions and the
conditions of all worlds that satisfy `P`. -/
structure World.Symmetry (P : World → Prop) (f : World → World) (g : Walker → Walker) : Prop where
  kept : ∀ w a, P w → P (w.act a)
  act : ∀ w a, P w → (f w).act a = f (w.act a)
  holds : ∀ w (c : Condition), P w → c.holds (f w) = c.holds w
  walker : ∀ w, P w → (f w).walker = g w.walker

/-- A cursor sees no more of a world than the conditions that hold there. -/
theorem Cursor.move_congr {w w' : World} (h : ∀ c : Condition, c.holds w' = c.holds w)
    (cursor : Cursor) : cursor.move w' = cursor.move w := by
  fun_cases Cursor.move w cursor <;> simp_all [Cursor.move]

namespace World.Symmetry

variable {P : World → Prop} {f : World → World} {g : Walker → Walker}

theorem perform_map (h : Symmetry P f g) {r : Run} (hr : P r.world) (i : Nat) (a : Action)
    (c : Cursor) : (r.map f g).perform i a c = (r.perform i a c).map f g := by
  have ha : (f r.world).act a = f (r.world.act a) := h.act r.world a hr
  have hw : (f (r.world.act a)).walker = g (r.world.act a).walker :=
    h.walker _ (h.kept r.world a hr)
  simp only [Run.perform, Run.stepOf, Run.map, Step.map, ha, hw, Array.map_push]

theorem finish (h : Symmetry P f g) {r : Run} (hr : P r.world) :
    (r.map f g).finish = r.finish.map f g := by
  have hmove : ∀ {r : Run}, P r.world →
      (r.map f g).cursor.move (r.map f g).world = r.cursor.move r.world := by
    intro r hr
    exact Cursor.move_congr (fun c => h.holds r.world c hr) r.cursor
  induction r using Run.finish.induct with
  | case1 r i a c hm ih =>
    rw [Run.finish_of_act ((hmove hr).trans hm), h.perform_map hr, Run.finish_of_act hm]
    exact ih (h.kept r.world a hr)
  | case2 r w c hm ih =>
    have hp : (r.map f g).pass w c = (r.pass w c).map f g := by cases w <;> rfl
    rw [Run.finish_of_pass ((hmove hr).trans hm), hp, Run.finish_of_pass hm]
    exact ih (by rwa [Run.world_pass])
  | case3 r hm =>
    rw [Run.finish_of_stop ((hmove hr).trans hm), Run.finish_of_stop hm]
    rfl

/-- **A symmetry of the worlds is one of the runs.** -/
theorem run (h : Symmetry P f g) (program : Program) {w : World} (hw : P w) :
    program.run (f w) = (program.run w).map f g := by
  have hs : (Run.start program w).map f g = Run.start program (f w) := by
    rw [Run.map, Run.start, Array.map_empty]
    rfl
  rw [Program.run, ← hs]
  exact h.finish hw

end World.Symmetry

/-! ### The quarter turn -/

theorem World.turned_symmetry (height : Nat) :
    World.Symmetry (fun w => w.InBounds ∧ w.grid.height = height) World.turned
      (Walker.turned height) where
  kept w a h := ⟨h.1.act a, (w.sameGround_act a).height.trans h.2⟩
  act w a h := World.act_turned h.1 a
  holds w c h := World.holds_turned h.1 c
  walker w h := by rw [← h.2]; rfl

/-- **A run does not know which way is up.**  Turn the world clockwise, the grid with its walls,
items and goals and the walker with it: the run of the same program is the same turned clockwise,
in its final world and in the walker after each step, and it performs the same actions on behalf
of the same instructions and leaves the same warnings. -/
theorem Program.run_turned (program : Program) (world : World) (h : world.InBounds) :
    program.run world.turned =
      { world := (program.run world).world.turned
        trace := (program.run world).trace.map fun e =>
          { e with walker := e.walker.turned world.grid.height }
        warnings := (program.run world).warnings } :=
  (World.turned_symmetry world.grid.height).run program ⟨h, rfl⟩

/-- Two rows of cells, with an item on the way to a wall and a goal below it. -/
def courtyard : World :=
  ⟨⟨⟨0, 0⟩, .right, false⟩, ⟨3, 2, #[⟨.start, false⟩, ⟨.path, true⟩, ⟨.wall, false⟩,
    ⟨.wall, false⟩, ⟨.goal, false⟩, ⟨.path, false⟩]⟩⟩

/-- Walks up to the wall, takes the item and turns down against the edge. -/
def errand : Program :=
  [.wrap (.whilst .pathAhead Program.defaultCeiling), .act .forward, .act .pickup, .act .turnRight,
    .wrap (.times ⟨5, by decide, by decide⟩), .act .forward]

/-- What was the lower edge is the left one. -/
theorem Program.run_turned_courtyard :
    courtyard.InBounds ∧
      errand.run courtyard.turned =
        { world := (errand.run courtyard).world.turned
          trace := (errand.run courtyard).trace.map fun e => { e with walker := e.walker.turned 2 }
          warnings := (errand.run courtyard).warnings } ∧
      (errand.run courtyard).world.walker = ⟨⟨1, 1⟩, .down, true⟩ ∧
      (errand.run courtyard.turned).world.walker = ⟨⟨0, 1⟩, .left, true⟩ := by
  have h : courtyard.InBounds := ⟨by decide, by decide⟩
  refine ⟨h, run_turned errand courtyard h, ?_, ?_⟩
  · rw [run_eq]
    decide +kernel
  · rw [run_eq]
    decide +kernel

end Mazewalk
