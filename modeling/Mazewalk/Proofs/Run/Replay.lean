import Mazewalk.Proofs.Run.Stepping
import Mazewalk.Proofs.World.Actions

/-!
# Runs and actions

Loops and warnings aside, a run is a list of actions, the ones in its trace.  At every moment of a
run its trace is the record of what has happened so far: `w.Records es` says that the steps `es`
show the walker after each of their actions, from the world `w` on, and `Run.RecordsFrom.advance`
says it of the trace.  So performing the actions of the trace is all that a run does to the world
(`world_run`).

In the other direction every list of actions is a program without loops (`run_ofActions`).  Put
together, a run can be replayed from its trace, and the program without loops that its actions make
is the same run but for the places and the warnings (`replay_run`).
-/

namespace Mazewalk

/-! ### The record of a run -/

namespace World

/-- The steps show the walker after each of their actions, the first one in this world. -/
def Records (w : World) : List Step → Prop
  | [] => True
  | e :: es => e.walker = (w.act e.action).walker ∧ (w.act e.action).Records es

theorem records_append {w : World} {es fs : List Step} :
    w.Records (es ++ fs) ↔ w.Records es ∧ (w.actAll (es.map Step.action)).Records fs := by
  induction es generalizing w with
  | nil => simp [Records]
  | cons e es ih =>
    rw [List.cons_append, Records, Records, ih, and_assoc]
    rfl

theorem records_concat {w : World} {es : List Step} {e : Step} :
    w.Records (es ++ [e]) ↔
      w.Records es ∧ e.walker = ((w.actAll (es.map Step.action)).act e.action).walker := by
  simp [records_append, Records]

/-- Recorded steps show the walker of each world that their actions lead through. -/
theorem Records.map_walker_scanl {w : World} {es : List Step} (h : w.Records es) :
    ((es.map Step.action).scanl act w).map World.walker = w.walker :: es.map Step.walker := by
  induction es generalizing w with
  | nil => rw [List.map_nil, List.scanl_nil]; rfl
  | cons e es ih =>
    obtain ⟨he, hr⟩ := h
    rw [List.map_cons, List.scanl_cons, List.map_cons, ih hr, ← he]
    rfl

end World

/-- The trace of the run records how the world of the run came from the world `w`. -/
structure Run.RecordsFrom (w : World) (r : Run) : Prop where
  records : w.Records r.trace.toList
  world : r.world = w.actAll (r.trace.toList.map Step.action)

namespace Run

theorem recordsFrom_start (program : Program) (w : World) :
    (Run.start program w).RecordsFrom w :=
  ⟨trivial, rfl⟩

theorem RecordsFrom.step {w : World} {r : Run} (h : r.RecordsFrom w) : r.step.2.RecordsFrom w := by
  cases hs : r.step with
  | mk e s =>
    cases e with
    | some e =>
      obtain ⟨ht, hw, he, -⟩ := step_eq_some hs
      have hsw : s.world = (w.actAll (r.trace.toList.map Step.action)).act e.action := by
        rw [hw, h.world]
      refine ⟨?_, ?_⟩
      · rw [ht, Array.toList_push, World.records_concat, ← hsw]
        exact ⟨h.records, he⟩
      · rw [ht, Array.toList_push, List.map_append, World.actAll_append, hsw]
        rfl
    | none =>
      obtain ⟨-, hw, ht, -⟩ := step_eq_none hs
      refine ⟨?_, ?_⟩
      · rw [ht]
        exact h.records
      · rw [hw, ht]
        exact h.world

/-- **However far a run is stepped, its trace is the record of what has happened.** -/
theorem RecordsFrom.advance {w : World} {r : Run} (h : r.RecordsFrom w) (n : Nat) :
    (r.advance n).RecordsFrom w := by
  induction n with
  | zero => exact h
  | succ n ih =>
    rw [advance_succ]
    exact ih.step

end Run

/-! ### The whole run -/

/-- The actions of a walk, the first one first. -/
def Walk.actions (s : Walk) : List Action :=
  s.trace.toList.map Step.action

namespace Program

/-- The whole trace is the record of the whole run. -/
theorem recordsFrom_run (program : Program) (world : World) :
    world.Records (program.run world).trace.toList ∧
      (program.run world).world = world.actAll (program.run world).actions := by
  -- after as many steps as there are entries the run has come to its end, but for warnings
  have h := (Run.recordsFrom_start program world).advance (program.run world).trace.size
  have ht := Run.trace_advance_start program world (program.run world).trace.size
  rw [List.take_of_length_le (Nat.le_of_eq Array.length_toList)] at ht
  have hw : ((Run.start program world).advance (program.run world).trace.size).world =
      (program.run world).world :=
    Run.world_advance (r := Run.start program world) (Nat.le_add_left _ _)
  have hr := h.records
  have he := h.world
  rw [ht] at hr he
  exact ⟨hr, hw.symm.trans he⟩

theorem records_run (program : Program) (world : World) :
    world.Records (program.run world).trace.toList :=
  (recordsFrom_run program world).1

/-- **A run performs the actions of its trace.** -/
theorem world_run (program : Program) (world : World) :
    (program.run world).world = world.actAll (program.run world).actions :=
  (recordsFrom_run program world).2

end Program

/-! ### Programs without loops -/

/-- The program that performs some actions, one after another. -/
def Program.ofActions (actions : List Action) : Program :=
  actions.map .act

/-- The steps of some actions whose instructions stand at place `i` and the places after it. -/
def World.stepsOf (w : World) (i : Nat) : List Action → List Step
  | [] => []
  | a :: as => ⟨i, a, (w.act a).walker⟩ :: (w.act a).stepsOf (i + 1) as

/-- Recorded steps are the steps of their actions, but for the places. -/
theorem World.Records.stepsOf_eq {w : World} {es : List Step} (h : w.Records es) (i : Nat) :
    w.stepsOf i (es.map Step.action) = es.mapIdx fun k e => { e with index := i + k } := by
  induction es generalizing w i with
  | nil => rfl
  | cons e es ih =>
    obtain ⟨he, hr⟩ := h
    have hi : ∀ k, i + 1 + k = i + (k + 1) := fun k => by omega
    rw [List.map_cons, World.stepsOf, ih hr, List.mapIdx_cons, ← he]
    simp only [hi, Nat.add_zero]

theorem Run.finish_ofActions (actions : List Action) (i : Nat) (w : World) (t : Array Step)
    (ws : Array Warning) :
    (Run.mk (.ready i (Program.ofActions actions)) w t ws).finish =
      ⟨w.actAll actions, t ++ (w.stepsOf i actions).toArray, ws⟩ := by
  induction actions generalizing i w t with
  | nil =>
    rw [finish_of_stop rfl]
    simp [walk, World.stepsOf]
  | cons a as ih =>
    have hf : (Run.mk (.ready i (Program.ofActions (a :: as))) w t ws).finish =
        (Run.mk (.ready (i + 1) (Program.ofActions as)) (w.act a)
          (t.push ⟨i, a, (w.act a).walker⟩) ws).finish := finish_of_act rfl
    rw [hf, ih, World.actAll_cons, World.stepsOf]
    simp

namespace Program

/-- **A program without loops performs its actions**, each at the place of its instruction. -/
theorem run_ofActions (actions : List Action) (world : World) :
    (ofActions actions).run world =
      ⟨world.actAll actions, (world.stepsOf 0 actions).toArray, #[]⟩ := by
  have h := Run.finish_ofActions actions 0 world #[] #[]
  rwa [Array.empty_append] at h

theorem world_run_ofActions (actions : List Action) (world : World) :
    ((ofActions actions).run world).world = world.actAll actions := by
  rw [run_ofActions]

/-- **The trace is a faithful recording.**  Its actions performed one after another lead through
the walkers that it shows to the world in which the run ends.  As a program without loops they make
the same run again, with the steps at the places zero, one, two and so on, and no warning. -/
theorem replay_run (program : Program) (world : World) :
    ((program.run world).actions.scanl World.act world).map World.walker =
      world.walker :: (program.run world).trace.toList.map Step.walker ∧
    (program.run world).actions.foldl World.act world = (program.run world).world ∧
    (ofActions (program.run world).actions).run world =
      { world := (program.run world).world
        trace := (program.run world).trace.mapIdx fun k e => { e with index := k }
        warnings := #[] } := by
  have hr := records_run program world
  have hw := world_run program world
  refine ⟨hr.map_walker_scanl, hw.symm, ?_⟩
  rw [run_ofActions, ← hw, Walk.actions, hr.stepsOf_eq]
  simp only [Nat.zero_add, ← List.mapIdx_toArray, Array.toArray_toList]

end Program

end Mazewalk
