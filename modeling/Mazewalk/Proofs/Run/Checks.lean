import Mazewalk.Proofs.Grid.Access
import Mazewalk.Proofs.Run.Stepping
import Mazewalk.Proofs.World.Actions
import Mazewalk.Run.Checked

/-!
# Checks make no difference

A run with checks breaks off, or else it does what the run without them does (`step_of_checked`,
`finish_of_checked`).  In a well formed grid that fits into a memory no look breaks off, so there
nothing can be seen of the checks (`checkedStep_eq`, `checkedFinish_eq`).
-/

namespace Mazewalk

/-! ### One turn of the cursor -/

namespace Run

variable {r s : Run}

theorem checkedStep_of_act {i : Nat} {a : Action} {c : Cursor}
    (h : r.cursor.move r.world = .act i a c) :
    r.checkedStep = r.check >>= fun _ => .ok (some (r.stepOf i a), r.perform i a c) := by
  rw [checkedStep]
  refine congrArg (r.check >>= ·) (funext fun _ => ?_)
  split <;> simp_all [pure, Except.pure]

theorem checkedStep_of_pass {w : Option Warning} {c : Cursor}
    (h : r.cursor.move r.world = .pass w c) :
    r.checkedStep = r.check >>= fun _ => (r.pass w c).checkedStep := by
  rw [checkedStep]
  refine congrArg (r.check >>= ·) (funext fun _ => ?_)
  split <;> simp_all

theorem checkedStep_of_stop (h : r.cursor.move r.world = .stop) :
    r.checkedStep = r.check >>= fun _ => .ok (none, r.stop) := by
  rw [checkedStep]
  refine congrArg (r.check >>= ·) (funext fun _ => ?_)
  split <;> simp_all [pure, Except.pure]

theorem checkedFinish_of_act {i : Nat} {a : Action} {c : Cursor}
    (h : r.cursor.move r.world = .act i a c) :
    r.checkedFinish = r.check >>= fun _ => (r.perform i a c).checkedFinish := by
  rw [checkedFinish]
  refine congrArg (r.check >>= ·) (funext fun _ => ?_)
  split <;> simp_all

theorem checkedFinish_of_pass {w : Option Warning} {c : Cursor}
    (h : r.cursor.move r.world = .pass w c) :
    r.checkedFinish = r.check >>= fun _ => (r.pass w c).checkedFinish := by
  rw [checkedFinish]
  refine congrArg (r.check >>= ·) (funext fun _ => ?_)
  split <;> simp_all

theorem checkedFinish_of_stop (h : r.cursor.move r.world = .stop) :
    r.checkedFinish = r.check >>= fun _ => .ok r.walk := by
  rw [checkedFinish]
  refine congrArg (r.check >>= ·) (funext fun _ => ?_)
  split <;> simp_all [pure, Except.pure, walk]

/-! ### Runs that do not break off -/

/-- **A step with checks**, if it is made, is the step without them. -/
theorem step_of_checked {x : Option Step × Run} (h : r.checkedStep = .ok x) : r.step = x := by
  induction r using Run.step.induct with
  | case1 r i a c hm =>
    rw [checkedStep_of_act hm] at h
    obtain ⟨-, -, h⟩ := bind_eq_ok_iff.1 h
    cases h
    exact step_of_act hm
  | case2 r w c hm ih =>
    rw [checkedStep_of_pass hm] at h
    obtain ⟨-, -, h⟩ := bind_eq_ok_iff.1 h
    rw [step_of_pass hm]
    exact ih h
  | case3 r hm =>
    rw [checkedStep_of_stop hm] at h
    obtain ⟨-, -, h⟩ := bind_eq_ok_iff.1 h
    cases h
    exact step_of_stop hm

theorem finish_of_checked {walk : Walk} (h : r.checkedFinish = .ok walk) : r.finish = walk := by
  induction r using Run.finish.induct with
  | case1 r i a c hm ih =>
    rw [checkedFinish_of_act hm] at h
    obtain ⟨-, -, h⟩ := bind_eq_ok_iff.1 h
    rw [finish_of_act hm]
    exact ih h
  | case2 r w c hm ih =>
    rw [checkedFinish_of_pass hm] at h
    obtain ⟨-, -, h⟩ := bind_eq_ok_iff.1 h
    rw [finish_of_pass hm]
    exact ih h
  | case3 r hm =>
    rw [checkedFinish_of_stop hm] at h
    obtain ⟨-, -, h⟩ := bind_eq_ok_iff.1 h
    cases h
    exact finish_of_stop hm

/-- The run after a number of steps with checks. -/
def checkedAdvance (r : Run) : Nat → Except Panic Run
  | 0 => .ok r
  | n + 1 => r.checkedAdvance n >>= fun s => s.checkedStep.map Prod.snd

/-- **Any number of steps with checks**, if they are made, are the steps without them. -/
theorem advance_of_checked {n : Nat} (h : r.checkedAdvance n = .ok s) : r.advance n = s := by
  induction n generalizing s with
  | zero =>
    cases h
    rfl
  | succ n ih =>
    obtain ⟨t, ht, h⟩ := bind_eq_ok_iff.1 h
    obtain ⟨x, hx, rfl⟩ := map_eq_ok_iff.1 h
    rw [advance_succ, ih ht, step_of_checked hx]

end Run

/-! ### Grids with all their cells -/

namespace World

variable {w : World}

/-- The grid is well formed, and has no more cells than there are words. -/
structure Fits (w : World) : Prop where
  grid : w.grid.WellFormed
  size : w.grid.cells.size ≤ wordSize

namespace Fits

theorem act (h : w.Fits) (a : Action) : (w.act a).Fits :=
  ⟨(w.sameGround_act a).wellFormed h.grid, by rw [(w.sameGround_act a).size]; exact h.size⟩

theorem checkHere (h : w.Fits) : w.checkHere = .ok () :=
  Grid.check_eq_ok h.grid h.size _

theorem checkAhead (h : w.Fits) : w.checkAhead = .ok () := by
  unfold World.checkAhead
  split
  · exact Grid.check_eq_ok h.grid h.size _
  · rfl

end Fits

end World

namespace Run

variable {r : Run}

theorem check_eq_ok (h : r.world.Fits) : r.check = .ok () := by
  have hcondition : ∀ c : Condition, c.check r.world = .ok () := by
    intro c
    cases c with
    | pathAhead => exact h.checkAhead
    | notAtGoal => exact h.checkHere
  have hcursor : r.cursor.check r.world = .ok () := by
    unfold Cursor.check
    split
    · exact hcondition _
    · rfl
  have haction : ∀ a, r.world.check a = .ok () := by
    intro a
    cases a with
    | forward => exact h.checkAhead
    | turnLeft => rfl
    | turnRight => rfl
    | pickup => exact h.checkHere
  unfold check
  rw [hcursor]
  cases r.cursor.move r.world with
  | act i a c => exact haction a
  | pass w c => rfl
  | stop => rfl

/-- **In a grid that fits** checks make no difference to a step. -/
theorem checkedStep_eq (h : r.world.Fits) : r.checkedStep = .ok r.step := by
  induction r using Run.step.induct with
  | case1 r i a c hm =>
    rw [checkedStep_of_act hm, check_eq_ok h, step_of_act hm]
    rfl
  | case2 r w c hm ih =>
    rw [checkedStep_of_pass hm, check_eq_ok h, step_of_pass hm]
    exact ih (by rwa [world_pass])
  | case3 r hm =>
    rw [checkedStep_of_stop hm, check_eq_ok h, step_of_stop hm]
    rfl

/-- **In a grid that fits** checks make no difference to a whole run. -/
theorem checkedFinish_eq (h : r.world.Fits) : r.checkedFinish = .ok r.finish := by
  induction r using Run.finish.induct with
  | case1 r i a c hm ih =>
    rw [checkedFinish_of_act hm, check_eq_ok h, finish_of_act hm]
    exact ih (h.act a)
  | case2 r w c hm ih =>
    rw [checkedFinish_of_pass hm, check_eq_ok h, finish_of_pass hm]
    exact ih (by rwa [world_pass])
  | case3 r hm =>
    rw [checkedFinish_of_stop hm, check_eq_ok h, finish_of_stop hm]
    rfl

end Run

end Mazewalk
