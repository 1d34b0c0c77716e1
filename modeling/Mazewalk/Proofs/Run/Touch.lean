import Mazewalk.Proofs.Run.Symmetry
import Mazewalk.Proofs.Run.Turns
import Mazewalk.Proofs.World.Sight

/-!
# What a run touches

Nobody looks farther than one cell.  What an action does, and whether a condition holds, depends on
the walker, on the cell it stands on and on the cells beside that one (`Walker.Touches`), and no
cell is changed but the one under the walker.  So a change of the maze that keeps off all the cells
that a run touches on its way makes no difference to the run (`Program.run_untouched`).

Two worlds are compared by the set `D` of the positions at which their grids show the same tile.  As
long as it includes all that the walker touches, the same happens in both worlds and the set stays
the same: `World.AgreesOn.act` says so of an action, `Run.AgreesOn.step` of a step of a run, and
`Run.AgreesOn.finish` of a whole run.  Nothing here asks that the grids have all their cells.
-/

namespace Mazewalk

namespace Grid

/-- Grids of one shape number their cells in the same way. -/
theorem index_of_sameShape {α : Type} {g g' : Grid α} (hw : g'.width = g.width)
    (hh : g'.height = g.height)
    (hs : g.WellFormed ∧ g'.WellFormed ∨ g.cells.size ≤ wordSize ∧ g'.cells.size ≤ wordSize)
    (p : Position) : g'.index p = g.index p := by
  refine index_congr hw ?_ p
  obtain ⟨hg, hg'⟩ | ⟨hs, hs'⟩ := hs
  · rw [hg.2.2, hg'.2.2, hw, hh]
  · rw [Nat.max_eq_left hs, Nat.max_eq_left hs']

end Grid

/-- The walker stands on the cell or beside it. -/
def Walker.Touches (walker : Walker) (q : Position) : Prop :=
  q = walker.position ∨ walker.position.Adjacent q

instance (walker : Walker) (q : Position) : Decidable (walker.Touches q) :=
  inferInstanceAs (Decidable (_ ∨ _))

namespace World

/-- The walkers are the same, and the grids have one shape, number their cells in the same way and
show the same tile just at the positions in `D`. -/
structure AgreesOn (D : Position → Prop) (w w' : World) : Prop where
  walker : w'.walker = w.walker
  width : w'.grid.width = w.grid.width
  height : w'.grid.height = w.grid.height
  index : ∀ q, w'.grid.index q = w.grid.index q
  tile : ∀ q, w'.grid.get? q = w.grid.get? q ↔ D q

namespace AgreesOn

variable {D : Position → Prop} {w w' : World}

theorem wayAhead? (h : w.AgreesOn D w') (ht : ∀ q, w.walker.Touches q → D q) :
    w'.wayAhead? = w.wayAhead? := by
  refine Option.ext fun q => ?_
  rw [wayAhead?_eq_some_iff, wayAhead?_eq_some_iff, h.walker]
  refine and_congr_right fun hn => ?_
  have hq : w.walker.Touches q := Or.inr (Position.adjacent_iff.2 ⟨_, hn⟩)
  rw [Grid.passable, Grid.passable, (h.tile q).2 (ht q hq)]

/-- **A condition looks no farther than the walker touches.** -/
theorem holds (h : w.AgreesOn D w') (ht : ∀ q, w.walker.Touches q → D q) (c : Condition) :
    c.holds w' = c.holds w := by
  cases c with
  | pathAhead =>
    show w'.wayAhead?.isSome = w.wayAhead?.isSome
    rw [h.wayAhead? ht]
  | notAtGoal =>
    have hp := (h.tile w.walker.position).2 (ht _ (Or.inl rfl))
    rw [Condition.holds_notAtGoal, Condition.holds_notAtGoal, h.walker, hp]

/-- The same write, to a position at which the grids agree, keeps them in agreement: the others that
share its cell are positions at which they agree as well. -/
theorem get?_put (h : w.AgreesOn D w') {p : Position} {tile : Tile}
    (hp : w.grid.get? p = some tile) (hp' : w'.grid.get? p = some tile) (q : Position)
    (tile' : Tile) :
    (w'.grid.put p tile').get? q = (w.grid.put p tile').get? q ↔
      w'.grid.get? q = w.grid.get? q := by
  have hc := Grid.contains_of_get? hp
  have hc' := Grid.contains_of_get? hp'
  rw [Grid.get?_put_of_contains hc, Grid.get?_put_of_contains hc', h.index, h.index]
  by_cases hi : w.grid.index p = w.grid.index q
  · rw [if_pos hi, if_pos hi]
    have same : w'.grid.get? q = w.grid.get? q := by
      rw [Grid.get?_of_contains hc] at hp
      rw [Grid.get?_of_contains hc', h.index] at hp'
      simp only [Grid.get?, Grid.Contains, h.index, h.width, h.height, ← hi, hp, hp']
    rw [same]
    exact iff_of_true rfl rfl
  · rw [if_neg hi, if_neg hi]

/-- **An action keeps worlds in agreement**, and at the same positions. -/
theorem act (h : w.AgreesOn D w') (ht : ∀ q, w.walker.Touches q → D q) (a : Action) :
    (w.act a).AgreesOn D (w'.act a) := by
  cases a with
  | forward =>
    rw [act_forward, act_forward, h.wayAhead? ht, h.walker]
    exact ⟨rfl, h.width, h.height, h.index, h.tile⟩
  | turnLeft =>
    exact ⟨by simp only [World.act, h.walker], h.width, h.height, h.index, h.tile⟩
  | turnRight =>
    exact ⟨by simp only [World.act, h.walker], h.width, h.height, h.index, h.tile⟩
  | pickup =>
    have hp := (h.tile w.walker.position).2 (ht _ (Or.inl rfl))
    unfold World.act
    rw [h.walker, hp]
    cases hg : w.grid.get? w.walker.position with
    | none => exact h
    | some tile =>
      by_cases hi : tile.item = true
      · simp only [hi, if_true]
        refine ⟨rfl, by simp [h.width], by simp [h.height], by simp [h.index], fun q => ?_⟩
        exact (h.get?_put hg (hp.trans hg) q _).trans (h.tile q)
      · simp only [hi]
        exact h

end AgreesOn

end World

namespace Run

/-- The runs are at the same place with the same record, in worlds that agree on `D`. -/
structure AgreesOn (D : Position → Prop) (r r' : Run) : Prop where
  cursor : r'.cursor = r.cursor
  world : r.world.AgreesOn D r'.world
  trace : r'.trace = r.trace
  warnings : r'.warnings = r.warnings

variable {D : Position → Prop} {r r' : Run}

/-- Every walker of the run is one that its trace shows, or the first one. -/
theorem walker_mem_walkers (r : Run) (n : Nat) : (r.advance n).world.walker ∈ r.walkers := by
  obtain ⟨m, hm⟩ := Nat.le.dest r.size_trace_le
  by_cases hn : n ≤ m
  · exact List.mem_of_getElem? (walker_advance (by omega))
  -- after the last step the world is the one in which it has ended
  · have hlast : (r.advance n).world = (r.advance m).world := by
      rw [world_advance (by omega), world_advance (by omega)]
    rw [hlast]
    exact List.mem_of_getElem? (walker_advance (by omega))

namespace AgreesOn

theorem move (h : r.AgreesOn D r') (ht : ∀ q, r.world.walker.Touches q → D q) :
    r'.cursor.move r'.world = r.cursor.move r.world := by
  rw [h.cursor]
  exact Cursor.move_congr (h.world.holds ht) r.cursor

theorem pass (h : r.AgreesOn D r') (warning? : Option Warning) (next : Cursor) :
    (r.pass warning? next).AgreesOn D (r'.pass warning? next) := by
  cases warning? with
  | none => exact ⟨rfl, h.world, h.trace, h.warnings⟩
  | some warning => exact ⟨rfl, h.world, h.trace, congrArg (·.push warning) h.warnings⟩

/-- **One step** keeps runs in agreement if they agree on what the walker touches before it. -/
theorem step (h : r.AgreesOn D r') (ht : ∀ q, r.world.walker.Touches q → D q) :
    r.step.2.AgreesOn D r'.step.2 := by
  induction r using Run.step.induct generalizing r' with
  | case1 r i a c hm =>
    have hw := h.world.act ht a
    rw [step_of_act hm, step_of_act ((h.move ht).trans hm)]
    refine ⟨rfl, hw, ?_, h.warnings⟩
    show r'.trace.push (r'.stepOf i a) = r.trace.push (r.stepOf i a)
    rw [stepOf, stepOf, h.trace, hw.walker]
  | case2 r warning? c hm ih =>
    rw [step_of_pass hm, step_of_pass ((h.move ht).trans hm)]
    exact ih (h.pass warning? c) (by rwa [world_pass])
  | case3 r hm =>
    rw [step_of_stop hm, step_of_stop ((h.move ht).trans hm)]
    exact ⟨rfl, h.world, h.trace, h.warnings⟩

theorem advance (h : r.AgreesOn D r') (ht : ∀ walker ∈ r.walkers, ∀ q, walker.Touches q → D q)
    (n : Nat) : (r.advance n).AgreesOn D (r'.advance n) := by
  induction n with
  | zero => exact h
  | succ n ih => exact ih.step (ht _ (r.walker_mem_walkers n))

/-- **A whole run**: both come to their end with the same record. -/
theorem finish (h : r.AgreesOn D r') (ht : ∀ walker ∈ r.walkers, ∀ q, walker.Touches q → D q) :
    r.finish.world.AgreesOn D r'.finish.world ∧ r'.finish.trace = r.finish.trace ∧
      r'.finish.warnings = r.finish.warnings := by
  obtain ⟨n, hn⟩ := Nat.le.dest r.size_trace_le
  have hs := (walk_advance hn).1
  have hend : (r.advance (n + 1)).isFinished = true := (step_eq_none (Prod.ext hs rfl)).1
  have ha := h.advance ht (n + 1)
  have hend' : (r'.advance (n + 1)).isFinished = true := by rwa [isFinished, ha.cursor]
  rw [← finish_advance r (n + 1), ← finish_advance r' (n + 1), finish_of_isFinished hend,
    finish_of_isFinished hend']
  exact ⟨ha.world, ha.trace, ha.warnings⟩

end AgreesOn

end Run

namespace Program

/-- At some moment of the run its walker stands on the cell or beside it. -/
def Touches (program : Program) (world : World) (q : Position) : Prop :=
  ∃ walker ∈ (Run.start program world).walkers, walker.Touches q

/-- **A run depends only on the cells that it touches.**  Change the maze elsewhere, and the same
program makes the same steps, leaves the same warnings and brings the walker to the same end; and
at the end the two mazes differ just where they did at the beginning.  The mazes have one shape.  If
they do not have all their cells, they must have no more than there are words. -/
theorem run_untouched (program : Program) (walker : Walker) {g g' : Grid Tile}
    (hw : g'.width = g.width) (hh : g'.height = g.height)
    (hs : g.WellFormed ∧ g'.WellFormed ∨ g.cells.size ≤ wordSize ∧ g'.cells.size ≤ wordSize)
    (h : ∀ q, g.Contains q → program.Touches ⟨walker, g⟩ q → g'.get? q = g.get? q) :
    (program.run ⟨walker, g'⟩).trace = (program.run ⟨walker, g⟩).trace ∧
      (program.run ⟨walker, g'⟩).warnings = (program.run ⟨walker, g⟩).warnings ∧
      (program.run ⟨walker, g'⟩).world.walker = (program.run ⟨walker, g⟩).world.walker ∧
      (program.run ⟨walker, g'⟩).world.grid.width = (program.run ⟨walker, g⟩).world.grid.width ∧
      (program.run ⟨walker, g'⟩).world.grid.height = (program.run ⟨walker, g⟩).world.grid.height ∧
      ∀ q, (program.run ⟨walker, g'⟩).world.grid.get? q =
        (program.run ⟨walker, g⟩).world.grid.get? q ↔ g'.get? q = g.get? q := by
  have ht : ∀ v ∈ (Run.start program ⟨walker, g⟩).walkers, ∀ q, v.Touches q →
      g'.get? q = g.get? q := by
    intro v hv q hq
    by_cases hc : g.Contains q
    · exact h q hc ⟨v, hv, hq⟩
    -- outside there is nothing that the grids could show
    · have hc' : ¬ g'.Contains q := by rwa [Grid.Contains, hw, hh]
      rw [Grid.get?, Grid.get?, if_neg hc, if_neg hc']
  have hi := Grid.index_of_sameShape hw hh hs
  have hstart : (Run.start program ⟨walker, g⟩).AgreesOn (fun q => g'.get? q = g.get? q)
      (Run.start program ⟨walker, g'⟩) :=
    ⟨rfl, ⟨rfl, hw, hh, hi, fun _ => Iff.rfl⟩, rfl, rfl⟩
  obtain ⟨hworld, htrace, hwarnings⟩ := hstart.finish ht
  exact ⟨htrace, hwarnings, hworld.walker, hworld.width, hworld.height, hworld.tile⟩

/-- The courtyard with a shed behind it, of these two tiles. -/
def shed (upper lower : Tile) : Grid Tile :=
  ⟨4, 2, #[⟨.start, false⟩, ⟨.path, true⟩, ⟨.wall, false⟩, upper,
    ⟨.wall, false⟩, ⟨.goal, false⟩, ⟨.path, false⟩, lower]⟩

/-- A shed with an item in it. -/
def storageShed : Grid Tile := shed ⟨.path, false⟩ ⟨.path, true⟩

/-- A shed with the prize in it, where no path leads on. -/
def prizeShed : Grid Tile := shed ⟨.goal, true⟩ ⟨.wall, false⟩

/-- The errand in the courtyard is the same whatever is in the shed, and leaves it there. -/
theorem run_untouched_shed :
    prizeShed.width = storageShed.width ∧ prizeShed.height = storageShed.height ∧
      storageShed.WellFormed ∧ prizeShed.WellFormed ∧
      (∀ q, storageShed.Contains q → errand.Touches ⟨courtyard.walker, storageShed⟩ q →
        prizeShed.get? q = storageShed.get? q) ∧
      (errand.run ⟨courtyard.walker, storageShed⟩).trace.size = 8 ∧
      (errand.run ⟨courtyard.walker, prizeShed⟩).trace =
        (errand.run ⟨courtyard.walker, storageShed⟩).trace ∧
      (errand.run ⟨courtyard.walker, prizeShed⟩).world.grid.get? ⟨3, 0⟩ ≠
        (errand.run ⟨courtyard.walker, storageShed⟩).world.grid.get? ⟨3, 0⟩ := by
  have hw : prizeShed.width = storageShed.width := rfl
  have hh : prizeShed.height = storageShed.height := rfl
  have hg : storageShed.WellFormed ∧ prizeShed.WellFormed := by decide
  have hcells : ∀ x < 4, ∀ y < 2,
      (∃ v ∈ courtyard.walker ::
        (errand.run ⟨courtyard.walker, storageShed⟩).trace.toList.map Step.walker,
          v.Touches ⟨x, y⟩) → prizeShed.get? ⟨x, y⟩ = storageShed.get? ⟨x, y⟩ := by
    rw [run_eq]
    decide +kernel
  have h : ∀ q, storageShed.Contains q → errand.Touches ⟨courtyard.walker, storageShed⟩ q →
      prizeShed.get? q = storageShed.get? q :=
    fun q hq ht => hcells q.x hq.1 q.y hq.2 ht
  have hsize : (errand.run ⟨courtyard.walker, storageShed⟩).trace.size = 8 := by
    rw [run_eq]
    decide +kernel
  obtain ⟨htrace, -, -, -, -, htile⟩ := run_untouched errand courtyard.walker hw hh (Or.inl hg) h
  exact ⟨hw, hh, hg.1, hg.2, h, hsize, htrace, fun he => absurd ((htile _).1 he) (by decide)⟩

end Program

end Mazewalk
