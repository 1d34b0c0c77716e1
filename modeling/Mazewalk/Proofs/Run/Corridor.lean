import Mazewalk.Proofs.Run.Composition
import Mazewalk.Proofs.Run.Loops
import Mazewalk.Proofs.World.Corridor

/-!
# Walking until blocked

`while path_ahead n; forward` takes the walker along its corridor until there is no way ahead or
`n` steps are made, whichever comes first.  `Program.run_untilBlocked` says exactly how the world
and the record look afterwards, for the two instructions alone and anywhere in a program where no
wrapper stands before them.  If the ceiling is just the length of the corridor both ends come
together, and then there is no warning: after the last step the condition fails.
-/

namespace Mazewalk

/-- Goes forward as long as there is a way ahead, up to a ceiling. -/
def Program.untilBlocked (ceiling : Count) : Program :=
  [.wrap (.whilst .pathAhead ceiling), .act .forward]

/-- What walking until blocked, as the loop at place `i`, makes of a world: the steps, each of them
to the next cell ahead, the walker so many cells further, and a warning if there was a way left. -/
structure Walk.GoesAhead (w : World) (i ceiling : Nat) (s : Walk) : Prop where
  steps : s.trace.size = min ceiling w.clearance
  each : ∀ k e, s.trace[k]? = some e →
    e.index = i ∧ e.action = .forward ∧
      w.walker.position.ahead? w.walker.heading (k + 1) = some e.walker.position ∧
      e.walker.heading = w.walker.heading ∧ e.walker.carrying = w.walker.carrying
  position : w.walker.position.ahead? w.walker.heading (min ceiling w.clearance) =
    some s.world.walker.position
  heading : s.world.walker.heading = w.walker.heading
  carrying : s.world.walker.carrying = w.walker.carrying
  grid : s.world.grid = w.grid
  warnings : s.warnings = if ceiling < w.clearance then #[.ceiling i ceiling] else #[]

/-- So many rounds of stepping forward as there is clearance for go ahead. -/
theorem Walk.goesAhead_roundsOf {w : World} {i n ceiling : Nat} {ws : Array Warning}
    (hn : n = min ceiling w.clearance)
    (hws : ws = if ceiling < w.clearance then #[.ceiling i ceiling] else #[]) :
    (Walk.mk (w.actAll (List.replicate n .forward)) (w.roundsOf i .forward n).toArray ws).GoesAhead
      w i ceiling := by
  obtain ⟨q, hq, hw⟩ := World.exists_ahead?_actAll (w := w) (k := n) (by omega)
  refine ⟨by simp [hn], ?_, ?_, by rw [hw]; rfl, by rw [hw]; rfl, by rw [hw]; rfl, hws⟩
  · intro k e he
    rw [List.getElem?_toArray] at he
    obtain ⟨hk, rfl⟩ := World.getElem?_roundsOf he
    obtain ⟨r, hr, hv⟩ := World.exists_ahead?_actAll (w := w) (k := k + 1) (by omega)
    rw [hv]
    exact ⟨rfl, rfl, hr, rfl, rfl⟩
  · rw [← hn, hw]
    exact hq

/-- **The loop goes ahead**, whatever walk it goes on from. -/
theorem Walk.exists_loop_untilBlocked (ceiling : Count) (i : Nat) (s : Walk) :
    ∃ t : Walk, t.GoesAhead s.world i ceiling.val ∧
      (Wrapper.whilst .pathAhead ceiling).loop i .forward s = s.andThen t := by
  obtain ⟨n, hn, hk, h⟩ :=
    s.exists_guardedRounds i .forward .pathAhead ceiling.val ceiling.val
  have hle : n ≤ s.world.clearance := by
    refine Nat.le_of_not_lt fun hlt => ?_
    have hc := hk _ hlt
    rw [World.holds_pathAhead_actAll (Nat.le_refl _), decide_eq_true_eq] at hc
    omega
  rw [World.holds_pathAhead_actAll hle] at h
  show ∃ t : Walk, _ ∧ s.guardedRounds i .forward .pathAhead ceiling.val ceiling.val = _
  rcases h with ⟨hf, h⟩ | ⟨he, ht, h⟩
  · rw [decide_eq_false_iff_not] at hf
    refine ⟨_, goesAhead_roundsOf (n := n) (by omega) (if_neg (by omega)).symm, ?_⟩
    rw [h, rounds_eq]
    simp [andThen]
  · rw [decide_eq_true_eq] at ht
    refine ⟨_, goesAhead_roundsOf (n := n) (by omega) (if_pos (by omega)).symm, ?_⟩
    rw [h, rounds_eq]
    simp [andThen, warn]

namespace Program

theorem exists_run_append_untilBlocked (ceiling : Count) (before after : Program) (world : World)
    (h : before.Closed) :
    ∃ t : Walk, t.GoesAhead (before.run world).world before.length ceiling.val ∧
      (before ++ (untilBlocked ceiling ++ after)).run world =
        ((before.run world).andThen t).andThen ((after.run t.world).shift (before.length + 2)) := by
  obtain ⟨t, ht, hl⟩ :=
    (before.run world).exists_loop_untilBlocked ceiling before.length
  refine ⟨t, ht, ?_⟩
  have hs : (before ++ (untilBlocked ceiling ++ after)).run world =
      ((before.run world).resume
        (.ready (0 + before.length) (untilBlocked ceiling ++ after))).finish :=
    Walk.finish_append h _ ⟨world, #[], #[]⟩ 0
  have hp : ((before.run world).resume
        (.ready before.length (untilBlocked ceiling ++ after))).finish =
      (((Wrapper.whilst .pathAhead ceiling).loop before.length .forward
        (before.run world)).resume (.ready (before.length + 2) after)).finish :=
    Walk.finish_loop _ _ _ _ _
  rw [hs, Nat.zero_add, hp, hl, Walk.finish_ready_eq_andThen]
  rfl

/-- **Walking until blocked** takes as many steps as there are free cells ahead, up to the ceiling,
and every one of them leads to the next cell.  Nothing else happens, and the ceiling leaves a
warning if and only if it is less than the number of free cells.  So it is in every program in
which the loop stands first or after an action, in the world in which it is reached. -/
theorem run_untilBlocked (ceiling : Count) (world : World) :
    ((untilBlocked ceiling).run world).GoesAhead world 0 ceiling.val ∧
      ∀ before after : Program, before.Closed →
        ∃ t : Walk, t.GoesAhead (before.run world).world before.length ceiling.val ∧
          (before ++ (untilBlocked ceiling ++ after)).run world =
            ((before.run world).andThen t).andThen
              ((after.run t.world).shift (before.length + 2)) := by
  refine ⟨?_, fun before after h => exists_run_append_untilBlocked ceiling before after world h⟩
  obtain ⟨t, ht, hl⟩ := Walk.exists_loop_untilBlocked ceiling 0 ⟨world, #[], #[]⟩
  have hr : (untilBlocked ceiling).run world =
      (((Wrapper.whilst .pathAhead ceiling).loop 0 .forward ⟨world, #[], #[]⟩).resume
        (.ready 2 [])).finish := Walk.finish_loop ⟨world, #[], #[]⟩ 0 _ _ []
  have he : (untilBlocked ceiling).run world = t := by
    rw [hr, Walk.finish_nil, hl]
    simp [Walk.andThen]
  rw [he]
  exact ht

/-- A pickup that finds nothing. -/
def lookAround : Program :=
  [.act .pickup]

/-- With two cells ahead and a ceiling of one, the loop takes one step and leaves its warning, and
the program goes on from there. -/
theorem run_untilBlocked_threeCells :
    lookAround.Closed ∧ (lookAround.run threeCells).world.clearance = 2 ∧
      ∃ t : Walk, t.GoesAhead (lookAround.run threeCells).world 1 1 ∧
        (lookAround ++ (untilBlocked ⟨1, by decide, by decide⟩ ++ looseWrappers)).run threeCells =
          ((lookAround.run threeCells).andThen t).andThen
            ((looseWrappers.run t.world).shift 3) := by
  have hc : lookAround.Closed := by
    intro w h
    cases h
  have hl : (lookAround.run threeCells).world.clearance = 2 := by
    rw [run_eq]
    decide +kernel
  exact ⟨hc, hl,
    (run_untilBlocked ⟨1, by decide, by decide⟩ threeCells).2 lookAround looseWrappers hc⟩

end Program

end Mazewalk
