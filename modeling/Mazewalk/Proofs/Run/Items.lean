import Mazewalk.Program.Text
import Mazewalk.Proofs.Run.Replay

/-!
# What becomes of the items

Items lie on the floor of the maze and are picked up.  They are never put down again, never moved
and never made, and a walker that carries something goes on carrying it.  So the trace says all
about them: after a run the items still on the floor are those of the beginning without the ones
at the positions of its pickups, and the walker carries something if it did from the start or if
one of its pickups was at an item (`accounts_run`).

`w.Accounts es w'` says this of two worlds and the steps between them.  It holds of one action
(`accounts_act`) and of one stretch of steps after another (`Accounts.trans`), hence between any
two moments of a run.  A second pickup at the same position takes nothing, so `trans` must know
that an item which is gone is in the hand (`Accounts.lost`).

What a pickup takes away is a cell.  Where positions share one, the others lose their item with it,
so the items are those at the positions not picked at only if none do (`Accounts.items`).
-/

namespace Mazewalk

/-- The step is a pickup at the position. -/
def Step.PicksAt (e : Step) (p : Position) : Prop :=
  e.action = .pickup ∧ e.walker.position = p

namespace World

/-- The steps account for what has become of the items of the world `w` in the world `w'`. -/
structure Accounts (w : World) (es : List Step) (w' : World) : Prop where
  ground : w.grid.SameGround w'.grid
  /-- The items that still lie on the floor are those that no step has picked up, if no two positions
  share a cell, as in every well formed grid (`Grid.WellFormed.separates`). -/
  items : w.grid.Separates → ∀ p, w'.grid.hasItem p = true ↔
    w.grid.hasItem p = true ∧ ∀ e ∈ es, ¬ e.PicksAt p
  made : ∀ p, w'.grid.hasItem p = true → w.grid.hasItem p = true
  lost : ∀ p, w.grid.hasItem p = true → w'.grid.hasItem p = false → w'.walker.carrying = true
  /-- The walker carries something if it did before or a step has picked up an item. -/
  carrying : w'.walker.carrying = true ↔
    w.walker.carrying = true ∨ ∃ e ∈ es, ∃ p, e.PicksAt p ∧ w.grid.hasItem p = true

theorem accounts_nil (w : World) : w.Accounts [] w :=
  ⟨.refl _, by simp, fun _ h => h, fun _ h hn => absurd h (Bool.eq_false_iff.1 hn), by simp⟩

/-- **One action** accounts for the items. -/
theorem accounts_act (w : World) {e : Step} (he : e.walker = (w.act e.action).walker) :
    w.Accounts [e] (w.act e.action) := by
  have hp : ∀ p, e.PicksAt p ↔ e.action = .pickup ∧ p = w.walker.position := by
    intro p
    refine and_congr_right fun ha => ?_
    rw [he, ha, position_act_pickup]
    exact eq_comm
  refine ⟨w.sameGround_act e.action, fun hs p => ?_, fun p => w.hasItem_of_act e.action,
    fun p => w.carrying_of_taken e.action, ?_⟩
  · rw [w.hasItem_act hs, List.forall_mem_singleton, hp, ← Bool.decide_and, Bool.and_eq_true,
      Bool.not_eq_true', decide_eq_false_iff_not]
  · rw [carrying_act, Bool.or_eq_true, Bool.and_eq_true, decide_eq_true_eq]
    refine or_congr_right ?_
    simp only [List.mem_singleton, exists_eq_left, hp]
    constructor
    · rintro ⟨ha, hi⟩
      exact ⟨_, ⟨ha, rfl⟩, hi⟩
    · rintro ⟨_, ⟨ha, rfl⟩, hi⟩
      exact ⟨ha, hi⟩

namespace Accounts

variable {w w' w'' : World} {es fs : List Step}

theorem carrying_of_carrying (h : w.Accounts es w') (hc : w.walker.carrying = true) :
    w'.walker.carrying = true :=
  h.carrying.2 (Or.inl hc)

/-- **One stretch of steps after another** accounts for the items. -/
theorem trans (h : w.Accounts es w') (h' : w'.Accounts fs w'') : w.Accounts (es ++ fs) w'' := by
  refine ⟨h.ground.trans h'.ground, fun hs p => ?_, fun p hi => h.made p (h'.made p hi),
    fun p hi hn => ?_, ?_⟩
  · rw [h'.items (h.ground.separates hs), h.items hs, List.forall_mem_append, and_assoc]
  · by_cases hm : w'.grid.hasItem p = true
    · exact h'.lost p hm hn
    · exact h'.carrying_of_carrying (h.lost p hi (Bool.eq_false_iff.2 hm))
  · rw [h'.carrying, h.carrying]
    constructor
    · rintro ((hc | ⟨e, he, hp⟩) | ⟨e, he, p, hp, hi⟩)
      · exact Or.inl hc
      · exact Or.inr ⟨e, List.mem_append_left _ he, hp⟩
      · exact Or.inr ⟨e, List.mem_append_right _ he, p, hp, h.made p hi⟩
    · rintro (hc | ⟨e, he, p, hp, hi⟩)
      · exact Or.inl (Or.inl hc)
      rcases List.mem_append.1 he with he | he
      · exact Or.inl (Or.inr ⟨e, he, p, hp, hi⟩)
      -- what the step does not find any more is already in the hand
      · by_cases hm : w'.grid.hasItem p = true
        · exact Or.inr ⟨e, he, p, hp, hm⟩
        · exact Or.inl (h.carrying.1 (h.lost p hi (Bool.eq_false_iff.2 hm)))

end Accounts

theorem Records.accounts {w : World} {es : List Step} (h : w.Records es) :
    w.Accounts es (w.actAll (es.map Step.action)) := by
  induction es generalizing w with
  | nil => exact w.accounts_nil
  | cons e es ih =>
    obtain ⟨he, hr⟩ := h
    exact (w.accounts_act he).trans (ih hr)

end World

/-- **Between two moments of a run** the steps made account for the items. -/
theorem Run.accounts_advance (program : Program) (world : World) {m n : Nat} (h : m ≤ n) :
    ((start program world).advance m).world.Accounts
      (((start program world).advance n).trace.toList.drop m)
      ((start program world).advance n).world := by
  have hm := (recordsFrom_start program world).advance m
  have hn := (recordsFrom_start program world).advance n
  have hr := hn.records
  have hw := hn.world
  rw [← trace_advance_append_drop program world h, World.records_append, ← hm.world] at hr
  rw [← trace_advance_append_drop program world h, List.map_append, World.actAll_append,
    ← hm.world] at hw
  rw [hw]
  exact hr.2.accounts

/-- **The trace accounts for the items**, those on the floor and the one in the hand, after the
whole run and between any two moments of it.  So while a run goes on no item is made or moved,
and none is put down. -/
theorem Program.accounts_run (program : Program) (world : World) :
    world.Accounts (program.run world).trace.toList (program.run world).world ∧
    ∀ m n, m ≤ n →
      ((Run.start program world).advance m).world.Accounts
        (((Run.start program world).advance n).trace.toList.drop m)
        ((Run.start program world).advance n).world ∧
      (∀ p, ((Run.start program world).advance n).world.grid.hasItem p = true →
        ((Run.start program world).advance m).world.grid.hasItem p = true) ∧
      (((Run.start program world).advance m).world.walker.carrying = true →
        ((Run.start program world).advance n).world.walker.carrying = true) := by
  refine ⟨?_, fun m n h => ?_⟩
  · rw [world_run]
    exact (records_run program world).accounts
  · have ha := Run.accounts_advance program world h
    exact ⟨ha, ha.made, ha.carrying_of_carrying⟩

/-- A walker on an item, with another one under the goal. -/
def storeroom : World :=
  ⟨⟨⟨0, 0⟩, .right, false⟩, ⟨3, 1, #[⟨.start, true⟩, ⟨.path, false⟩, ⟨.goal, true⟩]⟩⟩

/-- Picks up twice where the walker stands, and goes on while there is a way. -/
def rummage : Program :=
  [.act .pickup, .act .pickup, .wrap (.whilst .pathAhead Program.defaultCeiling), .act .forward]

/-- After one step the item at the start is in the hand and stays there, and the other one still
lies under the goal because it does so two steps later. -/
theorem Program.accounts_run_storeroom :
    storeroom.Accounts (rummage.run storeroom).trace.toList (rummage.run storeroom).world ∧
      1 ≤ 3 ∧
      ((Run.start rummage storeroom).advance 3).world.grid.hasItem ⟨2, 0⟩ = true ∧
      ((Run.start rummage storeroom).advance 1).world.grid.hasItem ⟨2, 0⟩ = true ∧
      ((Run.start rummage storeroom).advance 1).world.walker.carrying = true ∧
      ((Run.start rummage storeroom).advance 3).world.walker.carrying = true := by
  have hi : ((Run.start rummage storeroom).advance 3).world.grid.hasItem ⟨2, 0⟩ = true := by
    decide +kernel
  have hc : ((Run.start rummage storeroom).advance 1).world.walker.carrying = true := by
    decide +kernel
  obtain ⟨ha, hrun⟩ := accounts_run rummage storeroom
  obtain ⟨-, hitems, hcarrying⟩ := hrun 1 3 (by decide)
  exact ⟨ha, by decide, hi, hitems _ hi, hc, hcarrying hc⟩

end Mazewalk
