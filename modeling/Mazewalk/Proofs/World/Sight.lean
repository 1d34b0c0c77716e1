import Mazewalk.Condition
import Mazewalk.Proofs.World.Roaming

/-!
# What a walker goes by

Two worlds are *alike* when the walker stands at the same position with the same heading and the
ground is the same; what lies on the floor and what is carried may differ.  Nothing else matters for
where a walker can go: in alike worlds the same conditions hold (`Alike.holds`), and the same action
leads to alike worlds again (`Alike.act`).

An action leaves an alike world exactly if it leaves the walker where it is with its heading
(`alike_act_iff`), since no action changes the ground.
-/

namespace Mazewalk

theorem Condition.holds_notAtGoal (w : World) :
    notAtGoal.holds w = ((w.grid.get? w.walker.position).map Tile.terrain).all (· != .goal) := by
  unfold holds
  cases w.grid.get? w.walker.position <;> rfl

namespace World

/-- The walkers stand at the same position with the same heading, on the same ground. -/
structure Alike (w w' : World) : Prop where
  position : w'.walker.position = w.walker.position
  heading : w'.walker.heading = w.walker.heading
  ground : w.grid.SameGround w'.grid

namespace Alike

variable {w w' w'' : World}

theorem refl (w : World) : w.Alike w :=
  ⟨rfl, rfl, .refl _⟩

theorem symm (h : w.Alike w') : w'.Alike w :=
  ⟨h.position.symm, h.heading.symm, h.ground.symm⟩

theorem trans (h : w.Alike w') (h' : w'.Alike w'') : w.Alike w'' :=
  ⟨h'.position.trans h.position, h'.heading.trans h.heading, h.ground.trans h'.ground⟩

theorem wayAhead? (h : w.Alike w') : w'.wayAhead? = w.wayAhead? := by
  unfold World.wayAhead?
  rw [h.position, h.heading, h.ground.neighbor?, h.ground.passable]

/-- **Alike worlds answer every condition alike.** -/
theorem holds (h : w.Alike w') (c : Condition) : c.holds w' = c.holds w := by
  cases c with
  | pathAhead =>
    show w'.wayAhead?.isSome = w.wayAhead?.isSome
    rw [h.wayAhead?]
  | notAtGoal =>
    rw [Condition.holds_notAtGoal, Condition.holds_notAtGoal, h.position, h.ground.map_get?]

/-- **Alike worlds stay alike** when the same is done in both. -/
theorem act (h : w.Alike w') (a : Action) : (w.act a).Alike (w'.act a) := by
  have hg : (w.act a).grid.SameGround (w'.act a).grid :=
    (w.sameGround_act a).symm.trans (h.ground.trans (w'.sameGround_act a))
  cases a with
  | forward =>
    refine ⟨?_, ?_, hg⟩
    · rw [act_forward, act_forward, h.wayAhead?, h.position]
    · rw [heading_act_forward, heading_act_forward, h.heading]
  | turnLeft => exact ⟨h.position, congrArg Heading.turnLeft h.heading, hg⟩
  | turnRight => exact ⟨h.position, congrArg Heading.turnRight h.heading, hg⟩
  | pickup =>
    refine ⟨?_, ?_, hg⟩
    · rw [position_act_pickup, position_act_pickup, h.position]
    · rw [walker_act_pickup, walker_act_pickup]
      exact h.heading

end Alike

/-- An action does nothing to go by if it leaves the walker where it is with its heading. -/
theorem alike_act_iff {w : World} {a : Action} :
    w.Alike (w.act a) ↔
      (w.act a).walker.position = w.walker.position ∧
        (w.act a).walker.heading = w.walker.heading :=
  ⟨fun h => ⟨h.position, h.heading⟩, fun h => ⟨h.1, h.2, w.sameGround_act a⟩⟩

end World

end Mazewalk
