import Mazewalk.Proofs.World.Paths

/-!
# Walkers in a maze that stays as it was

A pickup changes the maze: the item is gone.  To the walker this makes no difference, because
from then on it carries something, and nothing that it does depends on the items still lying about.
So the walker of a world goes through the states of a finite machine, `Grid.step`, whose maze is
the one of the beginning.  `Roams` is the relation between the two: as long as the walker carries
nothing the items are where they were.
-/

namespace Mazewalk

/-- The walker after one action in a maze from which nothing has been taken. -/
def Grid.step (g : Grid Tile) (walker : Walker) (a : Action) : Walker :=
  ((⟨walker, g⟩ : World).act a).walker

/-- The world is what a walker has made of the maze `g`. -/
structure World.Roams (w : World) (g : Grid Tile) : Prop where
  passable : ∀ q, w.grid.passable q = g.passable q
  neighbor : ∀ q heading, w.grid.neighbor? q heading = g.neighbor? q heading
  items : w.walker.carrying = false → ∀ q, w.grid.hasItem q = g.hasItem q
  stands : g.passable w.walker.position = true

namespace World

theorem walker_act_pickup (w : World) :
    (w.act .pickup).walker =
      { w.walker with
        carrying := w.walker.carrying || w.grid.hasItem w.walker.position } := by
  obtain ⟨hi, tile, -, h⟩ | ⟨hn, h⟩ := w.act_pickup
  · rw [h, hi, Bool.or_true]
  · rw [h, hn, Bool.or_false]

theorem roams_self {w : World} (h : w.grid.passable w.walker.position = true) : w.Roams w.grid :=
  ⟨fun _ => rfl, fun _ _ => rfl, fun _ _ => rfl, h⟩

namespace Roams

variable {w : World} {g : Grid Tile}

/-- **The machine takes the same step.** -/
theorem walker_act (h : w.Roams g) (a : Action) : (w.act a).walker = g.step w.walker a := by
  unfold Grid.step
  cases a with
  | forward =>
    have hp : w.grid.passable = g.passable := funext h.passable
    have hw : w.wayAhead? = (⟨w.walker, g⟩ : World).wayAhead? := by
      unfold wayAhead?
      rw [hp, h.neighbor]
    rw [act_forward, act_forward, hw]
  | turnLeft => rfl
  | turnRight => rfl
  | pickup =>
    rw [walker_act_pickup, walker_act_pickup]
    cases hc : w.walker.carrying with
    | true => rfl
    | false => rw [h.items hc]

theorem act (h : w.Roams g) (a : Action) : (w.act a).Roams g where
  passable q := by rw [passable_act, h.passable]
  neighbor q heading := by rw [neighbor?_act, h.neighbor]
  stands := by
    have hs := w.passable_position_act a (by rw [h.passable, h.stands])
    rwa [passable_act, h.passable] at hs
  items hc q := by
    have hw : w.walker.carrying = false := by
      rw [carrying_act, Bool.or_eq_false_iff] at hc
      exact hc.1
    rw [← h.items hw, Bool.eq_iff_iff]
    refine ⟨w.hasItem_of_act a, ?_⟩
    intro hi
    -- an item that is gone would be carried
    by_contra hn
    rw [Bool.not_eq_true] at hn
    exact absurd (w.carrying_of_taken a hi hn) (Bool.eq_false_iff.1 hc)

theorem actAll (h : w.Roams g) (as : List Action) : (w.actAll as).Roams g := by
  induction as generalizing w with
  | nil => exact h
  | cons a as ih => exact ih (h.act a)

end Roams

end World

/-! ### The states of the machine -/

namespace Grid

/-- Every walker that stands at a position. -/
def walkersAt (p : Position) : List Walker :=
  Heading.all.flatMap fun heading => [⟨p, heading, false⟩, ⟨p, heading, true⟩]

/-- Every walker that stands in the maze, and not on a wall. -/
def walkers (g : Grid Tile) : List Walker :=
  (List.range g.height).flatMap fun y => (List.range g.width).flatMap fun x =>
    if g.passable ⟨x, y⟩ then walkersAt ⟨x, y⟩ else []

theorem mem_walkersAt (walker : Walker) : walker ∈ walkersAt walker.position := by
  obtain ⟨p, heading, carrying⟩ := walker
  cases heading <;> cases carrying <;> simp [walkersAt, Heading.all]

theorem mem_walkers {g : Grid Tile} {walker : Walker} (h : g.passable walker.position = true) :
    walker ∈ g.walkers := by
  obtain ⟨hx, hy⟩ := contains_of_passable h
  refine List.mem_flatMap.2 ⟨_, List.mem_range.2 hy, ?_⟩
  refine List.mem_flatMap.2 ⟨_, List.mem_range.2 hx, ?_⟩
  rw [if_pos h]
  exact mem_walkersAt walker

end Grid

end Mazewalk
