import Mazewalk.World

/-!
# What actions do

One action of a walker changes little.  A step forward moves it to the cell ahead, a turn gives
it another heading, and a pickup takes the item under its feet; what is a wall stays a wall.  The
lemmas here say so field by field, for one action (`World.act`) and for a list of them
(`World.actAll`), so that nothing later has to look into the cases of an action again.

That the ground stays the same (`sameGround_act`) is said of the cells, not of the positions, and
so it holds in a grid of any shape.  Which position loses its item is another matter: in a rectangle
so huge that positions share a cell, all of these do (`hasItem_act`).
-/

namespace Mazewalk

/-! ### The ground -/

namespace Grid

variable {g g' g'' : Grid Tile} {p : Position} {tile : Tile}

theorem passable_eq_any (g : Grid Tile) (p : Position) :
    g.passable p = ((g.get? p).map Tile.terrain).any (· != .wall) := by
  unfold passable
  cases g.get? p <;> rfl

/-- The two mazes have the same shape, and cell by cell the same terrain. -/
structure SameGround (g g' : Grid Tile) : Prop where
  width : g'.width = g.width
  height : g'.height = g.height
  terrain : g'.cells.map Tile.terrain = g.cells.map Tile.terrain

namespace SameGround

theorem refl (g : Grid Tile) : g.SameGround g :=
  ⟨rfl, rfl, rfl⟩

theorem symm (h : g.SameGround g') : g'.SameGround g :=
  ⟨h.width.symm, h.height.symm, h.terrain.symm⟩

theorem trans (h : g.SameGround g') (h' : g'.SameGround g'') : g.SameGround g'' :=
  ⟨h'.width.trans h.width, h'.height.trans h.height, h'.terrain.trans h.terrain⟩

theorem size (h : g.SameGround g') : g'.cells.size = g.cells.size := by
  have hs := congrArg Array.size h.terrain
  rwa [Array.size_map, Array.size_map] at hs

theorem wellFormed (h : g.SameGround g') (hg : g.WellFormed) : g'.WellFormed := by
  rwa [WellFormed, h.width, h.height, h.size]

theorem contains_iff (h : g.SameGround g') {p : Position} : g'.Contains p ↔ g.Contains p := by
  rw [Contains, Contains, h.width, h.height]

theorem index_eq (h : g.SameGround g') (p : Position) : g'.index p = g.index p :=
  index_congr h.width (by rw [h.size]) p

theorem separates (h : g.SameGround g') (hs : g.Separates) : g'.Separates := by
  intro p q hp hq hi
  rw [h.index_eq, h.index_eq] at hi
  exact hs p q (h.contains_iff.1 hp) (h.contains_iff.1 hq) hi

/-- **Grids of one ground** show the same terrain everywhere. -/
theorem map_get? (h : g.SameGround g') (p : Position) :
    (g'.get? p).map Tile.terrain = (g.get? p).map Tile.terrain := by
  unfold get?
  by_cases hp : g.Contains p
  · rw [if_pos hp, if_pos (h.contains_iff.2 hp), h.index_eq, ← Array.getElem?_map,
      ← Array.getElem?_map, h.terrain]
  · rw [if_neg hp, if_neg fun hp' => hp (h.contains_iff.1 hp')]

theorem passable (h : g.SameGround g') : g'.passable = g.passable := by
  funext p
  rw [passable_eq_any, passable_eq_any, h.map_get?]

theorem neighbor? (h : g.SameGround g') (p : Position) (heading : Heading) :
    g'.neighbor? p heading = g.neighbor? p heading := by
  simp only [Grid.neighbor?, h.contains_iff]

end SameGround

/-! ### Taking an item off the floor -/

theorem sameGround_put_item (h : g.get? p = some tile) (b : Bool) :
    g.SameGround (g.put p { tile with item := b }) := by
  refine ⟨width_put .., height_put .., Array.ext_getElem? fun i => ?_⟩
  unfold put
  unfold get? at h
  split
  · rename_i hp
    rw [if_pos hp] at h
    rw [Array.getElem?_map, Array.getElem?_map, Array.getElem?_setIfInBounds]
    split
    · rename_i hi
      subst hi
      rw [if_pos (Array.getElem?_eq_some_iff.1 h).1, h]
      rfl
    · rfl
  · rfl

theorem hasItem_eq_any (g : Grid Tile) (p : Position) : g.hasItem p = (g.get? p).any Tile.item := by
  unfold hasItem
  cases g.get? p <;> rfl

theorem hasItem_eq_item (h : g.get? p = some tile) : g.hasItem p = tile.item := by
  rw [hasItem, h]

theorem hasItem_of_none (h : g.get? p = none) : g.hasItem p = false := by
  rw [hasItem, h]

/-- Only at the position itself, if no other one shares its cell. -/
theorem hasItem_put_item (hs : g.Separates) (h : g.get? p = some tile) (q : Position) :
    (g.put p { tile with item := false }).hasItem q = (g.hasItem q && decide (q ≠ p)) := by
  unfold hasItem
  rw [get?_put hs]
  by_cases hq : p = q
  · subst hq
    rw [if_pos rfl, h]
    simp
  · rw [if_neg hq]
    simp [Ne.symm hq]

theorem hasItem_of_put_item {q : Position}
    (h : (g.put p { tile with item := false }).hasItem q = true) : g.hasItem q = true := by
  by_cases hp : g.Contains p
  · rw [hasItem_eq_any, get?_put_of_contains hp] at h
    split at h
    · -- a cell that has been written to holds none
      cases hq : g.get? q <;> simp [hq] at h
    · rwa [hasItem_eq_any]
  · rwa [put, if_neg hp] at h

end Grid

namespace World

/-! ### One action -/

/-- What a pickup does: the item under the walker's feet, if there is one, is in its hand. -/
theorem act_pickup (w : World) :
    (w.grid.hasItem w.walker.position = true ∧ ∃ tile,
      w.grid.get? w.walker.position = some tile ∧ w.act .pickup =
        { walker := { w.walker with carrying := true }
          grid := w.grid.put w.walker.position { tile with item := false } }) ∨
    (w.grid.hasItem w.walker.position = false ∧ w.act .pickup = w) := by
  unfold act
  cases ht : w.grid.get? w.walker.position with
  | none => exact Or.inr ⟨Grid.hasItem_of_none ht, rfl⟩
  | some tile =>
    rw [Grid.hasItem_eq_item ht]
    cases hi : tile.item with
    | true => exact Or.inl ⟨rfl, tile, rfl, if_pos hi⟩
    | false => exact Or.inr ⟨rfl, if_neg (by simp [hi])⟩

theorem act_forward (w : World) :
    w.act .forward =
      { w with walker := { w.walker with position := w.wayAhead?.getD w.walker.position } } := by
  unfold act
  cases w.wayAhead? <;> rfl

/-- No action changes what the ground is made of. -/
theorem sameGround_act (w : World) (a : Action) : w.grid.SameGround (w.act a).grid := by
  cases a with
  | forward => rw [act_forward]; exact .refl _
  | turnLeft => exact .refl _
  | turnRight => exact .refl _
  | pickup =>
    obtain ⟨-, tile, ht, h⟩ | ⟨-, h⟩ := w.act_pickup
    · rw [h]
      exact Grid.sameGround_put_item ht false
    · rw [h]
      exact .refl _

/-- No action builds or breaks a wall. -/
@[simp] theorem passable_act (w : World) (a : Action) (q : Position) :
    (w.act a).grid.passable q = w.grid.passable q := by
  rw [(w.sameGround_act a).passable]

/-- No action changes which cells are beside each other. -/
@[simp] theorem neighbor?_act (w : World) (a : Action) (q : Position) (heading : Heading) :
    (w.act a).grid.neighbor? q heading = w.grid.neighbor? q heading :=
  (w.sameGround_act a).neighbor? q heading

/-- Only a pickup takes an item away, the one at the walker's position. -/
theorem hasItem_act (w : World) (hs : w.grid.Separates) (a : Action) (q : Position) :
    (w.act a).grid.hasItem q =
      (w.grid.hasItem q && !(decide (a = .pickup) && decide (q = w.walker.position))) := by
  cases a with
  | forward => rw [act_forward]; simp
  | turnLeft => simp [act]
  | turnRight => simp [act]
  | pickup =>
    obtain ⟨-, tile, ht, h⟩ | ⟨hn, h⟩ := w.act_pickup
    · rw [h]
      simp only [Grid.hasItem_put_item hs ht]
      simp
    · rw [h]
      by_cases hq : q = w.walker.position
      · simp [hq, hn]
      · simp [hq]

/-- No action makes an item. -/
theorem hasItem_of_act (w : World) (a : Action) {q : Position}
    (h : (w.act a).grid.hasItem q = true) : w.grid.hasItem q = true := by
  cases a with
  | forward => rwa [act_forward] at h
  | turnLeft => exact h
  | turnRight => exact h
  | pickup =>
    obtain ⟨-, tile, -, hact⟩ | ⟨-, hact⟩ := w.act_pickup
    · rw [hact] at h
      exact Grid.hasItem_of_put_item h
    · rwa [hact] at h

/-- The walker carries something after an action if it did before or has just picked it up. -/
theorem carrying_act (w : World) (a : Action) :
    (w.act a).walker.carrying =
      (w.walker.carrying || decide (a = .pickup) && w.grid.hasItem w.walker.position) := by
  cases a with
  | forward => rw [act_forward]; simp
  | turnLeft => simp [act]
  | turnRight => simp [act]
  | pickup =>
    obtain ⟨hi, tile, -, h⟩ | ⟨hn, h⟩ := w.act_pickup
    · rw [h]
      simp [hi]
    · rw [h]
      simp [hn]

/-- An item that is gone is in the walker's hand. -/
theorem carrying_of_taken (w : World) (a : Action) {q : Position} (h : w.grid.hasItem q = true)
    (hn : (w.act a).grid.hasItem q = false) : (w.act a).walker.carrying = true := by
  cases a with
  | forward =>
    rw [act_forward] at hn
    exact absurd h (Bool.eq_false_iff.1 hn)
  | turnLeft => exact absurd h (Bool.eq_false_iff.1 hn)
  | turnRight => exact absurd h (Bool.eq_false_iff.1 hn)
  | pickup =>
    obtain ⟨-, tile, -, hact⟩ | ⟨-, hact⟩ := w.act_pickup
    · rw [hact]
    · rw [hact] at hn
      exact absurd h (Bool.eq_false_iff.1 hn)

/-- Only a step forward moves the walker, and only to the cell ahead. -/
theorem position_act (w : World) (a : Action) :
    (w.act a).walker.position = w.walker.position ∨
      a = .forward ∧ w.wayAhead? = some (w.act a).walker.position := by
  cases a with
  | forward =>
    rw [act_forward]
    cases h : w.wayAhead? with
    | none => exact Or.inl rfl
    | some q => exact Or.inr ⟨rfl, rfl⟩
  | turnLeft => exact Or.inl rfl
  | turnRight => exact Or.inl rfl
  | pickup =>
    obtain ⟨-, tile, -, h⟩ | ⟨-, h⟩ := w.act_pickup <;> rw [h] <;> exact Or.inl rfl

theorem position_act_pickup (w : World) :
    (w.act .pickup).walker.position = w.walker.position := by
  obtain h | ⟨h, -⟩ := w.position_act .pickup
  · exact h
  · cases h

/-- A step forward does not turn the walker. -/
theorem heading_act_forward (w : World) : (w.act .forward).walker.heading = w.walker.heading := by
  rw [act_forward]

/-! ### Many actions -/

/-- The world after some actions, the first one first. -/
def actAll (w : World) (actions : List Action) : World :=
  actions.foldl act w

@[simp] theorem actAll_nil (w : World) : w.actAll [] = w := rfl

@[simp] theorem actAll_cons (w : World) (a : Action) (as : List Action) :
    w.actAll (a :: as) = (w.act a).actAll as := rfl

theorem actAll_append (w : World) (as bs : List Action) :
    w.actAll (as ++ bs) = (w.actAll as).actAll bs :=
  List.foldl_append

end World

end Mazewalk
