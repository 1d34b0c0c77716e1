import Mazewalk.Proofs.Grid.Access
import Mazewalk.Proofs.Grid.Order
import Mazewalk.Proofs.Map.RoundTrip
import Mazewalk.Proofs.World.Actions

/-!
# Grids are faithful arrays

A grid comes from rows, from a function or from a map, and is then written to, cell by cell or by
the actions of a walker.  All of these, and the requests that are refused, are the rules of `Built`.
By induction on them such a grid is well formed (`Built.wellFormed`), and this is all it takes for
the grid to be the array with two subscripts that it is meant for (`Faithful`): its cells have
numbers, as machine words compute them, every way of looking at it shows the same cells, and a write
is seen in one place.

The number of the last cell is less than the number of cells, so no sum or product on the way to it
leaves the machine words if the array itself fits into memory (`lt_wordSize_of_contains`).
-/

namespace Mazewalk

variable {α : Type} {g : Grid α} {p : Position}

namespace Grid

/-! ### Requests to write -/

/-- What a request to write leaves behind: the new grid, or if it was refused the old one. -/
def keep (g : Grid α) : Except Error (Grid α) → Grid α
  | .ok g' => g'
  | .error _ => g

/-- Lets the cell at a position be changed, if there is one. -/
def modify? (g : Grid α) (p : Position) (f : α → α) : Option (Grid α) :=
  (g.get? p).map fun cell => g.put p (f cell)

/-- The grid `g'` is `g` with another cell at one position. -/
structure Updated (g : Grid α) (p : Position) (cell : α) (g' : Grid α) : Prop where
  width : g'.width = g.width
  height : g'.height = g.height
  here : g'.get? p = some cell
  elsewhere : ∀ q, q ≠ p → g'.get? q = g.get? q

theorem get?_eq_none_iff (hg : g.WellFormed) : g.get? p = none ↔ ¬ g.Contains p := by
  refine ⟨?_, fun hp => if_neg hp⟩
  intro h hp
  rw [get?_of_contains hp, Array.getElem?_eq_getElem (index_lt hg hp)] at h
  cases h

theorem updated_put (hg : g.WellFormed) (hp : g.Contains p) (cell : α) :
    g.Updated p cell (g.put p cell) := by
  refine ⟨width_put g p cell, height_put g p cell, ?_, ?_⟩
  · rw [get?_put hg.separates, if_pos rfl, get?_of_contains hp,
      Array.getElem?_eq_getElem (index_lt hg hp)]
    rfl
  · intro q hq
    rw [get?_put hg.separates, if_neg (Ne.symm hq)]

theorem set_eq_error_iff (hg : g.WellFormed) {cell : α} {e : Error} :
    g.set p cell = .error e ↔ ¬ g.Contains p ∧ e = .outOfBounds p g.width g.height := by
  by_cases hp : g.Contains p
  · rw [set_of_index_lt hp (index_lt hg hp)]
    simp [hp]
  · rw [set, if_neg hp]
    simp [hp, eq_comm]

theorem wellFormed_modify (hg : g.WellFormed) (p : Position) (f : α → α) :
    ((g.modify? p f).getD g).WellFormed := by
  unfold modify?
  cases g.get? p with
  | none => exact hg
  | some cell => exact wellFormed_put hg p (f cell)

/-- Writing what is there already changes nothing. -/
theorem put_self {cell : α} (h : g.get? p = some cell) : g.put p cell = g := by
  have hp := contains_of_get? h
  rw [get?_of_contains hp] at h
  obtain ⟨hi, rfl⟩ := Array.getElem?_eq_some_iff.1 h
  rw [put, if_pos hp, Array.setIfInBounds, dif_pos hi, Array.set_getElem_self]

end Grid

/-- All that actions do to the grid is that a pickup writes to the cell of the walker. -/
theorem World.grid_act (w : World) (a : Action) :
    (w.act a).grid =
      if a = .pickup then
        (w.grid.modify? w.walker.position fun tile => { tile with item := false }).getD w.grid
      else w.grid := by
  cases a with
  | forward => rw [act_forward, if_neg (by decide)]
  | turnLeft => rfl
  | turnRight => rfl
  | pickup =>
    rw [if_pos rfl, Grid.modify?]
    unfold act
    cases ht : w.grid.get? w.walker.position with
    | none => rfl
    | some tile =>
      cases hi : tile.item with
      | true => simp [hi]
      | false =>
        have hsame : ({ tile with item := false } : Tile) = tile := by rw [← hi]
        simp [hi, hsame, Grid.put_self ht]

namespace Grid

/-! ### The grids that come about -/

/-- The grids that come about by building, writing and acting. -/
inductive Built : {α : Type} → Grid α → Prop where
  | ofRows {α : Type} {rows : List (List α)} {g : Grid α} : ofRows rows = .ok g → Built g
  | ofFn {α : Type} {width height : Nat} {f : Nat → Nat → α} {g : Grid α} :
      ofFn width height f = .ok g → Built g
  | read {text : String} {g : Grid Tile} {start : Position} :
      Map.read text = .ok (g, start) → Built g
  | set {α : Type} {g : Grid α} (p : Position) (cell : α) : Built g → Built (g.keep (g.set p cell))
  | store {α : Type} {g : Grid α} (p : Position) (cell : α) :
      Built g → Built (g.keep (g.store p cell))
  | modify {α : Type} {g : Grid α} (p : Position) (f : α → α) :
      Built g → Built ((g.modify? p f).getD g)
  | act {w : World} (a : Action) : Built w.grid → Built (w.act a).grid

/-- A request that is granted writes one cell. -/
theorem wellFormed_keep (hg : g.WellFormed) {r : Except Error (Grid α)}
    (h : ∀ g', r = .ok g' → ∃ p cell, g' = g.put p cell) : (g.keep r).WellFormed := by
  cases hr : r with
  | error e => exact hg
  | ok g' =>
    obtain ⟨p, cell, rfl⟩ := h g' hr
    exact wellFormed_put hg p cell

theorem eq_put_of_set {cell : α} {g' : Grid α} (h : g.set p cell = .ok g') : g' = g.put p cell := by
  unfold set at h
  split at h
  · split at h
    · cases h
      rfl
    · cases h
  · cases h

theorem eq_put_of_store {cell : α} {g' : Grid α} (h : g.store p cell = .ok g') :
    g' = g.put p cell := by
  unfold store at h
  cases hf : g.fetch p with
  | error e =>
    rw [hf] at h
    cases h
  | ok old =>
    rw [hf] at h
    cases h
    rfl

/-- **Every grid that comes about is well formed.** -/
theorem Built.wellFormed (h : g.Built) : g.WellFormed := by
  induction h with
  | ofRows h => exact wellFormed_ofRows h
  | ofFn h => exact wellFormed_ofFn h
  | read h => exact (Map.shows_of_read h).wellFormed
  | set p cell _ ih => exact wellFormed_keep ih fun g' h => ⟨p, cell, eq_put_of_set h⟩
  | store p cell _ ih => exact wellFormed_keep ih fun g' h => ⟨p, cell, eq_put_of_store h⟩
  | modify p f _ ih => exact wellFormed_modify ih p f
  | act a _ ih =>
    rw [World.grid_act]
    split
    · exact wellFormed_modify ih _ _
    · exact ih

/-! ### Numbers in machine words -/

/-- The number of the cell at a position, computed in machine words. -/
def wordIndex (g : Grid α) (p : Position) : UInt64 :=
  UInt64.ofNat p.y * UInt64.ofNat g.width + UInt64.ofNat p.x

/-- Words go round just as the numbers of the cells do. -/
theorem toNat_wordIndex (hs : g.cells.size ≤ wordSize) : (g.wordIndex p).toNat = g.index p := by
  rw [index, Nat.max_eq_left hs, number]
  simp [wordIndex, wordSize, UInt64.size, UInt64.toNat_add, UInt64.toNat_mul]

/-! ### What a grid is -/

/-- The grid is an array with two subscripts. -/
structure Faithful (g : Grid α) : Prop where
  wellFormed : g.WellFormed
  /-- Positions have numbers, and machine words are enough to compute them. -/
  number : ∀ p, g.Contains p → p.y * g.width < wordSize ∧ p.y * g.width + p.x < wordSize ∧
    g.checkedIndex p = .ok (g.index p) ∧ (g.wordIndex p).toNat = g.index p ∧
    g.index p = p.y * g.width + p.x ∧ g.index p < g.cells.size ∧ g.positionAt (g.index p) = p
  /-- Numbers have positions. -/
  position : ∀ i < g.cells.size, g.Contains (g.positionAt i) ∧ g.index (g.positionAt i) = i
  /-- The three ways of looking at a position show the same cell. -/
  cell : ∀ p, g.Contains p → ∃ cell, g.get? p = some cell ∧ g.fetch p = .ok cell ∧
    ∀ other, (p, other) ∈ g.entries ↔ other = cell
  /-- The entries are at all positions, each once, row after row. -/
  places : (∀ p, p ∈ g.places ↔ g.Contains p) ∧ g.places.Nodup ∧
    g.places.Pairwise Position.Before
  /-- A search gives the first match in this order. -/
  search : ∀ test p, g.find? test = some p ↔
    g.Matches test p ∧ ∀ q, g.Matches test q → q = p ∨ p.Before q
  noMatch : ∀ test, g.find? test = none ↔ ∀ p, ¬ g.Matches test p
  /-- Outside, and only there, is nothing to read, and a write is refused and changes nothing. -/
  outside : ∀ p, (g.get? p = none ↔ ¬ g.Contains p) ∧
    (∀ f, g.modify? p f = none ↔ ¬ g.Contains p) ∧
    ∀ cell, (∀ e, g.set p cell = .error e ↔
        ¬ g.Contains p ∧ e = .outOfBounds p g.width g.height) ∧
      (¬ g.Contains p → g.keep (g.set p cell) = g)
  /-- A write is seen where it was made and nowhere else. -/
  write : ∀ p, g.Contains p →
    (∀ cell, ∃ g', g.set p cell = .ok g' ∧ g.store p cell = .ok g' ∧ g.Updated p cell g') ∧
    ∀ f, ∃ cell g', g.get? p = some cell ∧ g.modify? p f = some g' ∧ g.Updated p (f cell) g'

theorem lt_wordSize_of_contains (hg : g.WellFormed) (hs : g.cells.size ≤ wordSize)
    (hp : g.Contains p) : p.y * g.width < wordSize ∧ p.y * g.width + p.x < wordSize := by
  have hn : p.y * g.width + p.x < wordSize := Nat.lt_of_lt_of_le (number_lt hg hp) hs
  exact ⟨Nat.lt_of_le_of_lt (Nat.le_add_right _ _) hn, hn⟩

theorem exists_cell (hg : g.WellFormed) (hp : g.Contains p) :
    ∃ cell, g.get? p = some cell ∧ g.fetch p = .ok cell ∧
      ∀ other, (p, other) ∈ g.entries ↔ other = cell := by
  obtain ⟨cell, hf, hc⟩ := (serves_of_wellFormed hg).fetch p hp
  refine ⟨cell, hc, hf, ?_⟩
  intro other
  rw [mem_entries hg, hc, Option.some.injEq, eq_comm]

theorem exists_write (hg : g.WellFormed) (hp : g.Contains p) :
    (∀ cell, ∃ g', g.set p cell = .ok g' ∧ g.store p cell = .ok g' ∧ g.Updated p cell g') ∧
      ∀ f, ∃ cell g', g.get? p = some cell ∧ g.modify? p f = some g' ∧ g.Updated p (f cell) g' := by
  have hi := index_lt hg hp
  refine ⟨?_, ?_⟩
  · intro cell
    exact ⟨_, set_of_index_lt hp hi cell, store_of_index_lt hp hi cell, updated_put hg hp cell⟩
  · intro f
    obtain ⟨cell, hc, -⟩ := exists_cell hg hp
    refine ⟨cell, _, hc, ?_, updated_put hg hp (f cell)⟩
    rw [modify?, hc, Option.map_some]

/-- **Grids are faithful arrays**, whatever has been done to them, if they fit into memory. -/
theorem Built.faithful (h : g.Built) (hs : g.cells.size < wordSize / 2) : g.Faithful := by
  have hg := h.wellFormed
  have hfit : g.cells.size ≤ wordSize := by omega
  exact
    { wellFormed := hg
      number := by
        intro p hp
        obtain ⟨hm, hn⟩ := lt_wordSize_of_contains hg hfit hp
        have hi := index_eq_number hg hp
        exact ⟨hm, hn, checkedIndex_eq hg hfit hp, toNat_wordIndex hfit, hi, index_lt hg hp,
          by rw [hi, positionAt_number hp]⟩
      position := fun i hi => ⟨contains_positionAt hg hi, index_positionAt hi⟩
      cell := fun p hp => exists_cell hg hp
      places := ⟨fun p => mem_places hg, nodup_places hg, pairwise_places hg⟩
      search := fun test p => find?_eq_some_iff_least hg
      noMatch := fun test => find?_eq_none_iff hg
      outside := by
        intro p
        refine ⟨get?_eq_none_iff hg, fun f => ?_, fun cell => ⟨fun e => set_eq_error_iff hg, ?_⟩⟩
        · rw [modify?, Option.map_eq_none_iff, get?_eq_none_iff hg]
        · intro hp
          rw [(set_eq_error_iff hg).2 ⟨hp, rfl⟩]
          rfl
      write := fun p hp => exists_write hg hp }

/-- A yard whose item has been taken and whose passage has been walled up. -/
def yard : Grid Tile :=
  ⟨2, 2, #[⟨.start, false⟩, ⟨.path, false⟩, ⟨.wall, false⟩, ⟨.goal, false⟩]⟩

/-- A yard read from a map, after a pickup, a write and a write that is refused. -/
theorem Built.faithful_yard :
    yard.Built ∧ yard.cells.size < wordSize / 2 ∧ yard.Faithful := by
  have hread : Map.read "ST IT\nPA GO" = .ok
      (⟨2, 2, #[⟨.start, false⟩, ⟨.path, true⟩, ⟨.path, false⟩, ⟨.goal, false⟩]⟩, ⟨0, 0⟩) := by
    decide
  have hact := Built.act (w := ⟨⟨⟨1, 0⟩, .right, false⟩, _⟩) .pickup (.read hread)
  have hwall := (hact.set ⟨0, 1⟩ ⟨.wall, false⟩).set ⟨2, 0⟩ ⟨.wall, false⟩
  have hb : yard.Built := hwall
  have hs : yard.cells.size < wordSize / 2 := by decide
  exact ⟨hb, hs, hb.faithful hs⟩

end Grid

end Mazewalk
