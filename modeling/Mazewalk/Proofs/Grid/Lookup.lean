import Mazewalk.Grid

/-!
# Looking cells up

In a well formed grid the positions of the rectangle and the numbers of the cells are the same
thing, `number` one way and `positionAt` the other, and the numbers are those that are computed
(`index_eq_number`).  So the three ways of looking at a grid agree:
`get?` at a position, `cells` at a number, and the list of `entries`.  A search goes through the
cells by their numbers, which is why it finds the matching position with the least number
(`find?_eq_some_iff`), the first one row after row.
-/

namespace Mazewalk.Grid

variable {α : Type} {g : Grid α}

/-! ### Positions and numbers -/

@[simp] theorem number_positionAt (g : Grid α) (i : Nat) : g.number (g.positionAt i) = i :=
  Nat.div_add_mod' i g.width

theorem positionAt_number {p : Position} (hp : g.Contains p) : g.positionAt (g.number p) = p := by
  obtain ⟨hx, -⟩ := hp
  have h0 : 0 < g.width := Nat.zero_lt_of_lt hx
  have hm : g.number p % g.width = p.x := by
    rw [number, Nat.mul_comm, Nat.mul_add_mod, Nat.mod_eq_of_lt hx]
  have hd : g.number p / g.width = p.y := by
    rw [number, Nat.mul_comm, Nat.mul_add_div h0, Nat.div_eq_of_lt hx, Nat.add_zero]
  rw [positionAt, hm, hd]

/-- The numbers of a row end where those of the next row begin. -/
theorem number_lt_succ_mul {p : Position} (hp : g.Contains p) :
    g.number p < (p.y + 1) * g.width := by
  rw [Nat.succ_mul]
  exact Nat.add_lt_add_left hp.1 _

theorem number_lt (hg : g.WellFormed) {p : Position} (hp : g.Contains p) :
    g.number p < g.cells.size := by
  obtain ⟨-, -, hs⟩ := hg
  calc g.number p < (p.y + 1) * g.width := number_lt_succ_mul hp
    _ ≤ g.height * g.width := Nat.mul_le_mul_right _ hp.2
    _ = g.cells.size := by rw [hs, Nat.mul_comm]

theorem index_eq_number_of_lt {p : Position} (h : g.number p < max wordSize g.cells.size) :
    g.index p = g.number p :=
  Nat.mod_eq_of_lt h

/-- The number of a cell that is there is no more than the program can count. -/
theorem index_eq_number (hg : g.WellFormed) {p : Position} (hp : g.Contains p) :
    g.index p = g.number p :=
  index_eq_number_of_lt (Nat.lt_of_lt_of_le (number_lt hg hp) (Nat.le_max_right _ _))

theorem index_lt (hg : g.WellFormed) {p : Position} (hp : g.Contains p) :
    g.index p < g.cells.size := by
  rw [index_eq_number hg hp]
  exact number_lt hg hp

theorem index_positionAt {i : Nat} (hi : i < g.cells.size) : g.index (g.positionAt i) = i := by
  have hn := number_positionAt g i
  rw [index_eq_number_of_lt (by rw [hn]; exact Nat.lt_of_lt_of_le hi (Nat.le_max_right _ _)), hn]

theorem WellFormed.separates (hg : g.WellFormed) : g.Separates := by
  intro p q hp hq h
  rw [index_eq_number hg hp, index_eq_number hg hq] at h
  exact eq_of_number_eq hp hq h

theorem contains_positionAt (hg : g.WellFormed) {i : Nat} (hi : i < g.cells.size) :
    g.Contains (g.positionAt i) := by
  obtain ⟨hw, -, hs⟩ := hg
  rw [hs] at hi
  exact ⟨Nat.mod_lt i hw, Nat.div_lt_of_lt_mul hi⟩

theorem positionAt_lt_size (hg : g.WellFormed) {i : Nat} :
    g.Contains (g.positionAt i) ↔ i < g.cells.size := by
  refine ⟨fun h => ?_, contains_positionAt hg⟩
  have := number_lt hg h
  rwa [number_positionAt] at this

/-! ### Cells -/

theorem get?_of_contains {p : Position} (hp : g.Contains p) : g.get? p = g.cells[g.index p]? :=
  if_pos hp

theorem contains_of_get? {p : Position} {cell : α} (h : g.get? p = some cell) : g.Contains p := by
  refine Decidable.byContradiction fun hp => ?_
  rw [get?, if_neg hp] at h
  cases h

/-- A cell looked up by its number. -/
theorem get?_positionAt (hg : g.WellFormed) (i : Nat) : g.get? (g.positionAt i) = g.cells[i]? := by
  by_cases hi : i < g.cells.size
  · rw [get?_of_contains (contains_positionAt hg hi), index_positionAt hi]
  · rw [get?, if_neg (fun h => hi ((positionAt_lt_size hg).1 h)),
      Array.getElem?_eq_none (Nat.le_of_not_lt hi)]

theorem getElem?_entries (g : Grid α) (i : Nat) :
    g.entries[i]? = g.cells[i]?.map fun cell => (g.positionAt i, cell) := by
  rw [entries, List.getElem?_map, List.getElem?_zipIdx, Array.getElem?_toList]
  cases g.cells[i]? <;> simp

theorem getElem?_entries_index (hg : g.WellFormed) {p : Position} {cell : α}
    (h : g.get? p = some cell) : g.entries[g.index p]? = some (p, cell) := by
  have hp := contains_of_get? h
  rw [get?_of_contains hp] at h
  rw [getElem?_entries, h, Option.map_some, index_eq_number hg hp, positionAt_number hp]

/-- The entries are the cells of the rectangle. -/
theorem mem_entries (hg : g.WellFormed) {p : Position} {cell : α} :
    (p, cell) ∈ g.entries ↔ g.get? p = some cell := by
  constructor
  · intro h
    obtain ⟨i, hi⟩ := List.mem_iff_getElem?.1 h
    rw [getElem?_entries, Option.map_eq_some_iff] at hi
    obtain ⟨c, hc, he⟩ := hi
    obtain ⟨rfl, rfl⟩ := Prod.mk.inj he
    rw [get?_positionAt hg, hc]
  · intro h
    exact List.mem_iff_getElem?.2 ⟨g.index p, getElem?_entries_index hg h⟩

/-- Writing keeps a grid well formed. -/
theorem wellFormed_put (hg : g.WellFormed) (p : Position) (cell : α) :
    (g.put p cell).WellFormed := by
  rwa [WellFormed, width_put, height_put, size_put]

/-- Well formed grids of one shape that show the same cells are the same. -/
theorem ext_get? {g' : Grid α} (hg : g.WellFormed) (hg' : g'.WellFormed)
    (hw : g.width = g'.width) (hh : g.height = g'.height)
    (h : ∀ p, g.Contains p → g.get? p = g'.get? p) : g = g' := by
  have hcells : g.cells = g'.cells := by
    refine Array.ext (by rw [hg.2.2, hg'.2.2, hw, hh]) fun i hi hi' => ?_
    have hpos : g.positionAt i = g'.positionAt i := by rw [positionAt, positionAt, hw]
    have hi := h _ (contains_positionAt hg hi)
    rw [get?_positionAt hg, hpos, get?_positionAt hg'] at hi
    simpa [*] using hi
  obtain ⟨width, height, cells⟩ := g
  obtain ⟨width', height', cells'⟩ := g'
  obtain rfl : width = width' := hw
  obtain rfl : height = height' := hh
  obtain rfl : cells = cells' := hcells
  rfl

/-- Some cell passes a test if and only if some position of the rectangle shows one that does. -/
theorem any_cells_iff (hg : g.WellFormed) {test : α → Bool} :
    g.cells.any test = true ↔ ∃ p cell, g.get? p = some cell ∧ test cell = true := by
  rw [Array.any_eq_true]
  constructor
  · rintro ⟨i, hi, ht⟩
    exact ⟨g.positionAt i, g.cells[i], by rw [get?_positionAt hg, Array.getElem?_eq_getElem hi], ht⟩
  · rintro ⟨p, cell, h, ht⟩
    rw [get?_of_contains (contains_of_get? h)] at h
    obtain ⟨hi, rfl⟩ := Array.getElem?_eq_some_iff.1 h
    exact ⟨_, hi, ht⟩

/-! ### Searching -/

/-- What a search has found: a match, and no cell with a smaller number matches. -/
theorem find?_some (hg : g.WellFormed) {test : α → Bool} {p : Position}
    (h : g.find? test = some p) :
    (∃ cell, g.get? p = some cell ∧ test cell = true) ∧
      ∀ q cell, g.get? q = some cell → test cell = true → g.index p ≤ g.index q := by
  obtain ⟨⟨p', cell⟩, hf, rfl⟩ := Option.map_eq_some_iff.1 h
  obtain ⟨ht, i, hi, he, hmin⟩ := List.find?_eq_some_iff_getElem.1 hf
  have hp : g.get? p' = some cell := (mem_entries hg).1 (he ▸ List.getElem_mem hi)
  refine ⟨⟨cell, hp, ht⟩, fun q c hq hc => ?_⟩
  have hn : g.index p' = i := by
    have hp' := getElem?_entries g i
    rw [List.getElem?_eq_getElem hi, he] at hp'
    obtain ⟨_, hc, hpos⟩ := Option.map_eq_some_iff.1 hp'.symm
    obtain ⟨rfl, -⟩ := Prod.mk.inj hpos
    exact index_positionAt (Array.getElem?_eq_some_iff.1 hc).1
  -- a match with a smaller number would have been found before
  refine Nat.le_of_not_lt fun hlt => ?_
  rw [hn] at hlt
  have := hmin (g.index q) hlt
  rw [(List.getElem_eq_iff _).2 (getElem?_entries_index hg hq)] at this
  simp [hc] at this

/-- **A search finds the first match**, row after row. -/
theorem find?_eq_some_iff (hg : g.WellFormed) {test : α → Bool} {p : Position} :
    g.find? test = some p ↔
      (∃ cell, g.get? p = some cell ∧ test cell = true) ∧
        ∀ q cell, g.get? q = some cell → test cell = true → g.index p ≤ g.index q := by
  refine ⟨find?_some hg, ?_⟩
  rintro ⟨⟨cell, hp, ht⟩, hmin⟩
  cases hf : g.find? test with
  | none =>
    have := List.find?_eq_none.1 (Option.map_eq_none_iff.1 hf) _ ((mem_entries hg).2 hp)
    exact absurd ht this
  | some q =>
    obtain ⟨⟨c, hq, hc⟩, hmin'⟩ := find?_some hg hf
    have hi : g.index q = g.index p := Nat.le_antisymm (hmin' p cell hp ht) (hmin q c hq hc)
    rw [hg.separates q p (contains_of_get? hq) (contains_of_get? hp) hi]

end Mazewalk.Grid
