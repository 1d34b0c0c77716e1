import Mazewalk.Proofs.Grid.Lookup
import Mazewalk.Proofs.Results

/-!
# Access to the cells

The operations on a grid ask the rectangle whether a position is inside, compute a number from it
and trust the array to have that cell.  In a well formed grid this is right: the numbers are all
machine words, whether they are checked or not (`checkedIndex_eq`), no access to a position of the
rectangle fails, and every position that a search or a list gives lies in the rectangle (`Serves`).

No other grid with a row serves in this way (`wellFormed_iff_serves`).  Without a column it has no
rows to show; with too few cells there is a position whose number is the number of cells, however
huge the rectangle is; with too many the first one left over is listed below the last row.
-/

namespace Mazewalk.Grid

variable {α : Type} {g : Grid α} {p : Position}

/-! ### One access -/

theorem fetch_of_index_lt (hp : g.Contains p) (hi : g.index p < g.cells.size) :
    g.fetch p = .ok g.cells[g.index p] := by
  rw [fetch, if_pos hp, Array.getElem?_eq_getElem hi]

theorem fetch_of_size_le (hp : g.Contains p) (hi : g.cells.size ≤ g.index p) :
    g.fetch p = .error (.missingCell g.cells.size (g.index p)) := by
  rw [fetch, if_pos hp, Array.getElem?_eq_none hi]

theorem store_of_index_lt (hp : g.Contains p) (hi : g.index p < g.cells.size) (cell : α) :
    g.store p cell = .ok (g.put p cell) := by
  rw [store, fetch_of_index_lt hp hi]
  rfl

theorem set_of_index_lt (hp : g.Contains p) (hi : g.index p < g.cells.size) (cell : α) :
    g.set p cell = .ok (g.put p cell) := by
  rw [set, if_pos hp, if_pos hi]

theorem checkedIndex_eq_ok_iff {i : Nat} :
    g.checkedIndex p = .ok i ↔ g.number p < wordSize ∧ g.number p = i := by
  unfold checkedIndex number
  rw [bind_eq_ok_iff]
  simp only [Word.product_eq_ok_iff, Word.sum_eq_ok_iff]
  constructor
  · rintro ⟨m, ⟨-, rfl⟩, h⟩
    exact h
  · rintro ⟨h, rfl⟩
    exact ⟨_, ⟨by omega, rfl⟩, h, rfl⟩

/-- **Checks make no difference** to a well formed grid. -/
theorem checkedIndex_eq (hg : g.WellFormed) (hs : g.cells.size ≤ wordSize) (hp : g.Contains p) :
    g.checkedIndex p = .ok (g.index p) :=
  checkedIndex_eq_ok_iff.2
    ⟨Nat.lt_of_lt_of_le (number_lt hg hp) hs, (index_eq_number hg hp).symm⟩

theorem check_eq_ok (hg : g.WellFormed) (hs : g.cells.size ≤ wordSize) (p : Position) :
    g.check p = .ok () := by
  unfold check
  split
  · rename_i hp
    rw [checkedIndex_eq hg hs hp]
    rfl
  · rfl

/-- What a search finds is one of the entries. -/
theorem exists_mem_entries_of_find? {test : α → Bool} (h : g.find? test = some p) :
    ∃ cell, (p, cell) ∈ g.entries := by
  obtain ⟨⟨q, cell⟩, hf, rfl⟩ := Option.map_eq_some_iff.1 h
  exact ⟨cell, List.mem_of_find?_eq_some hf⟩

/-! ### All accesses -/

/-- Every position of the rectangle can be read and written, the cells have positions, and these lie
in the rectangle, and there are rows. -/
structure Serves (g : Grid α) : Prop where
  fetch : ∀ p, g.Contains p → ∃ cell, g.fetch p = .ok cell ∧ g.get? p = some cell
  set : ∀ p cell, g.Contains p → g.set p cell = .ok (g.put p cell)
  store : ∀ p cell, g.Contains p → g.store p cell = .ok (g.put p cell)
  checkEntries : g.checkEntries = .ok ()
  entries : ∀ p cell, (p, cell) ∈ g.entries → g.Contains p
  find : ∀ test p, g.find? test = some p → g.Contains p
  checkRows : g.checkRows = .ok ()

theorem checkRows_eq_ok_iff : g.checkRows = .ok () ↔ 1 ≤ g.width := by
  unfold checkRows
  split
  · rename_i hw
    simp [hw]
  · rename_i hw
    simp [Nat.one_le_iff_ne_zero, hw]

theorem checkEntries_eq_ok_iff :
    g.checkEntries = .ok () ↔ 1 ≤ g.width ∨ g.cells.size = 0 := by
  unfold checkEntries
  split
  · rename_i h
    refine iff_of_false nofun ?_
    omega
  · refine iff_of_true rfl ?_
    omega

theorem serves_of_wellFormed (hg : g.WellFormed) : g.Serves := by
  have hentries : ∀ p cell, (p, cell) ∈ g.entries → g.Contains p :=
    fun p cell h => contains_of_get? ((mem_entries hg).1 h)
  refine ⟨fun p hp => ?_, fun p cell hp => set_of_index_lt hp (index_lt hg hp) cell,
    fun p cell hp => store_of_index_lt hp (index_lt hg hp) cell, ?_, hentries, fun test p h => ?_,
    checkRows_eq_ok_iff.2 hg.1⟩
  · have hi := index_lt hg hp
    exact ⟨_, fetch_of_index_lt hp hi, by rw [get?_of_contains hp, Array.getElem?_eq_getElem hi]⟩
  · exact checkEntries_eq_ok_iff.2 (Or.inl hg.1)
  · obtain ⟨cell, hm⟩ := exists_mem_entries_of_find? h
    exact hentries p cell hm

/-- The first position without a cell is one whose number is not too large for a word. -/
theorem mul_le_size_of_serves (hs : g.cells.size < wordSize) (h : g.Serves) :
    g.width * g.height ≤ g.cells.size := by
  have hw := checkRows_eq_ok_iff.1 h.checkRows
  refine Nat.le_of_not_lt fun hlt => ?_
  have hp : g.Contains (g.positionAt g.cells.size) :=
    ⟨Nat.mod_lt _ hw, Nat.div_lt_of_lt_mul hlt⟩
  have hi : g.index (g.positionAt g.cells.size) = g.cells.size := by
    have hn := number_positionAt g g.cells.size
    rw [index_eq_number_of_lt (by rw [hn]; exact Nat.lt_of_lt_of_le hs (Nat.le_max_left _ _)), hn]
  obtain ⟨cell, hf, -⟩ := h.fetch _ hp
  rw [fetch_of_size_le hp (Nat.le_of_eq hi.symm)] at hf
  cases hf

theorem size_le_mul_of_serves (h : g.Serves) : g.cells.size ≤ g.width * g.height := by
  refine Nat.le_of_not_lt fun hlt => ?_
  -- the first cell that is left over stands at the beginning of the row below the last one
  have he := getElem?_entries g (g.width * g.height)
  rw [Array.getElem?_eq_getElem hlt, Option.map_some] at he
  have hc := (h.entries _ _ (List.mem_of_getElem? he)).2
  rw [positionAt, Nat.mul_div_cancel_left g.height (checkRows_eq_ok_iff.1 h.checkRows)] at hc
  exact Nat.lt_irrefl _ hc

/-- **The well formed grids are those that serve**, among those that have a row.  The number of
cells is a machine word, as it is in any memory. -/
theorem wellFormed_iff_serves (hs : g.cells.size < wordSize) :
    g.WellFormed ↔ 1 ≤ g.height ∧ g.Serves := by
  constructor
  · intro hg
    exact ⟨hg.2.1, serves_of_wellFormed hg⟩
  · rintro ⟨hh, h⟩
    exact ⟨checkRows_eq_ok_iff.1 h.checkRows, hh,
      Nat.le_antisymm (size_le_mul_of_serves h) (mul_le_size_of_serves hs h)⟩

end Mazewalk.Grid
