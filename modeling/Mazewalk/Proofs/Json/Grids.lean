import Mazewalk.Proofs.Grid.Access
import Mazewalk.Proofs.Json.RoundTrip

/-!
# Stored grids

A grid is stored as its sides and its cells.  Reading asks that the sides are machine words, and
nothing else: not that there is a row and a column, and not that there are as many cells as the
sides say (`stored_iff`).  So a grid that was read, alone or with a walk, need not be well formed,
and then some access to it fails (`Grid.wellFormed_iff_serves`).  `shortRow` is such a grid: its
second position has no cell.  Another is `vast`, where two positions share one.
-/

namespace Mazewalk

open Json

theorem Json.Value.lt_of_natBelow? {bound n : Nat} {value : Value}
    (h : value.natBelow? bound = some n) : n < bound := by
  unfold natBelow? at h
  split at h
  · split at h
    · rename_i i hi
      cases h
      omega
    · cases h
  · cases h

namespace Grid

theorem isWord_of_ofJson? {α : Type} {decode? : Value → Option α} {value : Value} {g : Grid α}
    (h : ofJson? decode? value = some g) : g.IsWord := by
  simp only [ofJson?, Option.bind_eq_bind, Option.bind_eq_some_iff] at h
  obtain ⟨fields, -, v, -, width, hw, u, -, height, hh, c, -, cells, -, h⟩ := h
  cases h
  exact ⟨Value.lt_of_natBelow? hw, Value.lt_of_natBelow? hh⟩

/-- The grid of a walk is stored like any other. -/
theorem exists_ofJson?_of_walk {value : Value} {walk : Walk} (h : Walk.ofJson? value = some walk) :
    ∃ v, ofJson? Tile.ofJson? v = some walk.world.grid := by
  simp only [Walk.ofJson?, Option.bind_eq_bind, Option.bind_eq_some_iff] at h
  obtain ⟨fields, -, a, -, walker, -, v, -, grid, hg, t, -, trace, -, w, -, warnings, -, h⟩ := h
  cases h
  exact ⟨v, hg⟩

/-- A walk that has not left the corner of a grid. -/
def idle (g : Grid Tile) : Walk :=
  ⟨⟨⟨⟨0, 0⟩, .right, false⟩, g⟩, #[], #[]⟩

theorem isWord_idle {g : Grid Tile} (hg : g.IsWord) : g.idle.IsWord where
  walker := ⟨Nat.two_pow_pos 64, Nat.two_pow_pos 64⟩
  grid := hg
  trace := by simp [idle]
  warnings := by simp [idle]

/-- **The grids that can be read from storage**, alone or with a walk, are those whose sides are
machine words.  Of these the well formed ones are those that have a row and on which no access
fails, with checks or without.  Without a column there are no rows to show, and the cells, if there
are any, have no positions. -/
theorem stored_iff (g : Grid Tile) :
    ((∃ value, ofJson? Tile.ofJson? value = some g) ↔ g.IsWord) ∧
      ((∃ value walk, Walk.ofJson? value = some walk ∧ walk.world.grid = g) ↔ g.IsWord) ∧
      (g.cells.size < wordSize →
        (g.WellFormed ↔ 1 ≤ g.height ∧ g.Serves) ∧
        (g.WellFormed ↔ 1 ≤ g.height ∧ g.Serves ∧
          ∀ p, g.Contains p → g.checkedIndex p = .ok (g.index p))) ∧
      (g.checkRows = .ok () ↔ 1 ≤ g.width) ∧
      (g.checkEntries = .ok () ↔ 1 ≤ g.width ∨ g.cells.size = 0) := by
  have halone : ∀ {value}, ofJson? Tile.ofJson? value = some g → g.IsWord := isWord_of_ofJson?
  refine ⟨⟨fun ⟨_, h⟩ => halone h, fun hg => ⟨_, ofJson?_toJson hg⟩⟩, ⟨?_, fun hg => ?_⟩,
    fun hs => ⟨wellFormed_iff_serves hs, ?_⟩, checkRows_eq_ok_iff, checkEntries_eq_ok_iff⟩
  · rintro ⟨value, walk, h, rfl⟩
    obtain ⟨v, hv⟩ := exists_ofJson?_of_walk h
    exact halone hv
  · exact ⟨_, g.idle, Walk.ofJson?_toJson (isWord_idle hg), rfl⟩
  · constructor
    · intro hg
      exact ⟨hg.2.1, serves_of_wellFormed hg,
        fun p hp => checkedIndex_eq hg (Nat.le_of_lt hs) hp⟩
    · rintro ⟨hh, h, -⟩
      exact (wellFormed_iff_serves hs).2 ⟨hh, h⟩

/-- Three rows of as many positions as there are words but for one, and two cells. -/
def vast : Grid Tile :=
  ⟨wordSize - 1, 3, #[⟨.path, true⟩, ⟨.goal, false⟩]⟩

/-- The second position of the second row shares the first cell if nothing is checked, and has none
if something is.  A grid with a cell for each position would have been needed. -/
theorem stored_iff_vast :
    (∃ value, ofJson? Tile.ofJson? value = some vast) ∧ vast.cells.size < wordSize ∧
      vast.Contains ⟨1, 1⟩ ∧ vast.fetch ⟨1, 1⟩ = vast.fetch ⟨0, 0⟩ ∧
      vast.checkedIndex ⟨1, 1⟩ = .error .sum ∧ ¬ vast.Serves := by
  have hs : vast.cells.size < wordSize := by decide
  obtain ⟨hread, -, haccess, -⟩ := stored_iff vast
  have hn : ¬ vast.WellFormed := by decide
  exact ⟨hread.2 (by decide), hs, by decide, by decide, by decide,
    fun h => hn ((haccess hs).1.2 ⟨by decide, h⟩)⟩

/-- A row of two positions and one cell. -/
def shortRow : Grid Tile :=
  ⟨2, 1, #[⟨.path, false⟩]⟩

/-- A grid with too few cells is read as it was stored, and its second position can neither be read
nor written. -/
theorem ofJson?_shortRow :
    ofJson? Tile.ofJson? (shortRow.toJson Tile.toJson) = some shortRow ∧
      ¬ shortRow.WellFormed ∧ shortRow.Contains ⟨1, 0⟩ ∧
      shortRow.fetch ⟨1, 0⟩ = .error (.missingCell 1 1) ∧
      shortRow.set ⟨1, 0⟩ ⟨.goal, false⟩ = .error (.missingCell 1 1) ∧
      ¬ ∀ value g, ofJson? Tile.ofJson? value = some g → g.WellFormed := by
  have hread : ofJson? Tile.ofJson? (shortRow.toJson Tile.toJson) = some shortRow :=
    ofJson?_toJson (by decide)
  have hshort : ¬ shortRow.WellFormed := by decide
  exact ⟨hread, hshort, by decide, rfl, rfl, fun h => hshort (h _ _ hread)⟩

end Grid

end Mazewalk
