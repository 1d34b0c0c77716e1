import Mazewalk.Proofs.Map.Reading
import Mazewalk.Proofs.Text.Words

/-!
# Maps that are written and read

A map shows the terrain of a maze, the items on its paths and goals, and where to start.
`Map.Shows g p` collects what a grid must be like to be shown in full, with the start at `p`: it
is well formed, `p` is its only start tile, and no item lies on a start or on a wall.

* `Map.shows_of_read`: whatever is read from a text is of this kind.
* `Map.read_text_iff`: a grid that is written and read again is the same, with its start at `p`,
  if and only if it is of this kind.
-/

namespace Mazewalk

/-- The position shows a start tile. -/
def Grid.IsStart (g : Grid Tile) (p : Position) : Prop :=
  ∃ tile, g.get? p = some tile ∧ tile.terrain = .start

/-! ### Codes -/

namespace Tile

theorem ofCode?_code : ∀ tile ∈ coded, ofCode? tile.code.toList = some tile := by
  decide

/-- The tiles without a code of their own are those whose item their code hides. -/
theorem mem_coded_iff {tile : Tile} :
    tile ∈ coded ↔ (tile.item = true → tile.terrain ≠ .start ∧ tile.terrain ≠ .wall) := by
  obtain ⟨terrain, item⟩ := tile
  cases terrain <;> cases item <;> decide

theorem isWord_code (tile : Tile) : Text.IsWord tile.code.toList := by
  obtain ⟨terrain, item⟩ := tile
  cases terrain <;> cases item <;> decide

end Tile

namespace Map

/-! ### The words of a written map -/

theorem toList_rowText (row : List Tile) :
    (rowText row).toList = [' '].intercalate (row.map fun tile => tile.code.toList) := by
  rw [rowText, String.toList_intercalate, List.map_map]
  rfl

theorem words_rowText (row : List Tile) :
    Text.words (rowText row).toList = row.map fun tile => tile.code.toList := by
  rw [toList_rowText]
  refine Text.words_intercalate fun w hw => ?_
  obtain ⟨tile, -, rfl⟩ := List.mem_map.1 hw
  exact ⟨tile.isWord_code.1, fun c hc => (tile.isWord_code.2 c hc).not_blank⟩

theorem not_mem_rowText (row : List Tile) : '\n' ∉ (rowText row).toList := by
  intro h
  rw [toList_rowText] at h
  obtain h | ⟨w, hw, hc⟩ := Text.mem_intercalate h
  · cases h
  · obtain ⟨tile, -, rfl⟩ := List.mem_map.1 hw
    exact absurd (tile.isWord_code.2 _ hc) (by decide)

/-- The words of a written grid are the codes of its tiles, row by row. -/
theorem wordRows_text {g : Grid Tile} (hg : g.WellFormed) :
    wordRows (text g) = g.rows.map (List.map fun tile => tile.code.toList) := by
  have hne : g.rows ≠ [] := by
    intro h
    have hl := Grid.length_rows hg
    rw [h] at hl
    exact absurd hg.2.1 (by rw [← hl]; decide)
  have htext : (text g).toList =
      ['\n'].intercalate (g.rows.map fun row => (rowText row).toList) := by
    rw [text, String.toList_intercalate, List.map_map]
    rfl
  have hwords : (g.rows.map fun row => (rowText row).toList).map Text.words =
      g.rows.map (List.map fun tile => tile.code.toList) := by
    rw [List.map_map]
    exact List.map_congr_left fun row _ => words_rowText row
  rw [wordRows, htext, List.splitOn_intercalate '\n' ?_ (by simpa using hne), hwords,
    List.filter_eq_self.2 ?_]
  · intro row hrow
    obtain ⟨tiles, ht, rfl⟩ := List.mem_map.1 hrow
    have hl := Grid.length_of_mem_rows hg tiles ht
    have hpos : tiles ≠ [] := by
      rintro rfl
      exact absurd hg.1 (by rw [← hl]; decide)
    simpa using hpos
  · intro l hl
    obtain ⟨row, -, rfl⟩ := List.mem_map.1 hl
    exact not_mem_rowText row

/-! ### Grids that a map shows in full -/

/-- A map shows all there is to the grid, with its start at `p`. -/
structure Shows (g : Grid Tile) (p : Position) : Prop where
  wellFormed : g.WellFormed
  start : ∀ q, g.IsStart q ↔ q = p
  coded : ∀ q tile, g.get? q = some tile → tile ∈ Tile.coded

theorem isStart_iff_mem {g : Grid Tile} {rows : List (List Tile)} (hg : Grid.ofRows rows = .ok g)
    {p : Position} : g.IsStart p ↔ p ∈ startsInRows 0 rows := by
  rw [mem_startsInRows, Grid.IsStart, Grid.get?_ofRows hg, Nat.sub_zero]
  simp

/-- **What is read is shown in full.** -/
theorem shows_of_read {text : String} {g : Grid Tile} {p : Position}
    (h : read text = .ok (g, p)) : Shows g p := by
  obtain ⟨rows, hm, hg, hs⟩ := read_eq_ok_iff.1 h
  refine ⟨Grid.wellFormed_ofRows hg, fun q => ?_, fun q tile hq => ?_⟩
  · rw [isStart_iff_mem hg, hs, List.mem_singleton]
  · rw [Grid.get?_ofRows hg] at hq
    obtain ⟨row, hrow, hx⟩ := Option.bind_eq_some_iff.1 hq
    -- the tile comes from a word of the text
    have hmem := List.mem_map_of_mem (f := List.map some) (List.mem_of_getElem? hrow)
    rw [← hm] at hmem
    obtain ⟨words, -, hw⟩ := List.mem_map.1 hmem
    have ht := List.mem_map_of_mem (f := some) (List.mem_of_getElem? hx)
    rw [← hw] at ht
    obtain ⟨word, -, hc⟩ := List.mem_map.1 ht
    exact List.mem_of_find?_eq_some hc

/-- **A grid that is shown in full can be read back.** -/
theorem Shows.read_eq_ok {g : Grid Tile} {p : Position} (h : Shows g p) :
    read (text g) = .ok (g, p) := by
  have hg := h.wellFormed
  have hrows := Grid.ofRows_rows hg
  refine read_eq_ok_iff.2 ⟨g.rows, ?_, hrows, ?_⟩
  · rw [wordRows_text hg, List.map_map]
    refine List.map_congr_left fun row hrow => ?_
    rw [Function.comp_apply, List.map_map]
    refine List.map_congr_left fun tile ht => ?_
    obtain ⟨q, hq⟩ := Grid.exists_get?_of_mem_rows hg hrow ht
    exact Tile.ofCode?_code tile (h.coded q tile hq)
  · refine startsInRows_eq_singleton_iff.2 fun q => ?_
    rw [← isStart_iff_mem hrows, h.start]

theorem read_text_iff {g : Grid Tile} {p : Position} :
    read (text g) = .ok (g, p) ↔ Shows g p :=
  ⟨shows_of_read, Shows.read_eq_ok⟩

end Map

end Mazewalk
