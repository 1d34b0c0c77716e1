import Mazewalk.Proofs.Map.Language

/-!
# The normal form of a map

Many texts show one grid: the blanks between codes, the blank lines and the case of letters are
free.  Writing what was read keeps the codes and nothing of the rest, so it gives a text that
depends on the map alone, `normalForm`.

* `text_of_read`: what is read is written in normal form.
* `read_normalForm`: the normal form of a map is read as the map is.
* `text_inverse_read`: writing and reading undo each other, reading on the grids that are shown in
  full (`Shows`) and writing on the maps in normal form.
-/

namespace Mazewalk.Map

/-- The codes of a text in capital letters: those of a line with one space between neighbours,
the lines with one line break between neighbours. -/
def normalForm (text : String) : String :=
  "\n".intercalate ((codeLines text).map fun line => " ".intercalate (line.map Text.upper))

variable {s : String} {g : Grid Tile} {p : Position}

theorem code_eq {s : String} {tile : Tile} (h : Tile.Code s tile) : s = tile.code := by
  cases h <;> rfl

/-- The words of a map in capital letters are the codes of the tiles that they denote. -/
theorem Denotes.map_upper {words : List (List (List Char))} {rows : List (List Tile)}
    (h : Denotes words rows) :
    words.map (List.map Text.upper) = rows.map (List.map Tile.code) := by
  have hline : ∀ (line : List (List Char)) (row : List Tile),
      List.Forall₂ (fun word tile => Tile.Code (Text.upper word) tile) line row →
        line.map Text.upper = row.map Tile.code := by
    intro line row hr
    exact (forall₂_iff_map_eq_map fun _ _ => Iff.rfl).1 (hr.imp fun _ _ hc => code_eq hc)
  exact (forall₂_iff_map_eq_map fun _ _ => Iff.rfl).1 (h.imp hline)

/-- **What is read is written in normal form.** -/
theorem text_of_read (h : read s = .ok (g, p)) : text g = normalForm s := by
  obtain ⟨rows, hd, hg, -⟩ := read_eq_ok_iff_denotes.1 h
  have hcodes := congrArg (List.map " ".intercalate) hd.map_upper
  rw [List.map_map, List.map_map] at hcodes
  rw [text, Grid.rows_ofRows hg, normalForm]
  exact congrArg "\n".intercalate hcodes.symm

/-- The normal form of a map shows what the map does. -/
theorem read_normalForm (h : read s = .ok (g, p)) : read (normalForm s) = .ok (g, p) := by
  rw [← text_of_read h]
  exact (shows_of_read h).read_eq_ok

theorem shows_iff (hg : g.WellFormed) :
    Shows g p ↔ (∀ q, g.IsStart q ↔ q = p) ∧ ∀ q tile, g.get? q = some tile →
      tile.item = true → tile.terrain ≠ .start ∧ tile.terrain ≠ .wall := by
  constructor
  · intro h
    exact ⟨h.start, fun q tile hq => Tile.mem_coded_iff.1 (h.coded q tile hq)⟩
  · rintro ⟨hs, hc⟩
    exact ⟨hg, hs, fun q tile hq => Tile.mem_coded_iff.2 (hc q tile hq)⟩

/-- **Writing and reading are inverse to each other.** -/
theorem text_inverse_read :
    (∀ (g : Grid Tile) (p : Position), g.WellFormed →
      (read (text g) = .ok (g, p) ↔
        (∀ q, g.IsStart q ↔ q = p) ∧ ∀ q tile, g.get? q = some tile →
          tile.item = true → tile.terrain ≠ .start ∧ tile.terrain ≠ .wall)) ∧
    ∀ (s : String) (g : Grid Tile) (p : Position), read s = .ok (g, p) →
      text g = normalForm s ∧ read (normalForm s) = .ok (g, p) := by
  refine ⟨fun g p hg => ?_, fun s g p h => ⟨text_of_read h, read_normalForm h⟩⟩
  rw [read_text_iff, shows_iff hg]

theorem text_inverse_read_clearing :
    clearingGrid.WellFormed ∧ read (text clearingGrid) = .ok (clearingGrid, ⟨0, 0⟩) ∧
      (∀ q, clearingGrid.IsStart q ↔ q = ⟨0, 0⟩) ∧
      read clearing = .ok (clearingGrid, ⟨0, 0⟩) ∧
      normalForm clearing = "ST IT WL\nPA GO GI" ∧
      text clearingGrid = normalForm clearing ∧
      read (normalForm clearing) = .ok (clearingGrid, ⟨0, 0⟩) := by
  have hg : clearingGrid.WellFormed := by decide
  have hwritten : read (text clearingGrid) = .ok (clearingGrid, ⟨0, 0⟩) := by decide
  have hread : read clearing = .ok (clearingGrid, ⟨0, 0⟩) := by decide
  exact ⟨hg, hwritten, ((text_inverse_read.1 _ _ hg).1 hwritten).1, hread, by decide,
    text_inverse_read.2 _ _ _ hread⟩

end Mazewalk.Map
