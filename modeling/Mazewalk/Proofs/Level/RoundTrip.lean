import Mazewalk.Level.File
import Mazewalk.Proofs.Map.RoundTrip
import Mazewalk.Proofs.World.Paths

/-!
# Levels that are written and read

A file says less than a level.  `Level.ofFile_toFile_iff` says exactly how much less: a level is
the one that is read from its file if and only if its grid has all its cells, the walker starts on
the only start tile with empty hands, and no start tile and no wall hides an item.  In particular
a level that was read from some file is the one read from its own.

The id, the name, the description, the par, the heading and the palette are copied; the palette
of a level is sorted already, and sorting it once more changes nothing.  All the rest comes from
the map (`Map.read_text_iff`).
-/

namespace Mazewalk.Level

/-- Every level is built from its parts, its description apart. -/
theorem make_eq_ok (level : Level) :
    make level.id level.name level.grid level.start level.palette level.par =
      .ok (level.withDescription "") := by
  obtain ⟨id, name, description, grid, start, palette, par, hs, hpar, hne, hsort⟩ := level
  simp only [make, dif_pos hs, dif_pos hpar, hsort]
  rw [dif_pos hne]
  rfl

/-- What a level is built from is in it. -/
theorem of_make_eq_ok {id : LevelId} {name : String} {grid : Grid Tile} {start : Walker}
    {allowed : List Block} {par : UInt64} {level : Level}
    (h : make id name grid start allowed par = .ok level) :
    level.grid = grid ∧ level.start = start ∧ level.id = id ∧ level.name = name ∧
      level.palette = Block.sorted allowed ∧ level.par = par := by
  unfold make at h
  split at h
  · split at h
    · split at h
      · cases h
        exact ⟨rfl, rfl, rfl, rfl, rfl, rfl⟩
      · cases h
    · cases h
  · cases h

/-- **What is read from a file** has the maze that the map of the file shows, and the walker
starts there with empty hands. -/
theorem of_ofFile_eq_ok {file : File} {level : Level} (h : ofFile file = .ok level) :
    Map.read file.map = .ok (level.grid, level.start.position) ∧
      level.start.carrying = false := by
  unfold ofFile at h
  simp only [bind_eq_ok_iff, mapError_eq_ok_iff] at h
  obtain ⟨⟨g, p⟩, hr, l, hm, he⟩ := h
  obtain ⟨hg, hs, -⟩ := of_make_eq_ok hm
  cases he
  have hgrid : (l.withDescription file.description).grid = g := hg
  have hstart : (l.withDescription file.description).start = ⟨p, file.heading, false⟩ := hs
  rw [hgrid, hstart]
  exact ⟨hr, rfl⟩

/-- Nothing of a level is lost in its file but what its map does not show, and an item in the
hands of the walker. -/
theorem ofFile_toFile_eq_ok_iff {level : Level} :
    ofFile level.toFile = .ok level ↔
      Map.Shows level.grid level.start.position ∧ level.start.carrying = false := by
  constructor
  · intro h
    obtain ⟨hr, hc⟩ := of_ofFile_eq_ok h
    exact ⟨Map.read_text_iff.1 hr, hc⟩
  · rintro ⟨hshows, hc⟩
    have hs : (⟨level.start.position, level.start.heading, false⟩ : Walker) = level.start := by
      rw [← hc]
    have hm := make_eq_ok level
    rw [← hs] at hm
    unfold ofFile
    simp only [bind_eq_ok_iff, mapError_eq_ok_iff]
    exact ⟨(level.grid, level.start.position), Map.read_text_iff.2 hshows,
      level.withDescription "", hm, rfl⟩

/-- A level whose grid has a cell for each position has a well formed one, because the walker
starts inside it. -/
theorem wellFormed_grid {level : Level}
    (h : level.grid.cells.size = level.grid.width * level.grid.height) :
    level.grid.WellFormed := by
  obtain ⟨hx, hy⟩ := Grid.contains_of_passable level.passable_start
  exact ⟨Nat.zero_lt_of_lt hx, Nat.zero_lt_of_lt hy, h⟩

/-- **A file says all there is to a level if and only if** the grid has a cell for each position,
the walker starts on its only start tile with empty hands, and no start tile and no wall holds an
item.  Every level that was read from a file is of this kind. -/
theorem ofFile_toFile_iff :
    (∀ level : Level, ofFile level.toFile = .ok level ↔
      level.grid.cells.size = level.grid.width * level.grid.height ∧
        (∀ p, level.grid.IsStart p ↔ p = level.start.position) ∧
        level.start.carrying = false ∧
        ∀ p tile, level.grid.get? p = some tile → tile.item = true →
          tile.terrain ≠ .start ∧ tile.terrain ≠ .wall) ∧
      ∀ file level, ofFile file = .ok level → ofFile level.toFile = .ok level := by
  constructor
  · intro level
    rw [ofFile_toFile_eq_ok_iff]
    constructor
    · rintro ⟨hshows, hc⟩
      exact ⟨hshows.wellFormed.2.2, hshows.start, hc,
        fun p tile hp => Tile.mem_coded_iff.1 (hshows.coded p tile hp)⟩
    · rintro ⟨hcells, hstart, hc, hitem⟩
      exact ⟨⟨wellFormed_grid hcells, hstart,
        fun p tile hp => Tile.mem_coded_iff.2 (hitem p tile hp)⟩, hc⟩
  · intro file level h
    obtain ⟨hr, hc⟩ := of_ofFile_eq_ok h
    exact ofFile_toFile_eq_ok_iff.2 ⟨Map.shows_of_read hr, hc⟩

/-- A level file with its kinds of instruction in any order, and a map in any layout. -/
def sketchFile : File where
  id := 3
  name := "Sketch"
  description := "An item behind the wall."
  par := 6
  heading := .down
  allowed := [.times, .forward, .times]
  map := "\n  st wl gi \n\nPA  it\tGO\r\n"

/-- The level that `sketchFile` describes. -/
def sketch : Level where
  id := 3
  name := "Sketch"
  description := "An item behind the wall."
  grid := ⟨3, 2, #[⟨.start, false⟩, ⟨.wall, false⟩, ⟨.goal, true⟩,
    ⟨.path, false⟩, ⟨.path, true⟩, ⟨.goal, false⟩]⟩
  start := ⟨⟨0, 0⟩, .down, false⟩
  palette := [.forward, .times]
  par := 6
  passable_start := by decide
  par_ne_zero := by decide
  palette_ne_nil := by decide
  palette_sorted := by decide

theorem ofFile_toFile_sketch :
    ofFile sketchFile = .ok sketch ∧ ofFile sketch.toFile = .ok sketch := by
  have h : ofFile sketchFile = .ok sketch := by decide
  exact ⟨h, ofFile_toFile_iff.2 sketchFile sketch h⟩

end Mazewalk.Level
