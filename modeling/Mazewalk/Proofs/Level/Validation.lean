import Mazewalk.Proofs.Level.RoundTrip
import Mazewalk.Proofs.Map.Language

/-!
# Which level files are refused

A level file is refused if its map is faulty, if its par is zero, or if it allows nothing, and what
is reported is the first of these in this order (`ofFile_eq_error_iff`).  A level built from parts
can also have a bad start, but a file cannot: its start is the start tile of its map, which is
inside the grid and no wall (`Map.Depicts.passable`).

What a file that is not refused says is all in the level, and `Describes` lists it.
-/

namespace Mazewalk.Level

theorem sorted_eq_nil_iff {blocks : List Block} : Block.sorted blocks = [] ↔ blocks = [] := by
  simp only [List.eq_nil_iff_forall_not_mem, Block.mem_sorted]

/-! ### Faults -/

variable {file : File} {level : Level} {e : Error}

/-- A level with a good start has two faults that can be found. -/
theorem make_eq_error_iff {id : LevelId} {name : String} {grid : Grid Tile} {start : Walker}
    {allowed : List Block} {par : UInt64} (hs : grid.passable start.position = true) :
    make id name grid start allowed par = .error e ↔
      par = 0 ∧ e = .zeroPar id ∨ par ≠ 0 ∧ allowed = [] ∧ e = .noBlocks id := by
  rw [make, dif_pos hs]
  by_cases hp : par = 0
  · simp [hp, eq_comm]
  · rw [dif_pos hp]
    by_cases ha : allowed = []
    · rw [dif_neg (not_not_intro (sorted_eq_nil_iff.2 ha))]
      simp [hp, ha, eq_comm]
    · rw [dif_pos (sorted_eq_nil_iff.not.2 ha)]
      simp [hp, ha]

/-- A file whose map is read. -/
theorem ofFile_eq_map {g : Grid Tile} {p : Position} (hr : Map.read file.map = .ok (g, p)) :
    ofFile file = (make file.id file.name g ⟨p, file.heading, false⟩ file.allowed file.par).map
      fun level => level.withDescription file.description := by
  rw [ofFile, hr]
  show (do
    let level ← make file.id file.name g ⟨p, file.heading, false⟩ file.allowed file.par
    return level.withDescription file.description) = _
  cases make file.id file.name g ⟨p, file.heading, false⟩ file.allowed file.par <;> rfl

/-- **The error is the first of three.** -/
theorem ofFile_eq_error_iff :
    ofFile file = .error e ↔ (∃ d, Map.read file.map = .error d ∧ e = .map d) ∨
      (∃ m, Map.read file.map = .ok m) ∧
        (file.par = 0 ∧ e = .zeroPar file.id ∨
          file.par ≠ 0 ∧ file.allowed = [] ∧ e = .noBlocks file.id) := by
  cases hr : Map.read file.map with
  | error d =>
    have hmap : ofFile file = .error (.map d) := by
      rw [ofFile, hr]
      rfl
    rw [hmap]
    simp [eq_comm]
  | ok m =>
    obtain ⟨g, p⟩ := m
    rw [ofFile_eq_map hr, map_eq_error_iff,
      make_eq_error_iff (Map.depicts_of_read hr).passable.2]
    simp

/-! ### What is in a level -/

/-- The level has what the file says. -/
structure Describes (file : File) (level : Level) : Prop where
  map : Map.read file.map = .ok (level.grid, level.start.position)
  wellFormed : level.grid.WellFormed
  start : ∀ q, level.grid.IsStart q ↔ q = level.start.position
  heading : level.start.heading = file.heading
  carrying : level.start.carrying = false
  par : level.par = file.par ∧ 1 ≤ level.par.toNat
  allows : ∀ block, level.allows block = true ↔ block ∈ file.allowed
  id : level.id = file.id
  name : level.name = file.name
  description : level.description = file.description

theorem one_le_par (level : Level) : 1 ≤ level.par.toNat := by
  rw [Nat.one_le_iff_ne_zero]
  intro h
  exact level.par_ne_zero (UInt64.toNat_inj.1 h)

theorem describes_of_ofFile (h : ofFile file = .ok level) : Describes file level := by
  obtain ⟨hr, hc⟩ := of_ofFile_eq_ok h
  have hshown := Map.depicts_of_read hr
  rw [ofFile_eq_map hr, map_eq_ok_iff] at h
  obtain ⟨made, hm, rfl⟩ := h
  obtain ⟨-, hstart, hid, hname, hpalette, hpar⟩ := of_make_eq_ok hm
  refine ⟨hr, hshown.wellFormed, hshown.start, congrArg Walker.heading hstart, hc,
    ⟨hpar, one_le_par made⟩, fun block => ?_, hid, hname, rfl⟩
  show made.palette.contains block = true ↔ _
  rw [hpalette, List.contains_iff_mem, Block.mem_sorted]

theorem exists_ofFile_iff :
    (∃ level, ofFile file = .ok level) ↔
      (∃ m, Map.read file.map = .ok m) ∧ file.par ≠ 0 ∧ file.allowed ≠ [] := by
  constructor
  · intro h
    have hnot := exists_eq_ok_iff.1 h
    have hread : ∃ m, Map.read file.map = .ok m :=
      exists_eq_ok_iff.2 fun d hd => hnot _ (ofFile_eq_error_iff.2 (Or.inl ⟨d, hd, rfl⟩))
    have hpar : file.par ≠ 0 :=
      fun hp => hnot _ (ofFile_eq_error_iff.2 (Or.inr ⟨hread, Or.inl ⟨hp, rfl⟩⟩))
    exact ⟨hread, hpar,
      fun ha => hnot _ (ofFile_eq_error_iff.2 (Or.inr ⟨hread, Or.inr ⟨hpar, ha, rfl⟩⟩))⟩
  · rintro ⟨⟨m, hm⟩, hpar, ha⟩
    refine exists_eq_ok_iff.2 fun e he => ?_
    rcases ofFile_eq_error_iff.1 he with ⟨d, hd, -⟩ | ⟨-, ⟨h, -⟩ | ⟨-, h, -⟩⟩
    · rw [hm] at hd
      cases hd
    · exact hpar h
    · exact ha h

/-- **A level file is checked in full.**  The errors are those of the map, then a par of zero, then
that nothing is allowed, and there is no other.  What is not refused is a level, and it has what the
file says. -/
theorem ofFile_checks (file : File) :
    (∀ d, ofFile file = .error (.map d) ↔ Map.read file.map = .error d) ∧
      (∀ id, ofFile file = .error (.zeroPar id) ↔
        (∃ m, Map.read file.map = .ok m) ∧ file.par = 0 ∧ id = file.id) ∧
      (∀ id, ofFile file = .error (.noBlocks id) ↔
        (∃ m, Map.read file.map = .ok m) ∧ file.par ≠ 0 ∧ file.allowed = [] ∧ id = file.id) ∧
      ((∃ level, ofFile file = .ok level) ↔
        (∃ m, Map.read file.map = .ok m) ∧ file.par ≠ 0 ∧ file.allowed ≠ []) ∧
      (∀ id p, ofFile file ≠ .error (.badStart id p)) ∧
      ∀ level, ofFile file = .ok level → Describes file level := by
  refine ⟨?_, ?_, ?_, exists_ofFile_iff, ?_, fun _ => describes_of_ofFile⟩
  · intro d
    simp [ofFile_eq_error_iff]
  · intro id
    simp [ofFile_eq_error_iff]
  · intro id
    simp [ofFile_eq_error_iff]
  · intro id p
    simp [ofFile_eq_error_iff]

theorem ofFile_checks_sketch :
    Describes sketchFile sketch ∧
      ofFile { sketchFile with map := "PA ST\nGO", par := 0 } =
        .error (.map (.raggedRow 1 2 1)) ∧
      ofFile { sketchFile with par := 0, allowed := [] } = .error (.zeroPar 3) ∧
      ofFile { sketchFile with allowed := [] } = .error (.noBlocks 3) := by
  have hok : ofFile sketchFile = .ok sketch := by decide
  have hread : ∃ m, Map.read sketchFile.map = .ok m := ⟨_, (of_ofFile_eq_ok hok).1⟩
  have hragged : Map.read "PA ST\nGO" = .error (.raggedRow 1 2 1) := by decide
  obtain ⟨-, -, -, -, -, hdescribes⟩ := ofFile_checks sketchFile
  obtain ⟨hmap, -⟩ := ofFile_checks { sketchFile with map := "PA ST\nGO", par := 0 }
  obtain ⟨-, hpar, -⟩ := ofFile_checks { sketchFile with par := 0, allowed := [] }
  obtain ⟨-, -, hblocks, -⟩ := ofFile_checks { sketchFile with allowed := [] }
  exact ⟨hdescribes sketch hok, (hmap _).2 hragged, (hpar 3).2 ⟨hread, rfl, rfl⟩,
    (hblocks 3).2 ⟨hread, by decide, rfl, rfl⟩⟩

end Mazewalk.Level
