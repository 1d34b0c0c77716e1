import Mazewalk.Proofs.Map.RoundTrip

/-!
# The language of maps

Which texts are maps, and of what, without a word about the order in which a text is looked at.
A text is a map if its lines are rows of known codes, all of one length, with one start among them
(`IsMap`), and it shows the grid whose tiles these codes denote (`Depicts`).  The reader accepts
the maps and no other text, and gives what they show: `read_iff_isMap`.

The reader collects the rows and makes a grid of them at the end.  It has measured them before
and a line that is not blank has a word, so this cannot fail (`exists_ofRows_of_readRows`).
-/

namespace Mazewalk

/-- What a code denotes. -/
inductive Tile.Code : String → Tile → Prop where
  | start : Code "ST" ⟨.start, false⟩
  | path : Code "PA" ⟨.path, false⟩
  | wall : Code "WL" ⟨.wall, false⟩
  | goal : Code "GO" ⟨.goal, false⟩
  | pathWithItem : Code "IT" ⟨.path, true⟩
  | goalWithItem : Code "GI" ⟨.goal, true⟩

namespace Map

/-- The lines of a text that are not blank, as words. -/
def codeLines (text : String) : List (List (List Char)) :=
  ((text.toList.splitOn '\n').filter fun line => line.any fun c => !Text.isBlank c).map Text.words

/-- The text is a map. -/
structure IsMap (text : String) : Prop where
  nonempty : codeLines text ≠ []
  even : ∀ line ∈ codeLines text, ∀ line' ∈ codeLines text, line.length = line'.length
  known : ∀ line ∈ codeLines text, ∀ word ∈ line,
    Text.upper word ∈ ["ST", "PA", "WL", "GO", "IT", "GI"]
  start : ((codeLines text).flatten.filter fun word => Text.upper word = "ST").length = 1

/-- The text shows the grid, with its only start at `p`. -/
structure Depicts (text : String) (g : Grid Tile) (p : Position) : Prop where
  wellFormed : g.WellFormed
  height : g.height = (codeLines text).length
  width : ∀ line ∈ codeLines text, line.length = g.width
  tile : ∀ x y codes code, (codeLines text)[y]? = some codes → codes[x]? = some code →
    ∃ tile, Tile.Code (Text.upper code) tile ∧ g.get? ⟨x, y⟩ = some tile
  start : ∀ q, g.IsStart q ↔ q = p

/-! ### Words -/

theorem any_not_isBlank (line : List Char) :
    (line.any fun c => !Text.isBlank c) = !(Text.words line).isEmpty := by
  rw [Bool.eq_iff_iff, Bool.not_eq_true', ← Bool.not_eq_true, List.isEmpty_iff,
    Text.words_eq_nil_iff]
  simp

theorem codeLines_eq (text : String) : codeLines text = wordRows text := by
  rw [codeLines, wordRows, List.filter_map]
  congr 1
  exact List.filter_congr fun line _ => any_not_isBlank line

theorem ne_nil_of_mem_codeLines {text : String} {line : List (List Char)}
    (h : line ∈ codeLines text) : line ≠ [] := by
  rw [codeLines_eq] at h
  simpa using (List.mem_filter.1 h).2

theorem ofCode?_eq_some_iff {word : List Char} {tile : Tile} :
    Tile.ofCode? word = some tile ↔ Tile.Code (Text.upper word) tile := by
  rw [Tile.ofCode?]
  generalize Text.upper word = s
  constructor
  · intro h
    have hs : tile.code = s := by simpa using List.find?_some h
    have hm := List.mem_of_find?_eq_some h
    simp only [Tile.coded, List.mem_cons, List.not_mem_nil, or_false] at hm
    rcases hm with rfl | rfl | rfl | rfl | rfl | rfl <;> subst hs <;> constructor
  · intro h
    cases h <;> decide

theorem exists_code_iff {s : String} :
    (∃ tile, Tile.Code s tile) ↔ s ∈ ["ST", "PA", "WL", "GO", "IT", "GI"] := by
  constructor
  · rintro ⟨tile, h⟩
    cases h <;> decide
  · intro h
    simp only [List.mem_cons, List.not_mem_nil, or_false] at h
    rcases h with rfl | rfl | rfl | rfl | rfl | rfl <;> exact ⟨_, by constructor⟩

theorem eq_start_iff {s : String} {tile : Tile} (h : Tile.Code s tile) :
    s = "ST" ↔ tile.terrain = .start := by
  cases h <;> decide

/-! ### Rows of tiles -/

/-- The words denote the tiles, row by row. -/
def Denotes (words : List (List (List Char))) (rows : List (List Tile)) : Prop :=
  List.Forall₂ (List.Forall₂ fun word tile => Tile.Code (Text.upper word) tile) words rows

section Denotes

variable {words : List (List (List Char))} {rows : List (List Tile)}

theorem denotes_iff :
    Denotes words rows ↔ words.map (List.map Tile.ofCode?) = rows.map (List.map some) := by
  refine forall₂_iff_map_eq_map fun line row => ?_
  refine forall₂_iff_map_eq_map fun word tile => ?_
  exact ofCode?_eq_some_iff.symm

theorem exists_denotes_iff :
    (∃ rows, Denotes words rows) ↔ ∀ line ∈ words, ∀ word ∈ line,
      Text.upper word ∈ ["ST", "PA", "WL", "GO", "IT", "GI"] := by
  simp only [Denotes, exists_forall₂_iff, exists_code_iff]

theorem Denotes.forall_length_iff (h : Denotes words rows) {n : Nat} :
    (∀ line ∈ words, line.length = n) ↔ ∀ row ∈ rows, row.length = n := by
  have hl : words.map List.length = rows.map List.length :=
    (forall₂_iff_map_eq_map fun _ _ => Iff.rfl).1 (h.imp fun _ _ hr => hr.length_eq)
  have hiff : (∀ m ∈ words.map List.length, m = n) ↔ ∀ m ∈ rows.map List.length, m = n := by
    rw [hl]
  simpa using hiff

theorem Denotes.exists_tile (h : Denotes words rows) {x y : Nat} {codes : List (List Char)}
    {code : List Char} (hl : words[y]? = some codes) (hw : codes[x]? = some code) :
    ∃ tile, Tile.Code (Text.upper code) tile ∧
      (rows[y]?.bind fun row => row[x]?) = some tile := by
  obtain ⟨row, hr, hrow⟩ := exists_getElem?_of_forall₂ h hl
  obtain ⟨tile, ht, hc⟩ := exists_getElem?_of_forall₂ hrow hw
  exact ⟨tile, hc, by rw [hr, Option.bind_some, ht]⟩

/-- There are as many start tiles as codes of a start. -/
theorem Denotes.length_filter (h : Denotes words rows) :
    (words.flatten.filter fun word => Text.upper word = "ST").length =
      (rows.flatten.filter fun tile => tile.terrain = .start).length := by
  have hf := List.rel_flatten h
  refine (List.rel_filter ?_ hf).length_eq
  intro word tile hc
  simpa using eq_start_iff hc

end Denotes

theorem length_startsInRow (y x : Nat) (tiles : List Tile) :
    (startsInRow y x tiles).length =
      (tiles.filter fun tile => tile.terrain = .start).length := by
  induction tiles generalizing x with
  | nil => rfl
  | cons tile tiles ih =>
    rw [startsInRow, List.filter_cons]
    split <;> simp_all

theorem length_startsInRows (y : Nat) (rows : List (List Tile)) :
    (startsInRows y rows).length =
      (rows.flatten.filter fun tile => tile.terrain = .start).length := by
  induction rows generalizing y with
  | nil => rfl
  | cons row rows ih =>
    rw [startsInRows, List.length_append, length_startsInRow, ih, List.flatten_cons,
      List.filter_append, List.length_append]

/-! ### What is read -/

variable {text : String} {g : Grid Tile} {p : Position}

theorem read_eq_ok_iff_denotes :
    read text = .ok (g, p) ↔ ∃ rows, Denotes (codeLines text) rows ∧
      Grid.ofRows rows = .ok g ∧ startsInRows 0 rows = [p] := by
  simp only [read_eq_ok_iff, codeLines_eq, denotes_iff]

theorem Denotes.exists_ofRows {rows : List (List Tile)} {width : Nat}
    (h : Denotes (codeLines text) rows) (hne : codeLines text ≠ [])
    (hw : ∀ line ∈ codeLines text, line.length = width) :
    ∃ g, Grid.ofRows rows = .ok g ∧ g.width = width ∧ g.height = (codeLines text).length := by
  obtain ⟨line, hl⟩ := List.exists_mem_of_ne_nil _ hne
  have hpos : 1 ≤ width := by
    rw [← hw line hl]
    exact List.length_pos_iff.2 (ne_nil_of_mem_codeLines hl)
  have hlen : (codeLines text).length = rows.length := List.Forall₂.length_eq h
  rw [hlen]
  refine Grid.exists_ofRows ?_ hpos (h.forall_length_iff.1 hw)
  rw [← List.length_pos_iff, ← hlen]
  exact List.length_pos_of_mem hl

/-- **What is read is a map.** -/
theorem isMap_of_read (h : read text = .ok (g, p)) : IsMap text := by
  obtain ⟨rows, hd, hg, hs⟩ := read_eq_ok_iff_denotes.1 h
  obtain ⟨-, hh, hl, heven, -⟩ := Grid.ofRows_eq_ok_iff.1 hg
  have hw := hd.forall_length_iff.2 heven
  refine ⟨?_, fun line hl line' hl' => ?_, exists_denotes_iff.1 ⟨rows, hd⟩, ?_⟩
  · rw [← List.length_pos_iff, List.Forall₂.length_eq hd, hl]
    exact hh
  · rw [hw line hl, hw line' hl']
  · rw [hd.length_filter, ← length_startsInRows 0, hs]
    rfl

/-- **A map is read.** -/
theorem IsMap.exists_read (h : IsMap text) : ∃ g p, read text = .ok (g, p) := by
  obtain ⟨rows, hd⟩ := exists_denotes_iff.2 h.known
  obtain ⟨line, hl⟩ := List.exists_mem_of_ne_nil _ h.nonempty
  obtain ⟨g, hg, -⟩ := hd.exists_ofRows h.nonempty fun line' hl' => h.even line' hl' line hl
  have hs := h.start
  rw [hd.length_filter, ← length_startsInRows 0] at hs
  obtain ⟨p, hp⟩ := List.length_eq_one_iff.1 hs
  exact ⟨g, p, read_eq_ok_iff_denotes.2 ⟨rows, hd, hg, hp⟩⟩

/-- **What is read is shown by the text.** -/
theorem depicts_of_read (h : read text = .ok (g, p)) : Depicts text g p := by
  obtain ⟨rows, hd, hg, -⟩ := read_eq_ok_iff_denotes.1 h
  obtain ⟨-, -, hl, heven, -⟩ := Grid.ofRows_eq_ok_iff.1 hg
  refine ⟨Grid.wellFormed_ofRows hg, ?_, hd.forall_length_iff.2 heven, ?_, (shows_of_read h).start⟩
  · rw [← hl, List.Forall₂.length_eq hd]
  · intro x y codes code hy hx
    rw [Grid.get?_ofRows hg]
    exact hd.exists_tile hy hx

/-- **A text is read as what it shows.** -/
theorem Depicts.read_eq_ok (h : Depicts text g p) : read text = .ok (g, p) := by
  have hknown : ∀ line ∈ codeLines text, ∀ word ∈ line,
      Text.upper word ∈ ["ST", "PA", "WL", "GO", "IT", "GI"] := by
    intro line hl word hw
    obtain ⟨y, hy⟩ := List.mem_iff_getElem?.1 hl
    obtain ⟨x, hx⟩ := List.mem_iff_getElem?.1 hw
    obtain ⟨tile, hc, -⟩ := h.tile x y line word hy hx
    exact exists_code_iff.1 ⟨tile, hc⟩
  have hne : codeLines text ≠ [] := by
    rw [← List.length_pos_iff, ← h.height]
    exact h.wellFormed.2.1
  obtain ⟨rows, hd⟩ := exists_denotes_iff.2 hknown
  obtain ⟨g', hg', hwidth, hheight⟩ := hd.exists_ofRows hne h.width
  -- the grid made of these rows has the shape and the tiles of the one shown
  have hsame : g' = g := by
    refine Grid.ext_get? (Grid.wellFormed_ofRows hg') h.wellFormed hwidth
      (hheight.trans h.height.symm) fun q hq => ?_
    have hy : q.y < (codeLines text).length := hheight ▸ hq.2
    have hx : q.x < (codeLines text)[q.y].length := by
      rw [h.width _ (List.getElem_mem hy), ← hwidth]
      exact hq.1
    have hline := List.getElem?_eq_getElem hy
    have hword := List.getElem?_eq_getElem hx
    obtain ⟨tile, hc, ht⟩ := hd.exists_tile hline hword
    obtain ⟨tile', hc', ht'⟩ := h.tile q.x q.y _ _ hline hword
    have hcode := ofCode?_eq_some_iff.2 hc
    rw [ofCode?_eq_some_iff.2 hc'] at hcode
    rw [Grid.get?_ofRows hg', ht, ht', Option.some.inj hcode]
  subst hsame
  refine read_eq_ok_iff_denotes.2 ⟨rows, hd, hg', startsInRows_eq_singleton_iff.2 fun q => ?_⟩
  rw [← isStart_iff_mem hg', h.start]

/-! ### What is never reported -/

theorem readCodes_ne_empty (y x : Nat) (start : Option Position) (words : List (List Char)) :
    readCodes y x start words ≠ .error .empty := by
  induction words generalizing x start with
  | nil => simp [readCodes]
  | cons word words ih =>
    cases hw : Tile.ofCode? word with
    | none => simp [readCodes, hw]
    | some tile =>
      rw [readCodes_cons hw]
      split
      · simp
      · rw [Ne, map_eq_error_iff]
        exact ih (x + 1) (meet start tile ⟨x, y⟩)

theorem readRows_ne_empty (width y : Nat) (start : Option Position)
    (rows : List (List (List Char))) : readRows width y start rows ≠ .error .empty := by
  induction rows generalizing y start with
  | nil => simp [readRows]
  | cons row rows ih =>
    rw [readRows]
    split
    · simp
    · intro h
      rcases bind_eq_error_iff.1 h with h | ⟨⟨tiles, s⟩, -, h⟩
      · exact readCodes_ne_empty _ _ _ _ h
      · rcases bind_eq_error_iff.1 h with h | ⟨_, -, h⟩
        · exact ih _ _ h
        · cases h

/-- **The rows of a map that has been gone through make a grid.** -/
theorem exists_ofRows_of_readRows {first : List (List Char)} {rest : List (List (List Char))}
    {rows : List (List Tile)} {start : Option Position} (hw : wordRows text = first :: rest)
    (hr : readRows first.length 0 none (first :: rest) = .ok (rows, start)) :
    ∃ g, Grid.ofRows rows = .ok g := by
  obtain ⟨hl, hm, -⟩ := readRows_eq_ok_iff.1 hr
  rw [← hw, ← codeLines_eq] at hl hm
  have hne : codeLines text ≠ [] := by
    rw [codeLines_eq, hw]
    exact List.cons_ne_nil _ _
  obtain ⟨g, hg, -⟩ := (denotes_iff.2 hm).exists_ofRows hne hl
  exact ⟨g, hg⟩

theorem read_eq_empty_iff : read text = .error .empty ↔ codeLines text = [] := by
  rw [codeLines_eq, read]
  cases hw : wordRows text with
  | nil => simp
  | cons first rest =>
    simp only [reduceCtorEq, iff_false]
    intro h
    rcases bind_eq_error_iff.1 h with h | ⟨⟨rows, start⟩, hr, h⟩
    · exact readRows_ne_empty _ _ _ _ h
    · obtain ⟨g, hg⟩ := exists_ofRows_of_readRows hw hr
      cases start with
      | none => cases h
      | some start => simp [hg] at h

theorem Depicts.passable (h : Depicts text g p) : g.Contains p ∧ g.passable p = true := by
  obtain ⟨tile, hp, ht⟩ := (h.start p).2 rfl
  refine ⟨Grid.contains_of_get? hp, ?_⟩
  simp [Grid.passable, hp, ht]

/-- **The texts that are read, and what they are read as.** -/
theorem read_iff_isMap (text : String) :
    ((∃ g p, read text = .ok (g, p)) ↔ IsMap text) ∧
      (∀ g p, read text = .ok (g, p) ↔ Depicts text g p) ∧
      (∀ g p, read text = .ok (g, p) → g.Contains p ∧ g.passable p = true) ∧
      (read text = .error .empty ↔ codeLines text = []) ∧
      ∀ first rest rows start, wordRows text = first :: rest →
        readRows first.length 0 none (first :: rest) = .ok (rows, start) →
          ∃ g, Grid.ofRows rows = .ok g :=
  ⟨⟨fun ⟨_, _, h⟩ => isMap_of_read h, IsMap.exists_read⟩,
    fun _ _ => ⟨depicts_of_read, Depicts.read_eq_ok⟩,
    fun _ _ h => (depicts_of_read h).passable, read_eq_empty_iff,
    fun _ _ _ _ => exists_ofRows_of_readRows⟩

/-- A map with a blank line in it and some small letters. -/
def clearing : String := "ST it WL\n \n  pa Go\tgI"

/-- What it shows. -/
def clearingGrid : Grid Tile where
  width := 3
  height := 2
  cells := #[⟨.start, false⟩, ⟨.path, true⟩, ⟨.wall, false⟩,
    ⟨.path, false⟩, ⟨.goal, false⟩, ⟨.goal, true⟩]

theorem read_iff_isMap_clearing :
    read clearing = .ok (clearingGrid, ⟨0, 0⟩) ∧ IsMap clearing ∧
      Depicts clearing clearingGrid ⟨0, 0⟩ ∧
      (clearingGrid.Contains ⟨0, 0⟩ ∧ clearingGrid.passable ⟨0, 0⟩ = true) ∧
      codeLines clearing ≠ [] ∧ ∃ g, Grid.ofRows clearingGrid.rows = .ok g := by
  obtain ⟨hmap, hshown, hstart, hempty, hrows⟩ := read_iff_isMap clearing
  have hread : read clearing = .ok (clearingGrid, ⟨0, 0⟩) := by decide
  have hgone : readRows 3 0 none (wordRows clearing) =
      .ok (clearingGrid.rows, some ⟨0, 0⟩) := by decide
  refine ⟨hread, hmap.1 ⟨_, _, hread⟩, (hshown _ _).1 hread, hstart _ _ hread, ?_, ?_⟩
  · rw [Ne, ← hempty, hread]
    nofun
  · exact hrows _ _ _ _ rfl hgone

end Map

end Mazewalk
