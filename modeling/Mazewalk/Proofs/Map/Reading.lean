import Mathlib.Data.List.Nodup
import Mazewalk.Map
import Mazewalk.Proofs.Grid.Rows
import Mazewalk.Proofs.Text.Reading

/-!
# Reading a map

The reader goes through the codes of a map with the start tile that it has met so far, and a second
one is an error.  So it succeeds when all codes are known and the start tiles, the one met so far
among them, make up a list with at most one element: `readCodes_eq_ok_iff` and
`readRows_eq_ok_iff` say this for a part of a map, with the start tile before that part and the
one after it, and `read_eq_ok_iff` for a whole map.  The lists of start tiles have each tile once
and those tiles alone (`nodup_startsInRows`, `mem_startsInRows`).
-/

namespace Mazewalk

namespace Map

/-! ### Start tiles -/

/-- The start tiles of row `y`, the first of whose tiles here stands in column `x`. -/
def startsInRow (y : Nat) : Nat → List Tile → List Position
  | _, [] => []
  | x, tile :: rest =>
      if tile.terrain = .start then ⟨x, y⟩ :: startsInRow y (x + 1) rest
      else startsInRow y (x + 1) rest

/-- The start tiles of some rows, the first of which is row `y`. -/
def startsInRows : Nat → List (List Tile) → List Position
  | _, [] => []
  | y, row :: rest => startsInRow y 0 row ++ startsInRows (y + 1) rest

theorem mem_startsInRow {y x : Nat} {tiles : List Tile} {p : Position} :
    p ∈ startsInRow y x tiles ↔
      p.y = y ∧ x ≤ p.x ∧ ∃ tile, tiles[p.x - x]? = some tile ∧ tile.terrain = .start := by
  induction tiles generalizing x with
  | nil => simp [startsInRow]
  | cons tile tiles ih =>
    have hc : p ∈ startsInRow y x (tile :: tiles) ↔
        (p = ⟨x, y⟩ ∧ tile.terrain = .start) ∨ p ∈ startsInRow y (x + 1) tiles := by
      rw [startsInRow]
      split <;> simp_all
    rw [hc, ih]
    rcases Nat.lt_trichotomy p.x x with hlt | rfl | hlt
    · have hp : p ≠ ⟨x, y⟩ := fun h => Nat.ne_of_lt hlt (congrArg Position.x h)
      have h1 : ¬ x + 1 ≤ p.x := by omega
      have h2 : ¬ x ≤ p.x := by omega
      simp [hp, h1, h2]
    · have hp : p = ⟨p.x, y⟩ ↔ p.y = y := by
        cases p
        simp
      have h1 : ¬ p.x + 1 ≤ p.x := by omega
      simp [hp, h1]
    · have hp : p ≠ ⟨x, y⟩ := fun h => Nat.ne_of_gt hlt (congrArg Position.x h)
      have hi : p.x - x = p.x - (x + 1) + 1 := by omega
      have h1 : x + 1 ≤ p.x := hlt
      have h2 : x ≤ p.x := Nat.le_of_lt hlt
      rw [hi, List.getElem?_cons_succ]
      simp [hp, h1, h2]

theorem mem_startsInRows {y : Nat} {rows : List (List Tile)} {p : Position} :
    p ∈ startsInRows y rows ↔ y ≤ p.y ∧ ∃ tile,
      (rows[p.y - y]?.bind fun row => row[p.x]?) = some tile ∧ tile.terrain = .start := by
  induction rows generalizing y with
  | nil => simp [startsInRows]
  | cons row rows ih =>
    rw [startsInRows, List.mem_append, mem_startsInRow, ih]
    rcases Nat.lt_trichotomy p.y y with hlt | rfl | hlt
    · have h0 : p.y ≠ y := Nat.ne_of_lt hlt
      have h1 : ¬ y + 1 ≤ p.y := by omega
      have h2 : ¬ y ≤ p.y := by omega
      simp [h0, h1, h2]
    · have h1 : ¬ p.y + 1 ≤ p.y := by omega
      simp [h1]
    · have h0 : p.y ≠ y := Nat.ne_of_gt hlt
      have hi : p.y - y = p.y - (y + 1) + 1 := by omega
      have h1 : y + 1 ≤ p.y := hlt
      have h2 : y ≤ p.y := Nat.le_of_lt hlt
      rw [hi, List.getElem?_cons_succ]
      simp [h0, h1, h2]

theorem nodup_startsInRow (y x : Nat) (tiles : List Tile) : (startsInRow y x tiles).Nodup := by
  induction tiles generalizing x with
  | nil => exact List.nodup_nil
  | cons tile tiles ih =>
    rw [startsInRow]
    split
    · refine List.nodup_cons.2 ⟨fun h => ?_, ih (x + 1)⟩
      have hx := (mem_startsInRow.1 h).2.1
      exact absurd hx (Nat.not_succ_le_self x)
    · exact ih (x + 1)

theorem nodup_startsInRows (y : Nat) (rows : List (List Tile)) : (startsInRows y rows).Nodup := by
  induction rows generalizing y with
  | nil => exact List.nodup_nil
  | cons row rows ih =>
    refine List.nodup_append.2 ⟨nodup_startsInRow y 0 row, ih (y + 1), ?_⟩
    rintro p hp q hq rfl
    have hy := (mem_startsInRow.1 hp).1
    have hy' := (mem_startsInRows.1 hq).1
    omega

theorem startsInRows_eq_singleton_iff {y : Nat} {rows : List (List Tile)} {p : Position} :
    startsInRows y rows = [p] ↔ ∀ q, q ∈ startsInRows y rows ↔ q = p := by
  constructor
  · intro h q
    rw [h, List.mem_singleton]
  · intro h
    refine List.perm_singleton.1 ?_
    rw [List.perm_ext_iff_of_nodup (nodup_startsInRows y rows) (List.nodup_singleton p)]
    intro q
    rw [h, List.mem_singleton]

/-! ### Codes -/

theorem toList_inj {start start' : Option Position} :
    start.toList = start'.toList ↔ start = start' := by
  cases start <;> cases start' <;> simp

/-- The start tile met so far after one more tile. -/
def meet (start : Option Position) (tile : Tile) (p : Position) : Option Position :=
  if tile.terrain = .start then some p else start

theorem toList_meet_append {start : Option Position} {tile : Tile}
    (h : ¬ (tile.terrain = .start ∧ start.isSome = true)) (x y : Nat) (tiles : List Tile) :
    (meet start tile ⟨x, y⟩).toList ++ startsInRow y (x + 1) tiles =
      start.toList ++ startsInRow y x (tile :: tiles) := by
  rw [meet, startsInRow]
  by_cases hs : tile.terrain = .start
  · cases start with
    | none => simp [hs]
    | some q => exact absurd ⟨hs, rfl⟩ h
  · simp [hs]

theorem readCodes_cons {y x : Nat} {start : Option Position} {word : List Char} {tile : Tile}
    (hw : Tile.ofCode? word = some tile) (words : List (List Char)) :
    readCodes y x start (word :: words) =
      if tile.terrain = .start ∧ start.isSome = true then .error .multipleStarts
      else (readCodes y (x + 1) (meet start tile ⟨x, y⟩) words).map
        fun (tiles, start) => (tile :: tiles, start) := by
  rw [readCodes, hw, meet]
  by_cases hs : tile.terrain = .start
  · cases start with
    | none => simp [hs]; rfl
    | some q => simp [hs]
  · simp [hs]
    rfl

theorem readCodes_eq_ok_iff {y x : Nat} {start start' : Option Position}
    {words : List (List Char)} {tiles : List Tile} :
    readCodes y x start words = .ok (tiles, start') ↔
      words.map Tile.ofCode? = tiles.map some ∧
        start.toList ++ startsInRow y x tiles = start'.toList := by
  induction words generalizing x start tiles with
  | nil =>
    rw [readCodes]
    constructor
    · intro h
      cases h
      exact ⟨rfl, List.append_nil _⟩
    · rintro ⟨hw, hs⟩
      obtain rfl : tiles = [] := List.map_eq_nil_iff.1 hw.symm
      rw [startsInRow, List.append_nil, toList_inj] at hs
      rw [hs]
  | cons word words ih =>
    cases hw : Tile.ofCode? word with
    | none =>
      rw [readCodes, hw]
      constructor
      · intro h
        cases h
      · rintro ⟨h, -⟩
        rw [List.map_cons, hw] at h
        cases tiles <;> cases h
    | some tile =>
      rw [readCodes_cons hw, List.map_cons, hw]
      by_cases hs : tile.terrain = .start ∧ start.isSome = true
      · rw [if_pos hs]
        obtain ⟨q, rfl⟩ := Option.isSome_iff_exists.1 hs.2
        constructor
        · intro h
          cases h
        · rintro ⟨hm, h⟩
          -- two start tiles are too many
          cases tiles with
          | nil => cases hm
          | cons t tiles =>
            obtain ⟨ht, -⟩ := List.cons.inj hm
            rw [startsInRow, if_pos (Option.some.inj ht ▸ hs.1)] at h
            cases start' <;> simp at h
      · rw [if_neg hs, map_eq_ok_iff]
        constructor
        · rintro ⟨⟨rest, s⟩, hr, he⟩
          cases he
          obtain ⟨hm, h⟩ := ih.1 hr
          rw [toList_meet_append hs] at h
          exact ⟨by rw [List.map_cons, hm], h⟩
        · rintro ⟨hm, h⟩
          cases tiles with
          | nil => cases hm
          | cons t rest =>
            obtain ⟨ht, hrest⟩ := List.cons.inj hm
            obtain rfl := Option.some.inj ht
            rw [← toList_meet_append hs] at h
            exact ⟨(rest, start'), ih.2 ⟨hrest, h⟩, rfl⟩

/-! ### Rows -/

theorem exists_toList_of_append {ps qs : List Position} {start : Option Position}
    (h : ps ++ qs = start.toList) : ∃ s : Option Position, ps = s.toList := by
  match ps with
  | [] => exact ⟨none, rfl⟩
  | [p] => exact ⟨some p, rfl⟩
  | p :: q :: ps => cases start <;> simp at h

theorem readRows_eq_ok_iff {width y : Nat} {start start' : Option Position}
    {rows : List (List (List Char))} {tiles : List (List Tile)} :
    readRows width y start rows = .ok (tiles, start') ↔
      (∀ row ∈ rows, row.length = width) ∧
        rows.map (List.map Tile.ofCode?) = tiles.map (List.map some) ∧
          start.toList ++ startsInRows y tiles = start'.toList := by
  induction rows generalizing y start tiles with
  | nil =>
    rw [readRows]
    constructor
    · intro h
      cases h
      exact ⟨by simp, rfl, List.append_nil _⟩
    · rintro ⟨-, hw, hs⟩
      obtain rfl : tiles = [] := List.map_eq_nil_iff.1 hw.symm
      rw [startsInRows, List.append_nil, toList_inj] at hs
      rw [hs]
  | cons row rows ih =>
    rw [readRows, List.forall_mem_cons]
    by_cases hl : row.length = width
    · rw [if_neg (by simpa using hl)]
      simp only [bind_eq_ok_iff]
      constructor
      · rintro ⟨⟨ts, s⟩, hc, ⟨rest, s'⟩, hr, he⟩
        cases he
        obtain ⟨hm, h⟩ := readCodes_eq_ok_iff.1 hc
        obtain ⟨hls, hms, hs⟩ := ih.1 hr
        refine ⟨⟨hl, hls⟩, by rw [List.map_cons, List.map_cons, hm, hms], ?_⟩
        rw [startsInRows, ← List.append_assoc, h, hs]
      · rintro ⟨⟨-, hls⟩, hm, hs⟩
        cases tiles with
        | nil => cases hm
        | cons ts rest =>
          obtain ⟨hm, hms⟩ := List.cons.inj hm
          rw [startsInRows, ← List.append_assoc] at hs
          obtain ⟨s, hc⟩ := exists_toList_of_append hs
          rw [hc] at hs
          exact ⟨(ts, s), readCodes_eq_ok_iff.2 ⟨hm, hc⟩, (rest, start'), ih.2 ⟨hls, hms, hs⟩, rfl⟩
    · rw [if_pos hl]
      constructor
      · intro h
        cases h
      · rintro ⟨⟨h, -⟩, -⟩
        exact absurd h hl

theorem exists_row_of_mem {words : List (List (List Char))} {rows : List (List Tile)}
    (hm : words.map (List.map Tile.ofCode?) = rows.map (List.map some)) {row : List (List Char)}
    (h : row ∈ words) : ∃ tiles ∈ rows, tiles.map some = row.map Tile.ofCode? := by
  have hr := List.mem_map_of_mem (f := List.map Tile.ofCode?) h
  rw [hm] at hr
  exact List.mem_map.1 hr

/-- **What is read from a text.** -/
theorem read_eq_ok_iff {text : String} {g : Grid Tile} {p : Position} :
    read text = .ok (g, p) ↔ ∃ rows,
      (wordRows text).map (List.map Tile.ofCode?) = rows.map (List.map some) ∧
        Grid.ofRows rows = .ok g ∧ startsInRows 0 rows = [p] := by
  rw [read]
  cases hw : wordRows text with
  | nil =>
    constructor
    · intro h
      cases h
    · rintro ⟨rows, hm, hg, -⟩
      obtain rfl : rows = [] := List.map_eq_nil_iff.1 hm.symm
      cases hg
  | cons first rest =>
    simp only [bind_eq_ok_iff]
    constructor
    · rintro ⟨⟨rows, start⟩, hr, h⟩
      obtain ⟨-, hm, hs⟩ := readRows_eq_ok_iff.1 hr
      cases start with
      | none => cases h
      | some start =>
        dsimp only at h
        split at h
        · rename_i grid hg
          cases h
          exact ⟨rows, hm, hg, hs⟩
        · cases h
    · rintro ⟨rows, hm, hg, hs⟩
      have hl : ∀ row ∈ first :: rest, row.length = first.length := by
        intro row hrow
        obtain ⟨-, -, -, heven, -⟩ := Grid.ofRows_eq_ok_iff.1 hg
        have hlen : ∀ r ∈ first :: rest, r.length = g.width := by
          intro r hr
          obtain ⟨tiles, ht, he⟩ := exists_row_of_mem hm hr
          rw [← heven tiles ht]
          simpa using congrArg List.length he.symm
        rw [hlen row hrow, hlen first List.mem_cons_self]
      refine ⟨(rows, some p), readRows_eq_ok_iff.2 ⟨hl, hm, hs⟩, ?_⟩
      dsimp only
      rw [hg]

end Map

end Mazewalk
