import Mathlib.Data.List.Enum
import Mazewalk.Proofs.Grid.Lookup

/-!
# Rows

A grid can be taken for the list of its rows.  `ofRows_eq_ok_iff` says which lists of rows make a
grid and which one, `rows_ofRows` that the grid has just these rows, and `ofRows_rows` that a well
formed grid is made of its own rows.  The cell at column `x` of row `y` is then simply that,
`rows[y][x]` (`get?_ofRows`), and nothing about its number is needed.

Rows that make no grid are reported by `ofRows_eq_error_iff`: that there is nothing in the first one
comes before all else, and of the rows that have another length than it the first is named.
-/

namespace Mazewalk.Grid

variable {α : Type} {g : Grid α} {rows : List (List α)}

/-! ### Rows of one length -/

theorem getElem?_flatten {width : Nat} (h : ∀ row ∈ rows, row.length = width) {x : Nat}
    (hx : x < width) (y : Nat) :
    rows.flatten[y * width + x]? = rows[y]?.bind fun row => row[x]? := by
  induction rows generalizing y with
  | nil => rfl
  | cons row rows ih =>
    obtain ⟨hrow, hrows⟩ := List.forall_mem_cons.1 h
    rw [List.flatten_cons]
    cases y with
    | zero =>
      rw [Nat.zero_mul, Nat.zero_add, List.getElem?_append_left (by omega)]
      rfl
    | succ y =>
      have hi : (y + 1) * width + x = width + (y * width + x) := by
        rw [Nat.succ_mul]
        omega
      rw [hi, List.getElem?_append_right (by omega), hrow, Nat.add_sub_cancel_left, ih hrows]
      rfl

theorem find?_length_eq_none_iff {width : Nat} :
    (rows.zipIdx.find? fun (row, _) => row.length != width) = none ↔
      ∀ row ∈ rows, row.length = width := by
  rw [List.find?_eq_none, List.forall_mem_zipIdx, List.forall_mem_iff_getElem]
  simp

/-- The row with this number is the first one that has not this many cells. -/
def FirstRagged (rows : List (List α)) (width i : Nat) (row : List α) : Prop :=
  rows[i]? = some row ∧ row.length ≠ width ∧
    ∀ j < i, ∀ r, rows[j]? = some r → r.length = width

theorem find?_length_eq_some_iff {width i : Nat} {row : List α} :
    (rows.zipIdx.find? fun (row, _) => row.length != width) = some (row, i) ↔
      FirstRagged rows width i row := by
  rw [List.find?_eq_some_iff_getElem]
  refine ⟨?_, ?_⟩
  · intro h
    obtain ⟨hne, k, hk, he, hmin⟩ := h
    rw [List.getElem_zipIdx, Nat.zero_add] at he
    obtain ⟨hrow, rfl⟩ := Prod.mk.inj he
    refine ⟨List.getElem?_eq_some_iff.2 ⟨by simpa using hk, hrow⟩, by simpa using hne, ?_⟩
    intro j hj r hr
    have hr' := hmin j hj
    obtain ⟨_, rfl⟩ := List.getElem?_eq_some_iff.1 hr
    simpa using hr'
  · intro h
    obtain ⟨hi, hne, hmin⟩ := h
    obtain ⟨hlt, rfl⟩ := List.getElem?_eq_some_iff.1 hi
    refine ⟨by simpa using hne, i, by simpa using hlt, by simp, ?_⟩
    intro j hj
    have hr := hmin j hj _ (List.getElem?_eq_getElem (by omega))
    simpa using hr

/-! ### Rows in -/

theorem ofRows_cons (first : List α) (rest : List (List α)) :
    ofRows (first :: rest) =
      if first.length = 0 then .error .empty
      else
        match (first :: rest).zipIdx.find? fun (row, _) => row.length != first.length with
        | some (row, number) => .error (.raggedRow number first.length row.length)
        | none => .ok ⟨first.length, (first :: rest).length, (first :: rest).flatten.toArray⟩ := rfl

/-- **What rows make a grid**: at least one, none empty, all of one length. -/
theorem ofRows_eq_ok_iff :
    ofRows rows = .ok g ↔ 1 ≤ g.width ∧ 1 ≤ g.height ∧ rows.length = g.height ∧
      (∀ row ∈ rows, row.length = g.width) ∧ g.cells.toList = rows.flatten := by
  cases rows with
  | nil =>
    constructor
    · intro h
      cases h
    · rintro ⟨-, hh, hl, -⟩
      rw [← hl] at hh
      cases hh
  | cons first rest =>
    rw [ofRows_cons]
    constructor
    · intro h
      split at h
      · cases h
      · rename_i hpos
        split at h
        · cases h
        · rename_i heven
          cases h
          exact ⟨Nat.pos_of_ne_zero hpos, Nat.succ_pos _, rfl,
            find?_length_eq_none_iff.1 heven, rfl⟩
    · rintro ⟨hw, -, hl, heven, hcells⟩
      have hwidth : first.length = g.width := heven first List.mem_cons_self
      rw [hwidth, if_neg (Nat.ne_of_gt hw), find?_length_eq_none_iff.2 heven, hl, ← hcells]

theorem exists_ofRows {width : Nat} (hne : rows ≠ []) (hw : 1 ≤ width)
    (h : ∀ row ∈ rows, row.length = width) :
    ∃ g, ofRows rows = .ok g ∧ g.width = width ∧ g.height = rows.length :=
  ⟨⟨width, rows.length, rows.flatten.toArray⟩,
    ofRows_eq_ok_iff.2 ⟨hw, List.length_pos_iff.2 hne, rfl, h, rfl⟩, rfl, rfl⟩

theorem exists_ofRows_iff :
    (∃ g, ofRows rows = .ok g) ↔
      ∃ first, rows.head? = some first ∧ first ≠ [] ∧ ∀ row ∈ rows, row.length = first.length := by
  refine ⟨?_, ?_⟩
  · intro h
    obtain ⟨g, h⟩ := h
    obtain ⟨hw, hh, hl, heven, -⟩ := ofRows_eq_ok_iff.1 h
    cases rows with
    | nil =>
      rw [← hl] at hh
      cases hh
    | cons first rest =>
      have hwidth := heven first List.mem_cons_self
      refine ⟨first, rfl, ?_, by rwa [hwidth]⟩
      intro hempty
      rw [← hwidth, hempty] at hw
      cases hw
  · intro h
    obtain ⟨first, hfirst, hne, heven⟩ := h
    have hrows : rows ≠ [] := by
      intro h
      rw [h] at hfirst
      cases hfirst
    obtain ⟨g, hg, -⟩ := exists_ofRows hrows (List.length_pos_iff.2 hne) heven
    exact ⟨g, hg⟩

/-- The cell at column `x` of row `y`. -/
theorem get?_ofRows (h : ofRows rows = .ok g) (p : Position) :
    g.get? p = rows[p.y]?.bind fun row => row[p.x]? := by
  obtain ⟨hw, hh, hl, heven, hcells⟩ := ofRows_eq_ok_iff.1 h
  by_cases hp : g.Contains p
  · rw [get?_of_contains hp, index_eq_number (wellFormed_ofRows h) hp, ← Array.getElem?_toList,
      hcells, number, getElem?_flatten heven hp.1]
  · rw [get?, if_neg hp]
    cases hy : rows[p.y]? with
    | none => rfl
    | some row =>
      obtain ⟨hlt, rfl⟩ := List.getElem?_eq_some_iff.1 hy
      have hrow := heven _ (List.getElem_mem hlt)
      have hx : g.width ≤ p.x := by
        refine Nat.le_of_not_lt fun hx => hp ⟨hx, ?_⟩
        rwa [← hl]
      rw [Option.bind_some, List.getElem?_eq_none (by omega)]

/-! ### Rows that make no grid -/

theorem ofRows_cons_eq_error_iff {first : List α} {rest : List (List α)} (hne : first ≠ [])
    {e : Error} :
    ofRows (first :: rest) = .error e ↔ ∃ i row,
      FirstRagged (first :: rest) first.length i row ∧
        e = .raggedRow i first.length row.length := by
  have hlen : first.length ≠ 0 := fun h => hne (List.length_eq_zero_iff.1 h)
  rw [ofRows_cons, if_neg hlen]
  cases hf : (first :: rest).zipIdx.find? fun (row, _) => row.length != first.length with
  | none =>
    have heven := find?_length_eq_none_iff.1 hf
    refine ⟨?_, ?_⟩
    · intro h
      cases h
    · intro h
      obtain ⟨i, row, ⟨hi, hragged, -⟩, -⟩ := h
      exact absurd (heven row (List.mem_of_getElem? hi)) hragged
  | some found =>
    obtain ⟨row, i⟩ := found
    have hrow := find?_length_eq_some_iff.1 hf
    refine ⟨?_, ?_⟩
    · intro h
      exact ⟨i, row, hrow, (Except.error.inj h).symm⟩
    · intro h
      obtain ⟨i', row', hrow', he⟩ := h
      -- there is but one first row of another length
      rw [find?_length_eq_some_iff.2 hrow'] at hf
      cases hf
      rw [he]

/-- **What is wrong with rows that make no grid**: there is none, or the first is empty; or else the
first one that has another length than it is at fault. -/
theorem ofRows_eq_error_iff {e : Error} :
    ofRows rows = .error e ↔
      (rows.head? = none ∨ rows.head? = some []) ∧ e = .empty ∨
        ∃ first, rows.head? = some first ∧ first ≠ [] ∧ ∃ i row,
          FirstRagged rows first.length i row ∧ e = .raggedRow i first.length row.length := by
  cases rows with
  | nil =>
    show Except.error Error.empty = Except.error e ↔ _
    simp [eq_comm]
  | cons first rest =>
    by_cases hempty : first = []
    · subst hempty
      show Except.error Error.empty = Except.error e ↔ _
      simp [eq_comm]
    · rw [ofRows_cons_eq_error_iff hempty]
      simp [hempty]

/-! ### Rows out -/

theorem flatten_take_drop (l : List α) (width n : Nat) :
    ((List.range n).map fun y => (l.drop (y * width)).take width).flatten =
      l.take (n * width) := by
  induction n with
  | zero => simp
  | succ n ih =>
    rw [List.range_succ, List.map_append, List.flatten_append, ih, Nat.succ_mul, List.take_add]
    simp

theorem rows_eq_map (g : Grid α) :
    g.rows = (List.range ((g.cells.size + g.width - 1) / g.width)).map fun y =>
      (g.cells.toList.drop (y * g.width)).take g.width := by
  unfold rows
  refine List.map_congr_left fun y _ => ?_
  rw [Array.toList_extract, List.extract_eq_take_drop, Nat.succ_mul, Nat.add_sub_cancel_left]

theorem length_rows (hg : g.WellFormed) : g.rows.length = g.height := by
  obtain ⟨hw, hh, hs⟩ := hg
  have hd : (g.width * g.height + (g.width - 1)) / g.width = g.height := by
    rw [Nat.mul_add_div hw, Nat.div_eq_of_lt (by omega), Nat.add_zero]
  rw [rows_eq_map, List.length_map, List.length_range, hs, Nat.add_sub_assoc hw, hd]

theorem length_of_mem_rows (hg : g.WellFormed) : ∀ row ∈ g.rows, row.length = g.width := by
  intro row hrow
  have hl := length_rows hg
  rw [rows_eq_map, List.length_map, List.length_range] at hl
  rw [rows_eq_map, hl] at hrow
  obtain ⟨y, hy, rfl⟩ := List.mem_map.1 hrow
  have hle : (y + 1) * g.width ≤ g.height * g.width :=
    Nat.mul_le_mul_right _ (List.mem_range.1 hy)
  rw [Nat.succ_mul, Nat.mul_comm g.height, ← hg.2.2] at hle
  rw [List.length_take, List.length_drop, Array.length_toList]
  omega

theorem flatten_rows (hg : g.WellFormed) : g.rows.flatten = g.cells.toList := by
  have hl := length_rows hg
  rw [rows_eq_map, List.length_map, List.length_range] at hl
  rw [rows_eq_map, hl, flatten_take_drop]
  refine List.take_of_length_le (Nat.le_of_eq ?_)
  rw [Array.length_toList, hg.2.2, Nat.mul_comm]

/-- **A well formed grid is made of its rows.** -/
theorem ofRows_rows (hg : g.WellFormed) : ofRows g.rows = .ok g :=
  ofRows_eq_ok_iff.2
    ⟨hg.1, hg.2.1, length_rows hg, length_of_mem_rows hg, (flatten_rows hg).symm⟩

/-- A grid that was made of rows has these rows. -/
theorem rows_ofRows (h : ofRows rows = .ok g) : g.rows = rows := by
  have hg := wellFormed_ofRows h
  obtain ⟨-, -, hl, heven, hcells⟩ := ofRows_eq_ok_iff.1 h
  rw [List.eq_iff_flatten_eq, flatten_rows hg, hcells,
    List.map_congr_left (length_of_mem_rows hg), List.map_congr_left heven, List.map_const',
    List.map_const', length_rows hg, hl]
  exact ⟨rfl, rfl⟩

theorem exists_get?_of_mem_rows (hg : g.WellFormed) {row : List α} (hrow : row ∈ g.rows) {cell : α}
    (hcell : cell ∈ row) : ∃ p, g.get? p = some cell := by
  obtain ⟨y, hy⟩ := List.mem_iff_getElem?.1 hrow
  obtain ⟨x, hx⟩ := List.mem_iff_getElem?.1 hcell
  refine ⟨⟨x, y⟩, ?_⟩
  rw [get?_ofRows (ofRows_rows hg), hy, Option.bind_some, hx]

end Mazewalk.Grid
