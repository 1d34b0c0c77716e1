import Mazewalk.Position

/-!
# Grids

A grid keeps its cells in one array, row after row.  The cell at column `x` of row `y` is
number `y * width + x`; in the other direction cell number `i` stands at column `i % width` of
row `i / width`.  A grid is *well formed* when it has a row, a column and exactly one cell for
each position.  The builders `ofRows` and `ofFn` give well formed grids only, and writing keeps
the shape.

A grid that was read from storage may have any sides and any cells.  So every access is careful,
and the number of a cell need not be a machine word.  Without checks it goes round after the
largest word (`index`), so that two positions of a huge rectangle may share a cell; with checks the
access breaks off (`check`).  A grid without a column cannot be cut into rows (`checkRows`), and
its cells have no positions (`checkEntries`), checks or not.
-/

namespace Mazewalk

structure Grid (α : Type) where
  width : Nat
  height : Nat
  cells : Array α
  deriving DecidableEq, Repr

namespace Grid

/-- Why a grid could not be built, read or written. -/
inductive Error where
  /-- There is no row, or the first row has no cell. -/
  | empty
  /-- The row with this number has another length than the first one. -/
  | raggedRow (row expected found : Nat)
  /-- A write was asked for outside the rectangle. -/
  | outOfBounds (place : Position) (width height : Nat)
  /-- A cell was addressed outside the rectangle where the caller must not. -/
  | badIndex (place : Position) (width height : Nat)
  /-- The rectangle has the position, but the grid has too few cells. -/
  | missingCell (size index : Nat)
  deriving DecidableEq, Repr

def Error.message : Error → String
  | empty => "Grid must have at least one row and one column"
  | raggedRow row expected found =>
      s!"Inconsistent width at row {row}: expected {expected}, found {found}"
  | outOfBounds p width height =>
      s!"Coordinates ({p.x}, {p.y}) are out of bounds for grid size ({width}, {height})"
  | badIndex p width height =>
      s!"Grid index ({p.x}, {p.y}) out of bounds for grid size ({width}, {height})"
  | missingCell size index =>
      s!"index out of bounds: the len is {size} but the index is {index}"

variable {α : Type}

/-! ### Shape -/

/-- The position lies inside the rectangle. -/
def Contains (g : Grid α) (p : Position) : Prop :=
  p.x < g.width ∧ p.y < g.height

instance (g : Grid α) (p : Position) : Decidable (g.Contains p) :=
  inferInstanceAs (Decidable (_ ∧ _))

/-- There is a row and a column, and each position has its cell. -/
def WellFormed (g : Grid α) : Prop :=
  1 ≤ g.width ∧ 1 ≤ g.height ∧ g.cells.size = g.width * g.height

instance (g : Grid α) : Decidable g.WellFormed :=
  inferInstanceAs (Decidable (_ ∧ _))

def number (g : Grid α) (p : Position) : Nat :=
  p.y * g.width + p.x

/-- The number of the cell at a position as it is computed without checks.  No memory holds more
cells than there are words; if one did, they could all be addressed. -/
def index (g : Grid α) (p : Position) : Nat :=
  g.number p % max wordSize g.cells.size

/-- The number of the cell at a position as it is computed with checks. -/
def checkedIndex (g : Grid α) (p : Position) : Except Panic Nat := do
  Word.sum (← Word.product p.y g.width) p.x

/-- Breaks off where looking a position up does so with checks. -/
def check (g : Grid α) (p : Position) : Except Panic Unit :=
  if g.Contains p then (g.checkedIndex p).map fun _ => () else .ok ()

/-- No two positions of the rectangle share a cell. -/
def Separates (g : Grid α) : Prop :=
  ∀ p q, g.Contains p → g.Contains q → g.index p = g.index q → p = q

def positionAt (g : Grid α) (i : Nat) : Position :=
  ⟨i % g.width, i / g.width⟩

/-- The position one cell away, if it lies inside the rectangle. -/
def neighbor? (g : Grid α) (p : Position) (heading : Heading) : Option Position :=
  (p.next? heading).filter fun q => decide (g.Contains q)

/-- Grids of one width number their cells in the same way, but for one with more cells than there
are words. -/
theorem index_congr {g g' : Grid α} (hw : g'.width = g.width)
    (hs : max wordSize g'.cells.size = max wordSize g.cells.size) (p : Position) :
    g'.index p = g.index p := by
  rw [index, index, number, number, hw, hs]

/-- Two positions of the rectangle have different numbers. -/
theorem eq_of_number_eq {g : Grid α} {p q : Position} (hp : g.Contains p) (hq : g.Contains q)
    (h : g.number p = g.number q) : p = q := by
  unfold number at h
  have column : p.x = q.x := by
    have rest := congrArg (· % g.width) h
    simpa [Nat.mul_comm, Nat.mul_add_mod, Nat.mod_eq_of_lt hp.1, Nat.mod_eq_of_lt hq.1] using rest
  have row : p.y = q.y := by
    rw [column] at h
    exact Nat.eq_of_mul_eq_mul_right (Nat.zero_lt_of_lt hp.1) (Nat.add_right_cancel h)
  cases p
  cases q
  simp_all

/-! ### Building -/

/-- Builds a grid from its rows, which must be non-empty and of one length. -/
def ofRows (rows : List (List α)) : Except Error (Grid α) :=
  let width := (rows.head?.map List.length).getD 0
  if width = 0 then
    .error .empty
  else
    match rows.zipIdx.find? fun (row, _) => row.length != width with
    | some (row, number) => .error (.raggedRow number width row.length)
    | none => .ok ⟨width, rows.length, rows.flatten.toArray⟩

/-- Builds a grid whose cell at column `x` of row `y` is `f x y`. -/
def ofFn (width height : Nat) (f : Nat → Nat → α) : Except Error (Grid α) :=
  if width = 0 ∨ height = 0 then
    .error .empty
  else
    .ok ⟨width, height, Array.ofFn fun i : Fin (width * height) => f (i % width) (i / width)⟩

theorem wellFormed_ofFn {width height : Nat} {f : Nat → Nat → α} {g : Grid α}
    (h : ofFn width height f = .ok g) : g.WellFormed := by
  unfold ofFn at h
  split at h
  · cases h
  · cases h
    refine ⟨?_, ?_, ?_⟩ <;> simp <;> omega

theorem wellFormed_ofRows {rows : List (List α)} {g : Grid α} (h : ofRows rows = .ok g) :
    g.WellFormed := by
  simp only [ofRows] at h
  split at h
  · cases h
  · rename_i positive
    split at h
    · cases h
    · rename_i even
      cases h
      cases rows with
      | nil => simp at positive
      | cons first rest =>
        refine ⟨Nat.pos_of_ne_zero positive, by simp, ?_⟩
        have even : ∀ row ∈ first :: rest, row.length = first.length := by
          intro row mem
          obtain ⟨number, found⟩ := List.mem_iff_getElem?.1 mem
          have same := List.find?_eq_none.1 even (row, number)
            (List.mk_mem_zipIdx_iff_getElem?.2 found)
          simpa using same
        rw [List.size_toArray, List.length_flatten, List.map_congr_left even, List.map_const',
          List.sum_replicate_nat, Nat.mul_comm]
        rfl

/-! ### Reading -/

/-- The cell at a position, if the rectangle has the position and the grid has the cell. -/
def get? (g : Grid α) (p : Position) : Option α :=
  if g.Contains p then g.cells[g.index p]? else none

/-- The cell at a position that must be inside the rectangle. -/
def fetch (g : Grid α) (p : Position) : Except Error α :=
  if g.Contains p then
    match g.cells[g.index p]? with
    | some cell => .ok cell
    | none => .error (.missingCell g.cells.size (g.index p))
  else
    .error (.badIndex p g.width g.height)

/-- Breaks off where the cells have no positions. -/
def checkEntries (g : Grid α) : Except Panic Unit :=
  if g.width = 0 ∧ g.cells.size ≠ 0 then .error .remainder else .ok ()

/-- All cells with their positions, row after row. -/
def entries (g : Grid α) : List (Position × α) :=
  g.cells.toList.zipIdx.map fun (cell, i) => (g.positionAt i, cell)

/-- The position of the first cell, row after row, that satisfies a test. -/
def find? (g : Grid α) (test : α → Bool) : Option Position :=
  (g.entries.find? fun (_, cell) => test cell).map Prod.fst

/-- Breaks off where the cells cannot be cut into rows. -/
def checkRows (g : Grid α) : Except Panic Unit :=
  if g.width = 0 then .error .pieces else .ok ()

/-- The rows, top to bottom.  The last one is short when the cells do not fill it. -/
def rows (g : Grid α) : List (List α) :=
  (List.range ((g.cells.size + g.width - 1) / g.width)).map fun y =>
    (g.cells.extract (y * g.width) ((y + 1) * g.width)).toList

/-! ### Writing -/

/-- Writes a cell if the grid has it, and is the identity otherwise. -/
def put (g : Grid α) (p : Position) (cell : α) : Grid α :=
  if g.Contains p then { g with cells := g.cells.setIfInBounds (g.index p) cell } else g

/-- Writes a cell inside the rectangle, and says when the position lies outside. -/
def set (g : Grid α) (p : Position) (cell : α) : Except Error (Grid α) :=
  if g.Contains p then
    if g.index p < g.cells.size then .ok (g.put p cell)
    else .error (.missingCell g.cells.size (g.index p))
  else
    .error (.outOfBounds p g.width g.height)

/-- Writes a cell at a position that must be inside the rectangle. -/
def store (g : Grid α) (p : Position) (cell : α) : Except Error (Grid α) := do
  let _ ← g.fetch p
  return g.put p cell

@[simp] theorem width_put (g : Grid α) (p : Position) (cell : α) :
    (g.put p cell).width = g.width := by
  unfold put
  split <;> rfl

@[simp] theorem height_put (g : Grid α) (p : Position) (cell : α) :
    (g.put p cell).height = g.height := by
  unfold put
  split <;> rfl

@[simp] theorem size_put (g : Grid α) (p : Position) (cell : α) :
    (g.put p cell).cells.size = g.cells.size := by
  unfold put
  split <;> simp

@[simp] theorem contains_put {g : Grid α} {p q : Position} {cell : α} :
    (g.put p cell).Contains q ↔ g.Contains q := by
  simp [Contains]

@[simp] theorem index_put (g : Grid α) (p q : Position) (cell : α) :
    (g.put p cell).index q = g.index q := by
  simp [index, number]

/-- After a write all positions that share the cell show the new one, if there is one. -/
theorem get?_put_of_contains {g : Grid α} {p : Position} (hp : g.Contains p) (q : Position)
    (cell : α) :
    (g.put p cell).get? q =
      if g.index p = g.index q then (g.get? q).map fun _ => cell else g.get? q := by
  have cells : (g.put p cell).cells = g.cells.setIfInBounds (g.index p) cell := by
    simp [put, hp]
  by_cases inside : g.Contains q
  · simp only [get?, contains_put, inside, if_true, index_put, cells]
    split
    · rename_i same
      rw [← same, Array.getElem?_setIfInBounds, if_pos rfl]
      by_cases stored : g.index p < g.cells.size <;> simp [stored]
    · rename_i different
      exact Array.getElem?_setIfInBounds_ne different
  · simp [get?, contains_put, inside]

/-- If no two positions share a cell, only one shows the new one. -/
theorem get?_put {g : Grid α} (hs : g.Separates) (p q : Position) (cell : α) :
    (g.put p cell).get? q = if p = q then (g.get? q).map fun _ => cell else g.get? q := by
  by_cases hp : g.Contains p
  · rw [get?_put_of_contains hp]
    by_cases same : p = q
    · rw [same, if_pos rfl, if_pos rfl]
    · rw [if_neg same]
      split
      · rename_i shared
        have outside : ¬ g.Contains q := fun hq => same (hs p q hp hq shared)
        simp [get?, outside]
      · rfl
  · rw [put, if_neg hp]
    split
    · rename_i same
      rw [same] at hp
      simp [get?, hp]
    · rfl

end Grid

end Mazewalk
