import Mazewalk.Condition
import Mazewalk.Proofs.Grid.Rows
import Mazewalk.Proofs.World.Paths

/-!
# Worlds turned clockwise

Turned clockwise by a quarter, a grid shows its columns as rows, each read from the bottom up, and
so it is as wide as it was high.  `Position.turned` says where a cell has gone, and the walker of a
turned world goes with its cell and turns right.

Whatever can be asked of a grid has the same answer when the question is turned: the cell at a
position (`get?_turned`), the position one cell away (`neighbor?_turned`) and the grid after a
write (`turned_put`).  So an action does the same in the turned world (`act_turned`) and a condition
holds there as before (`holds_turned`).  The edges trade places in this, those at row and column
zero and those that only the grid knows of.  That works for positions inside the grid alone, and
a walker inside the grid stays inside (`InBounds.act`).
-/

namespace Mazewalk

/-- Where the position goes when a grid of this height is turned clockwise. -/
def Position.turned (height : Nat) (p : Position) : Position :=
  ⟨height - 1 - p.y, p.x⟩

theorem Position.next?_turned {height : Nat} {p q : Position} (hp : p.y < height)
    (hq : q.y < height) (h : Heading) :
    (p.turned height).next? h.turnRight = some (q.turned height) ↔ p.next? h = some q := by
  rw [next?_eq_some_iff, next?_eq_some_iff]
  cases h <;> simp only [turned, Heading.turnRight] <;> omega

/-! ### Grids -/

namespace Grid

section

variable {α : Type} {g : Grid α}

/-- The cells of a column, from the top down. -/
def column (g : Grid α) (x : Nat) : List α :=
  g.rows.filterMap fun row => row[x]?

/-- The grid turned clockwise by a quarter. -/
def turned (g : Grid α) : Grid α where
  width := g.height
  height := g.width
  cells := ((List.range g.width).map fun x => (g.column x).reverse).flatten.toArray

theorem getElem?_filterMap_getElem? {rows : List (List α)} {x : Nat}
    (h : ∀ row ∈ rows, x < row.length) (y : Nat) :
    (rows.filterMap fun row => row[x]?)[y]? = rows[y]?.bind fun row => row[x]? := by
  induction rows generalizing y with
  | nil => rfl
  | cons row rows ih =>
    obtain ⟨hrow, hrows⟩ := List.forall_mem_cons.1 h
    have hcell : row[x]? = some row[x] := List.getElem?_eq_getElem hrow
    rw [List.filterMap_cons_some (f := fun row => row[x]?) hcell]
    cases y with
    | zero => exact hcell.symm
    | succ y => exact ih hrows y

theorem getElem?_column (hg : g.WellFormed) {x : Nat} (hx : x < g.width) (y : Nat) :
    (g.column x)[y]? = g.get? ⟨x, y⟩ := by
  have hrows : ∀ row ∈ g.rows, x < row.length := by
    intro row hrow
    rwa [length_of_mem_rows hg row hrow]
  rw [column, getElem?_filterMap_getElem? hrows, get?_ofRows (ofRows_rows hg)]

theorem length_column (hg : g.WellFormed) {x : Nat} (hx : x < g.width) :
    (g.column x).length = g.height := by
  have hsome : ∀ row ∈ g.rows, (row[x]?).isSome = true := by
    intro row hrow
    rw [List.getElem?_eq_getElem (by rwa [length_of_mem_rows hg row hrow])]
    rfl
  rw [column, List.length_filterMap_eq_countP, List.countP_eq_length.2 hsome, length_rows hg]

theorem ofRows_turned (hg : g.WellFormed) :
    ofRows ((List.range g.width).map fun x => (g.column x).reverse) = .ok g.turned := by
  refine ofRows_eq_ok_iff.2 ⟨hg.2.1, hg.1, ?_, ?_, rfl⟩
  · rw [List.length_map, List.length_range]
    rfl
  · intro row hrow
    obtain ⟨x, hx, rfl⟩ := List.mem_map.1 hrow
    rw [List.length_reverse, length_column hg (List.mem_range.1 hx)]
    rfl

theorem wellFormed_turned (hg : g.WellFormed) : g.turned.WellFormed :=
  wellFormed_ofRows (ofRows_turned hg)

theorem contains_turned {p : Position} (hp : g.Contains p) :
    g.turned.Contains (p.turned g.height) := by
  obtain ⟨hx, hy⟩ := hp
  refine ⟨?_, hx⟩
  show g.height - 1 - p.y < g.height
  omega

/-- **The turned grid shows the cells of the grid**, each where its position has gone. -/
theorem get?_turned (hg : g.WellFormed) {p : Position} (hp : g.Contains p) :
    g.turned.get? (p.turned g.height) = g.get? p := by
  obtain ⟨hx, hy⟩ := hp
  have hlast : g.height - 1 - (g.height - 1 - p.y) = p.y := by omega
  rw [get?_ofRows (ofRows_turned hg)]
  simp only [Position.turned]
  rw [List.getElem?_map, List.getElem?_range hx, Option.map_some, Option.bind_some,
    List.getElem?_reverse (by rw [length_column hg hx]; omega), length_column hg hx, hlast,
    getElem?_column hg hx]

/-- Different positions of the grid go to different ones. -/
theorem eq_of_turned_eq {p q : Position} (hp : g.Contains p) (hq : g.Contains q)
    (h : p.turned g.height = q.turned g.height) : p = q := by
  obtain ⟨px, py⟩ := p
  obtain ⟨qx, qy⟩ := q
  obtain ⟨hy, rfl⟩ := Position.mk.inj h
  have hpy : py < g.height := hp.2
  have hqy : qy < g.height := hq.2
  simp only at hy
  obtain rfl : py = qy := by omega
  rfl

/-- Every position of the turned grid is one where a position of the grid has gone. -/
theorem exists_turned_eq {q : Position} (hq : g.turned.Contains q) :
    ∃ p, g.Contains p ∧ p.turned g.height = q := by
  obtain ⟨x, y⟩ := q
  have hx : x < g.height := hq.1
  have hback : g.height - 1 - (g.height - 1 - x) = x := by omega
  refine ⟨⟨y, g.height - 1 - x⟩, ⟨hq.2, ?_⟩, ?_⟩
  · show g.height - 1 - x < g.height
    omega
  · simp only [Position.turned, hback]

/-- **The neighbours of a turned position** are the turned neighbours. -/
theorem neighbor?_turned {p : Position} (hp : g.Contains p) (h : Heading) :
    g.turned.neighbor? (p.turned g.height) h.turnRight =
      (g.neighbor? p h).map (Position.turned g.height) := by
  ext q
  rw [Option.map_eq_some_iff, neighbor?_eq_some_iff]
  constructor
  · rintro ⟨hn, hc⟩
    obtain ⟨q, hq, rfl⟩ := exists_turned_eq hc
    exact ⟨q, neighbor?_eq_some_iff.2 ⟨(Position.next?_turned hp.2 hq.2 h).1 hn, hq⟩, rfl⟩
  · rintro ⟨q, hq, rfl⟩
    obtain ⟨hn, hc⟩ := neighbor?_eq_some_iff.1 hq
    exact ⟨(Position.next?_turned hp.2 hc.2 h).2 hn, contains_turned hc⟩

/-- **A write into the turned grid** is a turned write. -/
theorem turned_put (hg : g.WellFormed) {p : Position} (hp : g.Contains p) (cell : α) :
    (g.put p cell).turned = g.turned.put (p.turned g.height) cell := by
  have hput := wellFormed_put hg p cell
  have hw : (g.put p cell).turned.width = (g.turned.put (p.turned g.height) cell).width := by
    rw [width_put]
    exact height_put g p cell
  have hh : (g.put p cell).turned.height = (g.turned.put (p.turned g.height) cell).height := by
    rw [height_put]
    exact width_put g p cell
  refine ext_get? (wellFormed_turned hput) (wellFormed_put (wellFormed_turned hg) _ _) hw hh ?_
  intro q hq
  obtain ⟨q, hc, rfl⟩ := exists_turned_eq hq
  rw [get?_turned hput hc, height_put, get?_put (wellFormed_turned hg).separates,
    get?_put hg.separates]
  rw [contains_put] at hc
  rw [get?_turned hg hc]
  by_cases hpq : p = q
  · rw [if_pos hpq, if_pos (by rw [hpq])]
  · rw [if_neg hpq, if_neg fun he => hpq (eq_of_turned_eq hp hc he)]

end

variable {g : Grid Tile}

theorem passable_turned (hg : g.WellFormed) {p : Position} (hp : g.Contains p) :
    g.turned.passable (p.turned g.height) = g.passable p := by
  rw [passable, passable, get?_turned hg hp]

end Grid

/-! ### Walkers and worlds -/

/-- The walker when a grid of this height is turned clockwise under its feet. -/
def Walker.turned (height : Nat) (walker : Walker) : Walker :=
  ⟨walker.position.turned height, walker.heading.turnRight, walker.carrying⟩

namespace World

/-- The world turned clockwise by a quarter. -/
def turned (w : World) : World :=
  ⟨w.walker.turned w.grid.height, w.grid.turned⟩

/-- The grid has all its cells, and the walker is inside. -/
structure InBounds (w : World) : Prop where
  grid : w.grid.WellFormed
  walker : w.grid.Contains w.walker.position

variable {w : World}

/-- **No action leads out of the grid.** -/
theorem InBounds.act (h : w.InBounds) (a : Action) : (w.act a).InBounds := by
  have hs := w.sameGround_act a
  have hc : ∀ p, (w.act a).grid.Contains p ↔ w.grid.Contains p := by
    intro p
    rw [Grid.Contains, Grid.Contains, hs.width, hs.height]
  refine ⟨hs.wellFormed h.grid, (hc _).2 ?_⟩
  obtain he | ⟨-, hn⟩ := w.position_act a
  · rw [he]
    exact h.walker
  · exact Grid.contains_of_passable (wayAhead?_eq_some_iff.1 hn).2

theorem wayAhead?_turned (h : w.InBounds) :
    w.turned.wayAhead? = w.wayAhead?.map (Position.turned w.grid.height) := by
  have hn := Grid.neighbor?_turned h.walker w.walker.heading
  rw [wayAhead?, wayAhead?]
  show ((w.grid.turned.neighbor? (w.walker.position.turned w.grid.height)
    w.walker.heading.turnRight).filter w.grid.turned.passable) = _
  rw [hn]
  cases hq : w.grid.neighbor? w.walker.position w.walker.heading with
  | none => rfl
  | some q =>
    have hp := Grid.passable_turned h.grid (Grid.neighbor?_eq_some_iff.1 hq).2
    rw [Option.map_some, Option.filter_some, Option.filter_some, hp]
    split <;> rfl

/-- **An action does the same in the turned world.** -/
theorem act_turned (h : w.InBounds) (a : Action) : w.turned.act a = (w.act a).turned := by
  cases a with
  | forward =>
    rw [act_forward, act_forward, wayAhead?_turned h]
    cases w.wayAhead? <;> rfl
  | turnLeft =>
    have ht : w.walker.heading.turnRight.turnLeft = w.walker.heading.turnLeft.turnRight := by
      rw [Heading.turnLeft_turnRight, Heading.turnRight_turnLeft]
    simp only [act, turned, Walker.turned, ht]
  | turnRight => rfl
  | pickup =>
    have hg := Grid.get?_turned h.grid h.walker
    simp only [act, turned, Walker.turned, hg]
    cases w.grid.get? w.walker.position with
    | none => rfl
    | some tile =>
      simp only
      split
      · rw [← Grid.turned_put h.grid h.walker, Grid.height_put]
      · rfl

/-- **A condition holds in the turned world as before.** -/
theorem holds_turned (h : w.InBounds) (c : Condition) : c.holds w.turned = c.holds w := by
  cases c with
  | pathAhead => rw [Condition.holds, Condition.holds, wayAhead?_turned h, Option.isSome_map]
  | notAtGoal =>
    have hg := Grid.get?_turned h.grid h.walker
    simp only [Condition.holds, turned, Walker.turned, hg]

end World

end Mazewalk
