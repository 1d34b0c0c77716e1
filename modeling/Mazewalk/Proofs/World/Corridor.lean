import Mazewalk.Condition
import Mazewalk.Proofs.World.Paths

/-!
# How far a walker can go ahead

`p.ahead? h k` is the cell `k` steps from `p` in the direction `h`, which is `p` moved by `k` times
the unit step of `h` (`ahead?_eq_some_iff`).  The clearance of a walker is the number of cells ahead
of it, one after another, that it can stand on, up to the first wall or the edge of the maze
(`clearance_eq_iff`); there is such an end because all these cells lie inside the maze.

So as long as there is clearance left a step forward goes one cell further, and nothing else of the
world changes (`exists_ahead?_actAll`).
-/

namespace Mazewalk

/-- The cell some steps away, if there is one on this side of the origin. -/
def Position.ahead? (p : Position) (h : Heading) : Nat → Option Position
  | 0 => some p
  | k + 1 => (p.ahead? h k).bind fun q => q.next? h

theorem Position.ahead?_eq_some_iff {p q : Position} {h : Heading} {k : Nat} :
    p.ahead? h k = some q ↔
      (q.x : Int) = p.x + k * h.delta.1 ∧ (q.y : Int) = p.y + k * h.delta.2 := by
  induction k generalizing q with
  | zero =>
    obtain ⟨x, y⟩ := p
    obtain ⟨u, v⟩ := q
    simp only [ahead?, Option.some.injEq, mk.injEq]
    omega
  | succ k ih =>
    rw [ahead?, Option.bind_eq_some_iff]
    simp only [ih, next?_eq_some_iff]
    constructor
    · rintro ⟨r, hr, hq⟩
      cases h <;> simp only [Heading.delta] at hr hq ⊢ <;> omega
    -- the cell before the last one is a step back
    · intro hq
      cases h <;> simp only [Heading.delta] at hq ⊢
      · exact ⟨⟨q.x, q.y + 1⟩, by dsimp only; omega, rfl, rfl⟩
      · exact ⟨⟨q.x - 1, q.y⟩, by dsimp only; omega, by dsimp only; omega, rfl⟩
      · exact ⟨⟨q.x, q.y - 1⟩, by dsimp only; omega, rfl, by dsimp only; omega⟩
      · exact ⟨⟨q.x + 1, q.y⟩, by dsimp only; omega, rfl, rfl⟩

namespace Grid

variable {g : Grid Tile} {p : Position} {h : Heading}

/-- The cell some steps away lies in the maze and is not a wall. -/
def clear (g : Grid Tile) (p : Position) (h : Heading) (k : Nat) : Bool :=
  (p.ahead? h k).any g.passable

/-- The number of cells ahead of a position before the first wall or the edge. -/
def clearance (g : Grid Tile) (p : Position) (h : Heading) : Nat :=
  (List.range (g.width + g.height)).findIdx fun k => !g.clear p h (k + 1)

theorem clear_iff {k : Nat} :
    g.clear p h k = true ↔ ∃ q, p.ahead? h k = some q ∧ g.passable q = true := by
  rw [clear, Option.any_eq_true]

theorem clear_succ {q : Position} {k : Nat} (hq : p.ahead? h k = some q) :
    g.clear p h (k + 1) = (q.next? h).any g.passable := by
  rw [clear, Position.ahead?, hq, Option.bind_some]

/-- A cell ahead as far off as the maze is wide and high lies outside, or the next one does. -/
theorem clear_bound (h1 : g.clear p h 1 = true) : g.clear p h (g.width + g.height + 1) = false := by
  rw [Bool.eq_false_iff]
  intro hk
  obtain ⟨q, hq, hpq⟩ := clear_iff.1 h1
  obtain ⟨r, hr, hpr⟩ := clear_iff.1 hk
  obtain ⟨hqx, hqy⟩ := contains_of_passable hpq
  obtain ⟨hrx, hry⟩ := contains_of_passable hpr
  rw [Position.ahead?_eq_some_iff] at hq hr
  cases h <;> simp only [Heading.delta] at hq hr <;> omega

theorem clear_of_lt_clearance {k : Nat} (hk : k < g.clearance p h) :
    g.clear p h (k + 1) = true := by
  have hn := List.not_of_lt_findIdx hk
  simpa using hn

theorem clear_clearance : g.clear p h (g.clearance p h + 1) = false := by
  have hle : g.clearance p h ≤ (List.range (g.width + g.height)).length :=
    List.findIdx_le_length
  rcases Nat.lt_or_eq_of_le hle with hlt | he
  · have hi := ((List.findIdx_eq hlt).1 rfl).1
    rw [List.getElem_range, Bool.not_eq_true'] at hi
    exact hi
  -- all cells that were looked at are clear, and so is the first one, if there is one at all
  · rw [he, List.length_range]
    rw [List.length_range] at he
    rcases Nat.eq_zero_or_pos (g.width + g.height) with h0 | h0
    · rw [Bool.eq_false_iff]
      intro hk
      obtain ⟨q, -, hpq⟩ := clear_iff.1 hk
      obtain ⟨hx, -⟩ := contains_of_passable hpq
      omega
    · exact clear_bound (clear_of_lt_clearance (by omega))

theorem clearance_eq_iff {n : Nat} :
    g.clearance p h = n ↔
      (∀ k < n, g.clear p h (k + 1) = true) ∧ g.clear p h (n + 1) = false := by
  constructor
  · rintro rfl
    exact ⟨fun k => clear_of_lt_clearance, clear_clearance⟩
  · rintro ⟨hk, hn⟩
    rcases Nat.lt_trichotomy (g.clearance p h) n with hlt | he | hlt
    · have := hk _ hlt
      rw [clear_clearance] at this
      cases this
    · exact he
    · have := clear_of_lt_clearance hlt
      rw [hn] at this
      cases this

end Grid

namespace World

/-- The number of cells ahead of the walker before the first wall or the edge. -/
def clearance (w : World) : Nat :=
  w.grid.clearance w.walker.position w.walker.heading

theorem holds_pathAhead (w : World) :
    Condition.pathAhead.holds w =
      (w.walker.position.next? w.walker.heading).any w.grid.passable := by
  show w.wayAhead?.isSome = _
  rw [Bool.eq_iff_iff, Option.isSome_iff_exists, Option.any_eq_true]
  simp only [wayAhead?_eq_some_iff]

variable {w : World} {k : Nat}

/-- **As many steps forward as there is clearance** take the walker so many cells ahead and change
nothing else. -/
theorem exists_ahead?_actAll (hk : k ≤ w.clearance) :
    ∃ q, w.walker.position.ahead? w.walker.heading k = some q ∧
      w.actAll (List.replicate k .forward) = w.place q w.walker.heading := by
  induction k with
  | zero => exact ⟨w.walker.position, rfl, rfl⟩
  | succ k ih =>
    obtain ⟨q, hq, hw⟩ := ih (by omega)
    obtain ⟨r, hr, hp⟩ := Grid.clear_iff.1 (Grid.clear_of_lt_clearance hk)
    have hn : q.next? w.walker.heading = some r := by
      rw [Position.ahead?, hq] at hr
      exact hr
    have hway : (w.place q w.walker.heading).wayAhead? = some r :=
      wayAhead?_eq_some_iff.2 ⟨hn, hp⟩
    refine ⟨r, hr, ?_⟩
    rw [List.replicate_succ', actAll_append, hw, actAll_cons, actAll_nil, act_forward, hway]
    rfl

/-- After `k` steps forward there is a way ahead if the clearance is more than `k`. -/
theorem holds_pathAhead_actAll (hk : k ≤ w.clearance) :
    Condition.pathAhead.holds (w.actAll (List.replicate k .forward)) =
      decide (k < w.clearance) := by
  obtain ⟨q, hq, hw⟩ := exists_ahead?_actAll hk
  have hc : Condition.pathAhead.holds (w.actAll (List.replicate k .forward)) =
      w.grid.clear w.walker.position w.walker.heading (k + 1) := by
    rw [hw, holds_pathAhead, Grid.clear_succ hq]
    rfl
  rw [hc]
  rcases Nat.lt_or_eq_of_le hk with hlt | he
  · rw [decide_eq_true hlt]
    exact Grid.clear_of_lt_clearance hlt
  · rw [decide_eq_false (by omega), he]
    exact Grid.clear_clearance

end World

end Mazewalk
