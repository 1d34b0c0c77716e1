import Mazewalk.Proofs.World.Corridor

/-!
# Neighbours

A step adds the unit step of a heading to a position.  The coordinates of a position are machine
words, so a step is made of two checked sums, and it is none if one of them is no word
(`Position.offset?_eq_checked`).  Whether the sums are words does not matter inside a grid: with
sides that are words, the neighbour of a position is the exact sum if that lies in the rectangle,
and there is none otherwise (`neighbor?_eq_filter_offset?`, `neighbor?_eq_some_iff_delta`,
`exists_neighbor?_iff`).

As the unit steps of two headings are different, and opposite after half a turn
(`Heading.delta_injective`, `Heading.delta_turnRight_turnRight`), different headings lead to
different neighbours and half a turn leads back.  So a walker that has gone forward can go back to
where it was and turn round once more, and nothing is different then (`World.actAll_back`).
-/

namespace Mazewalk

namespace Heading

theorem delta_turnRight_turnRight (h : Heading) :
    h.turnRight.turnRight.delta = (-h.delta.1, -h.delta.2) := by
  cases h <;> rfl

theorem turnRight_four (h : Heading) :
    h.turnRight.turnRight.turnRight.turnRight = h := by
  cases h <;> rfl

theorem delta_injective : Function.Injective delta := by
  intro h h'
  cases h <;> cases h' <;> decide

end Heading

/-! ### Checked sums -/

/-- The sum of a word and a signed number, if it is a word. -/
def addSigned? (x : Nat) (d : Int) : Option Nat :=
  if 0 ≤ x + d ∧ x + d < wordSize then some (x + d).toNat else none

theorem addSigned?_eq_some_iff {x u : Nat} {d : Int} :
    addSigned? x d = some u ↔ (u : Int) = x + d ∧ u < wordSize := by
  unfold addSigned?
  split
  · rw [Option.some.injEq]
    omega
  · refine ⟨?_, ?_⟩
    · intro h
      cases h
    · intro h
      omega

namespace Position

variable {p q : Position} {h : Heading}

theorem next?_eq_some_iff_delta :
    p.next? h = some q ↔ (q.x : Int) = p.x + h.delta.1 ∧ (q.y : Int) = p.y + h.delta.2 := by
  have hone : p.ahead? h 1 = p.next? h := rfl
  rw [← hone, ahead?_eq_some_iff]
  simp

theorem offset?_eq_some_iff :
    p.offset? h = some q ↔ p.next? h = some q ∧ q.IsWord := by
  rw [offset?, Option.filter_eq_some_iff, decide_eq_true_eq]

/-- **A step is made of two checked sums.** -/
theorem offset?_eq_checked (p : Position) (h : Heading) :
    p.offset? h = (addSigned? p.x h.delta.1).bind fun x =>
      (addSigned? p.y h.delta.2).map fun y => ⟨x, y⟩ := by
  ext q
  rw [offset?_eq_some_iff, next?_eq_some_iff_delta, Option.bind_eq_some_iff]
  simp only [Option.map_eq_some_iff, addSigned?_eq_some_iff]
  refine ⟨?_, ?_⟩
  · intro hq
    obtain ⟨⟨hx, hy⟩, hwx, hwy⟩ := hq
    exact ⟨q.x, ⟨hx, hwx⟩, q.y, ⟨hy, hwy⟩, rfl⟩
  · intro hq
    obtain ⟨u, ⟨hx, hwx⟩, v, ⟨hy, hwy⟩, he⟩ := hq
    rw [← he]
    exact ⟨⟨hx, hy⟩, hwx, hwy⟩

end Position

/-! ### Neighbours in a grid -/

namespace Grid

variable {α : Type} {g : Grid α} {p q : Position} {h h' : Heading}

/-- **The neighbour is the exact sum**, if that lies in the rectangle. -/
theorem neighbor?_eq_some_iff_delta :
    g.neighbor? p h = some q ↔
      g.Contains q ∧ (q.x : Int) = p.x + h.delta.1 ∧ (q.y : Int) = p.y + h.delta.2 := by
  rw [neighbor?_eq_some_iff, Position.next?_eq_some_iff_delta, and_comm]

theorem exists_neighbor?_iff :
    (∃ q, g.neighbor? p h = some q) ↔
      (0 ≤ p.x + h.delta.1 ∧ p.x + h.delta.1 < g.width) ∧
        0 ≤ p.y + h.delta.2 ∧ p.y + h.delta.2 < g.height := by
  simp only [neighbor?_eq_some_iff_delta, Contains]
  refine ⟨?_, ?_⟩
  · intro hq
    obtain ⟨q, hq⟩ := hq
    omega
  · intro hin
    refine ⟨⟨(p.x + h.delta.1).toNat, (p.y + h.delta.2).toNat⟩, ?_⟩
    dsimp only
    omega

/-- The sums are words where they matter. -/
theorem neighbor?_eq_filter_offset? (hw : g.width < wordSize) (hh : g.height < wordSize)
    (p : Position) (h : Heading) :
    g.neighbor? p h = (p.offset? h).filter fun q => decide (g.Contains q) := by
  ext q
  rw [neighbor?_eq_some_iff, Option.filter_eq_some_iff, decide_eq_true_eq,
    Position.offset?_eq_some_iff]
  refine ⟨?_, ?_⟩
  · intro hq
    obtain ⟨hn, hc⟩ := hq
    have hq : q.IsWord := ⟨Nat.lt_trans hc.1 hw, Nat.lt_trans hc.2 hh⟩
    exact ⟨⟨hn, hq⟩, hc⟩
  · intro hq
    obtain ⟨⟨hn, -⟩, hc⟩ := hq
    exact ⟨hn, hc⟩

/-- **Half a turn leads back.** -/
theorem neighbor?_back (hp : g.Contains p) (hq : g.neighbor? p h = some q) :
    g.neighbor? q h.turnRight.turnRight = some p := by
  rw [neighbor?_eq_some_iff_delta] at hq ⊢
  rw [Heading.delta_turnRight_turnRight]
  refine ⟨hp, ?_⟩
  dsimp only
  omega

/-- **Different headings lead to different neighbours.** -/
theorem heading_eq_of_neighbor? (hq : g.neighbor? p h = some q) (hq' : g.neighbor? p h' = some q) :
    h = h' := by
  rw [neighbor?_eq_some_iff_delta] at hq hq'
  refine Heading.delta_injective (Prod.ext ?_ ?_)
  · omega
  · omega

end Grid

/-! ### There and back -/

namespace World

theorem wayAhead?_place (w : World) (p : Position) (h : Heading) :
    (w.place p h).wayAhead? = (w.grid.neighbor? p h).filter w.grid.passable := rfl

/-- **Forward and back again** changes nothing, for a walker that may stand where it is. -/
theorem actAll_back {w : World} (hp : w.grid.passable w.walker.position = true)
    (hm : (w.act .forward).walker.position ≠ w.walker.position) :
    (w.act .forward).actAll [.turnRight, .turnRight, .forward, .turnRight, .turnRight] = w := by
  obtain he | ⟨-, hq⟩ := w.position_act .forward
  · exact absurd he hm
  generalize (w.act .forward).walker.position = q at hq
  have hgo : w.act .forward = w.place q w.walker.heading := by
    rw [act_forward, hq]
    rfl
  have hn : w.grid.neighbor? w.walker.position w.walker.heading = some q :=
    (Option.filter_eq_some_iff.1 hq).1
  have hback : (w.place q w.walker.heading.turnRight.turnRight).wayAhead? =
      some w.walker.position := by
    rw [wayAhead?_place, Grid.neighbor?_back (Grid.contains_of_passable hp) hn]
    exact Option.filter_some_pos hp
  calc (w.act .forward).actAll [.turnRight, .turnRight, .forward, .turnRight, .turnRight]
      = ((w.place q w.walker.heading.turnRight.turnRight).act .forward).actAll
          [.turnRight, .turnRight] := by rw [hgo]; rfl
    _ = w.place w.walker.position w.walker.heading.turnRight.turnRight.turnRight.turnRight := by
        rw [act_forward, hback]
        rfl
    _ = w := by rw [Heading.turnRight_four]; rfl

end World

/-- **Steps are exact**, at whatever position and in whatever grid.  A neighbour is found by checked
sums of words, which never fail inside the grid; it is the exact sum of the position and the unit
step, and there is one if and only if this lies in the rectangle.  Half a turn leads back, other
headings lead elsewhere, and a walker that has gone forward can undo it by going back. -/
theorem neighbours_exact :
    (∀ (α : Type) (g : Grid α) (p : Position) (h : Heading),
      (p.offset? h = (addSigned? p.x h.delta.1).bind fun x =>
        (addSigned? p.y h.delta.2).map fun y => ⟨x, y⟩) ∧
      (g.width < wordSize → g.height < wordSize →
        g.neighbor? p h = (p.offset? h).filter fun q => decide (g.Contains q)) ∧
      (∀ q, g.neighbor? p h = some q ↔
        g.Contains q ∧ (q.x : Int) = p.x + h.delta.1 ∧ (q.y : Int) = p.y + h.delta.2) ∧
      ((∃ q, g.neighbor? p h = some q) ↔
        (0 ≤ p.x + h.delta.1 ∧ p.x + h.delta.1 < g.width) ∧
          0 ≤ p.y + h.delta.2 ∧ p.y + h.delta.2 < g.height) ∧
      (∀ q, g.Contains p → g.neighbor? p h = some q →
        g.neighbor? q h.turnRight.turnRight = some p) ∧
      ∀ h' q q', h ≠ h' → g.neighbor? p h = some q → g.neighbor? p h' = some q' → q ≠ q') ∧
    ∀ w : World, w.grid.passable w.walker.position = true →
      (w.act .forward).walker.position ≠ w.walker.position →
        (w.act .forward).actAll
          [.turnRight, .turnRight, .forward, .turnRight, .turnRight] = w := by
  refine ⟨?_, fun w => World.actAll_back⟩
  intro α g p h
  refine ⟨p.offset?_eq_checked h, fun hw hh => Grid.neighbor?_eq_filter_offset? hw hh p h,
    fun q => Grid.neighbor?_eq_some_iff_delta, Grid.exists_neighbor?_iff,
    fun q => Grid.neighbor?_back, ?_⟩
  intro h' q q' hne hq hq' he
  rw [← he] at hq'
  exact hne (Grid.heading_eq_of_neighbor? hq hq')

namespace World

/-- A walker in the corner of a square, facing the goal, with a wall on the diagonal. -/
def square : World :=
  ⟨⟨⟨0, 0⟩, .down, true⟩,
    ⟨2, 2, #[⟨.start, false⟩, ⟨.path, true⟩, ⟨.goal, false⟩, ⟨.wall, false⟩]⟩⟩

/-- The last word has no word to its right, the corner has two neighbours, and the way to the goal
and back is five actions and one. -/
theorem neighbours_exact_square :
    (square.grid.width < wordSize ∧ square.grid.height < wordSize ∧
      square.grid.neighbor? ⟨wordSize - 1, 0⟩ .right = none) ∧
    (square.grid.Contains ⟨0, 0⟩ ∧ square.grid.neighbor? ⟨0, 0⟩ .down = some ⟨0, 1⟩ ∧
      square.grid.neighbor? ⟨0, 1⟩ .up = some ⟨0, 0⟩) ∧
    (Heading.down ≠ .right ∧ square.grid.neighbor? ⟨0, 0⟩ .right = some ⟨1, 0⟩ ∧
      (⟨0, 1⟩ : Position) ≠ ⟨1, 0⟩) ∧
    square.grid.passable square.walker.position = true ∧
      (square.act .forward).walker.position ≠ square.walker.position ∧
      (square.act .forward).actAll
        [.turnRight, .turnRight, .forward, .turnRight, .turnRight] = square := by
  have hw : square.grid.width < wordSize := by decide
  have hh : square.grid.height < wordSize := by decide
  have hlast := (neighbours_exact.1 _ square.grid ⟨wordSize - 1, 0⟩ .right).2.1 hw hh
  have hnone : Position.offset? ⟨wordSize - 1, 0⟩ .right = none := by decide
  rw [hnone] at hlast
  have hc : square.grid.Contains ⟨0, 0⟩ := by decide
  have hdown : square.grid.neighbor? ⟨0, 0⟩ .down = some ⟨0, 1⟩ := by decide
  have hright : square.grid.neighbor? ⟨0, 0⟩ .right = some ⟨1, 0⟩ := by decide
  obtain ⟨-, -, -, -, hback, hother⟩ := neighbours_exact.1 _ square.grid ⟨0, 0⟩ .down
  have hne : Heading.down ≠ .right := by decide
  have hp : square.grid.passable square.walker.position = true := by decide
  have hm : (square.act .forward).walker.position ≠ square.walker.position := by decide
  exact ⟨⟨hw, hh, hlast⟩, ⟨hc, hdown, hback _ hc hdown⟩,
    ⟨hne, hright, hother _ _ _ hne hdown hright⟩, hp, hm, neighbours_exact.2 _ hp hm⟩

end World

end Mazewalk
