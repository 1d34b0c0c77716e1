import Mazewalk.Proofs.Level.Solvable
import Mazewalk.Proofs.Run.Composition
import Mazewalk.Proofs.Run.Items
import Mazewalk.Proofs.Run.Record
import Mazewalk.Proofs.World.Sight

/-!
# Being at the goal

There are two ways to ask for the goal.  The condition `notAtGoal` looks at the tile under the
walker, in the maze as the run has left it; a score looks for the first goal tile of the maze as it
was in the beginning.  In a maze with one goal tile they agree at every moment of every run,
because no action changes the ground and a search finds what is there
(`Grid.OnlyGoalAt.holds_notAtGoal_iff`).

So a program that ends with a loop until the goal, and does not run into its ceiling, has come to
rest on the goal that is scored.  Whether it passes is then a question of the items alone
(`Level.atGoal_agrees`).
-/

namespace Mazewalk

namespace Grid

variable {g : Grid Tile} {p : Position}

/-- The position shows a goal tile. -/
def GoalAt (g : Grid Tile) (p : Position) : Prop :=
  ∃ tile, g.get? p = some tile ∧ tile.terrain = .goal

/-- The position shows a goal tile, and no other position does. -/
def OnlyGoalAt (g : Grid Tile) (p : Position) : Prop :=
  g.GoalAt p ∧ ∀ q, g.GoalAt q → q = p

/-- With one goal tile, the goal that is scored is wherever a goal tile is. -/
theorem OnlyGoalAt.goal?_eq_some_iff (h : g.OnlyGoalAt p) (hg : g.WellFormed) {q : Position} :
    g.goal? = some q ↔ g.GoalAt q := by
  rw [Grid.goal?_eq_some_iff hg]
  constructor
  · exact fun hq => hq.1
  · intro hq
    refine ⟨hq, fun r tile hr ht => Nat.le_of_eq ?_⟩
    rw [h.2 q hq, h.2 r ⟨tile, hr, ht⟩]

theorem SameGround.goalAt_iff {g' : Grid Tile} (h : g.SameGround g') :
    g'.GoalAt p ↔ g.GoalAt p := by
  unfold GoalAt
  rw [← Option.map_eq_some_iff, ← Option.map_eq_some_iff, h.map_get?]

end Grid

theorem Condition.holds_notAtGoal_eq_false_iff {w : World} :
    notAtGoal.holds w = false ↔ w.grid.GoalAt w.walker.position := by
  rw [holds_notAtGoal, Grid.GoalAt, ← Option.map_eq_some_iff]
  cases (w.grid.get? w.walker.position).map Tile.terrain <;> simp

/-- **The condition and the score agree about the goal** on any ground that is that of the maze. -/
theorem Grid.OnlyGoalAt.holds_notAtGoal_iff {g : Grid Tile} {goal : Position}
    (h : g.OnlyGoalAt goal) (hg : g.WellFormed) {w : World} (hw : g.SameGround w.grid) :
    Condition.notAtGoal.holds w = false ↔ g.goal? = some w.walker.position := by
  rw [Condition.holds_notAtGoal_eq_false_iff, hw.goalAt_iff, h.goal?_eq_some_iff hg]

namespace Program

theorem sameGround_advance (program : Program) (world : World) (n : Nat) :
    world.grid.SameGround ((Run.start program world).advance n).world.grid :=
  (Run.accounts_advance program world (Nat.zero_le n)).ground

theorem sameGround_run (program : Program) (world : World) :
    world.grid.SameGround (program.run world).world.grid := by
  rw [world_run]
  exact (records_run program world).accounts.ground

end Program

namespace Level

/-- **The loop until the goal means the goal that is scored**, in a level with one goal tile: its
condition fails exactly when the walker is there, at any moment of any run.  So if a program ends
with such a loop and does not run into its ceiling, it passes exactly if there are no items or the
walker carries one. -/
theorem atGoal_agrees (level : Level) (hg : level.grid.WellFormed)
    (h : ∃ goal, level.grid.OnlyGoalAt goal) (program : Program) :
    (∀ n, Condition.notAtGoal.holds ((level.begin program).advance n).world = false ↔
      level.grid.goal? = some ((level.begin program).advance n).world.walker.position) ∧
    ∀ before ceiling a, program = before ++ [.wrap (.whilst .notAtGoal ceiling), .act a] →
      .ceiling before.length ceiling.val ∉ (level.play program).warnings →
        ((level.play program).success = true ↔
          (∀ p, level.grid.hasItem p = false) ∨ (level.play program).walker.carrying = true) := by
  obtain ⟨goal, h⟩ := h
  refine ⟨fun n => h.holds_notAtGoal_iff hg (program.sameGround_advance level.world n), ?_⟩
  rintro before ceiling a rfl hw
  have hend := (h.holds_notAtGoal_iff hg (Program.sameGround_run _ level.world)).1
    (Program.holds_run_append_loop hw)
  rw [success_play, isPassedBy_iff hg, ← Grid.goal?_eq_some_iff hg]
  constructor
  · rintro ⟨-, hc | hn⟩
    · exact Or.inr hc
    · exact Or.inl hn
  · rintro (hn | hc)
    · exact ⟨hend, Or.inr hn⟩
    · exact ⟨hend, Or.inl hc⟩

/-- The three cells as a level: an item on the way, and one goal. -/
def threeCells : Level where
  id := 1
  name := "Three cells"
  description := ""
  grid := Program.threeCells.grid
  start := Program.threeCells.walker
  palette := [.forward, .pickup, .whilst]
  par := 4
  passable_start := by decide
  par_ne_zero := by decide
  palette_ne_nil := by decide
  palette_sorted := by decide

/-- Takes the item along on the way to the goal. -/
def bringAlong : Program :=
  [.act .forward, .act .pickup] ++
    [.wrap (.whilst .notAtGoal ⟨7, by decide, by decide⟩), .act .forward]

theorem atGoal_agrees_threeCells :
    threeCells.grid.WellFormed ∧ threeCells.grid.OnlyGoalAt ⟨2, 0⟩ ∧
      .ceiling 2 7 ∉ (threeCells.play bringAlong).warnings ∧
      (threeCells.play bringAlong).walker.carrying = true ∧
      (threeCells.play bringAlong).success = true := by
  have hg : threeCells.grid.WellFormed := by decide
  have h : threeCells.grid.OnlyGoalAt ⟨2, 0⟩ := by
    refine ⟨⟨⟨.goal, false⟩, rfl, rfl⟩, ?_⟩
    rintro ⟨x, y⟩ ⟨tile, hq, ht⟩
    obtain ⟨hx, hy⟩ := Grid.contains_of_get? hq
    obtain rfl : y = 0 := Nat.lt_one_iff.1 hy
    match x, hx with
    | 0, _ => obtain rfl := Option.some.inj hq; cases ht
    | 1, _ => obtain rfl := Option.some.inj hq; cases ht
    | 2, _ => rfl
  have hw : .ceiling 2 7 ∉ (threeCells.play bringAlong).warnings := by
    show .ceiling 2 7 ∉ (bringAlong.run threeCells.world).warnings
    rw [Program.run_eq]
    decide +kernel
  have hc : (threeCells.play bringAlong).walker.carrying = true := by
    show (bringAlong.run threeCells.world).world.walker.carrying = true
    rw [Program.run_eq]
    decide +kernel
  exact ⟨hg, h, hw, hc,
    ((atGoal_agrees threeCells hg ⟨_, h⟩ bringAlong).2 [.act .forward, .act .pickup] _ _ rfl hw).2
      (Or.inr hc)⟩

end Level

end Mazewalk
