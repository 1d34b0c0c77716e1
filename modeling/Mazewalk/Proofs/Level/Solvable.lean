import Mazewalk.Level
import Mazewalk.Proofs.Grid.Lookup
import Mazewalk.Proofs.Run.Replay
import Mazewalk.Proofs.World.Paths

/-!
# Which levels can be solved

A level can be solved when some program passes it.  There are as many programs as there are
lists of instructions, but a run only performs actions, actions stay in the connected part of the
maze, and within it they can go anywhere.  So the question is one about the maze alone:

* the first goal tile is connected to the start, and
* if the maze holds items, the walker has one from the start or one of them is connected to the
  start as well.

`exists_success_iff` says that this is exact.  No program does better than the actions of its
trace, and none needs a loop.
-/

namespace Mazewalk

namespace Grid

variable {g : Grid Tile}

/-- The position of the first goal tile, row after row. -/
def IsFirstGoal (g : Grid Tile) (p : Position) : Prop :=
  (∃ tile, g.get? p = some tile ∧ tile.terrain = .goal) ∧
    ∀ q tile, g.get? q = some tile → tile.terrain = .goal → g.index p ≤ g.index q

theorem goal?_eq_some_iff (hg : g.WellFormed) {p : Position} :
    g.goal? = some p ↔ g.IsFirstGoal p := by
  rw [goal?, find?_eq_some_iff hg]
  simp only [IsFirstGoal, beq_iff_eq]

theorem hasItem_eq_true_iff {p : Position} :
    g.hasItem p = true ↔ ∃ tile, g.get? p = some tile ∧ tile.item = true := by
  unfold hasItem
  cases g.get? p <;> simp

theorem any_item_iff (hg : g.WellFormed) :
    (g.cells.any fun tile => tile.item) = true ↔ ∃ p, g.hasItem p = true := by
  rw [any_cells_iff hg]
  simp only [hasItem_eq_true_iff]

end Grid

namespace Level

/-- **Which walkers pass**: those on the first goal tile that carry something or need not. -/
theorem isPassedBy_iff {level : Level} (hg : level.grid.WellFormed) {walker : Walker} :
    level.isPassedBy walker = true ↔
      level.grid.IsFirstGoal walker.position ∧
        (walker.carrying = true ∨ ∀ p, level.grid.hasItem p = false) := by
  have hn : level.needsItem = false ↔ ∀ p, level.grid.hasItem p = false := by
    have := Grid.any_item_iff hg
    rw [← Bool.not_eq_true, needsItem, this, not_exists]
    simp only [Bool.not_eq_true]
  rw [isPassedBy, Bool.and_eq_true, Bool.or_eq_true, beq_iff_eq, Grid.goal?_eq_some_iff hg,
    Bool.not_eq_true', hn]

theorem success_play (level : Level) (program : Program) :
    (level.play program).success = level.isPassedBy (program.run level.world).world.walker := rfl

/-- Actions that take the walker to the first goal tile, with an item or without need of one,
make a program that passes the level. -/
theorem exists_success_of_actAll {level : Level} (hg : level.grid.WellFormed) {goal : Position}
    (hgoal : level.grid.IsFirstGoal goal) {actions : List Action}
    (hp : (level.world.actAll actions).walker.position = goal)
    (hi : (level.world.actAll actions).walker.carrying = true ∨
      ∀ p, level.grid.hasItem p = false) :
    ∃ program, (level.play program).success = true := by
  refine ⟨.ofActions actions, ?_⟩
  rw [success_play, Program.world_run_ofActions, isPassedBy_iff hg, hp]
  exact ⟨hgoal, hi⟩

/-- **A level can be solved if and only if** its first goal tile is connected to the start, and
an item too where one is needed. -/
theorem exists_success_iff (level : Level) (hg : level.grid.WellFormed) :
    (∃ program, (level.play program).success = true) ↔
      ∃ goal, level.grid.IsFirstGoal goal ∧ level.grid.Connected level.start.position goal ∧
        ((∀ p, level.grid.hasItem p = false) ∨ level.start.carrying = true ∨
          ∃ p, level.grid.Connected level.start.position p ∧ level.grid.hasItem p = true) := by
  have hs : level.world.grid.passable level.world.walker.position = true := level.passable_start
  constructor
  · rintro ⟨program, h⟩
    rw [success_play, Program.world_run, isPassedBy_iff hg] at h
    obtain ⟨hgoal, hi⟩ := h
    refine ⟨_, hgoal, World.connected_actAll _ hs, ?_⟩
    obtain hc | hn := hi
    · exact Or.inr (World.carrying_actAll _ hs hc)
    · exact Or.inl hn
  · rintro ⟨goal, hgoal, hpath, hi⟩
    -- with an item from the start, or without need of one, any walk to the goal will do
    obtain ⟨as, heading, has⟩ := World.exists_actAll_of_connected (w := level.world) hpath
    have hp : (level.world.actAll as).walker.position = goal := by rw [has]; rfl
    obtain hn | hc | ⟨p, hpath', hi⟩ := hi
    · exact exists_success_of_actAll hg hgoal hp (Or.inr hn)
    · refine exists_success_of_actAll hg hgoal hp (Or.inl ?_)
      rw [has]
      exact hc
    · obtain ⟨bs, hp', hc⟩ := World.exists_actAll_fetch (w := level.world) hpath' hi hpath
      exact exists_success_of_actAll hg hgoal hp' (Or.inl hc)

/-- Two rows of cells around a wall, with an item in a corner off the way to the goal. -/
def corner : Level where
  id := 1
  name := "Corner"
  description := ""
  grid := ⟨3, 2, #[⟨.start, false⟩, ⟨.path, false⟩, ⟨.goal, false⟩,
    ⟨.path, true⟩, ⟨.wall, false⟩, ⟨.goal, false⟩]⟩
  start := ⟨⟨0, 0⟩, .right, false⟩
  palette := [.forward, .turnRight, .pickup]
  par := 8
  passable_start := by decide
  par_ne_zero := by decide
  palette_ne_nil := by decide
  palette_sorted := by decide

theorem exists_success_corner :
    corner.grid.WellFormed ∧ ∃ program, (corner.play program).success = true := by
  have hg : corner.grid.WellFormed := by decide
  have hgoal : corner.grid.IsFirstGoal ⟨2, 0⟩ := (Grid.goal?_eq_some_iff hg).1 (by decide)
  have hitem : corner.grid.Connected ⟨0, 0⟩ ⟨0, 1⟩ := .tail .refl (by decide)
  have hmid : corner.grid.Connected ⟨0, 0⟩ ⟨1, 0⟩ := .tail .refl (by decide)
  have hpath : corner.grid.Connected ⟨0, 0⟩ ⟨2, 0⟩ := .tail hmid (by decide)
  exact ⟨hg, (exists_success_iff corner hg).2
    ⟨⟨2, 0⟩, hgoal, hpath, Or.inr (Or.inr ⟨⟨0, 1⟩, hitem, by decide⟩)⟩⟩

end Level

end Mazewalk
