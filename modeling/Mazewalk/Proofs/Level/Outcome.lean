import Mazewalk.Proofs.Level.Solvable
import Mazewalk.Proofs.Level.Stars
import Mazewalk.Proofs.Run.Items
import Mazewalk.Proofs.Run.Meaning
import Mazewalk.Proofs.Session.Pacing
import Mazewalk.Screen

/-!
# What comes of a play

A play is scored by its last walker and by the maze of the level, which the run has never touched.
Nothing is left in that maze of what the run did to the items, so that the walker carries one must
be read off the run itself: it did from the start, or a pickup of the trace was at an item of the
maze.  `outcome_play` puts this together with the goal and the stars.

* `goal?_eq_some_iff_firstGoalCell`: the goal is the first one in the order of the cells.  A level
  need not have all cells of its grid, nor as few as fit, so the cells are counted, not looked up.
* `success_play_iff`: which plays pass.
* `stars_play`: how many stars they get.  No program is as long as the one length at which the sum
  of the par and two is needed and is no machine word.
-/

namespace Mazewalk

namespace Grid

variable {g : Grid Tile}

/-- The cell with this number is a goal. -/
def GoalCell (g : Grid Tile) (i : Nat) : Prop :=
  ∃ tile, g.cells[i]? = some tile ∧ tile.terrain = .goal

/-- The position belongs to the first cell, row after row, that is a goal. -/
def FirstGoalCell (g : Grid Tile) (p : Position) : Prop :=
  ∃ i, g.GoalCell i ∧ (∀ j < i, ¬ g.GoalCell j) ∧ g.positionAt i = p

theorem goalCell_iff {i : Nat} :
    g.GoalCell i ↔ ∃ e, g.entries[i]? = some e ∧ (e.2.terrain == .goal) = true := by
  rw [getElem?_entries]
  simp [GoalCell]

theorem goal?_eq_some_iff_firstGoalCell {p : Position} :
    g.goal? = some p ↔ g.FirstGoalCell p := by
  rw [goal?, find?, Option.map_eq_some_iff, FirstGoalCell]
  constructor
  · rintro ⟨e, hf, rfl⟩
    obtain ⟨ht, i, hi, rfl, hmin⟩ := List.find?_eq_some_iff_getElem.1 hf
    have he := List.getElem?_eq_getElem hi
    refine ⟨i, goalCell_iff.2 ⟨_, he, ht⟩, fun j hj hc => ?_, ?_⟩
    · obtain ⟨e, hej, htj⟩ := goalCell_iff.1 hc
      have hn := hmin j hj
      rw [(List.getElem_eq_iff _).2 hej] at hn
      simp [htj] at hn
    · obtain ⟨_, -, hp⟩ := Option.map_eq_some_iff.1 ((getElem?_entries g i).symm.trans he)
      rw [← hp]
  · rintro ⟨i, hc, hmin, rfl⟩
    obtain ⟨e, he, ht⟩ := goalCell_iff.1 hc
    obtain ⟨hi, rfl⟩ := List.getElem?_eq_some_iff.1 he
    refine ⟨_, List.find?_eq_some_iff_getElem.2 ⟨ht, i, hi, rfl, fun j hj => ?_⟩, ?_⟩
    · have hn := hmin j hj
      rw [goalCell_iff] at hn
      rw [Bool.not_eq_true', Bool.eq_false_iff]
      exact fun htj => hn ⟨_, List.getElem?_eq_getElem (by omega), htj⟩
    · obtain ⟨_, -, hp⟩ := Option.map_eq_some_iff.1 ((getElem?_entries g i).symm.trans he)
      rw [← hp]

theorem any_item_eq_false_iff :
    (g.cells.any fun tile => tile.item) = false ↔ ∀ tile ∈ g.cells, tile.item = false := by
  rw [Array.any_eq_false']
  simp

end Grid

namespace Level

variable {level : Level}

theorem isPassedBy_iff_firstGoalCell {walker : Walker} :
    level.isPassedBy walker = true ↔ level.grid.FirstGoalCell walker.position ∧
      (walker.carrying = true ∨ ∀ tile ∈ level.grid.cells, tile.item = false) := by
  rw [isPassedBy, Bool.and_eq_true, Bool.or_eq_true, beq_iff_eq,
    Grid.goal?_eq_some_iff_firstGoalCell, Bool.not_eq_true', needsItem, Grid.any_item_eq_false_iff]

/-- **Which plays pass.** -/
theorem success_play_iff (level : Level) (program : Program) :
    (level.play program).success = true ↔
      level.grid.FirstGoalCell (program.run level.world).world.walker.position ∧
        ((∀ tile ∈ level.grid.cells, tile.item = false) ∨ level.start.carrying = true ∨
          ∃ e ∈ (program.run level.world).trace.toList, ∃ p,
            e.PicksAt p ∧ level.grid.hasItem p = true) := by
  have ha := (Program.records_run program level.world).accounts.carrying
  rw [success_play, isPassedBy_iff_firstGoalCell]
  refine and_congr_right fun _ => ?_
  rw [Program.world_run]
  exact (or_congr_left ha).trans or_comm

/-! ### Stars -/

theorem stars_play (level : Level) (program : Program)
    (h : ¬ level.Overruns program.length) :
    (level.play program).stars =
      if (level.play program).success = true then starsFor level.par.toNat program.length
      else 0 :=
  stars_of_not_overruns h

/-- A play that passes gets one, two or three stars, and any other play none. -/
theorem stars_play_cases (level : Level) (program : Program) :
    (level.play program).success = true ∧ ((level.play program).stars = 3 ∨
      (level.play program).stars = 2 ∨ (level.play program).stars = 1) ∨
    (level.play program).success = false ∧ (level.play program).stars = 0 := by
  by_cases h : level.Overruns program.length
  · have hs : (level.play program).stars =
        if (level.play program).success = true then 1 else 0 := stars_of_overruns h
    rw [hs]
    cases (level.play program).success <;> simp
  · rw [stars_play level program h]
    cases (level.play program).success with
    | true => exact Or.inl ⟨rfl, starsFor_cases _ _⟩
    | false => exact Or.inr ⟨rfl, rfl⟩

theorem stars_play_le (level : Level) (program : Program) :
    (level.play program).stars.toNat ≤ 3 := by
  obtain ⟨-, h | h | h⟩ | ⟨-, h⟩ := level.stars_play_cases program <;> rw [h] <;> decide

theorem stars_play_ne_zero_iff (level : Level) (program : Program) :
    (level.play program).stars ≠ 0 ↔ (level.play program).success = true := by
  obtain ⟨hs, h | h | h⟩ | ⟨hs, h⟩ := level.stars_play_cases program <;> rw [hs, h] <;> decide

end Level

/-! ### The panel -/

theorem Screen.length_starsText {stars : UInt8} (h : stars.toNat ≤ 3) :
    (Screen.starsText stars).length = 3 := by
  rw [Screen.starsText, String.length_ofList, List.length_append, List.length_replicate,
    List.length_replicate]
  omega

/-- The outcome that a session shows is that of a play, however it came to be shown. -/
theorem Session.Paced.outcome_eq {s : Session} {k : Nat} (h : s.Paced k) {o : Level.Outcome}
    (ho : s.outcome? = some o) : o = s.level.play s.program := by
  obtain ⟨-, -, hn, -⟩ | ⟨-, -, hn, -⟩ := h
  · rw [hn] at ho
    cases ho
  · exact Option.some.inj (ho.symm.trans hn)

/-- **What comes of a play.**  A program passes a level if and only if its walker comes to rest on
the first goal of the maze and, unless there are no items in it, has carried one from the start or
picked one up where the maze has one.  The stars compare the length of a passing program with the
par, up to two instructions more and beyond; there is none if and only if the program fails, and
never a fourth one.  So of the three stars on the screen of a session just those that were not
earned are missing. -/
theorem Level.outcome_play :
    (∀ (level : Level) (program : Program),
      ((level.play program).success = true ↔
        level.grid.FirstGoalCell (program.run level.world).world.walker.position ∧
          ((∀ tile ∈ level.grid.cells, tile.item = false) ∨ level.start.carrying = true ∨
            ∃ e ∈ (program.run level.world).trace.toList, ∃ p,
              e.PicksAt p ∧ level.grid.hasItem p = true)) ∧
      (program.length < wordSize / 2 → (level.play program).stars.toNat =
        if (level.play program).success = true then
          if program.length ≤ level.par.toNat then 3
          else if program.length ≤ level.par.toNat + 2 then 2
          else 1
        else 0) ∧
      (level.play program).stars.toNat ≤ 3 ∧
      ((level.play program).stars ≠ 0 ↔ (level.play program).success = true)) ∧
    ∀ (levels : List Level) (first : Nat) (program : Program) (h : first < levels.length)
      (events : List Event) (o : Level.Outcome),
      ((Session.start levels first program h).after events).outcome? = some o →
        o.stars.toNat ≤ 3 ∧ (Screen.starsText o.stars).length = 3 := by
  refine ⟨fun level program => ⟨success_play_iff level program, fun hl => ?_,
    stars_play_le level program, stars_play_ne_zero_iff level program⟩, ?_⟩
  · have hw : wordSize / 2 < wordSize - 1 := by decide
    have ho : ¬ level.Overruns program.length := by
      rw [overruns_iff (by omega)]
      omega
    rw [stars_play level program ho]
    unfold starsFor
    split
    · split
      · rfl
      · split <;> rfl
    · rfl
  · intro levels first program h events o ho
    have hp : (Session.start levels first program h).Paced 0 := Session.paced_restart _
    obtain rfl := (hp.after events).outcome_eq ho
    exact ⟨stars_play_le _ _, Screen.length_starsText (stars_play_le _ _)⟩

/-- A detour to the item in the corner, and back to the goal. -/
def Program.fetch : Program :=
  [.act .turnRight, .act .forward, .act .pickup, .act .turnLeft, .act .turnLeft, .act .forward,
    .act .turnRight, .act .forward, .act .forward]

/-- One instruction more than the par costs a star, and a hall that is passed shows three. -/
theorem Level.outcome_play_fetch :
    (Program.fetch.length < wordSize / 2 ∧ (corner.play Program.fetch).stars.toNat = 2) ∧
      0 < [hall 1, hall 2].length ∧
      ∃ o, (Session.halls.after [.tick, .tick]).outcome? = some o ∧
        (Screen.starsText o.stars).length = 3 := by
  have hs : (corner.play Program.fetch).success = true := by
    rw [success_play, Program.run_eq]
    decide +kernel
  have hl : Program.fetch.length < wordSize / 2 := by decide
  have hstars := (outcome_play.1 corner Program.fetch).2.1 hl
  rw [if_pos hs] at hstars
  have ho : (Session.halls.after [.tick, .tick]).outcome?.isSome = true := by decide +kernel
  obtain ⟨o, ho⟩ := Option.isSome_iff_exists.1 ho
  have hlt : 0 < [hall 1, hall 2].length := by decide
  have htext := (outcome_play.2 [hall 1, hall 2] 0 [.act .forward] hlt [.tick, .tick] o ho).2
  exact ⟨⟨hl, hstars⟩, hlt, o, ho, htext⟩

end Mazewalk
