import Mazewalk.Catalog
import Mazewalk.Program.Text
import Mazewalk.Proofs.Level.LowerBound
import Mazewalk.Proofs.Level.Outcome

/-!
# The par of the levels of the game

The par of each level that the game brings is tight (`Catalog.par_tight`): a program of that length
passes within the palette and earns three stars, and no shorter one passes, whatever the counts of
its loops.  Both halves come from a pair for each level, a program and an estimate of how far a
walker is from the goal, and that they meet at the par is decided for all six levels at once
(`Catalog.meets_builtinFiles`).

The estimates count the steps that are left and the turns between them.  With a loop a corridor
costs two instructions however long it is, so that in the last two levels a straight way never
counts as more than two steps.
-/

namespace Mazewalk

namespace Level

/-- The estimate is a lower bound that the program reaches, and both are the par of the level. -/
structure Meets (level : Level) (estimate : Walker → Nat) (program : Program) : Prop where
  -- no way through a maze of the game is longer than eight steps
  estimates : level.Estimates estimate 8
  start : estimate level.start = level.par.toNat
  palette : level.offPalette program = []
  length : program.length = level.par.toNat
  passes : level.isPassedBy (program.meaning level.world).world.walker = true

instance (level : Level) (estimate : Walker → Nat) (program : Program) :
    Decidable (level.Meets estimate program) :=
  decidable_of_iff
    (level.Estimates estimate 8 ∧ estimate level.start = level.par.toNat ∧
      level.offPalette program = [] ∧ program.length = level.par.toNat ∧
      level.isPassedBy (program.meaning level.world).world.walker = true)
    ⟨fun ⟨he, hs, hp, hl, hw⟩ => ⟨he, hs, hp, hl, hw⟩,
      fun ⟨he, hs, hp, hl, hw⟩ => ⟨he, hs, hp, hl, hw⟩⟩

namespace Meets

variable {level : Level} {estimate : Walker → Nat} {program : Program}

theorem success (h : level.Meets estimate program) : (level.play program).success = true := by
  rw [success_play, Program.run_eq]
  exact h.passes

theorem stars (h : level.Meets estimate program) : (level.play program).stars = 3 := by
  have ho : ¬ level.Overruns program.length := fun ho => Nat.lt_irrefl _ (h.length ▸ ho.1)
  rw [stars_play level program ho, if_pos h.success, starsFor_eq_three_iff]
  exact Nat.le_of_eq h.length

/-- Shorter programs fail. -/
theorem success_eq_false (h : level.Meets estimate program) {other : Program}
    (hp : level.offPalette other = []) (hl : other.length < level.par.toNat) :
    (level.play other).success = false := by
  rw [Bool.eq_false_iff]
  intro hs
  have hle := h.estimates.le_length hp hs
  rw [h.start] at hle
  exact absurd hl (Nat.not_lt_of_le hle)

end Meets

end Level

namespace Catalog

/-! ### Estimates and programs -/

/-- One turn for a walker that has yet to go down to row two and does not face that way. -/
def turnDown (walker : Walker) : Nat :=
  if walker.heading = .down ∨ walker.position.y = 2 then 0 else 1

/-- The turns that are left on the way through the fourth level, which goes right, down, right and
down again.  A walker that has strayed from it has at least two turns left. -/
def mazeTurns (walker : Walker) : Nat :=
  if walker.position.x = 3 then turnDown walker
  else
    match walker.position.y with
    | 0 => if walker.heading = .down then 2 else 3
    | 1 => if walker.heading = .right then 1 else 2
    | _ => 2

/-- How many instructions a walker needs at least in the level of the game with this id. -/
def estimate (id : LevelId) (walker : Walker) : Nat :=
  let x := walker.position.x
  let y := walker.position.y
  match id.toNat with
  | 1 => 3 - x
  | 2 => (2 - x) + (2 - y) + turnDown walker
  | 3 => (3 - x) + if walker.carrying then 0 else 1
  | 4 => (3 - x) + (2 - y) + mazeTurns walker
  | 5 => min 2 (6 - x)
  -- once around the corner, two steps are as short as a loop
  | 6 => if x < 4 then min 2 (4 - x) + 3 else (2 - y) + turnDown walker
  | _ => 0

/-- A program of the length of the par for the level of the game with this id.  Its loops could go
round more often than there is room for. -/
def solution (id : LevelId) : Program :=
  match id.toNat with
  | 1 => [.act .forward, .act .forward, .act .forward]
  | 2 => [.act .forward, .act .forward, .act .turnRight, .act .forward, .act .forward]
  | 3 => [.act .forward, .act .pickup, .act .forward, .act .forward]
  | 4 =>
      [.act .forward, .act .turnRight, .act .forward, .act .turnLeft, .act .forward, .act .forward,
        .act .turnRight, .act .forward]
  | 5 => [.wrap (.times Program.defaultCeiling), .act .forward]
  | 6 =>
      [.wrap (.whilst .pathAhead Program.defaultCeiling), .act .forward, .act .turnRight,
        .wrap (.whilst .pathAhead Program.defaultCeiling), .act .forward]
  | _ => []

/-! ### The six levels -/

theorem meets_builtinFiles :
    ∀ file ∈ builtinFiles, (Level.ofFile file).toOption.any
      fun level => decide (level.Meets (estimate file.id) (solution file.id)) := by
  decide +kernel

theorem exists_meets (file : Level.File) (h : file ∈ builtinFiles) :
    ∃ level, Level.ofFile file = .ok level ∧
      ∃ estimate program, level.Meets estimate program := by
  have hd := meets_builtinFiles file h
  cases hf : Level.ofFile file with
  | error e =>
    rw [hf] at hd
    cases hd
  | ok level =>
    rw [hf] at hd
    exact ⟨level, rfl, estimate file.id, solution file.id, of_decide_eq_true hd⟩

theorem ids_builtin :
    builtin.toOption.map (List.map Level.id) = some [1, 2, 3, 4, 5, 6] := by
  decide +kernel

theorem exists_mapM_ofFile {P : Level → Prop} {files : List Level.File}
    (h : ∀ file ∈ files, ∃ level, Level.ofFile file = .ok level ∧ P level) :
    ∃ levels, files.mapM Level.ofFile = .ok levels ∧ ∀ level ∈ levels, P level := by
  induction files with
  | nil => exact ⟨[], rfl, fun level hm => absurd hm List.not_mem_nil⟩
  | cons file rest ih =>
    obtain ⟨level, hf, hp⟩ := h file List.mem_cons_self
    obtain ⟨levels, hr, hall⟩ := ih fun other hm => h other (List.mem_cons_of_mem file hm)
    refine ⟨level :: levels, ?_, List.forall_mem_cons.2 ⟨hp, hall⟩⟩
    rw [List.mapM_cons, hf, hr]
    rfl

/-- **The par of every level of the game is tight.**  Programs within the palette that are shorter
fail, and one of that length passes with three stars. -/
theorem par_tight :
    ∃ levels, builtin = .ok levels ∧ levels.map Level.id = [1, 2, 3, 4, 5, 6] ∧
      ∀ level ∈ levels,
        (∀ program, level.offPalette program = [] → program.length < level.par.toNat →
          (level.play program).success = false) ∧
        ∃ program, level.offPalette program = [] ∧ program.length = level.par.toNat ∧
          (level.play program).success = true ∧ (level.play program).stars = 3 := by
  obtain ⟨levels, hb, hall⟩ := exists_mapM_ofFile exists_meets
  have hb : builtin = .ok levels := hb
  have hids := ids_builtin
  rw [hb] at hids
  refine ⟨levels, hb, Option.some.inj hids, fun level hm => ?_⟩
  obtain ⟨estimate, program, h⟩ := hall level hm
  exact ⟨fun other hp hl => h.success_eq_false hp hl,
    program, h.palette, h.length, h.success, h.stars⟩

/-- The solution of the last level without its second loop. -/
def shortcut : Program :=
  [.wrap (.whilst .pathAhead Program.defaultCeiling), .act .forward, .act .turnRight, .act .forward]

/-- Leaving out a loop saves an instruction, and the walker stops short of the goal. -/
theorem par_tight_shortcut :
    ∃ levels level, builtin = .ok levels ∧ level ∈ levels ∧ level.offPalette shortcut = [] ∧
      shortcut.length < level.par.toNat ∧ (level.play shortcut).success = false := by
  obtain ⟨levels, hb, -, h⟩ := par_tight
  have hs : (builtin.toOption.getD []).any fun level =>
      decide (level.offPalette shortcut = [] ∧ shortcut.length < level.par.toNat) := by
    decide +kernel
  rw [hb] at hs
  obtain ⟨level, hm, hd⟩ := List.any_eq_true.1 hs
  obtain ⟨hp, hl⟩ := of_decide_eq_true hd
  exact ⟨levels, level, hb, hm, hp, hl, (h level hm).1 shortcut hp hl⟩

end Catalog

end Mazewalk
