import Mazewalk.Level
import Mazewalk.Proofs.Run.Composition
import Mazewalk.Proofs.Run.Loops
import Mazewalk.Proofs.Run.Replay
import Mazewalk.Proofs.World.Roaming

/-!
# How short a passing program can be

There are infinitely many programs of any length, since loops have counts, and so none of these
bounds comes from trying programs.  It comes from an estimate of how many instructions a walker
still needs, which is right if it is zero where the level is passed and no instruction lowers it by
more than it costs:

* an action by one;
* a loop, which is two instructions with the action that it governs, by two, however often it goes
  round, and since nothing is known about that, for every number of rounds;
* a wrapper that governs nothing by nothing, though it counts as one.

For the second point the estimate is compared with the least one in the first few rounds, and that
this is the least in all rounds is seen from one step to the next (`Grid.least`).  So the whole
condition, `Level.Estimates`, is about the finitely many walkers of the maze, and is decided.
-/

namespace Mazewalk

/-! ### Loops as repeated actions -/

/-- A loop performs its action a number of times. -/
theorem Walk.exists_world_loop (w : Wrapper) (i : Nat) (a : Action) (s : Walk) :
    ∃ k, (w.loop i a s).world = s.world.actAll (List.replicate k a) := by
  cases w with
  | times count =>
    refine ⟨count.val, ?_⟩
    show (s.rounds i a count.val).world = _
    rw [rounds_eq]
  | whilst c ceiling =>
    obtain ⟨n, -, -, h⟩ := s.exists_guardedRounds i a c ceiling.val ceiling.val
    refine ⟨n, ?_⟩
    show (s.guardedRounds i a c ceiling.val ceiling.val).world = _
    rcases h with ⟨-, h⟩ | ⟨-, -, h⟩
    · rw [h, rounds_eq]
    · rw [h, warn, rounds_eq]

/-! ### Estimates -/

/-- The least value of an estimate now and after each of `n` rounds of an action. -/
def Grid.least (g : Grid Tile) (estimate : Walker → Nat) (a : Action) : Nat → Walker → Nat
  | 0, walker => estimate walker
  | n + 1, walker => min (estimate walker) (g.least estimate a n (g.step walker a))

theorem Grid.least_le (g : Grid Tile) (estimate : Walker → Nat) (a : Action) (n : Nat)
    (walker : Walker) : g.least estimate a n walker ≤ estimate walker := by
  cases n with
  | zero => exact Nat.le_refl _
  | succ n => exact Nat.min_le_left _ _

namespace Level

/-- The level allows one of the two kinds of loops. -/
def allowsLoops (level : Level) : Bool :=
  level.allows .times || level.allows .whilst

/-- The estimate is zero for walkers that pass, an action that the level allows lowers it by one at
most, and if the level allows loops, any number of rounds of it by two at most. -/
def Estimates (level : Level) (estimate : Walker → Nat) (rounds : Nat) : Prop :=
  ∀ walker ∈ level.grid.walkers,
    (level.isPassedBy walker = true → estimate walker = 0) ∧
    ∀ a ∈ Action.all, level.allows (.ofAction a) = true →
      estimate walker ≤ estimate (level.grid.step walker a) + 1 ∧
      (level.allowsLoops = true →
        level.grid.least estimate a rounds walker ≤
            level.grid.least estimate a rounds (level.grid.step walker a) ∧
          estimate walker ≤ level.grid.least estimate a rounds walker + 2)

instance (level : Level) (estimate : Walker → Nat) (rounds : Nat) :
    Decidable (level.Estimates estimate rounds) :=
  inferInstanceAs (Decidable (∀ _ ∈ _, _))

namespace Estimates

variable {level : Level} {estimate : Walker → Nat} {rounds : Nat} {w : World}

/-- What the condition says of an action in a world, instead of a step of the machine. -/
theorem of_act (h : level.Estimates estimate rounds) (hw : w.Roams level.grid) {a : Action}
    (ha : level.allows (.ofAction a) = true) :
    estimate w.walker ≤ estimate (w.act a).walker + 1 ∧
      (level.allowsLoops = true →
        level.grid.least estimate a rounds w.walker ≤
            level.grid.least estimate a rounds (w.act a).walker ∧
          estimate w.walker ≤ level.grid.least estimate a rounds w.walker + 2) := by
  have hm : a ∈ Action.all := by cases a <;> decide
  rw [hw.walker_act]
  exact (h _ (Grid.mem_walkers hw.stands)).2 a hm ha

/-- **No number of rounds** gets below the least estimate of the first ones. -/
theorem least_le_actAll (h : level.Estimates estimate rounds) (hw : w.Roams level.grid)
    {a : Action} (ha : level.allows (.ofAction a) = true) (hl : level.allowsLoops = true)
    (k : Nat) :
    level.grid.least estimate a rounds w.walker ≤
      estimate (w.actAll (List.replicate k a)).walker := by
  induction k generalizing w with
  | zero => exact level.grid.least_le estimate a rounds w.walker
  | succ k ih =>
    exact Nat.le_trans ((h.of_act hw ha).2 hl).1 (ih (hw.act a))

theorem of_loop (h : level.Estimates estimate rounds) (hw : w.Roams level.grid) {a : Action}
    (ha : level.allows (.ofAction a) = true) (hl : level.allowsLoops = true) (k : Nat) :
    estimate w.walker ≤ estimate (w.actAll (List.replicate k a)).walker + 2 := by
  have hs := ((h.of_act hw ha).2 hl).2
  have hk := h.least_le_actAll hw ha hl k
  omega

end Estimates

theorem allowsLoops_of_wrap {level : Level} {w : Wrapper}
    (h : level.allows (Instruction.block (.wrap w)) = true) : level.allowsLoops = true := by
  rw [allowsLoops, Bool.or_eq_true]
  cases w with
  | times count => exact Or.inl h
  | whilst c ceiling => exact Or.inr h

/-- **From any place on**, what is left of the program is worth its length at most. -/
theorem Estimates.finish {level : Level} {estimate : Walker → Nat} {rounds : Nat}
    (h : level.Estimates estimate rounds) {rest : Program} {s : Walk} {i : Nat}
    (hs : s.world.Roams level.grid) (hp : ∀ x ∈ rest, level.allows x.block = true) :
    estimate s.world.walker ≤
      estimate (s.resume (.ready i rest)).finish.world.walker + rest.length := by
  induction rest using Program.ahead generalizing s i with
  | nil => rw [Walk.finish_nil]; exact Nat.le_refl _
  | act a rest ih =>
    obtain ⟨ha, hr⟩ := List.forall_mem_cons.1 hp
    have h1 : estimate s.world.walker ≤ estimate (s.perform i a).world.walker + 1 :=
      (h.of_act hs ha).1
    have h2 := ih (s := s.perform i a) (i := i + 1) (hs.act a) hr
    rw [Walk.finish_act, List.length_cons]
    omega
  | dangling w =>
    rw [Walk.finish_dangling]
    exact Nat.le_add_right _ _
  | nested w v rest ih =>
    have h2 := ih (s := s.warn (.nested i)) (i := i + 1) hs (List.forall_mem_cons.1 hp).2
    rw [Walk.finish_nested, List.length_cons]
    exact Nat.le_succ_of_le h2
  | loop w a rest ih =>
    obtain ⟨hw, hp⟩ := List.forall_mem_cons.1 hp
    obtain ⟨ha, hr⟩ := List.forall_mem_cons.1 hp
    obtain ⟨k, hk⟩ := Walk.exists_world_loop w i a s
    have h1 := h.of_loop hs ha (allowsLoops_of_wrap hw) k
    rw [← hk] at h1
    have hl : (w.loop i a s).world.Roams level.grid := by
      rw [hk]
      exact hs.actAll _
    have h2 := ih (i := i + 2) hl hr
    rw [Walk.finish_loop, List.length_cons, List.length_cons]
    omega

theorem offPalette_eq_nil_iff {level : Level} {program : Program} :
    level.offPalette program = [] ↔ ∀ x ∈ program, level.allows x.block = true := by
  rw [offPalette, List.map_eq_nil_iff, List.filter_eq_nil_iff]
  constructor
  · intro h x hx
    obtain ⟨i, hi⟩ := List.mem_iff_getElem?.1 hx
    simpa using h (x, i) (List.mk_mem_zipIdx_iff_getElem?.2 hi)
  · intro h e he
    simpa using h e.1 (List.fst_mem_of_mem_zipIdx he)

/-- **An estimate is a lower bound** for the length of the programs that pass within the palette. -/
theorem Estimates.le_length {level : Level} {estimate : Walker → Nat} {rounds : Nat}
    (h : level.Estimates estimate rounds) {program : Program}
    (hp : level.offPalette program = []) (hs : (level.play program).success = true) :
    estimate level.start ≤ program.length := by
  have hw : level.world.Roams level.grid := World.roams_self level.passable_start
  have hb := h.finish (s := ⟨level.world, #[], #[]⟩) (i := 0) hw (offPalette_eq_nil_iff.1 hp)
  have he : (program.run level.world).world.Roams level.grid := by
    rw [Program.world_run]
    exact hw.actAll _
  have hz : estimate (program.run level.world).world.walker = 0 :=
    (h _ (Grid.mem_walkers he.stands)).1 hs
  calc estimate level.start
      ≤ estimate (program.run level.world).world.walker + program.length := hb
    _ = program.length := by rw [hz, Nat.zero_add]

end Level

end Mazewalk
