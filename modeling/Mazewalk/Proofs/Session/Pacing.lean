import Mazewalk.Proofs.Run.Stepping
import Mazewalk.Proofs.Session.History

/-!
# Pacing changes nothing

A session plays its program one tick at a time, and at any time it can be restarted, sent on or
ticked once more.  `Level.play` runs the program at once.  This file shows that the player sees
the same: whatever the history of the session, `k` ticks after a run last began it shows the
walker of the `k`-th entry of the play, and from one tick after the last entry on it shows the
outcome of the play (`inStep_after`).

The run in progress is kept in one field of the session, what is drawn of it in another and the
outcome in a third.  `Paced s k` is the invariant that ties them together: the run is the run of
the level stepped `k` times, or it has been scored.  A tick raises `k` by one
(`Paced.tick`), a beginning sets it to zero (`paced_restart`), and the other events do not touch
the three fields.
-/

namespace Mazewalk

open Session

theorem Level.size_trace_begin (level : Level) (program : Program) :
    (level.begin program).trace.size = 0 := rfl

namespace Session

/-- The number of actions that the program performs on the current level. -/
def steps (s : Session) : Nat :=
  (s.level.play s.program).trace.size

/-- The run of the program on the current level after `k` steps. -/
def runAt (s : Session) (k : Nat) : Run :=
  (s.level.begin s.program).advance k

/-- `k` ticks after its beginning the run goes on or, once its actions are used up, has been
scored. -/
def Paced (s : Session) (k : Nat) : Prop :=
  (k ≤ s.steps ∧ s.run? = some (s.runAt k) ∧ s.outcome? = none ∧ s.world = (s.runAt k).world) ∨
  (s.steps < k ∧ s.run? = none ∧ s.outcome? = some (s.level.play s.program) ∧
    s.world = (s.runAt s.steps).world)

/-! ### One event -/

theorem paced_restart (s : Session) : s.restart.Paced 0 :=
  Or.inl ⟨Nat.zero_le _, rfl, rfl, rfl⟩

/-- A step of the run gives something exactly as long as there are actions left. -/
theorem fst_step_runAt (s : Session) (k : Nat) :
    (s.runAt k).step.1 = (s.level.play s.program).trace[k]? :=
  Run.fst_step_advance s.program s.level.world k

/-- A run that has no action left is scored as the whole play. -/
theorem Paced.outcome_eq_play {s : Session} {k : Nat} (h : s.Paced k) {r t : Run}
    (hr : s.run? = some r) (ht : r.step = (none, t)) :
    s.level.outcome s.program.length t.finish = s.level.play s.program := by
  obtain ⟨-, hr', -⟩ | ⟨-, hr', -⟩ := h
  · obtain rfl : s.runAt k = r := Option.some.inj (hr'.symm.trans hr)
    have hf := Run.finish_step (s.runAt k)
    rw [ht, runAt, Run.finish_advance] at hf
    rw [hf]
    rfl
  · rw [hr'] at hr
    cases hr

/-- **A tick is a step.** -/
theorem Paced.tick {s : Session} {k : Nat} (h : s.Paced k) : s.tick.Paced (k + 1) := by
  have hp := h
  obtain ⟨hk, hr, ho, hw⟩ | ⟨hk, hr, ho, hw⟩ := h
  · have hs := fst_step_runAt s k
    obtain ⟨hn, -⟩ | ⟨r, e, t, hr', ht, h⟩ | ⟨r, t, hr', ht, h⟩ := s.tick_cases
    · rw [hn] at hr
      cases hr
    · obtain rfl : s.runAt k = r := Option.some.inj (hr.symm.trans hr')
      rw [ht] at hs
      have hlt := (Array.getElem?_eq_some_iff.1 hs.symm).1
      have hn : t = s.runAt (k + 1) := by rw [runAt, Run.advance_succ, ← runAt, ht]
      rw [h, hn]
      exact Or.inl ⟨hlt, rfl, ho, rfl⟩
    · obtain rfl : s.runAt k = r := Option.some.inj (hr.symm.trans hr')
      rw [ht] at hs
      have hle : s.steps ≤ k := Array.getElem?_eq_none_iff.1 hs.symm
      rw [h]
      refine Or.inr ⟨Nat.lt_succ_of_le hle, rfl, congrArg some (hp.outcome_eq_play hr' ht), ?_⟩
      obtain rfl : k = s.steps := Nat.le_antisymm hk hle
      exact hw
  · obtain ⟨-, h⟩ | ⟨r, e, t, hr', -⟩ | ⟨r, t, hr', -⟩ := s.tick_cases
    · rw [h]
      exact Or.inr ⟨by omega, hr, ho, hw⟩
    · rw [hr] at hr'
      cases hr'
    · rw [hr] at hr'
      cases hr'

/-- **Every event keeps the pace.** -/
theorem Paced.apply {s : Session} {k : Nat} (h : s.Paced k) (e : Event) :
    (s.apply e).Paced (s.ticksAfter k e) := by
  cases e with
  | restart => exact paced_restart s
  | tick => exact h.tick
  | quit => exact h
  | next =>
    show s.next.Paced (if s.next.current = s.current then k else 0)
    obtain ⟨hn, -, he⟩ | ⟨-, n, he⟩ := s.next_cases
    · have hc : s.next.current = s.current + 1 := by rw [he]; rfl
      rw [if_neg (by omega), he]
      exact paced_restart _
    · have hc : s.next.current = s.current := by rw [he]
      rw [if_pos hc, he]
      exact h

theorem Paced.after {s : Session} {k : Nat} (h : s.Paced k) (events : List Event) :
    (s.after events).Paced (s.ticksFrom k events) := by
  induction events generalizing s k with
  | nil => exact h
  | cons e events ih => exact ih (h.apply e)

/-- The walker that is drawn `k` ticks after the beginning of a run. -/
theorem walker_runAt {s : Session} {k : Nat} (hk : k ≤ s.steps) :
    (s.level.start :: (s.level.play s.program).trace.toList.map Step.walker)[k]? =
      some (s.runAt k).world.walker := by
  have h : (s.level.begin s.program).trace.size + k ≤ s.steps := by
    rwa [Level.size_trace_begin, Nat.zero_add]
  exact Run.walker_advance h

theorem walker_play (s : Session) :
    (s.level.play s.program).walker = (s.runAt s.steps).world.walker := by
  have h : s.steps ≤ 0 + s.steps := Nat.le_add_left _ _
  rw [runAt, Run.world_advance (r := s.level.begin s.program) h]
  rfl

/-! ### What the player sees -/

/-- What a session shows `k` ticks after it began to play a program on a level. -/
structure InStep (s : Session) (level : Level) (program : Program) (k : Nat) : Prop where
  /-- There is a run in progress or an outcome, and never both. -/
  one : s.run?.isSome = !s.outcome?.isSome
  /-- What is drawn is the world of the run in progress. -/
  drawn : ∀ r, s.run? = some r → s.world = r.world
  /-- An outcome is that of the whole play, and its walker is the one still drawn. -/
  outcome : ∀ o, s.outcome? = some o → o = level.play program ∧ o.walker = s.world.walker
  /-- As long as the actions last there is no outcome, and the walker drawn is that of the
  `k`-th entry of the play, or the start. -/
  playing : k ≤ (level.play program).trace.size → s.outcome? = none ∧
    (level.start :: (level.play program).trace.toList.map Step.walker)[k]? = some s.world.walker
  /-- From the next tick on there is the outcome, and no tick changes anything. -/
  played : (level.play program).trace.size < k →
    s.outcome? = some (level.play program) ∧ s.tick = s

theorem Paced.inStep {s : Session} {k : Nat} (h : s.Paced k) :
    s.InStep s.level s.program k := by
  obtain ⟨hk, hr, ho, hw⟩ | ⟨hk, hr, ho, hw⟩ := h
  · refine ⟨by rw [hr, ho]; rfl, ?_, ?_, ?_, ?_⟩
    · intro r hr'
      rw [hr] at hr'
      rw [hw, Option.some.inj hr']
    · intro o ho'
      rw [ho] at ho'
      cases ho'
    · intro _
      rw [hw]
      exact ⟨ho, walker_runAt hk⟩
    · intro hk'
      exact absurd hk (Nat.not_le_of_lt hk')
  · refine ⟨by rw [hr, ho]; rfl, ?_, ?_, ?_, ?_⟩
    · intro r hr'
      rw [hr] at hr'
      cases hr'
    · intro o ho'
      obtain rfl := Option.some.inj (ho.symm.trans ho')
      rw [hw]
      exact ⟨rfl, walker_play s⟩
    · intro hk'
      exact absurd hk' (Nat.not_le_of_lt hk)
    · intro _
      exact ⟨ho, by rw [Session.tick, hr]⟩

end Session

/-- **Pacing never changes the outcome.**  Whatever happens after the start of a session, it
stays among its levels, and as many ticks after a run last began as there have been, it shows
that much of the play of the program on the current level. -/
theorem inStep_after (levels : List Level) (first : Nat) (program : Program)
    (h : first < levels.length) (events : List Event) :
    ∃ level, levels[((start levels first program h).after events).current]? = some level ∧
      ((start levels first program h).after events).InStep level program
        ((start levels first program h).ticks events) := by
  have hp : (start levels first program h).Paced 0 := paced_restart _
  have hc := getElem?_current ((start levels first program h).after events)
  have hi := (hp.after events).inStep
  rw [levels_after] at hc
  rw [program_after] at hi
  exact ⟨_, hc, hi⟩

/-- A start with a goal on its right, and nothing else. -/
def Level.hall (id : LevelId) : Level where
  id := id
  name := "Hall"
  description := ""
  grid := ⟨2, 1, #[⟨.start, false⟩, ⟨.goal, false⟩]⟩
  start := ⟨⟨0, 0⟩, .right, false⟩
  palette := [.forward]
  par := 1
  passable_start := by decide
  par_ne_zero := by decide
  palette_ne_nil := by decide
  palette_sorted := by decide

/-- A session in the first of two halls. -/
def Session.halls : Session :=
  start [Level.hall 1, Level.hall 2] 0 [.act .forward] (by decide)

/-- The first hall is begun twice and passed, and the walk goes on in the second. -/
theorem inStep_after_halls :
    0 < [Level.hall 1, Level.hall 2].length ∧
      ∃ level, [Level.hall 1, Level.hall 2][(halls.after
          [.tick, .restart, .next, .tick, .tick, .next, .tick, .quit]).current]? = some level ∧
        (halls.after [.tick, .restart, .next, .tick, .tick, .next, .tick, .quit]).InStep level
          [.act .forward]
          (halls.ticks [.tick, .restart, .next, .tick, .tick, .next, .tick, .quit]) :=
  ⟨by decide, inStep_after [Level.hall 1, Level.hall 2] 0 [.act .forward] (by decide)
    [.tick, .restart, .next, .tick, .tick, .next, .tick, .quit]⟩

end Mazewalk
