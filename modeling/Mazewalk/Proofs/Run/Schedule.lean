import Mathlib.Data.List.ReduceOption
import Mazewalk.Proofs.Run.Stepping

/-!
# Any schedule will do

Whoever holds a run may call `step` when and as often as it likes, look at the run in between, and
finish it at any time.  Nothing of this shows in the outcome: `onSchedule` says what there is to
see after `n` calls, for every `n`, and it is the first `n` entries of the trace that
`Program.run` gives.

The first call that answers nothing is the one after the last entry.  It may still leave warnings,
those about wrappers that govern nothing at the end of the program, but the calls after it change
nothing at all.
-/

namespace Mazewalk.Run

/-- What the first `n` calls of `step` answer, one after another. -/
def answers (r : Run) (n : Nat) : List (Option Step) :=
  (List.range n).map fun k => (r.advance k).step.1

theorem reduceOption_getElem? (l : List Step) (n : Nat) :
    ((List.range n).map fun k => l[k]?).reduceOption = l.take n := by
  induction n with
  | zero => rfl
  | succ n ih =>
    rw [List.range_succ, List.map_append, List.reduceOption_append, ih, List.take_add_one,
      List.map_singleton, List.reduceOption_singleton]

theorem reduceOption_answers (program : Program) (world : World) (n : Nat) :
    ((start program world).answers n).reduceOption = (program.run world).trace.toList.take n := by
  rw [← reduceOption_getElem?, answers]
  simp only [fst_step_advance, Array.getElem?_toList]

theorem walker_of_getElem?_answers {r : Run} {n k : Nat} {e : Step}
    (h : (r.answers n)[k]? = some (some e)) : e.walker = (r.advance (k + 1)).world.walker := by
  rw [answers, List.getElem?_map, Option.map_eq_some_iff] at h
  obtain ⟨j, hj, he⟩ := h
  obtain ⟨_, rfl⟩ := List.getElem?_eq_some_iff.1 hj
  rw [List.getElem_range] at he
  have hs : (r.advance k).step = (some e, (r.advance k).step.2) := Prod.ext he rfl
  exact (step_eq_some hs).2.2.1

/-- A run that has answered nothing once stands still. -/
theorem step_advance_of_lt {program : Program} {world : World} {n : Nat}
    (h : (program.run world).trace.size < n) :
    ((start program world).advance n).step = (none, (start program world).advance n) := by
  obtain ⟨m, rfl⟩ : ∃ m, n = m + 1 := ⟨n - 1, by omega⟩
  have hn : ((start program world).advance m).step.1 = none := by
    rw [fst_step_advance, Array.getElem?_eq_none (by omega)]
  have hs : ((start program world).advance m).step =
      (none, ((start program world).advance m).step.2) := Prod.ext hn rfl
  exact step_of_isFinished (step_eq_none hs).1

/-- What a run of the program shows after `n` calls of `step`. -/
structure OnSchedule (program : Program) (world : World) (n : Nat) : Prop where
  /-- Finished now, the run comes to the same end as one that was finished at once. -/
  finish : ((start program world).advance n).finish = program.run world
  /-- The steps answered are the first `n` of the whole trace, or all of it. -/
  answers : ((start program world).answers n).reduceOption =
    (program.run world).trace.toList.take n
  /-- They are also what the run itself has in its trace. -/
  trace : ((start program world).advance n).trace.toList =
    (program.run world).trace.toList.take n
  /-- A step shows the walker as it is after the call that has answered it. -/
  shown : ∀ k e, ((start program world).answers n)[k]? = some (some e) →
    e.walker = ((start program world).advance (k + 1)).world.walker
  /-- The next call answers nothing exactly if the whole trace has been answered. -/
  exhausted : ((start program world).advance n).step.1 = none ↔
    (program.run world).trace.size ≤ n
  /-- After a call that has answered nothing, no call changes anything. -/
  still : (program.run world).trace.size < n →
    ((start program world).advance n).step = (none, (start program world).advance n)

/-- **Stepping does not depend on the schedule.**  After any number of calls a run shows so much
of the one trace, and comes to the one end. -/
theorem onSchedule (program : Program) (world : World) (n : Nat) :
    OnSchedule program world n where
  finish := finish_advance (start program world) n
  answers := reduceOption_answers program world n
  trace := trace_advance_start program world n
  shown _ _ := walker_of_getElem?_answers
  exhausted := by rw [fst_step_advance, Array.getElem?_eq_none_iff]
  still := step_advance_of_lt

end Mazewalk.Run
