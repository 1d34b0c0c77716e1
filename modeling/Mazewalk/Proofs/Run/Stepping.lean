import Mazewalk.Run

/-!
# Runs, one step at a time

`Run.step` and `Run.finish` both follow the turns of the cursor, one to the next action and the
other to the end of the program.  This file joins them.  A run that is stepped ends like a run
that is finished at once (`finish_step`), the record only grows (`trace_prefix_finish`), and so
the step that a run makes next is the entry of the finished trace that its own trace still
lacks:

    r.step.1 = r.finish.trace[r.trace.size]?

(`fst_step`).  Everything about pacing follows from that one equation: `advance n` calls `step`
`n` times, and `trace_advance` says what is then in the trace.  `Drains` is a run that is stepped
until nothing is left, and `drains_finish` says that this is what `finish` does.
-/

namespace Mazewalk.Run

/-- The world and the record of a run as they stand. -/
def walk (r : Run) : Walk :=
  ⟨r.world, r.trace, r.warnings⟩

/-! ### One turn of the cursor -/

theorem step_of_act {r : Run} {i : Nat} {a : Action} {c : Cursor}
    (h : r.cursor.move r.world = .act i a c) : r.step = (some (r.stepOf i a), r.perform i a c) := by
  rw [step]
  split <;> simp_all

theorem step_of_pass {r : Run} {w : Option Warning} {c : Cursor}
    (h : r.cursor.move r.world = .pass w c) : r.step = (r.pass w c).step := by
  rw [step]
  split <;> simp_all

theorem step_of_stop {r : Run} (h : r.cursor.move r.world = .stop) : r.step = (none, r.stop) := by
  rw [step]
  split <;> simp_all

theorem finish_of_act {r : Run} {i : Nat} {a : Action} {c : Cursor}
    (h : r.cursor.move r.world = .act i a c) : r.finish = (r.perform i a c).finish := by
  rw [finish]
  split <;> simp_all

theorem finish_of_pass {r : Run} {w : Option Warning} {c : Cursor}
    (h : r.cursor.move r.world = .pass w c) : r.finish = (r.pass w c).finish := by
  rw [finish]
  split <;> simp_all

theorem finish_of_stop {r : Run} (h : r.cursor.move r.world = .stop) : r.finish = r.walk := by
  rw [finish]
  split <;> simp_all [walk]

/-! ### One step -/

/-- **What a step does.**  It adds the entry that it gives to the trace, the action of that entry
is what happened to the world, and the entry shows the walker as it is then. -/
theorem step_eq_some {r s : Run} {e : Step} (h : r.step = (some e, s)) :
    s.trace = r.trace.push e ∧ s.world = r.world.act e.action ∧ e.walker = s.world.walker ∧
      s.finish = r.finish := by
  induction r using Run.step.induct with
  | case1 r i a c hm =>
    rw [step_of_act hm] at h
    obtain ⟨rfl, rfl⟩ := by simpa using h
    exact ⟨rfl, rfl, rfl, (finish_of_act hm).symm⟩
  | case2 r w c hm ih =>
    rw [step_of_pass hm] at h
    obtain ⟨ht, hw, he, hf⟩ := ih h
    rw [trace_pass] at ht
    rw [world_pass] at hw
    exact ⟨ht, hw, he, hf.trans (finish_of_pass hm).symm⟩
  | case3 r hm =>
    rw [step_of_stop hm] at h
    simp at h

/-- A step that gives nothing only finds the program exhausted. -/
theorem step_eq_none {r s : Run} (h : r.step = (none, s)) :
    s.isFinished = true ∧ s.world = r.world ∧ s.trace = r.trace ∧ s.walk = r.finish := by
  induction r using Run.step.induct with
  | case1 r i a c hm =>
    rw [step_of_act hm] at h
    simp at h
  | case2 r w c hm ih =>
    rw [step_of_pass hm] at h
    obtain ⟨hs, hw, ht, hf⟩ := ih h
    rw [trace_pass] at ht
    rw [world_pass] at hw
    exact ⟨hs, hw, ht, hf.trans (finish_of_pass hm).symm⟩
  | case3 r hm =>
    rw [step_of_stop hm] at h
    obtain rfl := by simpa using h
    exact ⟨rfl, rfl, rfl, (finish_of_stop hm).symm⟩

/-- A finished run stands still. -/
theorem step_of_isFinished {r : Run} (h : r.isFinished = true) : r.step = (none, r) := by
  obtain ⟨c, w, t, ws⟩ := r
  obtain rfl : c = .stopped := by simpa [isFinished] using h
  exact step_of_stop rfl

theorem finish_of_isFinished {r : Run} (h : r.isFinished = true) : r.finish = r.walk := by
  refine finish_of_stop ?_
  rw [show r.cursor = .stopped by simpa [isFinished] using h]
  rfl

/-- **Stepping changes nothing about the end.** -/
@[simp] theorem finish_step (r : Run) : r.step.2.finish = r.finish := by
  cases h : r.step with
  | mk e s =>
    cases e with
    | some e => exact (step_eq_some h).2.2.2
    | none =>
      obtain ⟨hs, -, -, hf⟩ := step_eq_none h
      rw [finish_of_isFinished hs, hf]

/-! ### The finished trace -/

theorem trace_prefix_finish (r : Run) : r.trace.toList <+: r.finish.trace.toList := by
  induction r using Run.finish.induct with
  | case1 r i a c hm ih =>
    rw [finish_of_act hm]
    refine List.IsPrefix.trans ?_ ih
    simp [perform]
  | case2 r w c hm ih =>
    rw [finish_of_pass hm]
    rwa [trace_pass] at ih
  | case3 r hm =>
    rw [finish_of_stop hm]
    exact List.prefix_rfl

/-- **The next step is the next entry of the finished trace**, if there is one. -/
theorem fst_step (r : Run) : r.step.1 = r.finish.trace[r.trace.size]? := by
  cases h : r.step with
  | mk e s =>
    cases e with
    | some e =>
      obtain ⟨ht, -, -, hf⟩ := step_eq_some h
      have hp := trace_prefix_finish s
      rw [hf, ht] at hp
      obtain ⟨rest, hr⟩ := hp
      rw [← Array.getElem?_toList, ← hr]
      simp
    | none =>
      obtain ⟨-, -, ht, hf⟩ := step_eq_none h
      rw [← hf]
      simp [walk, ht]

/-! ### Many steps -/

/-- The run after `step` has been called a number of times. -/
def advance (r : Run) : Nat → Run
  | 0 => r
  | n + 1 => (r.advance n).step.2

@[simp] theorem advance_zero (r : Run) : r.advance 0 = r := rfl

theorem advance_succ (r : Run) (n : Nat) : r.advance (n + 1) = (r.advance n).step.2 := rfl

/-- Stepping any number of times changes nothing about the end. -/
@[simp] theorem finish_advance (r : Run) (n : Nat) : (r.advance n).finish = r.finish := by
  induction n with
  | zero => rfl
  | succ n ih => rw [advance_succ, finish_step, ih]

/-- The trace after some steps is that much more of the finished trace. -/
theorem trace_advance (r : Run) (n : Nat) :
    (r.advance n).trace.toList = r.finish.trace.toList.take (r.trace.size + n) := by
  induction n with
  | zero => exact List.prefix_iff_eq_take.1 (trace_prefix_finish r)
  | succ n ih =>
    have hs : (r.advance n).trace.size = min (r.trace.size + n) r.finish.trace.size := by
      simpa using congrArg List.length ih
    have hf := fst_step (r.advance n)
    rw [finish_advance, hs] at hf
    rw [advance_succ]
    cases h : (r.advance n).step with
    | mk e s =>
      rw [h] at hf
      cases e with
      | some e =>
        obtain ⟨hlt, he⟩ := Array.getElem?_eq_some_iff.1 hf.symm
        rw [(step_eq_some h).1, Array.toList_push, ih, ← he]
        simp only [Nat.min_eq_left (show r.trace.size + n ≤ r.finish.trace.size by omega)]
        rw [← Nat.add_assoc, ← Array.getElem_toList, List.take_append_getElem]
      | none =>
        have hle := Array.getElem?_eq_none_iff.1 hf.symm
        rw [(step_eq_none h).2.2.1, ih, List.take_of_length_le (by simp; omega),
          List.take_of_length_le (by simp; omega)]

theorem size_trace_advance (r : Run) (n : Nat) :
    (r.advance n).trace.size = min (r.trace.size + n) r.finish.trace.size := by
  simpa using congrArg List.length (trace_advance r n)

/-- The trace of a run that has made `n` steps from the beginning is the first `n` entries of the
whole trace. -/
theorem trace_advance_start (program : Program) (world : World) (n : Nat) :
    ((start program world).advance n).trace.toList = (program.run world).trace.toList.take n := by
  have h := trace_advance (start program world) n
  rwa [show (start program world).trace.size = 0 from rfl, Nat.zero_add] at h

theorem trace_advance_append_drop (program : Program) (world : World) {m n : Nat} (h : m ≤ n) :
    ((start program world).advance m).trace.toList ++
        ((start program world).advance n).trace.toList.drop m =
      ((start program world).advance n).trace.toList := by
  have hm : ((start program world).advance m).trace.toList =
      ((start program world).advance n).trace.toList.take m := by
    rw [trace_advance_start, trace_advance_start, List.take_take, Nat.min_eq_left h]
  rw [hm, List.take_append_drop]

/-- The next step of a run that has made `n` steps from the beginning is entry `n` of the whole
trace. -/
theorem fst_step_advance (program : Program) (world : World) (n : Nat) :
    ((start program world).advance n).step.1 = (program.run world).trace[n]? := by
  have ht := congrArg List.length (trace_advance_start program world n)
  rw [List.length_take, Array.length_toList, Array.length_toList] at ht
  rw [fst_step, finish_advance, ht]
  show (program.run world).trace[min n (program.run world).trace.size]? = _
  by_cases hn : n ≤ (program.run world).trace.size
  · rw [Nat.min_eq_left hn]
  · rw [Array.getElem?_eq_none (by omega), Array.getElem?_eq_none (by omega)]

/-- Once the trace is complete the world is the final one. -/
theorem world_advance {r : Run} {n : Nat} (hn : r.finish.trace.size ≤ r.trace.size + n) :
    (r.advance n).world = r.finish.world := by
  have hf := fst_step (r.advance n)
  rw [finish_advance, size_trace_advance, Nat.min_eq_right hn] at hf
  rw [Array.getElem?_eq_none (Nat.le_refl _)] at hf
  have h : (r.advance n).step = (none, (r.advance n).step.2) := Prod.ext hf rfl
  obtain ⟨-, hw, -, hs⟩ := step_eq_none h
  rw [← hw, ← finish_advance r n, ← hs]
  rfl

/-- The walker before the first step and after each of them. -/
def walkers (r : Run) : List Walker :=
  r.world.walker :: (r.finish.trace.toList.drop r.trace.size).map Step.walker

/-- **After `n` steps the world shows the walker of the `n`-th entry.** -/
theorem walker_advance {r : Run} {n : Nat} (hn : r.trace.size + n ≤ r.finish.trace.size) :
    r.walkers[n]? = some (r.advance n).world.walker := by
  cases n with
  | zero => rfl
  | succ n =>
    have hf := fst_step (r.advance n)
    rw [finish_advance, size_trace_advance, Nat.min_eq_left (by omega)] at hf
    rw [advance_succ]
    cases h : (r.advance n).step with
    | mk e s =>
      rw [h] at hf
      cases e with
      | some e =>
        rw [walkers, List.getElem?_cons_succ, List.getElem?_map, List.getElem?_drop,
          Array.getElem?_toList, ← hf, Option.map_some, (step_eq_some h).2.2.1]
      | none =>
        have hle := Array.getElem?_eq_none_iff.1 hf.symm
        omega

/-! ### Draining a run -/

/-- `r.Drains s`: calling `step` until it gives nothing turns `r` into `s`. -/
inductive Drains : Run → Run → Prop
  | done {r s : Run} (h : r.step = (none, s)) : Drains r s
  | more {r s t : Run} {e : Step} (h : r.step = (some e, s)) (ht : Drains s t) : Drains r t

/-- **Draining comes to an end, and to the same end as `finish`.** -/
theorem drains_finish (r : Run) : ∃ s, r.Drains s ∧ s.isFinished = true ∧ s.walk = r.finish := by
  -- each entry of the finished trace that is still missing is one more step
  induction hn : r.finish.trace.size - r.trace.size generalizing r with
  | zero =>
    cases h : r.step with
    | mk e s =>
      have hf := fst_step r
      rw [h, Array.getElem?_eq_none (by omega)] at hf
      obtain rfl : e = none := hf
      obtain ⟨hs, -, -, hw⟩ := step_eq_none h
      exact ⟨s, .done h, hs, hw⟩
  | succ n ih =>
    cases h : r.step with
    | mk e s =>
      have hf := fst_step r
      rw [h, Array.getElem?_eq_getElem (by omega)] at hf
      obtain rfl : e = some _ := hf
      obtain ⟨ht, -, -, he⟩ := step_eq_some h
      obtain ⟨t, hd, hs, hw⟩ := ih s (by rw [he, ht, Array.size_push]; omega)
      exact ⟨t, .more h hd, hs, hw.trans he⟩

end Mazewalk.Run
