import Mazewalk.Proofs.Run.Composition
import Mazewalk.Proofs.Run.Places

/-!
# How long a run can take

One call of `step` makes turns until one of them performs an action or finds the end of the program.
`r.Turns cs o` says that the call comes by the cursors `cs`, one turn at each, and ends in `o`.
A turn without an action leaves exactly one place less to pass (`Cursor.passes_of_pass`), so the
turns of one call are bounded beforehand (`Turns.length_le`), a call without an answer takes exactly
as many (`Turns.length_of_none`), and no cursor is met twice (`Turns.nodup`).

A call that performs an action uses up one of the actions that are possible from the cursor on, so
the steps still to come are no more than these (`size_trace_finish_le`).  Written out, these are the
instructions from the place of the cursor on, the rounds left of the loop it is in, and all rounds
that the wrappers from there on allow (`Cursor.budget`).  Finishing a run takes as many calls as
there are steps to come, and one more (`walk_advance`).

All the numbers of a cursor stay in the range of the program and its counts (`Cursor.InRange`).
-/

namespace Mazewalk

/-- How many rounds the wrappers of a program allow all together. -/
def Program.rounds : Program → Nat
  | [] => 0
  | .act _ :: rest => rounds rest
  | .wrap w :: rest => w.rounds + rounds rest

theorem Program.actions_eq (program : Program) :
    program.actions = program.length + program.rounds := by
  induction program with
  | nil => rfl
  | cons x rest ih =>
    cases x <;> simp only [actions, rounds, List.length_cons, ih] <;> omega

namespace Cursor

/-- How many rounds are left of the loop that the cursor is in. -/
def left : Cursor → Nat
  | repeating _ _ remaining _ => remaining
  | looping _ _ _ ceiling done _ => ceiling - done
  | _ => 0

/-- What a run can do at most from a cursor on: the instructions from its place on, the rounds left
of the loop it is in, and the rounds that the wrappers from its place on allow. -/
def budget (program : Program) (c : Cursor) : Nat :=
  match c.index? with
  | none => 0
  | some i => (program.drop i).length + c.left + Program.rounds (program.drop i)

/-- The place is one of the program or its end, and rounds are counted in 32 bits. -/
def InRange (program : Program) : Cursor → Prop
  | ready i _ => i ≤ program.length
  | repeating i _ remaining _ => i + 2 ≤ program.length ∧ remaining < UInt32.size
  | looping i _ _ ceiling done _ =>
      i + 2 ≤ program.length ∧ done ≤ ceiling ∧ ceiling < UInt32.size
  | stopped => True

variable {program : Program} {c d : Cursor} {w : World}

theorem StandsIn.inRange (h : c.StandsIn program) : c.InRange program := by
  cases h with
  | ready hi _ => exact hi
  | repeating count hd hr =>
    exact ⟨Program.add_two_le_of_drop hd, Nat.lt_of_le_of_lt hr count.lt⟩
  | looping ceiling hd hr => exact ⟨Program.add_two_le_of_drop hd, hr, ceiling.lt⟩
  | stopped => trivial

theorem StandsIn.actions_le (h : c.StandsIn program) : c.actions ≤ c.budget program := by
  cases h with
  | @ready i rest _ hd =>
    cases rest with
    | nil => exact Nat.le_refl 0
    | cons x rest =>
      simp only [budget, index?, left, actions, hd, Program.actions_eq]
      omega
  | repeating count hd hr =>
    simp only [budget, index?, left, actions, hd, Program.actions_eq, Program.rounds,
      List.length_cons]
    omega
  | looping ceiling hd hr =>
    simp only [budget, index?, left, actions, hd, Program.actions_eq, Program.rounds,
      List.length_cons]
    omega
  | stopped => exact Nat.le_refl 0

theorem StandsIn.passes_le (h : c.StandsIn program) : c.passes ≤ program.length + 1 := by
  cases h with
  | ready _ hd => exact Nat.succ_le_succ (Program.length_le_of_drop hd)
  | repeating count hd _ => exact Nat.le_succ_of_le (Program.length_le_of_drop hd)
  | looping ceiling hd _ => exact Nat.le_succ_of_le (Program.length_le_of_drop hd)
  | stopped => exact Nat.zero_le _

theorem passes_le_one (h : c.index? = none) : c.passes ≤ 1 := by
  cases c with
  | ready i rest =>
    cases rest with
    | nil => exact Nat.le_refl 1
    | cons x rest => cases h
  | repeating => cases h
  | looping => cases h
  | stopped => exact Nat.zero_le 1

/-! ### One turn -/

/-- **A turn without an action leaves one place less to pass**, and there always remains one: the
end of the program. -/
theorem passes_of_pass {warning? : Option Warning} (h : c.move w = .pass warning? d) :
    0 < d.passes ∧ d.passes + 1 = c.passes := by
  revert h
  fun_cases Cursor.move w c <;> intro h <;> cases h
  case case4.refl v a rest =>
    rw [Wrapper.passes_enter]
    exact ⟨Nat.succ_pos _, rfl⟩
  all_goals exact ⟨Nat.succ_pos _, rfl⟩

/-- The numbers of a cursor are in range and stay so in its turn, and a round of a loop leaves
exactly one round less. -/
structure Counts (program : Program) (w : World) (c : Cursor) : Prop where
  now : c.InRange program
  next : ∀ d, (c.move w).next? = some d → d.InRange program
  round : ∀ i a d, c.move w = .act i a d → (∃ rest, c = .ready i rest) ∨ d.left + 1 = c.left

theorem left_of_act {i : Nat} {a : Action} (h : c.move w = .act i a d) :
    (∃ rest, c = .ready i rest) ∨ d.left + 1 = c.left := by
  revert h
  fun_cases Cursor.move w c <;> intro h <;> cases h
  case case3.refl rest => exact Or.inl ⟨_, rfl⟩
  case case8.refl => exact Or.inr rfl
  case case11.refl =>
    refine Or.inr ?_
    simp only [left]
    omega

theorem StandsIn.counts (h : c.StandsIn program) (w : World) : c.Counts program w :=
  ⟨h.inRange, fun _ hm => (h.next hm).inRange, fun _ _ _ => left_of_act⟩

end Cursor

namespace Run

/-- `r.Turns cs o`: one call of `step` on the run comes by these cursors, with a turn at each of
them, and ends in `o`, the answer and the run it leaves. -/
inductive Turns : Run → List Cursor → Option Step × Run → Prop
  | act {r : Run} {i : Nat} {a : Action} {c : Cursor} (h : r.cursor.move r.world = .act i a c) :
      Turns r [r.cursor] (some (r.stepOf i a), r.perform i a c)
  | pass {r : Run} {w : Option Warning} {c : Cursor} {cs : List Cursor} {o : Option Step × Run}
      (h : r.cursor.move r.world = .pass w c) (ht : Turns (r.pass w c) cs o) :
      Turns r (r.cursor :: cs) o
  | stop {r : Run} (h : r.cursor.move r.world = .stop) : Turns r [r.cursor] (none, r.stop)

variable {program : Program} {r s : Run} {cs : List Cursor} {o : Option Step × Run}

theorem exists_turns_step (r : Run) : ∃ cs, r.Turns cs r.step := by
  induction r using Run.step.induct with
  | case1 r i a c hm =>
    rw [step_of_act hm]
    exact ⟨_, .act hm⟩
  | case2 r w c hm ih =>
    rw [step_of_pass hm]
    obtain ⟨cs, hcs⟩ := ih
    exact ⟨_, .pass hm hcs⟩
  | case3 r hm =>
    rw [step_of_stop hm]
    exact ⟨_, .stop hm⟩

/-! ### The turns of one call -/

theorem Turns.length_le (h : r.Turns cs o) : cs.length ≤ max 1 r.cursor.passes := by
  induction h with
  | act hm => exact Nat.le_max_left _ _
  | @pass r w c cs o hm _ ih =>
    obtain ⟨hpos, hp⟩ := Cursor.passes_of_pass hm
    rw [cursor_pass] at ih
    rw [List.length_cons]
    omega
  | stop hm => exact Nat.le_max_left _ _

/-- A call that finds nothing to perform passes all that there is to pass. -/
theorem Turns.length_of_none (h : r.Turns cs (none, s)) (hr : 0 < r.cursor.passes) :
    cs.length = r.cursor.passes := by
  generalize ho : ((none, s) : Option Step × Run) = o at h
  induction h with
  | act hm => cases ho
  | @pass r w c cs o hm _ ih =>
    obtain ⟨hpos, hp⟩ := Cursor.passes_of_pass hm
    rw [cursor_pass] at ih
    rw [List.length_cons, ih hpos ho, hp]
  | @stop r hm =>
    have hle := Cursor.passes_le_one (Cursor.move_eq_stop_iff.1 hm)
    exact Nat.le_antisymm hr hle

theorem Turns.passes_le (h : r.Turns cs o) : ∀ c ∈ cs, c.passes ≤ r.cursor.passes := by
  induction h with
  | act hm => simp
  | @pass r w c cs o hm _ ih =>
    obtain ⟨-, hp⟩ := Cursor.passes_of_pass hm
    rw [cursor_pass] at ih
    intro d hd
    rcases List.mem_cons.1 hd with rfl | hd
    · exact Nat.le_refl _
    · have := ih d hd
      omega
  | stop hm => simp

/-- **A call does not come by the same cursor twice.** -/
theorem Turns.nodup (h : r.Turns cs o) : cs.Nodup := by
  induction h with
  | act hm => simp
  | @pass r w c cs o hm ht ih =>
    refine List.nodup_cons.2 ⟨fun hd => ?_, ih⟩
    obtain ⟨-, hp⟩ := Cursor.passes_of_pass hm
    have hle := ht.passes_le _ hd
    rw [cursor_pass] at hle
    omega
  | stop hm => simp

theorem Turns.standsIn (h : r.Turns cs o) (hr : r.cursor.StandsIn program) :
    ∀ c ∈ cs, c.StandsIn program := by
  induction h with
  | act hm => simpa using hr
  | @pass r w c cs o hm _ ih =>
    have hc := hr.next (d := c) (by rw [hm]; rfl)
    rw [cursor_pass] at ih
    exact List.forall_mem_cons.2 ⟨hr, ih hc⟩
  | stop hm => simpa using hr

/-! ### The calls of one run -/

/-- **The steps to come are no more than the actions possible from the cursor on.** -/
theorem size_trace_finish_le (r : Run) :
    r.finish.trace.size ≤ r.trace.size + r.cursor.actions := by
  induction r using Run.finish.induct with
  | case1 r i a c hm ih =>
    have hlt := Cursor.actions_lt_of_act hm
    rw [finish_of_act hm]
    simp only [perform, Array.size_push] at ih ⊢
    omega
  | case2 r w c hm ih =>
    have hle := Cursor.actions_le_of_pass hm
    rw [finish_of_pass hm]
    rw [trace_pass, cursor_pass] at ih
    omega
  | case3 r hm =>
    rw [finish_of_stop hm]
    exact Nat.le_add_right _ _

theorem size_trace_le (r : Run) : r.trace.size ≤ r.finish.trace.size := by
  simpa using (trace_prefix_finish r).length_le

variable {n : Nat}

/-- As long as there are steps to come, a call answers one. -/
theorem isSome_step_advance (h : r.trace.size + n < r.finish.trace.size) :
    (r.advance n).step.1.isSome = true := by
  rw [fst_step, finish_advance, size_trace_advance, Nat.min_eq_left (Nat.le_of_lt h),
    Array.getElem?_eq_getElem h]
  rfl

/-- **The call after the last step answers nothing and leaves the run finished.** -/
theorem walk_advance (h : r.trace.size + n = r.finish.trace.size) :
    (r.advance n).step.1 = none ∧ (r.advance (n + 1)).walk = r.finish := by
  have hn : (r.advance n).step.1 = none := by
    rw [fst_step, finish_advance, size_trace_advance, h, Nat.min_self,
      Array.getElem?_eq_none (Nat.le_refl _)]
  have hs : (r.advance n).step = (none, (r.advance n).step.2) := Prod.ext hn rfl
  obtain ⟨-, -, -, hw⟩ := step_eq_none hs
  rw [finish_advance] at hw
  exact ⟨hn, hw⟩

/-- Nothing about the run takes longer than its program says. -/
structure WindsDown (program : Program) (r : Run) : Prop where
  /-- The next call makes at most one turn for each instruction and one for the end, and no turn
  twice.  All the numbers on the way are in range. -/
  turns : ∃ cs, r.Turns cs r.step ∧ cs.length ≤ program.length + 1 ∧ cs.Nodup ∧
    ∀ c ∈ cs, c.Counts program r.world
  /-- Finishing the run takes one call for each step to come and one more, and the steps to come
  are no more than there is to do from the cursor on. -/
  calls : ∃ n, r.trace.size + n = r.finish.trace.size ∧
    (∀ k < n, (r.advance k).step.1.isSome = true) ∧ (r.advance n).step.1 = none ∧
    (r.advance (n + 1)).walk = r.finish ∧ n ≤ r.cursor.budget program

theorem windsDown_of_standsIn (h : r.cursor.StandsIn program) : r.WindsDown program := by
  refine ⟨?_, ?_⟩
  · obtain ⟨cs, hcs⟩ := r.exists_turns_step
    have hl := hcs.length_le
    have hp := h.passes_le
    exact ⟨cs, hcs, by omega, hcs.nodup, fun c hc => (hcs.standsIn h c hc).counts r.world⟩
  · obtain ⟨n, hn⟩ := Nat.exists_eq_add_of_le r.size_trace_le
    obtain ⟨hnone, hw⟩ := walk_advance hn.symm
    have hle := r.size_trace_finish_le
    have hb := h.actions_le
    exact ⟨n, hn.symm, fun k hk => isSome_step_advance (by omega), hnone, hw, by omega⟩

end Run

/-! ### Programs that do nothing -/

/-- In this world the program has nothing to perform: it is made of wrappers that govern nothing
and of guarded loops whose condition fails. -/
def Program.Idle (w : World) : Program → Prop
  | [] => True
  | .act _ :: _ => False
  | [.wrap _] => True
  | .wrap _ :: .wrap v :: rest => Idle w (.wrap v :: rest)
  | .wrap (.times _) :: .act _ :: _ => False
  | .wrap (.whilst c _) :: .act _ :: rest => c.holds w = false ∧ Idle w rest

theorem Run.fst_step_of_idle {rest : Program} {r : Run} {i : Nat}
    (hr : r.cursor = .ready i rest) (h : rest.Idle r.world) : r.step.1 = none := by
  induction rest using Program.ahead generalizing r i with
  | nil => rw [step_of_stop (by rw [hr]; rfl)]
  | act a rest ih => exact h.elim
  | dangling v =>
    have hm : r.cursor.move r.world = .pass (some (.dangling i)) (.ready (i + 1) []) := by
      rw [hr]
      rfl
    rw [step_of_pass hm, step_of_stop (by rw [cursor_pass]; rfl)]
  | nested v u rest ih =>
    have hm : r.cursor.move r.world =
        .pass (some (.nested i)) (.ready (i + 1) (.wrap u :: rest)) := by
      rw [hr]
      rfl
    rw [step_of_pass hm]
    refine ih (cursor_pass ..) ?_
    rw [world_pass]
    exact h
  | loop v a rest ih =>
    cases v with
    | times count => exact h.elim
    | whilst c ceiling =>
      obtain ⟨hc, hrest⟩ := h
      have hm : r.cursor.move r.world =
          .pass none ((Wrapper.whilst c ceiling).enter i a rest) := by
        rw [hr]
        rfl
      have hl : (r.pass none ((Wrapper.whilst c ceiling).enter i a rest)).cursor.move r.world =
          .pass none (.ready (i + 2) rest) :=
        Walk.move_looping_of_not_holds (by rw [hc]; exact Bool.false_ne_true)
      rw [step_of_pass hm, step_of_pass hl]
      exact ih rfl hrest

/-- **No run takes longer than its program says**, at any moment, and the number of turns that one
call may take is exact: a program with nothing to perform, however many wrappers and guarded loops
it has, is passed over in a single call. -/
theorem Program.windsDown (program : Program) (world : World) :
    (∀ n, ((Run.start program world).advance n).WindsDown program) ∧
      (program.Idle world → ∃ cs, (Run.start program world).Turns cs
        (none, (Run.start program world).step.2) ∧ cs.length = program.length + 1) := by
  refine ⟨fun n => ?_, fun h => ?_⟩
  · exact Run.windsDown_of_standsIn (Run.standsIn_advance (Run.standsIn_start program world) n)
  · obtain ⟨cs, hcs⟩ := (Run.start program world).exists_turns_step
    have hs : (Run.start program world).step = (none, (Run.start program world).step.2) :=
      Prod.ext (Run.fst_step_of_idle rfl h) rfl
    rw [hs] at hcs
    exact ⟨cs, hcs, hcs.length_of_none (Nat.succ_pos _)⟩

/-- The walker has come to the goal in the last of the three cells. -/
def arrived : World :=
  { Program.threeCells with walker := ⟨⟨2, 0⟩, .right, false⟩ }

/-- Six instructions, none of which has anything to do there. -/
def Program.allTalk : Program :=
  [.wrap (.times ⟨9, by decide, by decide⟩), .wrap (.whilst .notAtGoal ⟨6, by decide, by decide⟩),
    .act .pickup, .wrap (.whilst .pathAhead ⟨6, by decide, by decide⟩), .act .forward,
    .wrap (.times ⟨9, by decide, by decide⟩)]

theorem Program.windsDown_arrived :
    allTalk.Idle arrived ∧ ∃ cs, (Run.start allTalk arrived).Turns cs
      (none, (Run.start allTalk arrived).step.2) ∧ cs.length = 7 := by
  have hi : allTalk.Idle arrived := ⟨by decide, by decide, trivial⟩
  exact ⟨hi, (windsDown allTalk arrived).2 hi⟩

end Mazewalk
