import Mazewalk.Proofs.Run.Meaning

/-!
# Where a run is in its program

A cursor carries the place of its instruction and the instructions ahead, and nothing in its type
says that the two belong together.  In a run they do: `c.StandsIn program` says that the
instructions ahead are those which the program has from the place on, that a loop is the one which
it has there, and that no more rounds are counted than its wrapper allows.  One turn keeps this
(`StandsIn.next`), and so does every step.

The place never goes back.  A turn is made on behalf of the place where the cursor stands, and the
cursor stands there or further on afterwards (`Cursor.index?_next`).  So the place that a run shows
parts its record: the steps so far come from places up to it, and those to come from places not
before it.  When no place is shown there is nothing to come, not even a warning.
`Run.located_advance` says this of every moment of every run.
-/

namespace Mazewalk

theorem Program.drop_succ_of_drop {program rest : Program} {i : Nat} {x : Instruction}
    (h : program.drop i = x :: rest) : i + 1 ≤ program.length ∧ program.drop (i + 1) = rest := by
  refine ⟨?_, ?_⟩
  · have hl := congrArg List.length h
    rw [List.length_drop, List.length_cons] at hl
    omega
  · rw [← List.drop_drop, h]
    rfl

theorem Program.add_two_le_of_drop {program rest : Program} {i : Nat} {x y : Instruction}
    (h : program.drop i = x :: y :: rest) : i + 2 ≤ program.length :=
  (drop_succ_of_drop (drop_succ_of_drop h).2).1

theorem Program.length_le_of_drop {program rest : Program} {i : Nat}
    (h : program.drop i = rest) : rest.length ≤ program.length := by
  rw [← h, List.length_drop]
  exact Nat.sub_le _ _

/-- Where the cursor is when the turn is over, unless it has found the end of the program. -/
def Move.next? : Move → Option Cursor
  | act _ _ next => some next
  | pass _ next => some next
  | stop => none

namespace Cursor

/-- The cursor stands in the program: what it carries is what the program has at its place. -/
inductive StandsIn (program : Program) : Cursor → Prop
  | ready {i : Nat} {rest : Program} (hi : i ≤ program.length) (hd : program.drop i = rest) :
      StandsIn program (.ready i rest)
  | repeating {i remaining : Nat} {a : Action} {rest : Program} (count : Count)
      (hd : program.drop i = .wrap (.times count) :: .act a :: rest)
      (hr : remaining ≤ count.val) : StandsIn program (.repeating i a remaining rest)
  | looping {i done : Nat} {a : Action} {c : Condition} {rest : Program} (ceiling : Count)
      (hd : program.drop i = .wrap (.whilst c ceiling) :: .act a :: rest)
      (hr : done ≤ ceiling.val) : StandsIn program (.looping i a c ceiling.val done rest)
  | stopped : StandsIn program .stopped

variable {program : Program} {c d : Cursor} {w : World}

/-! ### One turn -/

/-- Past the instruction at its place a cursor stands in the program. -/
theorem StandsIn.past {rest : Program} {i : Nat} {x : Instruction}
    (h : program.drop i = x :: rest) : (Cursor.ready (i + 1) rest).StandsIn program :=
  .ready (Program.drop_succ_of_drop h).1 (Program.drop_succ_of_drop h).2

/-- Past a loop a cursor stands in the program. -/
theorem StandsIn.pastLoop {rest : Program} {i : Nat} {x y : Instruction}
    (h : program.drop i = x :: y :: rest) : (Cursor.ready (i + 2) rest).StandsIn program :=
  .past (Program.drop_succ_of_drop h).2

theorem StandsIn.enter {rest : Program} {i : Nat} {v : Wrapper} {a : Action}
    (h : program.drop i = .wrap v :: .act a :: rest) : (v.enter i a rest).StandsIn program := by
  cases v with
  | times count => exact .repeating count h (Nat.le_refl _)
  | whilst c ceiling => exact .looping ceiling h (Nat.zero_le _)

/-- **A turn keeps the cursor in the program.** -/
theorem StandsIn.next (h : c.StandsIn program) (hm : (c.move w).next? = some d) :
    d.StandsIn program := by
  cases h with
  | @ready i rest hi hd =>
    match rest with
    | [] => cases hm
    | .act a :: rest =>
      cases hm
      exact .past hd
    | [.wrap v] =>
      cases hm
      exact .past hd
    | .wrap v :: .wrap u :: rest =>
      cases hm
      exact .past hd
    | .wrap v :: .act a :: rest =>
      cases hm
      exact .enter hd
  | @repeating i remaining a rest count hd hr =>
    cases remaining with
    | zero =>
      cases hm
      exact .pastLoop hd
    | succ remaining =>
      cases hm
      exact .repeating count hd (Nat.le_of_succ_le hr)
  | @looping i done a c rest ceiling hd hr =>
    rw [move] at hm
    split at hm
    · cases hm
      exact .pastLoop hd
    · split at hm
      · cases hm
        exact .pastLoop hd
      · cases hm
        exact .looping ceiling hd (by omega)
  | stopped => cases hm

theorem StandsIn.lt_length {i : Nat} (h : c.StandsIn program) (hi : c.index? = some i) :
    i < program.length := by
  cases h with
  | @ready k rest _ hd =>
    cases rest with
    | nil => cases hi
    | cons x rest =>
      obtain rfl : k = i := Option.some.inj hi
      exact (Program.drop_succ_of_drop hd).1
  | @repeating k _ _ _ count hd _ =>
    obtain rfl : k = i := Option.some.inj hi
    exact (Program.drop_succ_of_drop hd).1
  | @looping k _ _ _ _ ceiling hd _ =>
    obtain rfl : k = i := Option.some.inj hi
    exact (Program.drop_succ_of_drop hd).1
  | stopped => cases hi

theorem move_eq_stop_iff : c.move w = .stop ↔ c.index? = none := by
  fun_cases Cursor.move w c <;> simp [index?]

theorem index?_of_act {i : Nat} {a : Action} (hm : c.move w = .act i a d) :
    c.index? = some i := by
  revert hm
  fun_cases Cursor.move w c <;> intro hm <;> cases hm <;> rfl

theorem le_of_index?_ready {rest : Program} {i j : Nat}
    (h : (Cursor.ready i rest).index? = some j) : i ≤ j := by
  cases rest with
  | nil => cases h
  | cons x rest => exact Nat.le_of_eq (Option.some.inj h)

theorem index?_enter (v : Wrapper) (i : Nat) (a : Action) (rest : Program) :
    (v.enter i a rest).index? = some i := by
  cases v <;> rfl

/-- **The place never goes back**, and a turn is made only where there is one. -/
theorem index?_next (hm : (c.move w).next? = some d) :
    ∃ i, c.index? = some i ∧ ∀ j, d.index? = some j → i ≤ j := by
  revert hm
  fun_cases Cursor.move w c <;> intro hm <;> cases hm <;> refine ⟨_, rfl, fun j hj => ?_⟩
  -- inside a loop the cursor stays where it is, and else it is ready further on
  case case4.refl v a rest =>
    rw [index?_enter] at hj
    exact Nat.le_of_eq (Option.some.inj hj)
  case case8.refl => exact Nat.le_of_eq (Option.some.inj hj)
  case case11.refl => exact Nat.le_of_eq (Option.some.inj hj)
  all_goals
    have hle := le_of_index?_ready hj
    omega

end Cursor

namespace Run

variable {program : Program} {r s : Run}

/-! ### One step -/

theorem standsIn_step (h : r.cursor.StandsIn program) : r.step.2.cursor.StandsIn program := by
  induction r using Run.step.induct with
  | case1 r i a c hm =>
    rw [step_of_act hm]
    exact h.next (by rw [hm]; rfl)
  | case2 r w c hm ih =>
    rw [step_of_pass hm]
    refine ih ?_
    rw [cursor_pass]
    exact h.next (by rw [hm]; rfl)
  | case3 r hm =>
    rw [step_of_stop hm]
    exact .stopped

/-- A step comes from the place of the cursor or from one further on, and the cursor stands there
or further on afterwards. -/
theorem index?_step {e : Step} (h : r.step = (some e, s)) :
    ∃ i, r.cursor.index? = some i ∧ i ≤ e.index ∧ ∀ j, s.cursor.index? = some j → e.index ≤ j := by
  induction r using Run.step.induct with
  | case1 r i a c hm =>
    rw [step_of_act hm] at h
    obtain ⟨rfl, rfl⟩ := by simpa using h
    have hn : (r.cursor.move r.world).next? = some c := by rw [hm]; rfl
    obtain ⟨k, hk, hj⟩ := Cursor.index?_next hn
    obtain rfl : i = k := Option.some.inj ((Cursor.index?_of_act hm).symm.trans hk)
    exact ⟨i, hk, Nat.le_refl i, hj⟩
  | case2 r w c hm ih =>
    rw [step_of_pass hm] at h
    have hn : (r.cursor.move r.world).next? = some c := by rw [hm]; rfl
    obtain ⟨i, hi, hj⟩ := Cursor.index?_next hn
    obtain ⟨k, hk, hle, hs⟩ := ih h
    rw [cursor_pass] at hk
    exact ⟨i, hi, Nat.le_trans (hj k hk) hle, hs⟩
  | case3 r hm =>
    rw [step_of_stop hm] at h
    simp at h

theorem index?_of_isFinished (h : r.isFinished = true) : r.cursor.index? = none := by
  rw [isFinished, beq_iff_eq] at h
  rw [h]
  rfl

/-- Where no place is shown a step only finds the program exhausted. -/
theorem step_of_index?_eq_none (h : r.cursor.index? = none) : r.step = (none, r.stop) :=
  step_of_stop (Cursor.move_eq_stop_iff.2 h)

/-! ### Many steps -/

theorem standsIn_advance (h : r.cursor.StandsIn program) (n : Nat) :
    (r.advance n).cursor.StandsIn program := by
  induction n with
  | zero => exact h
  | succ n ih =>
    rw [advance_succ]
    exact standsIn_step ih

theorem standsIn_start (program : Program) (world : World) :
    (start program world).cursor.StandsIn program :=
  .ready (Nat.zero_le _) rfl

/-- The steps so far come from places up to the one that is shown. -/
def Behind (r : Run) : Prop :=
  ∀ i, r.cursor.index? = some i → ∀ e ∈ r.trace, e.index ≤ i

theorem Behind.step (h : r.Behind) : r.step.2.Behind := by
  intro i hi
  cases hs : r.step with
  | mk e s =>
    rw [hs] at hi
    cases e with
    | none =>
      rw [index?_of_isFinished (step_eq_none hs).1] at hi
      cases hi
    | some e =>
      obtain ⟨k, hk, hle, hj⟩ := index?_step hs
      have he : e.index ≤ i := hj i hi
      rw [(step_eq_some hs).1]
      intro d hd
      rcases Array.mem_push.1 hd with hd | rfl
      · exact Nat.le_trans (h k hk d hd) (Nat.le_trans hle he)
      · exact he

theorem Behind.advance (h : r.Behind) (n : Nat) : (r.advance n).Behind := by
  induction n with
  | zero => exact h
  | succ n ih =>
    rw [advance_succ]
    exact ih.step

theorem behind_start (program : Program) (world : World) : (start program world).Behind := by
  intro i _ e he
  simp [start] at he

/-- **However far the run is stepped, the place does not go back.** -/
theorem le_of_index?_advance {i j n : Nat} (hi : r.cursor.index? = some i)
    (hj : (r.advance n).cursor.index? = some j) : i ≤ j := by
  induction n generalizing j with
  | zero => exact Nat.le_of_eq (Option.some.inj (hi.symm.trans hj))
  | succ n ih =>
    rw [advance_succ] at hj
    cases hs : (r.advance n).step with
    | mk e s =>
      rw [hs] at hj
      cases e with
      | none =>
        rw [index?_of_isFinished (step_eq_none hs).1] at hj
        cases hj
      | some e =>
        obtain ⟨k, hk, hle, hs⟩ := index?_step hs
        exact Nat.le_trans (ih hk) (Nat.le_trans hle (hs j hj))

/-- Where no place is shown, stepping changes nothing but that the run is known to be finished. -/
theorem advance_of_index?_eq_none (h : r.cursor.index? = none) (n : Nat) :
    (r.advance n).cursor.index? = none ∧ (r.advance n).warnings = r.warnings := by
  induction n with
  | zero => exact ⟨h, rfl⟩
  | succ n ih =>
    obtain ⟨hi, hw⟩ := ih
    rw [advance_succ, step_of_index?_eq_none hi]
    exact ⟨rfl, hw⟩

/-- The place that a run shows is one of the program and parts the record of the run. -/
structure Located (program : Program) (r : Run) : Prop where
  inside : ∀ i, r.cursor.index? = some i → i < program.length
  behind : ∀ i, r.cursor.index? = some i → ∀ e ∈ r.trace, e.index ≤ i
  /-- The answer of any later call of `step` does not come from before the place. -/
  ahead : ∀ i, r.cursor.index? = some i → ∀ n e, (r.advance n).step.1 = some e → i ≤ e.index
  /-- When no place is shown, no later call of `step` answers or warns. -/
  exhausted : r.cursor.index? = none →
    ∀ n, (r.advance n).step.1 = none ∧ (r.advance n).warnings = r.warnings
  finished : r.isFinished = true → r.cursor.index? = none

/-- **The place that a run shows is never misleading**, however far the run has been stepped. -/
theorem located_advance (program : Program) (world : World) (n : Nat) :
    ((start program world).advance n).Located program := by
  refine ⟨fun i hi => ?_, ?_, fun i hi k e he => ?_, fun hi k => ?_, index?_of_isFinished⟩
  · exact (standsIn_advance (standsIn_start program world) n).lt_length hi
  · exact (behind_start program world).advance n
  · obtain ⟨j, hj, hle, -⟩ := index?_step (Prod.ext he rfl)
    exact Nat.le_trans (le_of_index?_advance hi hj) hle
  · obtain ⟨hk, hw⟩ := advance_of_index?_eq_none hi k
    rw [step_of_index?_eq_none hk]
    exact ⟨rfl, hw⟩

end Run

end Mazewalk
