import Mazewalk.Proofs.Run.Stepping

/-!
# What a program means

A run goes by turns of a cursor that stands inside loops, counts their rounds and carries the
instructions ahead.  A player reads a program in another way: by the place `i` of an instruction
in the list, with a loop as one thing that happens there.  `Program.meaning` is that reading,

* an action is performed and `i` grows by one;
* a wrapper without an action after it leaves a warning and `i` grows by one;
* a wrapper with an action after it performs all its rounds and `i` grows by two,

and `run_eq_meaning` says that the two agree in the world, the trace and the warnings.  The
cursor's rounds are counted up to the ceiling or down to zero, one turn each; `finish_repeating`
and `finish_looping` fold the turns of one loop together, and what is left is an induction on
the distance from `i` to the end of the program.
-/

namespace Mazewalk

namespace Walk

/-- The walk after one more action, on behalf of the instruction at place `i`. -/
def perform (s : Walk) (i : Nat) (a : Action) : Walk :=
  ⟨s.world.act a, s.trace.push ⟨i, a, (s.world.act a).walker⟩, s.warnings⟩

/-- The walk with one more warning. -/
def warn (s : Walk) (w : Warning) : Walk :=
  { s with warnings := s.warnings.push w }

/-- The walk after `n` rounds of a loop at place `i`. -/
def rounds (i : Nat) (a : Action) : Nat → Walk → Walk
  | 0, s => s
  | n + 1, s => rounds i a n (s.perform i a)

/-- The walk after a guarded loop at place `i` that may go round `n` more times.  Each round
needs the condition, and a condition that still holds after the last one is a warning. -/
def guardedRounds (i : Nat) (a : Action) (c : Condition) (ceiling : Nat) : Nat → Walk → Walk
  | 0, s => if c.holds s.world then s.warn (.ceiling i ceiling) else s
  | n + 1, s => if c.holds s.world then guardedRounds i a c ceiling n (s.perform i a) else s

/-- The run that stands at a cursor with a walk behind it. -/
def resume (s : Walk) (c : Cursor) : Run :=
  ⟨c, s.world, s.trace, s.warnings⟩

end Walk

/-- The walk after a loop at place `i` around an action. -/
def Wrapper.loop (w : Wrapper) (i : Nat) (a : Action) (s : Walk) : Walk :=
  match w with
  | times count => s.rounds i a count.val
  | whilst c ceiling => s.guardedRounds i a c ceiling.val ceiling.val

/-- What a program does from the instruction at place `i` on. -/
def Program.meaningFrom (program : Program) (i : Nat) (s : Walk) : Walk :=
  match _h : program[i]? with
  | none => s
  | some (.act a) => program.meaningFrom (i + 1) (s.perform i a)
  | some (.wrap w) =>
      match program[i + 1]? with
      | none => program.meaningFrom (i + 1) (s.warn (.dangling i))
      | some (.wrap _) => program.meaningFrom (i + 1) (s.warn (.nested i))
      | some (.act a) => program.meaningFrom (i + 2) (w.loop i a s)
termination_by program.length - i
decreasing_by
  all_goals
    have := (List.getElem?_eq_some_iff.1 _h).1
    omega

/-- What a program does in a world. -/
def Program.meaning (program : Program) (world : World) : Walk :=
  program.meaningFrom 0 ⟨world, #[], #[]⟩

/-! ### The rules of the meaning -/

namespace Program

variable {program : Program} {i : Nat} {s : Walk}

theorem meaningFrom_end (hi : program[i]? = none) : program.meaningFrom i s = s := by
  rw [meaningFrom]
  split <;> simp_all

theorem meaningFrom_act {a : Action} (hi : program[i]? = some (.act a)) :
    program.meaningFrom i s = program.meaningFrom (i + 1) (s.perform i a) := by
  rw [meaningFrom]
  split <;> simp_all

theorem meaningFrom_dangling {w : Wrapper} (hi : program[i]? = some (.wrap w))
    (hn : program[i + 1]? = none) :
    program.meaningFrom i s = program.meaningFrom (i + 1) (s.warn (.dangling i)) := by
  rw [meaningFrom]
  split <;> simp_all

theorem meaningFrom_nested {w v : Wrapper} (hi : program[i]? = some (.wrap w))
    (hn : program[i + 1]? = some (.wrap v)) :
    program.meaningFrom i s = program.meaningFrom (i + 1) (s.warn (.nested i)) := by
  rw [meaningFrom]
  split <;> simp_all

theorem meaningFrom_loop {w : Wrapper} {a : Action} (hi : program[i]? = some (.wrap w))
    (hn : program[i + 1]? = some (.act a)) :
    program.meaningFrom i s = program.meaningFrom (i + 2) (w.loop i a s) := by
  rw [meaningFrom]
  split <;> simp_all

theorem drop_of_getElem? {x : Instruction} (h : program[i]? = some x) :
    program.drop i = x :: program.drop (i + 1) := by
  obtain ⟨hi, rfl⟩ := List.getElem?_eq_some_iff.1 h
  exact List.drop_eq_getElem_cons hi

theorem drop_of_getElem?_eq_none (h : program[i]? = none) : program.drop i = [] :=
  List.drop_eq_nil_of_le (List.getElem?_eq_none_iff.1 h)

end Program

namespace Walk

/-! ### One turn -/

theorem finish_resume_act {s : Walk} {c d : Cursor} {i : Nat} {a : Action}
    (h : c.move s.world = .act i a d) :
    (s.resume c).finish = ((s.perform i a).resume d).finish :=
  Run.finish_of_act (r := s.resume c) h

theorem finish_resume_pass {s : Walk} {c d : Cursor} (h : c.move s.world = .pass none d) :
    (s.resume c).finish = (s.resume d).finish :=
  Run.finish_of_pass (r := s.resume c) h

theorem finish_resume_warn {s : Walk} {c d : Cursor} {w : Warning}
    (h : c.move s.world = .pass (some w) d) :
    (s.resume c).finish = ((s.warn w).resume d).finish :=
  Run.finish_of_pass (r := s.resume c) h

theorem finish_resume_stop {s : Walk} {c : Cursor} (h : c.move s.world = .stop) :
    (s.resume c).finish = s :=
  Run.finish_of_stop (r := s.resume c) h

/-! ### The turns of one loop -/

theorem finish_repeating (i : Nat) (a : Action) (rest : Program) : ∀ (n : Nat) (s : Walk),
    (s.resume (.repeating i a n rest)).finish =
      ((s.rounds i a n).resume (.ready (i + 2) rest)).finish := by
  intro n
  induction n with
  | zero => intro s; exact finish_resume_pass rfl
  | succ n ih =>
    intro s
    rw [finish_resume_act rfl, rounds]
    exact ih (s.perform i a)

theorem move_looping_of_not_holds {i : Nat} {a : Action} {c : Condition} {ceiling done : Nat}
    {rest : Program} {w : World} (hc : ¬ c.holds w = true) :
    (Cursor.looping i a c ceiling done rest).move w = .pass none (.ready (i + 2) rest) := by
  rw [Cursor.move, if_pos (by simpa using hc)]

/-- The turns of a guarded loop are its rounds, which the cursor counts from the other end. -/
theorem finish_looping (i : Nat) (a : Action) (c : Condition) (ceiling : Nat) (rest : Program) :
    ∀ (n done : Nat) (s : Walk), done + n = ceiling →
      (s.resume (.looping i a c ceiling done rest)).finish =
        ((s.guardedRounds i a c ceiling n).resume (.ready (i + 2) rest)).finish := by
  intro n
  induction n with
  | zero =>
    intro done s hd
    rw [guardedRounds]
    by_cases hc : c.holds s.world = true
    · have hm : (Cursor.looping i a c ceiling done rest).move s.world =
          .pass (some (.ceiling i ceiling)) (.ready (i + 2) rest) := by
        rw [Cursor.move, if_neg (by simp [hc]), if_pos (by omega)]
      rw [if_pos hc, finish_resume_warn hm]
    · rw [if_neg hc, finish_resume_pass (move_looping_of_not_holds hc)]
  | succ n ih =>
    intro done s hd
    rw [guardedRounds]
    by_cases hc : c.holds s.world = true
    · have hm : (Cursor.looping i a c ceiling done rest).move s.world =
          .act i a (.looping i a c ceiling (done + 1) rest) := by
        rw [Cursor.move, if_neg (by simp [hc]), if_neg (by omega)]
      rw [if_pos hc, finish_resume_act hm]
      exact ih (done + 1) (s.perform i a) (by omega)
    · rw [if_neg hc, finish_resume_pass (move_looping_of_not_holds hc)]

theorem finish_enter (w : Wrapper) (i : Nat) (a : Action) (rest : Program) (s : Walk) :
    (s.resume (w.enter i a rest)).finish =
      ((w.loop i a s).resume (.ready (i + 2) rest)).finish := by
  cases w with
  | times count => exact finish_repeating i a rest count.val s
  | whilst c ceiling => exact finish_looping i a c ceiling.val rest ceiling.val 0 s (Nat.zero_add _)

/-! ### The turns of a program -/

section

variable (s : Walk) (i : Nat)

theorem finish_nil : (s.resume (.ready i [])).finish = s :=
  finish_resume_stop rfl

theorem finish_act (a : Action) (rest : Program) :
    (s.resume (.ready i (.act a :: rest))).finish =
      ((s.perform i a).resume (.ready (i + 1) rest)).finish :=
  finish_resume_act rfl

theorem finish_dangling (w : Wrapper) :
    (s.resume (.ready i [.wrap w])).finish = s.warn (.dangling i) := by
  rw [finish_resume_warn rfl, finish_nil]

theorem finish_nested (w v : Wrapper) (rest : Program) :
    (s.resume (.ready i (.wrap w :: .wrap v :: rest))).finish =
      ((s.warn (.nested i)).resume (.ready (i + 1) (.wrap v :: rest))).finish :=
  finish_resume_warn rfl

theorem finish_loop (w : Wrapper) (a : Action) (rest : Program) :
    (s.resume (.ready i (.wrap w :: .act a :: rest))).finish =
      ((w.loop i a s).resume (.ready (i + 2) rest)).finish := by
  rw [finish_resume_pass rfl, finish_enter]

end

open Program in
/-- **From any place on, a run does what the program means there.** -/
theorem finish_ready (program : Program) (i : Nat) (s : Walk) :
    (s.resume (.ready i (program.drop i))).finish = program.meaningFrom i s := by
  induction i, s using meaningFrom.induct program with
  | case1 i s hi =>
    rw [meaningFrom_end hi, drop_of_getElem?_eq_none hi, finish_nil]
  | case2 i s a hi ih =>
    rw [meaningFrom_act hi, drop_of_getElem? hi, finish_act, ih]
  | case3 i s w hi hn ih =>
    have hrest := drop_of_getElem?_eq_none hn
    rw [hrest, finish_nil] at ih
    rw [meaningFrom_dangling hi hn, drop_of_getElem? hi, hrest, finish_dangling]
    exact ih
  | case4 i s w hi v hn ih =>
    -- the inner wrapper stays ahead: it is the next instruction
    rw [meaningFrom_nested hi hn, drop_of_getElem? hi, ← ih, drop_of_getElem? hn, finish_nested]
  | case5 i s w hi a hn ih =>
    rw [meaningFrom_loop hi hn, drop_of_getElem? hi, drop_of_getElem? hn, finish_loop, ih]

end Walk

theorem Program.run_eq (program : Program) (world : World) :
    program.run world = program.meaning world :=
  Walk.finish_ready program 0 ⟨world, #[], #[]⟩

/-- **A run does what its program means.**  The world, the trace and the warnings agree, for a
run that is finished at once and for one that is stepped until nothing is left. -/
theorem run_eq_meaning (program : Program) (world : World) :
    program.run world = program.meaning world ∧
      ∃ r, (Run.start program world).Drains r ∧ r.isFinished = true ∧
        r.walk = program.meaning world := by
  have h : program.run world = program.meaning world :=
    Walk.finish_ready program 0 ⟨world, #[], #[]⟩
  obtain ⟨r, hd, hs, hr⟩ := Run.drains_finish (Run.start program world)
  exact ⟨h, r, hd, hs, hr.trans h⟩

end Mazewalk
