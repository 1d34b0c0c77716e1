import Mazewalk.Proofs.Run.Meaning

/-!
# Programs put together

`Program.run_append` says that running a program put together from two parts is running the first
part and then, in the world it leaves behind, the second one, whose places in the trace and in
the warnings all lie further on by the length of the first.  The law fails in one case, when the
first part ends in a wrapper: standing alone that wrapper has nothing to govern, and in front of
another program it has.  `Program.Closed` excludes just this.

Two facts make the law.  A cursor does not look at its place and a run does not look back at its
record (`Cursor.move_shift`, `Walk.finish_andThen_shift`), so a program begun at place `n` with a
walk behind it adds to that walk what it does alone.  And a cursor that comes to the end of a
closed program stands exactly at its end, whether it passes the last one or two instructions
(`Walk.finish_append`).
-/

namespace Mazewalk

/-! ### Programs by what comes next -/

/-- Induction on a program by what a cursor finds at its head.  A wrapper with an action after it
is one case, because the cursor passes the two together. -/
@[elab_as_elim]
theorem Program.ahead {motive : Program → Prop} (nil : motive [])
    (act : ∀ a rest, motive rest → motive (.act a :: rest))
    (dangling : ∀ w, motive [.wrap w])
    (nested : ∀ w v rest, motive (.wrap v :: rest) → motive (.wrap w :: .wrap v :: rest))
    (loop : ∀ w a rest, motive rest → motive (.wrap w :: .act a :: rest)) :
    ∀ program, motive program
  | [] => nil
  | .act a :: rest => act a rest (ahead nil act dangling nested loop rest)
  | [.wrap w] => dangling w
  | .wrap w :: .wrap v :: rest =>
      nested w v rest (ahead nil act dangling nested loop (.wrap v :: rest))
  | .wrap w :: .act a :: rest => loop w a rest (ahead nil act dangling nested loop rest)

/-! ### Moving the places -/

/-- The step when its instruction stands `n` places further on. -/
def Step.shift (n : Nat) (e : Step) : Step :=
  { e with index := n + e.index }

/-- The warning when its instruction stands `n` places further on. -/
def Warning.shift (n : Nat) : Warning → Warning
  | .ceiling i limit => .ceiling (n + i) limit
  | .dangling i => .dangling (n + i)
  | .nested i => .nested (n + i)

def Cursor.shift (n : Nat) : Cursor → Cursor
  | .ready i rest => .ready (n + i) rest
  | .repeating i a remaining rest => .repeating (n + i) a remaining rest
  | .looping i a c ceiling done rest => .looping (n + i) a c ceiling done rest
  | .stopped => .stopped

def Move.shift (n : Nat) : Move → Move
  | .act i a next => .act (n + i) a (next.shift n)
  | .pass warning? next => .pass (warning?.map (Warning.shift n)) (next.shift n)
  | .stop => .stop

/-- **A cursor does not look at its place.** -/
theorem Cursor.move_shift (n : Nat) (c : Cursor) (w : World) :
    (c.shift n).move w = (c.move w).shift n := by
  cases c with
  | stopped => rfl
  | ready i rest =>
    obtain _ | ⟨_ | v, _ | ⟨_ | u, rest⟩⟩ := rest <;> try rfl
    cases v <;> rfl
  | repeating i a remaining rest => cases remaining <;> rfl
  | looping i a c ceiling done rest =>
    simp only [shift, move]
    split
    · rfl
    · split <;> rfl

namespace Walk

/-- The walk with its record moved `n` places further on. -/
def shift (n : Nat) (s : Walk) : Walk :=
  ⟨s.world, s.trace.map (Step.shift n), s.warnings.map (Warning.shift n)⟩

/-- One walk and then another: the world of the second one, and both records. -/
def andThen (s t : Walk) : Walk :=
  ⟨t.world, s.trace ++ t.trace, s.warnings ++ t.warnings⟩

theorem perform_andThen_shift (s t : Walk) (n i : Nat) (a : Action) :
    (s.andThen (t.shift n)).perform (n + i) a = s.andThen ((t.perform i a).shift n) := by
  simp [andThen, shift, perform, Step.shift]

theorem warn_andThen_shift (s t : Walk) (n : Nat) (w : Warning) :
    (s.andThen (t.shift n)).warn (w.shift n) = s.andThen ((t.warn w).shift n) := by
  simp [andThen, shift, warn]

/-- **A run does not look back at its record.** -/
theorem finish_andThen_shift (s : Walk) (n : Nat) (r : Run) :
    ((s.andThen (r.walk.shift n)).resume (r.cursor.shift n)).finish =
      s.andThen (r.finish.shift n) := by
  have hmove : ∀ r : Run, (r.cursor.shift n).move (s.andThen (r.walk.shift n)).world =
      (r.cursor.move r.world).shift n := fun r => r.cursor.move_shift n r.world
  induction r using Run.finish.induct with
  | case1 r i a c hm ih =>
    have hs := hmove r
    rw [hm] at hs
    rw [finish_resume_act hs, perform_andThen_shift, Run.finish_of_act hm]
    exact ih
  | case2 r w c hm ih =>
    have hs := hmove r
    rw [hm] at hs
    rw [Run.finish_of_pass hm, ← ih]
    cases w with
    | none => exact finish_resume_pass hs
    | some w =>
      rw [finish_resume_warn hs, warn_andThen_shift]
      rfl
  | case3 r hm =>
    have hs := hmove r
    rw [hm] at hs
    rw [finish_resume_stop hs, Run.finish_of_stop hm]

theorem finish_ready_eq_andThen (s : Walk) (n : Nat) (program : Program) :
    (s.resume (.ready n program)).finish = s.andThen ((program.run s.world).shift n) := by
  have h := finish_andThen_shift s n (Run.start program s.world)
  have hs : s.andThen ((Run.start program s.world).walk.shift n) = s := by
    simp [andThen, shift, Run.walk, Run.start]
  rwa [hs] at h

end Walk

/-! ### The seam -/

namespace Program

/-- The program is empty or its last instruction is an action. -/
def Closed (program : Program) : Prop :=
  ∀ w, program.getLast? ≠ some (.wrap w)

theorem Closed.tail {x : Instruction} {rest : Program} (h : Closed (x :: rest)) :
    Closed rest := by
  intro w hw
  refine h w ?_
  rw [List.getLast?_cons, hw]
  rfl

end Program

/-- **At a seam that no wrapper crosses** the second program begins where the first one ends. -/
theorem Walk.finish_append {first : Program} (h : first.Closed) (second : Program) (s : Walk)
    (i : Nat) :
    (s.resume (.ready i (first ++ second))).finish =
      ((s.resume (.ready i first)).finish.resume (.ready (i + first.length) second)).finish := by
  induction first using Program.ahead generalizing s i with
  | nil => rw [finish_nil]; rfl
  | act a rest ih =>
    have hi : i + (rest.length + 1) = i + 1 + rest.length := by omega
    rw [List.cons_append, finish_act, finish_act, ih h.tail, List.length_cons, hi]
  | dangling w => exact absurd rfl (h w)
  | nested w v rest ih =>
    have hi : i + ((rest.length + 1) + 1) = i + 1 + (rest.length + 1) := by omega
    have ih := ih h.tail (s.warn (.nested i)) (i + 1)
    rw [List.cons_append] at ih
    rw [List.cons_append, List.cons_append, finish_nested, ih, finish_nested, List.length_cons,
      List.length_cons, List.length_cons, hi]
  | loop w a rest ih =>
    have hi : i + ((rest.length + 1) + 1) = i + 2 + rest.length := by omega
    rw [List.cons_append, List.cons_append, finish_loop, finish_loop, ih h.tail.tail,
      List.length_cons, List.length_cons, hi]

namespace Program

/-- **A program put together is run part by part.**  The world is the one that the second part
leaves, and its steps and warnings follow those of the first part with their places moved by the
length of that part. -/
theorem run_append (first second : Program) (h : first.Closed) (world : World) :
    (first ++ second).run world =
      { world := (second.run (first.run world).world).world
        trace := (first.run world).trace ++
          (second.run (first.run world).world).trace.map (Step.shift first.length)
        warnings := (first.run world).warnings ++
          (second.run (first.run world).world).warnings.map (Warning.shift first.length) } := by
  have hf : (first ++ second).run world =
      ((first.run world).resume (.ready (0 + first.length) second)).finish :=
    Walk.finish_append h second ⟨world, #[], #[]⟩ 0
  rw [hf, Nat.zero_add, Walk.finish_ready_eq_andThen]
  rfl

/-- A walker at the left end of three cells. -/
def threeCells : World :=
  ⟨⟨⟨0, 0⟩, .right, false⟩, ⟨3, 1, #[⟨.start, false⟩, ⟨.path, true⟩, ⟨.goal, false⟩]⟩⟩

/-- A loop that meets its ceiling, with an action at the seam. -/
def guardedStep : Program :=
  [.wrap (.whilst .notAtGoal ⟨1, by decide, by decide⟩), .act .forward]

/-- A loop around a pickup between two wrappers that govern nothing. -/
def looseWrappers : Program :=
  [.wrap (.times ⟨2, by decide, by decide⟩), .wrap (.times ⟨2, by decide, by decide⟩),
    .act .pickup, .wrap (.times ⟨3, by decide, by decide⟩)]

theorem run_append_threeCells :
    guardedStep.Closed ∧ (guardedStep ++ looseWrappers).run threeCells =
      { world := (looseWrappers.run (guardedStep.run threeCells).world).world
        trace := (guardedStep.run threeCells).trace ++
          (looseWrappers.run (guardedStep.run threeCells).world).trace.map (Step.shift 2)
        warnings := (guardedStep.run threeCells).warnings ++
          (looseWrappers.run (guardedStep.run threeCells).world).warnings.map
            (Warning.shift 2) } := by
  have hc : guardedStep.Closed := by
    intro w h
    cases h
  exact ⟨hc, run_append guardedStep looseWrappers hc threeCells⟩

end Program

end Mazewalk
