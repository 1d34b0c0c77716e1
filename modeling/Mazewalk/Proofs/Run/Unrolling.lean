import Mazewalk.Proofs.Run.Composition

/-!
# Programs without counted loops

`Program.unrolled` leaves out every wrapper that governs nothing and writes the rounds of every
counted loop one after another.  What is left has actions and guarded loops only, each with its
action behind it.  `Program.run_unrolled` says that this changes nothing but the places: the
world, the actions and the walkers after them are the same, and of the warnings those about
ceilings remain.

Taking out a wrapper brings its neighbours together, and so it could give the one before it
something to govern.  It does not, because the wrapper before it was nested and goes as well; what
stands before a guarded loop becomes what it would become alone (`Program.unrolled_append_wrap`).
So a guarded loop moves from place `i` to place `Program.newPlace i`, the length of what the first
`i` instructions become.

`Walk.Unrolls f s t` is the invariant that ties the two runs together, with `f` for the new
places.  They go through the program side by side, and when the one has `rest` ahead of it at
place `i` the other has `rest.unrolled` ahead of it at place `j`, where `f (i + k)` is `j` and the
length of what the next `k` instructions become.
-/

namespace Mazewalk

namespace Program

/-- The program without the wrappers that are last or stand before another wrapper, and with each
counted loop replaced by as many copies of its action. -/
def unrolled : Program → Program
  | [] => []
  | .act a :: rest => .act a :: unrolled rest
  | [.wrap _] => []
  | .wrap _ :: .wrap v :: rest => unrolled (.wrap v :: rest)
  | .wrap (.times count) :: .act a :: rest => List.replicate count.val (.act a) ++ unrolled rest
  | .wrap (.whilst c ceiling) :: .act a :: rest =>
      .wrap (.whilst c ceiling) :: .act a :: unrolled rest

/-- Where a guarded loop at place `i` stands in the unrolled program. -/
def newPlace (program : Program) (i : Nat) : Nat :=
  (unrolled (program.take i)).length

theorem newPlace_act (a : Action) (rest : Program) (k : Nat) :
    newPlace (.act a :: rest) (k + 1) = newPlace rest k + 1 := rfl

theorem newPlace_nested (w v : Wrapper) (rest : Program) (k : Nat) :
    newPlace (.wrap w :: .wrap v :: rest) (k + 1) = newPlace (.wrap v :: rest) k := by
  cases k <;> rfl

theorem newPlace_times (count : Count) (a : Action) (rest : Program) (k : Nat) :
    newPlace (.wrap (.times count) :: .act a :: rest) (k + 2) = count.val + newPlace rest k := by
  simp [newPlace, unrolled]

theorem newPlace_whilst (c : Condition) (ceiling : Count) (a : Action) (rest : Program) (k : Nat) :
    newPlace (.wrap (.whilst c ceiling) :: .act a :: rest) (k + 2) = newPlace rest k + 2 := rfl

/-- **In front of a wrapper** a program is unrolled as it is alone. -/
theorem unrolled_append_wrap (before : Program) (w : Wrapper) (rest : Program) :
    unrolled (before ++ .wrap w :: rest) = before.unrolled ++ unrolled (.wrap w :: rest) := by
  induction before using Program.ahead with
  | nil => rfl
  | act a before ih =>
    rw [List.cons_append, unrolled, unrolled, ih]
    rfl
  | dangling v => rfl
  | nested u v before ih =>
    rw [List.cons_append] at ih
    rw [List.cons_append, List.cons_append, unrolled, unrolled, ih]
  | loop v a before ih =>
    rw [List.cons_append, List.cons_append]
    cases v with
    | times count => rw [unrolled, unrolled, ih, List.append_assoc]
    | whilst c ceiling =>
      rw [unrolled, unrolled, ih]
      rfl

/-- At its new place a guarded loop is followed by what its followers become. -/
theorem drop_newPlace {program rest : Program} {i : Nat} {c : Condition} {ceiling : Count}
    {a : Action} (h : program.drop i = .wrap (.whilst c ceiling) :: .act a :: rest) :
    program.unrolled.drop (program.newPlace i) =
      .wrap (.whilst c ceiling) :: .act a :: rest.unrolled := by
  have hu := unrolled_append_wrap (program.take i) (.whilst c ceiling) (.act a :: rest)
  rw [← h, List.take_append_drop] at hu
  rw [hu, newPlace, List.drop_left, h, unrolled]

end Program

/-! ### Two records of the same actions -/

/-- What a step says apart from its place. -/
def Step.deed (e : Step) : Action × Walker :=
  (e.action, e.walker)

/-- A warning about a ceiling with its place renumbered, and no other warning. -/
def Warning.ceiling? (f : Nat → Nat) : Warning → Option Warning
  | .ceiling i limit => some (.ceiling (f i) limit)
  | .dangling _ => none
  | .nested _ => none

namespace Walk

/-- The second walk is the first one with other places, and with the warnings about ceilings
alone, which `f` renumbers. -/
structure Unrolls (f : Nat → Nat) (s t : Walk) : Prop where
  world : t.world = s.world
  deeds : t.trace.map Step.deed = s.trace.map Step.deed
  warnings : t.warnings = s.warnings.filterMap (Warning.ceiling? f)

namespace Unrolls

variable {f : Nat → Nat} {s t : Walk}

theorem perform (h : Unrolls f s t) (i j : Nat) (a : Action) :
    Unrolls f (s.perform i a) (t.perform j a) := by
  refine ⟨?_, ?_, h.warnings⟩
  · rw [Walk.perform, Walk.perform, h.world]
  · rw [Walk.perform, Walk.perform, Array.map_push, Array.map_push, h.deeds, h.world]
    rfl

theorem warn_left (h : Unrolls f s t) {w : Warning} (hw : w.ceiling? f = none) :
    Unrolls f (s.warn w) t := by
  refine ⟨h.world, h.deeds, ?_⟩
  simp [warn, h.warnings, hw]

theorem warn_ceiling (h : Unrolls f s t) (i limit : Nat) :
    Unrolls f (s.warn (.ceiling i limit)) (t.warn (.ceiling (f i) limit)) := by
  refine ⟨h.world, h.deeds, ?_⟩
  simp [warn, h.warnings, Warning.ceiling?]

/-- A guarded loop goes the same number of rounds on both sides. -/
theorem guardedRounds (h : Unrolls f s t) (i : Nat) (a : Action) (c : Condition)
    (ceiling n : Nat) :
    Unrolls f (s.guardedRounds i a c ceiling n) (t.guardedRounds (f i) a c ceiling n) := by
  induction n generalizing s t with
  | zero =>
    rw [Walk.guardedRounds, Walk.guardedRounds, h.world]
    split
    · exact h.warn_ceiling i ceiling
    · exact h
  | succ n ih =>
    rw [Walk.guardedRounds, Walk.guardedRounds, h.world]
    split
    · exact ih (h.perform i (f i) a)
    · exact h

/-- The rounds of a counted loop are that many actions in a row. -/
theorem rounds (h : Unrolls f s t) (i j : Nat) (a : Action) (n : Nat) :
    ∃ t', Unrolls f (s.rounds i a n) t' ∧ ∀ rest,
      (t.resume (.ready j (List.replicate n (.act a) ++ rest))).finish =
        (t'.resume (.ready (j + n) rest)).finish := by
  induction n generalizing s t j with
  | zero => exact ⟨t, h, fun rest => rfl⟩
  | succ n ih =>
    obtain ⟨t', ht, hf⟩ := ih (h.perform i j a) (j + 1)
    refine ⟨t', ht, fun rest => ?_⟩
    have hj : j + (n + 1) = j + 1 + n := by omega
    rw [List.replicate_succ, List.cons_append, finish_act, hf, hj]

/-- **The two runs go through the rest of the program side by side.** -/
theorem finish (h : Unrolls f s t) {rest : Program} {i j : Nat}
    (hf : ∀ k, f (i + k) = j + rest.newPlace k) :
    Unrolls f (s.resume (.ready i rest)).finish (t.resume (.ready j rest.unrolled)).finish := by
  induction rest using Program.ahead generalizing s t i j with
  | nil =>
    rw [Program.unrolled, finish_nil, finish_nil]
    exact h
  | act a rest ih =>
    rw [Program.unrolled, finish_act, finish_act]
    refine ih (h.perform i j a) fun k => ?_
    have hi : i + 1 + k = i + (k + 1) := by omega
    rw [hi, hf, Program.newPlace_act]
    omega
  | dangling w =>
    rw [Program.unrolled, finish_dangling, finish_nil]
    exact h.warn_left rfl
  | nested w v rest ih =>
    rw [Program.unrolled, finish_nested]
    refine ih (h.warn_left rfl) fun k => ?_
    have hi : i + 1 + k = i + (k + 1) := by omega
    rw [hi, hf, Program.newPlace_nested]
  | loop w a rest ih =>
    rw [finish_loop]
    cases w with
    | times count =>
      obtain ⟨t', ht, hrun⟩ := h.rounds i j a count.val
      rw [Program.unrolled, hrun]
      refine ih ht fun k => ?_
      have hi : i + 2 + k = i + (k + 2) := by omega
      rw [hi, hf, Program.newPlace_times]
      omega
    | whilst c ceiling =>
      -- the loop stands at the place that `f` says
      have hj : f i = j := hf 0
      have hl := h.guardedRounds i a c ceiling.val ceiling.val
      rw [hj] at hl
      rw [Program.unrolled, finish_loop]
      refine ih hl fun k => ?_
      have hi : i + 2 + k = i + (k + 2) := by omega
      rw [hi, hf, Program.newPlace_whilst]
      omega

end Unrolls

end Walk

namespace Program

/-- **Counted loops can be written out and wrappers that govern nothing left out.**  The unrolled
program leaves the same world by the same actions, and the warnings about ceilings are its own,
in the same order, each at the new place of its guarded loop. -/
theorem run_unrolled (program : Program) (world : World) :
    (program.unrolled.run world).world = (program.run world).world ∧
      (program.unrolled.run world).trace.map Step.deed =
        (program.run world).trace.map Step.deed ∧
      (program.unrolled.run world).warnings =
        (program.run world).warnings.filterMap (Warning.ceiling? program.newPlace) ∧
      ∀ i c ceiling a (rest : Program),
        program.drop i = .wrap (.whilst c ceiling) :: .act a :: rest →
          program.unrolled.drop (program.newPlace i) =
            .wrap (.whilst c ceiling) :: .act a :: rest.unrolled := by
  have hs : Walk.Unrolls program.newPlace ⟨world, #[], #[]⟩ ⟨world, #[], #[]⟩ :=
    ⟨rfl, rfl, rfl⟩
  have hf : ∀ k, program.newPlace (0 + k) = 0 + program.newPlace k := fun k => by
    rw [Nat.zero_add, Nat.zero_add]
  have h : Walk.Unrolls program.newPlace (program.run world) (program.unrolled.run world) :=
    hs.finish hf
  exact ⟨h.world, h.deeds, h.warnings, fun _ _ _ _ _ => drop_newPlace⟩

/-- A counted loop between two wrappers that govern nothing, and a guarded loop after it. -/
def looseLoops : Program :=
  looseWrappers ++ guardedStep

theorem run_unrolled_looseLoops :
    looseLoops.drop 4 = guardedStep ∧
      looseLoops.unrolled.drop (looseLoops.newPlace 4) = guardedStep ∧
      (looseLoops.unrolled.run threeCells).world = (looseLoops.run threeCells).world := by
  have hd : looseLoops.drop 4 = guardedStep := by decide
  obtain ⟨hw, -, -, hp⟩ := run_unrolled looseLoops threeCells
  exact ⟨hd, hp 4 _ _ _ [] hd, hw⟩

end Program

end Mazewalk
