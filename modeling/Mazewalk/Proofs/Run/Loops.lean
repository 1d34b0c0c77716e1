import Mazewalk.Proofs.Run.Meaning
import Mazewalk.Proofs.World.Actions

/-!
# Loops as repeated actions

The meaning of a loop goes round by round, and each round looks at the world that the one before it
has left.  Here the rounds are counted instead: after `n` of them the world is the one after `n`
times the action, and the trace has `n` more entries.

* `rounds_eq`: what a counted loop has added to the record.
* `exists_guardedRounds`: a guarded loop is some `n` rounds of a counted one.  Its condition holds
  before each of them, and it fails after the last one unless `n` is the ceiling, which then leaves
  the warning.  The condition is asked before the ceiling is looked at, so a loop whose condition
  fails just when the ceiling is reached leaves none.
-/

namespace Mazewalk

/-- The entries of `n` rounds of an action on behalf of the instruction at place `i`. -/
def World.roundsOf (w : World) (i : Nat) (a : Action) (n : Nat) : List Step :=
  (List.range n).map fun k => ⟨i, a, (w.actAll (List.replicate (k + 1) a)).walker⟩

namespace World

theorem roundsOf_succ (w : World) (i : Nat) (a : Action) (n : Nat) :
    w.roundsOf i a (n + 1) = ⟨i, a, (w.act a).walker⟩ :: (w.act a).roundsOf i a n := by
  rw [roundsOf, List.range_succ_eq_map, List.map_cons, List.map_map]
  rfl

@[simp] theorem length_roundsOf (w : World) (i : Nat) (a : Action) (n : Nat) :
    (w.roundsOf i a n).length = n := by
  rw [roundsOf, List.length_map, List.length_range]

theorem getElem?_roundsOf {w : World} {i k n : Nat} {a : Action} {e : Step}
    (h : (w.roundsOf i a n)[k]? = some e) :
    k < n ∧ e = ⟨i, a, (w.actAll (List.replicate (k + 1) a)).walker⟩ := by
  rw [roundsOf, List.getElem?_map, Option.map_eq_some_iff] at h
  obtain ⟨j, hj, he⟩ := h
  obtain ⟨hk, rfl⟩ := List.getElem?_eq_some_iff.1 hj
  rw [List.getElem_range] at he
  exact ⟨by simpa using hk, he.symm⟩

theorem map_action_roundsOf (w : World) (i : Nat) (a : Action) (n : Nat) :
    (w.roundsOf i a n).map Step.action = List.replicate n a := by
  refine List.eq_replicate_iff.2 ⟨by simp, ?_⟩
  intro b hb
  rw [roundsOf, List.map_map] at hb
  obtain ⟨k, -, rfl⟩ := List.mem_map.1 hb
  rfl

theorem index_of_mem_roundsOf {w : World} {i n : Nat} {a : Action} {e : Step}
    (h : e ∈ w.roundsOf i a n) : e.index = i := by
  obtain ⟨k, -, rfl⟩ := List.mem_map.1 h
  rfl

end World

namespace Walk

/-- **The rounds of a counted loop** are that many actions in a row. -/
theorem rounds_eq (i : Nat) (a : Action) (n : Nat) (s : Walk) :
    s.rounds i a n = ⟨s.world.actAll (List.replicate n a),
      s.trace ++ (s.world.roundsOf i a n).toArray, s.warnings⟩ := by
  induction n generalizing s with
  | zero => simp [rounds, World.roundsOf]
  | succ n ih =>
    rw [rounds, ih, World.roundsOf_succ]
    simp [perform, List.replicate_succ]

/-- **The rounds of a guarded loop** that may go round `m` more times. -/
theorem exists_guardedRounds (i : Nat) (a : Action) (c : Condition) (ceiling m : Nat) (s : Walk) :
    ∃ n ≤ m,
      (∀ k < n, c.holds (s.world.actAll (List.replicate k a)) = true) ∧
      (c.holds (s.world.actAll (List.replicate n a)) = false ∧
          s.guardedRounds i a c ceiling m = s.rounds i a n ∨
        n = m ∧ c.holds (s.world.actAll (List.replicate n a)) = true ∧
          s.guardedRounds i a c ceiling m = (s.rounds i a n).warn (.ceiling i ceiling)) := by
  induction m generalizing s with
  | zero =>
    refine ⟨0, Nat.le_refl 0, fun k hk => absurd hk (Nat.not_lt_zero k), ?_⟩
    unfold guardedRounds
    split
    · rename_i hc
      exact Or.inr ⟨rfl, hc, rfl⟩
    · rename_i hc
      exact Or.inl ⟨by simpa using hc, rfl⟩
  | succ m ih =>
    unfold guardedRounds
    split
    · rename_i hc
      obtain ⟨n, hn, hk, h⟩ := ih (s.perform i a)
      refine ⟨n + 1, Nat.succ_le_succ hn, fun k hlt => ?_, ?_⟩
      · cases k with
        | zero => exact hc
        | succ k => exact hk k (Nat.lt_of_succ_lt_succ hlt)
      · rcases h with ⟨hf, h⟩ | ⟨hm, ht, h⟩
        · exact Or.inl ⟨hf, h⟩
        · exact Or.inr ⟨congrArg (· + 1) hm, ht, h⟩
    · rename_i hc
      refine ⟨0, Nat.zero_le _, fun k hk => absurd hk (Nat.not_lt_zero k), Or.inl ⟨?_, rfl⟩⟩
      simpa using hc

end Walk

end Mazewalk
