import Mazewalk.Proofs.Run.Tally

/-!
# Reading the record of a finished run

The record of a run can be read from two sides.  Entry by entry it is a row of worlds: the entry
with number `k` is what leads from `worldAfter k`, the world after `k` steps, to the next one
(`worldAfter_succ`).  Place by place it is what the program says there (`tells_run`).

The two meet because the record is in the order of the places.  The entries up to place `i` are the
first ones, `through i` of them (`lt_through_iff`), so the steps of one instruction stand together,
and the last world of a loop at the end of the program is that of the run (`worldAfter_through`).
-/

namespace Mazewalk

/-- In a list that is sorted by a key, the entries with a key of at most `i` come first. -/
theorem lt_countP_iff {α : Type} {key : α → Nat} {l : List α}
    (hl : l.Pairwise fun a b => key a ≤ key b) {i m : Nat} {e : α} (he : l[m]? = some e) :
    m < l.countP (fun a => key a ≤ i) ↔ key e ≤ i := by
  induction l generalizing m with
  | nil => cases he
  | cons a l ih =>
    obtain ⟨ha, hl⟩ := List.pairwise_cons.1 hl
    by_cases hi : key a ≤ i
    · rw [List.countP_cons_of_pos (by simpa using hi)]
      cases m with
      | zero =>
        obtain rfl : a = e := Option.some.inj he
        exact ⟨fun _ => hi, fun _ => Nat.succ_pos _⟩
      | succ m =>
        rw [Nat.succ_lt_succ_iff]
        exact ih hl he
    -- all the keys are too large
    · have hlt : ∀ b ∈ a :: l, ¬ key b ≤ i := by
        intro b hb
        rcases List.mem_cons.1 hb with rfl | hb
        · exact hi
        · have := ha b hb
          omega
      have h0 : (a :: l).countP (fun a => key a ≤ i) = 0 :=
        List.countP_eq_zero.2 fun b hb => by simpa using hlt b hb
      rw [h0]
      exact ⟨fun h => absurd h (Nat.not_lt_zero m),
        fun h => absurd h (hlt e (List.mem_of_getElem? he))⟩

/-- All steps of a guarded loop perform its action. -/
theorem Walk.Guards.action_eq {s : Walk} {worlds : Nat → World} {i n : Nat} {a : Action}
    {c : Condition} {k : Nat} {e : Step} (h : s.Guards worlds i a c n)
    (he : s.trace[k]? = some e) (hi : e.index = i) : e.action = a := by
  obtain ⟨m, -, ha⟩ := h.actions
  have hmem : e ∈ s.trace.toList := List.mem_of_getElem? (by rwa [Array.getElem?_toList])
  have hm : e.action ∈ (s.stepsAt i).map Step.action :=
    List.mem_map_of_mem (List.mem_filter.2 ⟨hmem, by simpa using hi⟩)
  rw [ha] at hm
  exact List.eq_of_mem_replicate hm

namespace Program

variable {program : Program} {world : World} {i k m : Nat} {e : Step}

/-- The world after `k` steps of the run. -/
def worldAfter (program : Program) (world : World) (k : Nat) : World :=
  ((Run.start program world).advance k).world

/-- Entry `k` of the trace is what leads from the world after `k` steps to the next one. -/
theorem worldAfter_succ (he : (program.run world).trace[k]? = some e) :
    program.worldAfter world (k + 1) = (program.worldAfter world k).act e.action ∧
      e.walker = (program.worldAfter world (k + 1)).walker := by
  have hf := Run.fst_step_advance program world k
  rw [he] at hf
  obtain ⟨-, hw, hv, -⟩ := Run.step_eq_some (Prod.ext hf rfl)
  exact ⟨hw, hv⟩

theorem steps_sorted_run (program : Program) (world : World) :
    (program.run world).trace.toList.Pairwise fun d e => d.index ≤ e.index := by
  obtain ⟨m, -, h⟩ := Tally.run program world
  exact h.steps_sorted

/-- Of the steps in the record, those up to place `i` come first. -/
theorem lt_through_iff (he : (program.run world).trace[m]? = some e) :
    m < (program.run world).through i ↔ e.index ≤ i := by
  rw [← Array.getElem?_toList] at he
  exact lt_countP_iff (steps_sorted_run program world) he

theorem index_le_index {d : Step} (hkm : k ≤ m) (hd : (program.run world).trace[k]? = some d)
    (he : (program.run world).trace[m]? = some e) : d.index ≤ e.index := by
  have hm : m < (program.run world).through e.index := (lt_through_iff he).2 (Nat.le_refl _)
  exact (lt_through_iff hd).1 (Nat.lt_of_le_of_lt hkm hm)

theorem tells_run (program : Program) (world : World) (i : Nat) :
    program.Tells (program.run world) (program.worldAfter world) i := by
  obtain ⟨m, hm, h⟩ := Tally.run program world
  have hw : program.worldAfter world = (program.run world).worldFrom world :=
    funext fun k => Run.world_advance_start program world k
  rw [hw]
  exact h.tells_of_length_le hm i

theorem guards_run (world : World) {c : Condition} {ceiling : Count} {a : Action}
    (hi : program[i]? = some (.wrap (.whilst c ceiling)))
    (hn : program[i + 1]? = some (.act a)) :
    (program.run world).Guards (program.worldAfter world) i a c ceiling.val := by
  have h := tells_run program world i
  unfold Tells at h
  rw [hi, hn] at h
  exact h

/-- A step is made on behalf of an instruction, and not of the action behind a wrapper. -/
theorem place_of_mem (he : e ∈ (program.run world).trace.toList) :
    program[e.index]? ≠ none ∧
      ∀ a, program[e.index]? = some (.act a) → program.isBehindWrapper e.index = false := by
  have hmem : e ∈ (program.run world).stepsAt e.index :=
    List.mem_filter.2 ⟨he, beq_self_eq_true e.index⟩
  have hne : ((program.run world).stepsAt e.index).map Step.action ≠ [] := by
    intro h
    rw [List.map_eq_nil_iff.1 h] at hmem
    cases hmem
  have ht := tells_run program world e.index
  unfold Tells at ht
  refine ⟨fun hn => ?_, fun a ha => ?_⟩
  · rw [hn] at ht
    exact hne ht.1
  · rw [ha] at ht
    cases hb : program.isBehindWrapper e.index with
    | false => rfl
    | true =>
      rw [hb] at ht
      exact absurd ht.1 hne

/-- **The last loop of a program** has all the last steps of the run, and ends in its last world. -/
theorem worldAfter_through {v : Wrapper} {a : Action} (hi : program[i]? = some (.wrap v))
    (hn : program[i + 1]? = some (.act a)) (hl : program[i + 2]? = none) :
    program.worldAfter world ((program.run world).through i) = (program.run world).world := by
  have hlen := List.getElem?_eq_none_iff.1 hl
  have hle : ∀ e ∈ (program.run world).trace.toList, e.index ≤ i := by
    intro e he
    obtain ⟨hsome, hbehind⟩ := place_of_mem he
    refine Nat.le_of_not_lt fun hlt => ?_
    rcases Nat.lt_or_eq_of_le (Nat.succ_le_of_lt hlt) with hlt | heq
    · exact hsome (List.getElem?_eq_none_iff.2 (by omega))
    · rw [← heq] at hbehind
      have hb := hbehind a hn
      rw [isBehindWrapper, hi] at hb
      cases hb
  rw [Walk.through_eq_size hle]
  exact Run.world_advance (r := Run.start program world) (Nat.le_add_left _ _)

/-- **A guarded loop at the end of a program** leaves a world in which its condition fails, unless
the run warns of its ceiling. -/
theorem holds_run_append_loop {before : Program} {c : Condition} {ceiling : Count} {a : Action}
    (hw : .ceiling before.length ceiling.val ∉
      (Program.run (before ++ [.wrap (.whilst c ceiling), .act a]) world).warnings) :
    c.holds (Program.run (before ++ [.wrap (.whilst c ceiling), .act a]) world).world = false := by
  have hi : (before ++ [.wrap (.whilst c ceiling), .act a])[before.length]? =
      some (.wrap (.whilst c ceiling)) := by simp
  have hn : (before ++ [.wrap (.whilst c ceiling), .act a])[before.length + 1]? =
      some (.act a) := by simp
  have hl : (before ++ [.wrap (.whilst c ceiling), .act a])[before.length + 2]? = none := by simp
  rcases (guards_run world hi hn).ends with ⟨hf, -⟩ | ⟨-, -, hs⟩
  · rwa [worldAfter_through hi hn hl] at hf
  · refine absurd ?_ hw
    rw [Walk.mem_warningsAt (i := before.length) rfl, hs]
    exact List.mem_singleton_self _

end Program

end Mazewalk
