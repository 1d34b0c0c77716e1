import Mazewalk.Proofs.Run.Loops
import Mazewalk.Proofs.Run.Replay

/-!
# What each instruction has left in the record

Every step and every warning of a run names the place of the instruction that caused it, and the
record as a whole is in the order of the places.  So it can be sorted by them: `s.stepsAt i` are the
steps and `s.warningsAt i` the warnings on behalf of the instruction at place `i`.  What these must
be is read off the program around that place (`Program.Tells`):

* an action makes one step, or none if it stands behind a wrapper;
* a wrapper with no action behind it makes none and leaves a warning about just that;
* a counted loop makes as many steps as it says;
* a guarded loop makes steps as long as its condition holds, and how it has ended can be seen from
  the world after the last of them (`Walk.Guards`).

`Program.tallies_run` says this of all places of all runs.  `Tally program world i s` is the
invariant: the walk `s` has dealt with the places before `i`.  What is added to it on behalf of
place `i` stands behind all the rest and so takes nothing back (`Tally.add`).
-/

namespace Mazewalk

def Warning.index : Warning → Nat
  | ceiling i _ => i
  | dangling i => i
  | nested i => i

/-! ### The record of one place -/

namespace Walk

/-- The steps on behalf of the instruction at place `i`. -/
def stepsAt (s : Walk) (i : Nat) : List Step :=
  s.trace.toList.filter fun e => e.index == i

/-- The warnings about the instruction at place `i`. -/
def warningsAt (s : Walk) (i : Nat) : List Warning :=
  s.warnings.toList.filter fun w => w.index == i

/-- How many steps have been made when the instructions up to place `i` are done. -/
def through (s : Walk) (i : Nat) : Nat :=
  s.trace.toList.countP fun e => e.index ≤ i

/-- The record has these actions and these warnings at place `i`. -/
def Says (s : Walk) (i : Nat) (actions : List Action) (warnings : List Warning) : Prop :=
  (s.stepsAt i).map Step.action = actions ∧ s.warningsAt i = warnings

/-- The record has a guarded loop at place `i`, where `worlds k` is the world after `k` steps. -/
structure Guards (s : Walk) (worlds : Nat → World) (i : Nat) (a : Action) (c : Condition)
    (ceiling : Nat) : Prop where
  actions : ∃ n ≤ ceiling, (s.stepsAt i).map Step.action = List.replicate n a
  /-- The condition holds in the world before each of the steps. -/
  holds : ∀ k e, s.trace[k]? = some e → e.index = i → c.holds (worlds k) = true
  /-- It fails after the last one, or the ceiling is reached and there is a warning. -/
  ends : c.holds (worlds (s.through i)) = false ∧ s.warningsAt i = [] ∨
    (s.stepsAt i).length = ceiling ∧ c.holds (worlds (s.through i)) = true ∧
      s.warningsAt i = [.ceiling i ceiling]

theorem mem_warningsAt {s : Walk} {w : Warning} {i : Nat} (hw : w.index = i) :
    w ∈ s.warnings ↔ w ∈ s.warningsAt i := by
  rw [warningsAt, List.mem_filter, Array.mem_toList_iff, hw]
  simp

end Walk

namespace Program

/-- The instruction before place `i` is a wrapper. -/
def isBehindWrapper (program : Program) : Nat → Bool
  | 0 => false
  | i + 1 =>
      match program[i]? with
      | some (.wrap _) => true
      | _ => false

/-- The record has at place `i` what the program says there. -/
def Tells (program : Program) (s : Walk) (worlds : Nat → World) (i : Nat) : Prop :=
  match program[i]?, program[i + 1]? with
  | none, _ => s.Says i [] []
  | some (.act a), _ => s.Says i (if program.isBehindWrapper i then [] else [a]) []
  | some (.wrap _), none => s.Says i [] [.dangling i]
  | some (.wrap _), some (.wrap _) => s.Says i [] [.nested i]
  | some (.wrap (.times count)), some (.act a) => s.Says i (List.replicate count.val a) []
  | some (.wrap (.whilst c ceiling)), some (.act a) => s.Guards worlds i a c ceiling.val

theorem Tells.congr {program : Program} {s s' : Walk} {worlds worlds' : Nat → World} {i : Nat}
    (h : program.Tells s worlds i) (hs : s'.stepsAt i = s.stepsAt i)
    (hw : s'.warningsAt i = s.warningsAt i)
    (hg : ∀ a c n, s.Guards worlds i a c n → s'.Guards worlds' i a c n) :
    program.Tells s' worlds' i := by
  unfold Tells Walk.Says at h ⊢
  rw [hs, hw]
  split at h <;> simp_all

/-- Which wrappers govern nothing can be read off the warnings, whatever the world. -/
theorem Tells.mem_warningsAt {program : Program} {s : Walk} {worlds : Nat → World} {i : Nat}
    (h : program.Tells s worlds i) :
    (.dangling i ∈ s.warningsAt i ↔
      ∃ v, program[i]? = some (.wrap v) ∧ program[i + 1]? = none) ∧
    (.nested i ∈ s.warningsAt i ↔
      ∃ v u, program[i]? = some (.wrap v) ∧ program[i + 1]? = some (.wrap u)) := by
  unfold Tells at h
  split at h
  iterate 5 simp [*, h.2]
  -- a guarded loop may have a warning, but it is about the ceiling
  rcases h.ends with ⟨-, hw⟩ | ⟨-, -, hw⟩
  · simp [*]
  · simp [*]

end Program

/-! ### Adding to the record -/

section

variable {α : Type} {key : α → Nat} {l m : List α} {i : Nat}

theorem filter_key_eq_nil (h : ∀ a ∈ l, key a ≠ i) : l.filter (fun a => key a == i) = [] := by
  refine List.filter_eq_nil_iff.2 fun a ha => ?_
  simpa using h a ha

theorem filter_key_append_of_ne (h : ∀ a ∈ m, key a ≠ i) :
    (l ++ m).filter (fun a => key a == i) = l.filter fun a => key a == i := by
  rw [List.filter_append, filter_key_eq_nil h, List.append_nil]

/-- What has a new key stands behind all that was there before. -/
theorem filter_key_append_self (hl : ∀ a ∈ l, key a < i) (hm : ∀ a ∈ m, key a = i) :
    (l ++ m).filter (fun a => key a == i) = m := by
  rw [List.filter_append, filter_key_eq_nil fun a ha => Nat.ne_of_lt (hl a ha), List.nil_append,
    List.filter_eq_self]
  intro a ha
  rw [hm a ha]
  exact beq_self_eq_true i

end

namespace Walk

/-- The walk with some more steps, whose actions have been performed, and some more warnings. -/
def add (s : Walk) (es : List Step) (ws : List Warning) : Walk :=
  ⟨s.world.actAll (es.map Step.action), s.trace ++ es.toArray, s.warnings ++ ws.toArray⟩

theorem perform_eq_add (s : Walk) (i : Nat) (a : Action) :
    s.perform i a = s.add [⟨i, a, (s.world.act a).walker⟩] [] := by
  simp [perform, add]

theorem warn_eq_add (s : Walk) (w : Warning) : s.warn w = s.add [] [w] := by
  simp [warn, add]

theorem rounds_eq_add (s : Walk) (i : Nat) (a : Action) (n : Nat) :
    s.rounds i a n = s.add (s.world.roundsOf i a n) [] := by
  rw [rounds_eq, add, World.map_action_roundsOf]
  simp

theorem warn_rounds_eq_add (s : Walk) (i : Nat) (a : Action) (n : Nat) (w : Warning) :
    (s.rounds i a n).warn w = s.add (s.world.roundsOf i a n) [w] := by
  rw [rounds_eq_add]
  simp [warn, add]

/-- The world after some of the steps of the record, the first one in the world `w`. -/
def worldFrom (s : Walk) (w : World) (k : Nat) : World :=
  w.actAll (s.actions.take k)

section

variable {s : Walk} {es : List Step} {ws : List Warning} {i j : Nat}

theorem toList_trace_add : (s.add es ws).trace.toList = s.trace.toList ++ es := by
  simp [add]

theorem toList_warnings_add : (s.add es ws).warnings.toList = s.warnings.toList ++ ws := by
  simp [add]

theorem actions_add : (s.add es ws).actions = s.actions ++ es.map Step.action := by
  rw [actions, toList_trace_add, List.map_append]
  rfl

theorem stepsAt_eq_nil (h : ∀ e ∈ s.trace.toList, e.index ≠ i) : s.stepsAt i = [] :=
  filter_key_eq_nil h

theorem warningsAt_eq_nil (h : ∀ w ∈ s.warnings.toList, w.index ≠ i) : s.warningsAt i = [] :=
  filter_key_eq_nil h

theorem stepsAt_add_of_ne (h : ∀ e ∈ es, e.index ≠ j) :
    (s.add es ws).stepsAt j = s.stepsAt j := by
  rw [stepsAt, toList_trace_add]
  exact filter_key_append_of_ne h

theorem warningsAt_add_of_ne (h : ∀ w ∈ ws, w.index ≠ j) :
    (s.add es ws).warningsAt j = s.warningsAt j := by
  rw [warningsAt, toList_warnings_add]
  exact filter_key_append_of_ne h

theorem stepsAt_add_self (hs : ∀ e ∈ s.trace.toList, e.index < i) (h : ∀ e ∈ es, e.index = i) :
    (s.add es ws).stepsAt i = es := by
  rw [stepsAt, toList_trace_add]
  exact filter_key_append_self hs h

theorem warningsAt_add_self (hs : ∀ w ∈ s.warnings.toList, w.index < i)
    (h : ∀ w ∈ ws, w.index = i) : (s.add es ws).warningsAt i = ws := by
  rw [warningsAt, toList_warnings_add]
  exact filter_key_append_self hs h

theorem through_add_of_lt (h : ∀ e ∈ es, j < e.index) :
    (s.add es ws).through j = s.through j := by
  have hn : es.countP (fun e => e.index ≤ j) = 0 := by
    refine List.countP_eq_zero.2 fun e he => ?_
    have := h e he
    simpa using this
  rw [through, toList_trace_add, List.countP_append, hn, Nat.add_zero]
  rfl

theorem through_eq_size (h : ∀ e ∈ s.trace.toList, e.index ≤ i) : s.through i = s.trace.size := by
  rw [through, List.countP_eq_length.2 fun e he => by simpa using h e he, Array.length_toList]

theorem worldFrom_add (w : World) {k : Nat} (hk : k ≤ s.trace.size) :
    (s.add es ws).worldFrom w k = s.worldFrom w k := by
  rw [worldFrom, actions_add, List.take_append_of_le_length]
  · rfl
  · rwa [actions, List.length_map, Array.length_toList]

theorem worldFrom_add_size (w : World) (k : Nat) :
    (s.add es ws).worldFrom w (s.trace.size + k) =
      (w.actAll s.actions).actAll ((es.map Step.action).take k) := by
  have hl : s.actions.length = s.trace.size := by
    rw [actions, List.length_map, Array.length_toList]
  rw [worldFrom, actions_add, ← hl, List.take_length_add_append, World.actAll_append]

/-- A guarded loop that the record has is still there when something is added behind it. -/
theorem Guards.add {w : World} {a : Action} {c : Condition} {n : Nat}
    (hg : s.Guards (s.worldFrom w) j a c n) (hes : ∀ e ∈ es, j < e.index)
    (hws : ∀ w ∈ ws, j < w.index) :
    (s.add es ws).Guards ((s.add es ws).worldFrom w) j a c n := by
  have hsteps : (s.add es ws).stepsAt j = s.stepsAt j :=
    stepsAt_add_of_ne fun e he => Nat.ne_of_gt (hes e he)
  have hwarnings : (s.add es ws).warningsAt j = s.warningsAt j :=
    warningsAt_add_of_ne fun v hv => Nat.ne_of_gt (hws v hv)
  have hthrough : (s.add es ws).through j = s.through j := through_add_of_lt hes
  have hle : s.through j ≤ s.trace.size := List.countP_le_length
  refine ⟨by rw [hsteps]; exact hg.actions, fun k e he hi => ?_, ?_⟩
  · rw [← Array.getElem?_toList, toList_trace_add] at he
    rcases Nat.lt_or_ge k s.trace.size with hk | hk
    · rw [List.getElem?_append_left (by simpa using hk)] at he
      rw [worldFrom_add w (Nat.le_of_lt hk)]
      exact hg.holds k e (by rwa [← Array.getElem?_toList]) hi
    · rw [List.getElem?_append_right (by simpa using hk)] at he
      have := hes e (List.mem_of_getElem? he)
      omega
  · rw [hthrough, hwarnings, hsteps, worldFrom_add w hle]
    exact hg.ends

/-- The rounds of a guarded loop, added to a record that has come to its place. -/
theorem guards_add_roundsOf {w : World} {a : Action} {c : Condition} {n ceiling : Nat}
    (hs : ∀ e ∈ s.trace.toList, e.index < i) (hv : ∀ v ∈ s.warnings.toList, v.index < i)
    (hw : s.world = w.actAll s.actions) (hn : n ≤ ceiling)
    (hc : ∀ k < n, c.holds (s.world.actAll (List.replicate k a)) = true)
    (he : c.holds (s.world.actAll (List.replicate n a)) = false ∧ ws = [] ∨
      n = ceiling ∧ c.holds (s.world.actAll (List.replicate n a)) = true ∧
        ws = [.ceiling i ceiling]) :
    (s.add (s.world.roundsOf i a n) ws).Guards
      ((s.add (s.world.roundsOf i a n) ws).worldFrom w) i a c ceiling := by
  have hworld : ∀ k ≤ n, (s.add (s.world.roundsOf i a n) ws).worldFrom w (s.trace.size + k) =
      s.world.actAll (List.replicate k a) := by
    intro k hk
    rw [worldFrom_add_size, ← hw, World.map_action_roundsOf, List.take_replicate,
      Nat.min_eq_left hk]
  have hr : ∀ e ∈ s.world.roundsOf i a n, e.index = i := fun e => World.index_of_mem_roundsOf
  have hsteps : (s.add (s.world.roundsOf i a n) ws).stepsAt i = s.world.roundsOf i a n :=
    stepsAt_add_self hs hr
  have hwi : ∀ v ∈ ws, v.index = i := by
    rcases he with ⟨-, rfl⟩ | ⟨-, -, rfl⟩
    · intro v hv
      cases hv
    · intro v hv
      rw [List.mem_singleton.1 hv]
      rfl
  have hwarnings : (s.add (s.world.roundsOf i a n) ws).warningsAt i = ws :=
    warningsAt_add_self hv hwi
  have hthrough : (s.add (s.world.roundsOf i a n) ws).through i = s.trace.size + n := by
    rw [through_eq_size]
    · simp [add]
    · intro e hm
      rw [toList_trace_add, List.mem_append] at hm
      rcases hm with hm | hm
      · exact Nat.le_of_lt (hs e hm)
      · exact Nat.le_of_eq (hr e hm)
  refine ⟨⟨n, hn, by rw [hsteps, World.map_action_roundsOf]⟩, fun k e hk hi => ?_, ?_⟩
  · rw [← Array.getElem?_toList, toList_trace_add] at hk
    rcases Nat.lt_or_ge k s.trace.size with hlt | hge
    · rw [List.getElem?_append_left (by simpa using hlt)] at hk
      have := hs e (List.mem_of_getElem? hk)
      omega
    · obtain ⟨m, rfl⟩ := Nat.exists_eq_add_of_le hge
      rw [List.getElem?_append_right (by simp), Array.length_toList, Nat.add_sub_cancel_left] at hk
      have hm := (World.getElem?_roundsOf hk).1
      rw [hworld m (Nat.le_of_lt hm)]
      exact hc m hm
  · rw [hthrough, hworld n (Nat.le_refl n), hsteps, hwarnings, World.length_roundsOf]
    exact he

end

end Walk

/-! ### Going through the program -/

/-- The walk has dealt with the places before `i`. -/
structure Tally (program : Program) (w : World) (i : Nat) (s : Walk) : Prop where
  world : s.world = w.actAll s.actions
  steps_lt : ∀ e ∈ s.trace.toList, e.index < i
  warnings_lt : ∀ w ∈ s.warnings.toList, w.index < i
  steps_sorted : s.trace.toList.Pairwise fun d e => d.index ≤ e.index
  warnings_sorted : s.warnings.toList.Pairwise fun v w => v.index < w.index
  tells : ∀ j < i, program.Tells s (s.worldFrom w) j

namespace Tally

variable {program : Program} {world : World} {i : Nat} {s : Walk}

theorem start (program : Program) (world : World) : Tally program world 0 ⟨world, #[], #[]⟩ :=
  ⟨rfl, by simp, by simp, by simp, by simp, fun j hj => absurd hj (Nat.not_lt_zero j)⟩

/-- **What is added on behalf of place `i`** takes nothing back of what was there before. -/
theorem add (h : Tally program world i s) {es : List Step} {ws : List Warning}
    (hes : ∀ e ∈ es, e.index = i) (hws : ∀ w ∈ ws, w.index = i) (hl : ws.length ≤ 1)
    (ht : program.Tells (s.add es ws) ((s.add es ws).worldFrom world) i) :
    Tally program world (i + 1) (s.add es ws) := by
  refine ⟨?_, fun e he => ?_, fun w hw => ?_, ?_, ?_, fun j hj => ?_⟩
  · rw [Walk.actions_add, World.actAll_append, ← h.world]
    rfl
  · rw [Walk.toList_trace_add, List.mem_append] at he
    rcases he with he | he
    · exact Nat.lt_succ_of_lt (h.steps_lt e he)
    · exact Nat.lt_succ_of_le (Nat.le_of_eq (hes e he))
  · rw [Walk.toList_warnings_add, List.mem_append] at hw
    rcases hw with hw | hw
    · exact Nat.lt_succ_of_lt (h.warnings_lt w hw)
    · exact Nat.lt_succ_of_le (Nat.le_of_eq (hws w hw))
  · rw [Walk.toList_trace_add, List.pairwise_append]
    refine ⟨h.steps_sorted, ?_, fun d hd e he => ?_⟩
    · refine List.pairwise_of_forall_mem_list ?_
      intro d hd e he
      exact Nat.le_of_eq ((hes d hd).trans (hes e he).symm)
    · rw [hes e he]
      exact Nat.le_of_lt (h.steps_lt d hd)
  · rw [Walk.toList_warnings_add, List.pairwise_append]
    refine ⟨h.warnings_sorted, ?_, fun v hv w hw => ?_⟩
    · match ws, hl with
      | [], _ => exact .nil
      | [w], _ => exact List.pairwise_singleton _ w
    · rw [hws w hw]
      exact h.warnings_lt v hv
  · rcases Nat.lt_or_eq_of_le (Nat.le_of_lt_succ hj) with hlt | rfl
    · have hes' : ∀ e ∈ es, j < e.index := fun e he => by rw [hes e he]; exact hlt
      have hws' : ∀ w ∈ ws, j < w.index := fun w hw => by rw [hws w hw]; exact hlt
      exact (h.tells j hlt).congr (Walk.stepsAt_add_of_ne fun e he => Nat.ne_of_gt (hes' e he))
        (Walk.warningsAt_add_of_ne fun w hw => Nat.ne_of_gt (hws' w hw))
        fun a c n hg => hg.add hes' hws'
    · exact ht

theorem says_nil (h : Tally program world i s) {j : Nat} (hj : i ≤ j) : s.Says j [] [] := by
  have hs : s.stepsAt j = [] := Walk.stepsAt_eq_nil fun e he => by
    have := h.steps_lt e he
    omega
  have hw : s.warningsAt j = [] := Walk.warningsAt_eq_nil fun w hw => by
    have := h.warnings_lt w hw
    omega
  exact ⟨by rw [hs]; rfl, hw⟩

/-- The action behind a wrapper makes no step of its own. -/
theorem skip (h : Tally program world i s) {a : Action} (hi : program[i]? = some (.act a))
    (hb : program.isBehindWrapper i = true) : Tally program world (i + 1) s := by
  refine ⟨h.world, fun e he => Nat.lt_succ_of_lt (h.steps_lt e he),
    fun w hw => Nat.lt_succ_of_lt (h.warnings_lt w hw), h.steps_sorted, h.warnings_sorted,
    fun j hj => ?_⟩
  rcases Nat.lt_or_eq_of_le (Nat.le_of_lt_succ hj) with hlt | rfl
  · exact h.tells j hlt
  · unfold Program.Tells
    rw [hi]
    show s.Says j (if program.isBehindWrapper j then [] else [a]) []
    rw [if_pos hb]
    exact h.says_nil (Nat.le_refl j)

theorem perform (h : Tally program world i s) {a : Action} (hi : program[i]? = some (.act a))
    (hb : program.isBehindWrapper i = false) : Tally program world (i + 1) (s.perform i a) := by
  have hes : ∀ e ∈ [(⟨i, a, (s.world.act a).walker⟩ : Step)], e.index = i := by simp
  rw [Walk.perform_eq_add]
  refine h.add hes (by simp) (by simp) ?_
  unfold Program.Tells
  rw [hi]
  show Walk.Says _ i (if program.isBehindWrapper i then [] else [a]) []
  rw [hb, if_neg (by simp)]
  exact ⟨by rw [Walk.stepsAt_add_self h.steps_lt hes]; rfl,
    Walk.warningsAt_add_self h.warnings_lt (by simp)⟩

theorem says_warn (h : Tally program world i s) {w : Warning} (hw : w.index = i) :
    (s.add [] [w]).Says i [] [w] :=
  ⟨by rw [Walk.stepsAt_add_self h.steps_lt (by simp)]; rfl,
    Walk.warningsAt_add_self h.warnings_lt (by simpa using hw)⟩

theorem warn_dangling (h : Tally program world i s) {v : Wrapper}
    (hi : program[i]? = some (.wrap v)) (hn : program[i + 1]? = none) :
    Tally program world (i + 1) (s.warn (.dangling i)) := by
  rw [Walk.warn_eq_add]
  refine h.add (by simp) (by simp [Warning.index]) (by simp) ?_
  unfold Program.Tells
  rw [hi, hn]
  exact h.says_warn rfl

theorem warn_nested (h : Tally program world i s) {v u : Wrapper}
    (hi : program[i]? = some (.wrap v)) (hn : program[i + 1]? = some (.wrap u)) :
    Tally program world (i + 1) (s.warn (.nested i)) := by
  rw [Walk.warn_eq_add]
  refine h.add (by simp) (by simp [Warning.index]) (by simp) ?_
  unfold Program.Tells
  rw [hi, hn]
  cases v <;> exact h.says_warn rfl

theorem loop (h : Tally program world i s) {v : Wrapper} {a : Action}
    (hi : program[i]? = some (.wrap v)) (hn : program[i + 1]? = some (.act a)) :
    Tally program world (i + 2) (v.loop i a s) := by
  have hb : program.isBehindWrapper (i + 1) = true := by
    rw [Program.isBehindWrapper, hi]
  refine skip ?_ hn hb
  have hr : ∀ n, ∀ e ∈ s.world.roundsOf i a n, e.index = i :=
    fun n e => World.index_of_mem_roundsOf
  cases v with
  | times count =>
    show Tally program world (i + 1) (s.rounds i a count.val)
    rw [Walk.rounds_eq_add]
    refine h.add (hr _) (by simp) (by simp) ?_
    unfold Program.Tells
    rw [hi, hn]
    exact ⟨by rw [Walk.stepsAt_add_self h.steps_lt (hr _), World.map_action_roundsOf],
      Walk.warningsAt_add_self h.warnings_lt (by simp)⟩
  | whilst c ceiling =>
    show Tally program world (i + 1) (s.guardedRounds i a c ceiling.val ceiling.val)
    obtain ⟨n, hle, hk, hend⟩ := s.exists_guardedRounds i a c ceiling.val ceiling.val
    rcases hend with ⟨hf, he⟩ | ⟨hm, ht, he⟩
    · rw [he, Walk.rounds_eq_add]
      refine h.add (hr _) (by simp) (by simp) ?_
      unfold Program.Tells
      rw [hi, hn]
      exact Walk.guards_add_roundsOf h.steps_lt h.warnings_lt h.world hle hk (Or.inl ⟨hf, rfl⟩)
    · rw [he, Walk.warn_rounds_eq_add]
      refine h.add (hr _) (by simp [Warning.index]) (by simp) ?_
      unfold Program.Tells
      rw [hi, hn]
      exact Walk.guards_add_roundsOf h.steps_lt h.warnings_lt h.world hle hk
        (Or.inr ⟨hm, ht, rfl⟩)

open Program in
/-- **A run deals with one place after another**, from any place at which it may stand to the end
of the program. -/
theorem exists_meaningFrom (h : Tally program world i s)
    (hb : ∀ a, program[i]? = some (.act a) → program.isBehindWrapper i = false) :
    ∃ m, program[m]? = none ∧ Tally program world m (program.meaningFrom i s) := by
  induction i, s using meaningFrom.induct program with
  | case1 i s hi =>
    rw [meaningFrom_end hi]
    exact ⟨i, hi, h⟩
  | case2 i s a hi ih =>
    rw [meaningFrom_act hi]
    refine ih (h.perform hi (hb a hi)) fun b _ => ?_
    rw [isBehindWrapper, hi]
  | case3 i s v hi hn ih =>
    rw [meaningFrom_dangling hi hn]
    refine ih (h.warn_dangling hi hn) fun b hb' => ?_
    rw [hn] at hb'
    cases hb'
  | case4 i s v hi u hn ih =>
    rw [meaningFrom_nested hi hn]
    refine ih (h.warn_nested hi hn) fun b hb' => ?_
    rw [hn] at hb'
    cases hb'
  | case5 i s v hi a hn ih =>
    rw [meaningFrom_loop hi hn]
    refine ih (h.loop hi hn) fun b _ => ?_
    rw [isBehindWrapper, hn]

end Tally

/-! ### The whole run -/

theorem Run.world_advance_start (program : Program) (world : World) (k : Nat) :
    ((Run.start program world).advance k).world = (program.run world).worldFrom world k := by
  rw [((recordsFrom_start program world).advance k).world, trace_advance_start, List.map_take]
  rfl

/-- The record is in the order of the program and has at each place what the program says there,
where `worlds k` is the world after `k` steps. -/
structure Program.Tallies (program : Program) (s : Walk) (worlds : Nat → World) : Prop where
  steps_sorted : s.trace.toList.Pairwise fun d e => d.index ≤ e.index
  warnings_sorted : s.warnings.toList.Pairwise fun v w => v.index < w.index
  tells : ∀ i, program.Tells s worlds i
  /-- Which wrappers govern nothing depends on the program alone. -/
  dangling : ∀ i, .dangling i ∈ s.warnings ↔
    ∃ v, program[i]? = some (.wrap v) ∧ i + 1 = program.length
  nested : ∀ i, .nested i ∈ s.warnings ↔
    ∃ v u, program[i]? = some (.wrap v) ∧ program[i + 1]? = some (.wrap u)

open Program in
theorem Tally.run (program : Program) (world : World) :
    ∃ m, program.length ≤ m ∧ Tally program world m (program.run world) := by
  have hb : ∀ a, program[0]? = some (.act a) → program.isBehindWrapper 0 = false :=
    fun _ _ => rfl
  obtain ⟨m, hm, h⟩ := (start program world).exists_meaningFrom hb
  rw [← meaning, ← run_eq] at h
  exact ⟨m, List.getElem?_eq_none_iff.1 hm, h⟩

/-- A walk that has dealt with all places has nothing to say about those that are not there. -/
theorem Tally.tells_of_length_le {program : Program} {world : World} {m : Nat} {s : Walk}
    (h : Tally program world m s) (hm : program.length ≤ m) (i : Nat) :
    program.Tells s (s.worldFrom world) i := by
  rcases Nat.lt_or_ge i m with hi | hi
  · exact h.tells i hi
  · unfold Program.Tells
    rw [List.getElem?_eq_none_iff.2 (Nat.le_trans hm hi)]
    exact h.says_nil hi

/-- **Every instruction has left in the record what the program says**: its steps, and the warning
about it, if there is one. -/
theorem Program.tallies_run (program : Program) (world : World) :
    program.Tallies (program.run world)
      fun k => ((Run.start program world).advance k).world := by
  obtain ⟨m, hm, h⟩ := Tally.run program world
  have hworlds : (fun k => ((Run.start program world).advance k).world) =
      (program.run world).worldFrom world :=
    funext fun k => Run.world_advance_start program world k
  rw [hworlds]
  have htells := h.tells_of_length_le hm
  refine ⟨h.steps_sorted, h.warnings_sorted, htells, fun i => ?_, fun i => ?_⟩
  · rw [Walk.mem_warningsAt (i := i) rfl, (htells i).mem_warningsAt.1]
    refine exists_congr fun v => and_congr_right fun hv => ?_
    have hi := (List.getElem?_eq_some_iff.1 hv).1
    rw [List.getElem?_eq_none_iff]
    omega
  · rw [Walk.mem_warningsAt (i := i) rfl]
    exact (htells i).mem_warningsAt.2

end Mazewalk
