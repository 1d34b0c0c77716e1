import Mazewalk.Proofs.Run.Items
import Mazewalk.Proofs.Run.Record
import Mazewalk.Proofs.World.Sight

/-!
# Loops that are stuck

A guarded loop is stuck when one of its rounds leaves the walker where it is with its heading.  The
world before the next round is then alike to the one before this round, so the condition holds again
and the action does again nothing to go by; and so it goes on to the ceiling
(`alike_worldAfter`).  The items make no difference, though the last round may have taken one.

`stuck_run` says so of every guarded loop of every run.  Read the other way round, a loop
without a warning about its ceiling has got on in every one of its rounds.
-/

namespace Mazewalk.Program

variable {program : Program} {world : World} {i k m : Nat} {e : Step} {c : Condition}
  {ceiling : Count} {a : Action}

/-- Step `k` of the run is one of the loop at place `i`, and it leaves the walker at its position
with its heading. -/
def StandsStill (program : Program) (world : World) (i k : Nat) : Prop :=
  ∃ e, (program.run world).trace[k]? = some e ∧ e.index = i ∧
    e.walker.position = (program.worldAfter world k).walker.position ∧
    e.walker.heading = (program.worldAfter world k).walker.heading

theorem standsStill_iff (he : (program.run world).trace[k]? = some e) (hi : e.index = i) :
    program.StandsStill world i k ↔
      (program.worldAfter world k).Alike ((program.worldAfter world k).act e.action) := by
  obtain ⟨hw, hv⟩ := worldAfter_succ he
  rw [World.alike_act_iff, ← hw, ← hv]
  constructor
  · rintro ⟨d, hd, -, hs⟩
    obtain rfl : e = d := Option.some.inj (he.symm.trans hd)
    exact hs
  · intro hs
    exact ⟨e, he, hi, hs⟩

/-- **From the round that is stuck on** all worlds are alike, to the end of the loop. -/
theorem alike_worldAfter (hi : program[i]? = some (.wrap (.whilst c ceiling)))
    (hn : program[i + 1]? = some (.act a)) (hk : program.StandsStill world i k) (hkm : k ≤ m)
    (hm : m ≤ (program.run world).through i) :
    (program.worldAfter world k).Alike (program.worldAfter world m) := by
  have hg := guards_run world hi hn
  obtain ⟨d, hd, hdi, -⟩ := id hk
  have hstill := (standsStill_iff hd hdi).1 hk
  rw [hg.action_eq hd hdi] at hstill
  induction hkm with
  | refl => exact .refl _
  | @step m hkm ih =>
    have hsize : m < (program.run world).trace.size :=
      Nat.lt_of_lt_of_le hm List.countP_le_length
    have he := Array.getElem?_eq_getElem hsize
    have hle := (lt_through_iff he).1 hm
    have hge := index_le_index hkm hd he
    have ha := hg.action_eq he (by omega)
    rw [(worldAfter_succ he).1, ha]
    exact hstill.trans ((ih (Nat.le_of_lt hm)).act a)

/-- **A guarded loop that is stuck once is stuck to the end**: all its later rounds leave the walker
where it is with its heading, there are as many rounds as the ceiling allows, and the run warns of
it.  So a loop without that warning has changed the position or the heading in all its rounds. -/
theorem stuck_run (program : Program) (world : World) {i : Nat} {c : Condition} {ceiling : Count}
    {a : Action} (hi : program[i]? = some (.wrap (.whilst c ceiling)))
    (hn : program[i + 1]? = some (.act a)) :
    (∀ k, program.StandsStill world i k →
      (∀ m e, k ≤ m → (program.run world).trace[m]? = some e → e.index = i →
        program.StandsStill world i m) ∧
      ((program.run world).stepsAt i).length = ceiling.val ∧
      .ceiling i ceiling.val ∈ (program.run world).warnings) ∧
    (.ceiling i ceiling.val ∉ (program.run world).warnings →
      ∀ k, ¬ program.StandsStill world i k) := by
  have hg := guards_run world hi hn
  have hstuck : ∀ k, program.StandsStill world i k →
      ((program.run world).stepsAt i).length = ceiling.val ∧
        .ceiling i ceiling.val ∈ (program.run world).warnings := by
    intro k hk
    obtain ⟨d, hd, hdi, -⟩ := id hk
    have hlt := (lt_through_iff hd).2 (Nat.le_of_eq hdi)
    have halike := alike_worldAfter hi hn hk (Nat.le_of_lt hlt) (Nat.le_refl _)
    have hc := (halike.holds c).trans (hg.holds k d hd hdi)
    rcases hg.ends with ⟨hf, -⟩ | ⟨hl, -, hw⟩
    · rw [hf] at hc
      cases hc
    · refine ⟨hl, ?_⟩
      rw [Walk.mem_warningsAt (i := i) rfl, hw]
      exact List.mem_singleton_self _
  refine ⟨fun k hk => ⟨fun m e hkm he hei => ?_, hstuck k hk⟩, fun hw k hk => hw (hstuck k hk).2⟩
  have hlt := (lt_through_iff he).2 (Nat.le_of_eq hei)
  have hm := alike_worldAfter hi hn hk hkm (Nat.le_of_lt hlt)
  have hs := alike_worldAfter hi hn hk (Nat.le_succ_of_le hkm) hlt
  rw [standsStill_iff he hei, ← (worldAfter_succ he).1]
  exact hm.symm.trans hs

/-- Picks up where the walker stands, again and again. -/
def greedy : Program :=
  [.wrap (.whilst .notAtGoal ⟨4, by decide, by decide⟩), .act .pickup]

/-- The first pickup finds an item, and yet the loop is stuck from there on. -/
theorem stuck_run_storeroom :
    greedy[0]? = some (.wrap (.whilst .notAtGoal ⟨4, by decide, by decide⟩)) ∧
      greedy[1]? = some (.act .pickup) ∧ greedy.StandsStill storeroom 0 0 ∧
      ((greedy.run storeroom).stepsAt 0).length = 4 ∧
      .ceiling 0 4 ∈ (greedy.run storeroom).warnings := by
  have he : (greedy.run storeroom).trace[0]? =
      some ⟨0, .pickup, ⟨⟨0, 0⟩, .right, true⟩⟩ := by
    rw [run_eq]
    decide +kernel
  have hs : greedy.StandsStill storeroom 0 0 := ⟨_, he, rfl, rfl, rfl⟩
  exact ⟨rfl, rfl, hs, ((stuck_run greedy storeroom rfl rfl).1 0 hs).2⟩

end Mazewalk.Program
