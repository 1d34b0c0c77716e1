import Mathlib.Algebra.BigOperators.Finprod
import Mathlib.Algebra.Order.BigOperators.Group.Finset
import Mathlib.Data.List.Induction
import Mazewalk.Proofs.Progress.Standings

/-!
# The history of a progress

A player's progress changes in two ways: a level is unlocked, or the outcome of a run is recorded.
After any number of changes it says no more than which changes there were.  A level has the most
stars of its successful outcomes, and it is unlocked if it is the first of the catalog, or was
unlocked, or was passed, or comes right after a level that was passed (`Opened`).  Neither the
order of the changes counts nor how often one was made (`history_eq`).

`best` and `Opened` are followed along the history, one change at its end after another
(`stars_history`, `isUnlocked_history_iff`).  The rest needs that a progress is known by its
standings.  Most levels have none, but a level with an entry is always unlocked
(`Tidy`), so what is held for an id can be told from its standing (`Tidy.get?_eq`).
-/

namespace Mazewalk.Progress

/-- One change of a progress. -/
inductive Change where
  | unlock (id : LevelId)
  | record (outcome : Level.Outcome)
  deriving DecidableEq, Repr

/-- The progress after one change. -/
def apply (catalog : List Level) (p : Progress) : Change → Progress
  | .unlock id => p.unlock id
  | .record outcome => (p.record catalog outcome).2

/-- The progress of a new player after some changes, the first one first. -/
def history (catalog : List Level) (changes : List Change) : Progress :=
  changes.foldl (apply catalog) (start catalog)

theorem history_concat (catalog : List Level) (changes : List Change) (change : Change) :
    history catalog (changes ++ [change]) = apply catalog (history catalog changes) change :=
  List.foldl_concat _ _ _ _

/-! ### What counts -/

/-- The successful outcomes among some changes. -/
def successes (changes : List Change) : List Level.Outcome :=
  changes.filterMap fun
    | .unlock _ => none
    | .record outcome => if outcome.success then some outcome else none

/-- The most stars of a successful outcome on a level, and zero if there is none. -/
def best (changes : List Change) (id : LevelId) : UInt8 :=
  (((successes changes).filter fun outcome => outcome.levelId = id).map
    Level.Outcome.stars).foldl max 0

/-- The levels with a successful outcome. -/
def passed (changes : List Change) : Finset LevelId :=
  ((successes changes).map Level.Outcome.levelId).toFinset

/-- In the catalog, right after the first level with id `a`, stands one with id `b`. -/
def ComesAfter (catalog : List Level) (a b : LevelId) : Prop :=
  ∃ i, (catalog.map Level.id)[i]? = some a ∧ (∀ j < i, (catalog.map Level.id)[j]? ≠ some a) ∧
    (catalog.map Level.id)[i + 1]? = some b

/-- The changes open a level of the catalog. -/
def Opened (catalog : List Level) (changes : List Change) (id : LevelId) : Prop :=
  catalog.head?.map Level.id = some id ∨ .unlock id ∈ changes ∨
    ∃ outcome ∈ successes changes,
      outcome.levelId = id ∨ ComesAfter catalog outcome.levelId id

theorem mem_successes {changes : List Change} {outcome : Level.Outcome} :
    outcome ∈ successes changes ↔ .record outcome ∈ changes ∧ outcome.success = true := by
  rw [successes, List.mem_filterMap]
  constructor
  · rintro ⟨change, hm, h⟩
    cases change with
    | unlock id => cases h
    | record other =>
      by_cases hs : other.success = true
      · obtain rfl : other = outcome := by simpa [hs] using h
        exact ⟨hm, hs⟩
      · simp [hs] at h
  · rintro ⟨hm, hs⟩
    exact ⟨.record outcome, hm, if_pos hs⟩

theorem successes_concat_unlock (changes : List Change) (id : LevelId) :
    successes (changes ++ [.unlock id]) = successes changes := by
  rw [successes, List.filterMap_append]
  exact List.append_nil _

theorem successes_concat_record (changes : List Change) (outcome : Level.Outcome) :
    successes (changes ++ [.record outcome]) =
      successes changes ++ if outcome.success = true then [outcome] else [] := by
  rw [successes, List.filterMap_append]
  by_cases hs : outcome.success = true <;> simp [hs, successes]

theorem successor?_eq_some_iff {catalog : List Level} {a b : LevelId} :
    successor? catalog a = some b ↔ ComesAfter catalog a b := by
  induction catalog with
  | nil => simp [successor?, ComesAfter]
  | cons first rest ih =>
    by_cases ha : first.id = a
    · -- the first level is the one, so no place before it has to be looked at
      have hs : successor? (first :: rest) a = rest.head?.map Level.id := by
        rw [successor?, List.dropWhile_cons_of_neg (by simpa using ha)]
        cases rest <;> rfl
      rw [hs]
      constructor
      · intro h
        refine ⟨0, by simp [ha], by simp, ?_⟩
        rwa [List.map_cons, List.getElem?_cons_succ, List.getElem?_map, ← List.head?_eq_getElem?]
      · rintro ⟨i, -, hfirst, hb⟩
        cases i with
        | zero =>
          rwa [List.map_cons, List.getElem?_cons_succ, List.getElem?_map,
            ← List.head?_eq_getElem?] at hb
        | succ i => exact absurd (by simp [ha]) (hfirst 0 (Nat.succ_pos i))
    · have hs : successor? (first :: rest) a = successor? rest a := by
        rw [successor?, List.dropWhile_cons_of_pos (by simpa using ha)]
        rfl
      rw [hs, ih]
      constructor
      · rintro ⟨i, hi, hfirst, hb⟩
        refine ⟨i + 1, hi, fun j hj => ?_, hb⟩
        cases j with
        | zero => simpa using ha
        | succ j => exact hfirst j (Nat.lt_of_succ_lt_succ hj)
      · rintro ⟨i, hi, hfirst, hb⟩
        cases i with
        | zero => exact absurd (by simpa using hi) ha
        | succ i => exact ⟨i, hi, fun j hj => hfirst (j + 1) (Nat.succ_lt_succ hj), hb⟩

/-! ### Stars -/

theorem best_concat_record (changes : List Change) (outcome : Level.Outcome) (id : LevelId) :
    best (changes ++ [.record outcome]) id =
      if outcome.success = true ∧ id = outcome.levelId then max (best changes id) outcome.stars
      else best changes id := by
  rw [best, successes_concat_record]
  by_cases hs : outcome.success = true
  · rw [if_pos hs, List.filter_append, List.map_append, List.foldl_append]
    by_cases hid : id = outcome.levelId
    · subst hid
      simp [hs, best]
    · simp [hid, Ne.symm hid, best]
  · simp [hs, best]

/-- **The stars of a level** are the most that a recorded success on it has earned. -/
theorem stars_history (catalog : List Level) (changes : List Change) (id : LevelId) :
    ((history catalog changes).get id).stars = best changes id := by
  induction changes using List.reverseRecOn with
  | nil => exact stars_start id catalog
  | append_singleton changes change ih =>
    rw [history_concat]
    cases change with
    | unlock other => rw [apply, stars_unlock, ih, best, best, successes_concat_unlock]
    | record outcome => rw [apply, stars_record, ih, best_concat_record]

theorem max_stars_le_iff {m s n : UInt8} : max m s ≤ n ↔ m ≤ n ∧ s ≤ n := by
  show (if m ≤ s then s else m) ≤ n ↔ m ≤ n ∧ s ≤ n
  split
  · rename_i h
    exact ⟨fun hs => ⟨UInt8.le_trans h hs, hs⟩, And.right⟩
  · rename_i h
    have h : s ≤ m := UInt8.le_of_lt (UInt8.not_le.1 h)
    exact ⟨fun hm => ⟨hm, UInt8.le_trans h hm⟩, And.left⟩

theorem foldl_max_le_iff {stars : List UInt8} {m n : UInt8} :
    stars.foldl max m ≤ n ↔ m ≤ n ∧ ∀ s ∈ stars, s ≤ n := by
  induction stars generalizing m with
  | nil => simp
  | cons s stars ih =>
    rw [List.foldl_cons, ih, max_stars_le_iff, List.forall_mem_cons, and_assoc]

theorem best_le_iff {changes : List Change} {id : LevelId} {n : UInt8} :
    best changes id ≤ n ↔
      ∀ outcome ∈ successes changes, outcome.levelId = id → outcome.stars ≤ n := by
  rw [best, foldl_max_le_iff, List.forall_mem_map]
  simp

theorem best_eq_zero {changes : List Change} {id : LevelId} (h : id ∉ passed changes) :
    best changes id = 0 := by
  refine UInt8.le_antisymm (best_le_iff.2 fun outcome hm he => ?_) UInt8.zero_le
  refine absurd ?_ h
  rw [passed, List.mem_toFinset, ← he]
  exact List.mem_map_of_mem hm

/-- The sum of all stars may leave out levels without any. -/
theorem totalStars_eq_sum {p : Progress} {ids : Finset LevelId}
    (h : ∀ id, id ∉ ids → (p.get id).stars = 0) :
    p.totalStars = ∑ id ∈ ids, (p.get id).stars.toNat := by
  have hheld : ∀ entry ∈ p.standings.entries, entry.2 = p.get entry.1 := by
    rintro ⟨id, standing⟩ hm
    rw [get, Roster.mem_entries.1 hm]
    rfl
  have hentries : p.totalStars =
      ∑ id ∈ (p.standings.entries.map Prod.fst).toFinset, (p.get id).stars.toNat := by
    rw [List.sum_toFinset _ p.standings.nodup_ids, List.map_map]
    rw [totalStars, Roster.values, List.map_map, ← List.sum_eq_foldr]
    congr 1
    refine List.map_congr_left fun entry hm => ?_
    rw [Function.comp_apply, Function.comp_apply, hheld entry hm]
  -- both sums are the one over all ids
  rw [hentries, ← finsum_eq_sum_of_support_subset, ← finsum_eq_sum_of_support_subset]
  · intro id hid
    by_contra hn
    exact hid (congrArg UInt8.toNat (h id hn))
  · intro id hid
    by_contra hn
    have hnone : p.standings.get? id = none := by
      rw [Option.eq_none_iff_forall_ne_some]
      intro standing hs
      refine hn (List.mem_toFinset.2 ?_)
      exact List.mem_map_of_mem (Roster.mem_entries.2 hs)
    have hget : p.get id = {} := by rw [get, hnone]; rfl
    exact hid (congrArg (fun standing : Standing => standing.stars.toNat) hget)

/-! ### Unlocked levels -/

/-- **The unlocked levels** are those that the changes open. -/
theorem isUnlocked_history_iff (catalog : List Level) (changes : List Change) (id : LevelId) :
    (history catalog changes).isUnlocked id = true ↔ Opened catalog changes id := by
  induction changes using List.reverseRecOn with
  | nil =>
    have hstart : history catalog [] = start catalog := rfl
    rw [hstart, isUnlocked_start_iff]
    simp [Opened, successes]
  | append_singleton changes change ih =>
    rw [history_concat]
    cases change with
    | unlock other =>
      rw [apply, isUnlocked_unlock_iff, ih, Opened, Opened, successes_concat_unlock,
        List.mem_append, List.mem_singleton, Change.unlock.injEq, or_assoc, or_right_comm]
    | record outcome =>
      rw [apply, isUnlocked_record_iff, ih, successor?_eq_some_iff, Opened, Opened]
      simp only [mem_successes, List.mem_append, List.mem_singleton, Change.record.injEq,
        reduceCtorEq, or_false]
      constructor
      · rintro ((h | h | ⟨other, ⟨hm, hs⟩, ho⟩) | ⟨hs, ho⟩)
        · exact Or.inl h
        · exact Or.inr (Or.inl h)
        · exact Or.inr (Or.inr ⟨other, ⟨Or.inl hm, hs⟩, ho⟩)
        · exact Or.inr (Or.inr ⟨outcome, ⟨Or.inr rfl, hs⟩, ho.imp_left Eq.symm⟩)
      · rintro (h | h | ⟨other, ⟨hm | rfl, hs⟩, ho⟩)
        · exact Or.inl (Or.inl h)
        · exact Or.inl (Or.inr (Or.inl h))
        · exact Or.inl (Or.inr (Or.inr ⟨other, ⟨hm, hs⟩, ho⟩))
        · exact Or.inr ⟨hs, ho.imp_left Eq.symm⟩

/-! ### Entries -/

/-- A level that has an entry is unlocked. -/
def Tidy (p : Progress) : Prop :=
  ∀ id standing, p.standings.get? id = some standing → standing.unlocked = true

theorem Tidy.put {p : Progress} (h : p.Tidy) (id : LevelId) {standing : Standing}
    (hs : standing.unlocked = true) : (p.put id standing).Tidy := by
  intro other held hh
  rw [Progress.put, Roster.get?_insert] at hh
  split at hh
  · obtain rfl := Option.some.inj hh
    exact hs
  · exact h other held hh

theorem tidy_start (catalog : List Level) : (start catalog).Tidy := by
  have hempty : (⟨.empty⟩ : Progress).Tidy := fun _ _ h => nomatch h
  cases catalog with
  | nil => exact hempty
  | cons first rest => exact hempty.put first.id rfl

theorem Tidy.apply {p : Progress} (h : p.Tidy) (catalog : List Level) (change : Change) :
    (p.apply catalog change).Tidy := by
  cases change with
  | unlock id => exact h.put id rfl
  | record outcome =>
    rw [Progress.apply, record]
    split
    · have hc : (p.credit outcome.levelId outcome.stars).Tidy := h.put outcome.levelId rfl
      simp only
      split
      · exact hc.put _ rfl
      · exact hc
    · exact h

theorem tidy_history (catalog : List Level) (changes : List Change) :
    (history catalog changes).Tidy := by
  induction changes using List.reverseRecOn with
  | nil => exact tidy_start catalog
  | append_singleton changes change ih =>
    rw [history_concat]
    exact ih.apply catalog change

theorem Tidy.get?_eq {p : Progress} (h : p.Tidy) (id : LevelId) :
    p.standings.get? id = if p.isUnlocked id = true then some (p.get id) else none := by
  rw [isUnlocked, get]
  cases hs : p.standings.get? id with
  | none => rfl
  | some standing => exact (if_pos (h id standing hs)).symm

/-- A tidy progress is known by its standings. -/
theorem Tidy.ext {p q : Progress} (hp : p.Tidy) (hq : q.Tidy)
    (hu : ∀ id, p.isUnlocked id = q.isUnlocked id)
    (hs : ∀ id, (p.get id).stars = (q.get id).stars) : p = q := by
  have hget : ∀ id, p.get id = q.get id := by
    intro id
    have hu := hu id
    have hs := hs id
    rw [isUnlocked, isUnlocked] at hu
    cases h : p.get id
    cases h' : q.get id
    simp_all
  have hstandings : p.standings = q.standings := by
    refine Roster.ext_get? fun id => ?_
    rw [hp.get?_eq, hq.get?_eq, hu, hget]
  cases p
  cases q
  exact congrArg Progress.mk hstandings

/-! ### Histories -/

theorem best_le_of_subset {changes changes' : List Change} (h : changes ⊆ changes')
    (id : LevelId) : best changes id ≤ best changes' id := by
  refine best_le_iff.2 fun outcome hm => ?_
  obtain ⟨hm, hs⟩ := mem_successes.1 hm
  exact best_le_iff.1 (UInt8.le_refl _) outcome (mem_successes.2 ⟨h hm, hs⟩)

theorem Opened.of_subset {catalog : List Level} {changes changes' : List Change} {id : LevelId}
    (ho : Opened catalog changes id) (h : changes ⊆ changes') : Opened catalog changes' id := by
  refine ho.imp_right (Or.imp (fun hu => h hu) ?_)
  rintro ⟨outcome, hm, hid⟩
  obtain ⟨hm, hs⟩ := mem_successes.1 hm
  exact ⟨outcome, mem_successes.2 ⟨h hm, hs⟩, hid⟩

theorem history_congr {catalog : List Level} {changes changes' : List Change}
    (h : changes ⊆ changes') (h' : changes' ⊆ changes) :
    history catalog changes = history catalog changes' := by
  refine (tidy_history catalog changes).ext (tidy_history catalog changes') ?_ ?_
  · intro id
    rw [Bool.eq_iff_iff, isUnlocked_history_iff, isUnlocked_history_iff]
    exact ⟨fun ho => ho.of_subset h, fun ho => ho.of_subset h'⟩
  · intro id
    rw [stars_history, stars_history]
    exact UInt8.le_antisymm (best_le_of_subset h id) (best_le_of_subset h' id)

theorem sum_best_lt {changes : List Change} (h : (passed changes).card < 2 ^ 24) :
    ∑ id ∈ passed changes, (best changes id).toNat < UInt32.size := by
  have hle : ∑ id ∈ passed changes, (best changes id).toNat ≤ (passed changes).card * 255 := by
    rw [← smul_eq_mul]
    exact Finset.sum_le_card_nsmul _ _ 255 fun id _ => Nat.le_of_lt_succ (UInt8.toNat_lt _)
  calc ∑ id ∈ passed changes, (best changes id).toNat
      ≤ (passed changes).card * 255 := hle
    _ ≤ 2 ^ 24 * 255 := Nat.mul_le_mul_right 255 (Nat.le_of_lt h)
    _ < UInt32.size := by decide

/-- **What a history comes to.**  The stars of a level are the best of its successes, and exactly
the opened levels are unlocked.  All stars add up over the levels that were passed, to a 32-bit
number if these are fewer than `2 ^ 24`.  Histories made of the same changes, in whatever order and
however often, come to the same progress. -/
theorem history_eq (catalog : List Level) :
    (∀ changes,
      (∀ id, ((history catalog changes).get id).stars = best changes id ∧
        ((history catalog changes).isUnlocked id = true ↔ Opened catalog changes id)) ∧
      (history catalog changes).totalStars = ∑ id ∈ passed changes, (best changes id).toNat ∧
      ((passed changes).card < 2 ^ 24 → (history catalog changes).totalStars < UInt32.size)) ∧
    ∀ changes changes' : List Change, (∀ change, change ∈ changes ↔ change ∈ changes') →
      history catalog changes = history catalog changes' := by
  refine ⟨fun changes => ?_, fun changes changes' h => ?_⟩
  · have hsum : (history catalog changes).totalStars =
        ∑ id ∈ passed changes, (best changes id).toNat := by
      have hzero : ∀ id, id ∉ passed changes → ((history catalog changes).get id).stars = 0 := by
        intro id hid
        rw [stars_history, best_eq_zero hid]
      rw [totalStars_eq_sum hzero]
      exact Finset.sum_congr rfl fun id _ => by rw [stars_history]
    refine ⟨fun id => ⟨stars_history catalog changes id, isUnlocked_history_iff catalog changes id⟩,
      hsum, fun hcard => ?_⟩
    rw [hsum]
    exact sum_best_lt hcard
  · exact history_congr (fun change => (h change).1) fun change => (h change).2

/-- A level of one cell, with the walker on the goal. -/
def cell (id : LevelId) : Level where
  id := id
  name := "Cell"
  description := ""
  grid := ⟨1, 1, #[⟨.goal, false⟩]⟩
  start := ⟨⟨0, 0⟩, .right, false⟩
  palette := [.pickup]
  par := 2
  passable_start := by decide
  par_ne_zero := by decide
  palette_ne_nil := by decide
  palette_sorted := by decide

/-- An outcome on a level, with nothing done. -/
def verdict (id : LevelId) (success : Bool) (stars : UInt8) : Level.Outcome :=
  ⟨id, success, stars, (cell id).start, #[], #[]⟩

/-- Five levels, two of which have the same id. -/
def cells : List Level :=
  [cell 1, cell 2, cell 3, cell 2, cell 4]

/-- The third level is passed though it was locked, and so is one that is not in the catalog. -/
def visits : List Change :=
  [.record (verdict 3 true 2), .unlock 9, .record (verdict 3 true 1), .record (verdict 7 true 200),
    .record (verdict 1 false 3)]

theorem history_eq_visits :
    (passed visits).card < 2 ^ 24 ∧ (history cells visits).totalStars < UInt32.size ∧
      (∀ change, change ∈ visits ↔ change ∈ visits.reverse ++ visits) ∧
      history cells visits = history cells (visits.reverse ++ visits) := by
  obtain ⟨h, hsame⟩ := history_eq cells
  have hcard : (passed visits).card < 2 ^ 24 := by decide
  have hmem : ∀ change, change ∈ visits ↔ change ∈ visits.reverse ++ visits := by simp
  exact ⟨hcard, (h visits).2.2 hcard, hmem, hsame _ _ hmem⟩

end Mazewalk.Progress
