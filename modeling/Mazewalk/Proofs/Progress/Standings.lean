import Mazewalk.Progress
import Mazewalk.Proofs.Roster.Lookup

/-!
# Standings

All that is asked of a player's progress is the standing of one level after another, and the
lemmas here say what each change does to that.  An outcome that is recorded changes something only
if it is a success, and then only two levels: its own, which is unlocked and keeps the better star
count, and the one after it, which is unlocked (`isUnlocked_record_iff`, `stars_record`).  The
answer names the level after it and no other (`of_fst_record_eq_some`).

Which level comes after another is asked by its id.  If no two levels have the same id, that is
the level at the next place (`successor?_eq`).
-/

namespace Mazewalk

namespace Progress

variable (p : Progress) (id other : LevelId)

/-! ### One standing -/

theorem get_empty : (⟨.empty⟩ : Progress).get id = {} := rfl

theorem get_put (standing : Standing) :
    (p.put id standing).get other = if other = id then standing else p.get other := by
  rw [get, put, Roster.get?_insert]
  split <;> rfl

theorem isUnlocked_put_iff {standing : Standing} (hs : standing.unlocked = true) :
    (p.put id standing).isUnlocked other = true ↔ p.isUnlocked other = true ∨ other = id := by
  rw [isUnlocked, get_put]
  split
  · rename_i h
    simp only [hs, h, or_true]
  · rename_i h
    simp only [h, or_false, isUnlocked]

theorem isUnlocked_unlock_iff :
    (p.unlock id).isUnlocked other = true ↔ p.isUnlocked other = true ∨ other = id :=
  p.isUnlocked_put_iff id other rfl

theorem isUnlocked_credit_iff (stars : UInt8) :
    (p.credit id stars).isUnlocked other = true ↔ p.isUnlocked other = true ∨ other = id :=
  p.isUnlocked_put_iff id other rfl

@[simp] theorem stars_unlock : ((p.unlock id).get other).stars = (p.get other).stars := by
  rw [unlock, get_put]
  split
  · rename_i h
    rw [h]
  · rfl

theorem stars_credit (stars : UInt8) :
    ((p.credit id stars).get other).stars =
      if other = id then max (p.get other).stars stars else (p.get other).stars := by
  rw [credit, get_put]
  split
  · rename_i h
    rw [h]
  · rfl

/-! ### The beginning -/

theorem isUnlocked_start_iff (catalog : List Level) :
    (start catalog).isUnlocked id = true ↔ catalog.head?.map Level.id = some id := by
  cases catalog with
  | nil => simp [start, isUnlocked, get_empty]
  | cons first rest =>
    rw [start, isUnlocked_unlock_iff, isUnlocked, get_empty]
    simp [eq_comm]

theorem stars_start (catalog : List Level) : ((start catalog).get id).stars = 0 := by
  cases catalog with
  | nil => rfl
  | cons first rest => rw [start, stars_unlock]; rfl

/-! ### Recording -/

/-- **What a recorded outcome unlocks**: its level and the one after it. -/
theorem isUnlocked_record_iff (catalog : List Level) (outcome : Level.Outcome) :
    (p.record catalog outcome).2.isUnlocked id = true ↔
      p.isUnlocked id = true ∨ outcome.success = true ∧
        (id = outcome.levelId ∨ successor? catalog outcome.levelId = some id) := by
  rw [record]
  split
  · rename_i hs
    simp only
    split
    · rename_i next hn
      rw [isUnlocked_unlock_iff, isUnlocked_credit_iff, hn, or_assoc, Option.some_inj,
        @eq_comm _ next id]
      simp only [hs, true_and]
    · rename_i hn
      rw [isUnlocked_credit_iff, hn]
      simp [hs]
  · rename_i hs
    simp [hs]

/-- **What a recorded outcome does to the stars**: its level keeps the better count. -/
theorem stars_record (catalog : List Level) (outcome : Level.Outcome) :
    ((p.record catalog outcome).2.get id).stars =
      if outcome.success = true ∧ id = outcome.levelId then max (p.get id).stars outcome.stars
      else (p.get id).stars := by
  rw [record]
  split
  · rename_i hs
    simp only [hs, true_and]
    split
    · rw [stars_unlock, stars_credit]
    · rw [stars_credit]
  · rename_i hs
    rw [if_neg fun h => hs h.1]

/-- The answer to a recorded outcome is the level after its own. -/
theorem of_fst_record_eq_some {catalog : List Level} {outcome : Level.Outcome}
    (h : (p.record catalog outcome).1 = some id) :
    outcome.success = true ∧ successor? catalog outcome.levelId = some id := by
  rw [record] at h
  split at h
  · rename_i hs
    simp only at h
    split at h
    · rename_i next hn
      split at h
      · cases h
      · exact ⟨hs, hn.trans h⟩
    · cases h
  · cases h

end Progress

/-! ### The level after another -/

theorem Progress.successor?_eq {levels : List Level} (hd : (levels.map Level.id).Nodup) {i : Nat}
    {level : Level} (hi : levels[i]? = some level) :
    successor? levels level.id = levels[i + 1]?.map Level.id := by
  induction levels generalizing i with
  | nil => cases hi
  | cons first rest ih =>
    rw [List.map_cons, List.nodup_cons] at hd
    obtain ⟨hf, hd⟩ := hd
    cases i with
    | zero =>
      obtain rfl : first = level := Option.some.inj hi
      rw [successor?, List.dropWhile_cons_of_neg (by simp)]
      cases rest <;> rfl
    | succ i =>
      have hne : first.id ≠ level.id := by
        intro he
        rw [he] at hf
        exact hf (List.mem_map_of_mem (List.mem_of_getElem? hi))
      have ih := ih hd hi
      rw [successor?, List.dropWhile_cons_of_pos (by simpa using hne)]
      exact ih

end Mazewalk
