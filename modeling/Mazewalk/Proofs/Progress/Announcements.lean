import Mazewalk.Proofs.Progress.History

/-!
# Announcements

A player is told when a level becomes playable.  Whoever unlocks a level is told whether it was
locked, and whoever records an outcome is told the level after it if that was locked.  One level is
opened in silence, the one that was passed, and nothing else ever is: what a change unlocks is what
it announces, and the level of a success (`gains_record_iff`, `gains_unlock_iff`).

Nothing here asks where the progress comes from.  It may have any entries, and the changes may be
made with different catalogs, in which levels are missing or come twice or follow themselves.  What
carries a history through is that an unlocked level is never announced and never locked again
(`isUnlocked_after`, `isUnlocked_of_mem_announcements`), so that no level is announced twice.
-/

namespace Mazewalk.Progress

/-- The level is locked in the first progress and unlocked in the second. -/
def Gains (p q : Progress) (id : LevelId) : Prop :=
  p.isUnlocked id = false ∧ q.isUnlocked id = true

/-- The level that a change announces. -/
def announced? (catalog : List Level) (p : Progress) : Change → Option LevelId
  | .unlock id => if (p.unlockAnnounced id).1 then some id else none
  | .record outcome => (p.record catalog outcome).1

/-- The progress after some changes, each of them made with a catalog of its own. -/
def after (p : Progress) (changes : List (List Level × Change)) : Progress :=
  changes.foldl (fun p change => p.apply change.1 change.2) p

/-- The levels that some changes announce, in their order. -/
def announcements (p : Progress) : List (List Level × Change) → List LevelId
  | [] => []
  | (catalog, change) :: changes =>
      (p.announced? catalog change).toList ++ (p.apply catalog change).announcements changes

variable {p : Progress} {id : LevelId} {catalog : List Level} {outcome : Level.Outcome}

/-! ### One change -/

/-- **The answer to a recorded outcome** is the level after its own, if that was locked and is
another level. -/
theorem fst_record_eq_some_iff :
    (p.record catalog outcome).1 = some id ↔
      outcome.success = true ∧ successor? catalog outcome.levelId = some id ∧
        p.isUnlocked id = false ∧ id ≠ outcome.levelId := by
  rw [record]
  split
  · rename_i hs
    simp only [hs, true_and]
    cases hn : successor? catalog outcome.levelId with
    | none => simp
    | some next =>
      -- the outcome has been counted when the next level is looked at
      have hu := p.isUnlocked_credit_iff outcome.levelId next outcome.stars
      simp only [Option.some.injEq]
      split
      · rename_i hc
        constructor
        · intro h
          cases h
        · rintro ⟨rfl, hl, hne⟩
          rw [hu, hl] at hc
          exact absurd (hc.resolve_left Bool.noConfusion) hne
      · rename_i hc
        rw [hu, not_or, Bool.not_eq_true] at hc
        rw [Option.some_inj]
        constructor
        · rintro rfl
          exact ⟨rfl, hc⟩
        · exact And.left
  · rename_i hs
    simp [hs]

/-- **What a recorded outcome unlocks** is the level that it announces, and its own level. -/
theorem gains_record_iff :
    p.Gains (p.record catalog outcome).2 id ↔
      (p.record catalog outcome).1 = some id ∨
        id = outcome.levelId ∧ outcome.success = true ∧ p.isUnlocked id = false := by
  rw [Gains, isUnlocked_record_iff, fst_record_eq_some_iff]
  constructor
  · rintro ⟨hl, hu | ⟨hs, he | hn⟩⟩
    · rw [hl] at hu
      cases hu
    · exact Or.inr ⟨he, hs, hl⟩
    · by_cases he : id = outcome.levelId
      · exact Or.inr ⟨he, hs, hl⟩
      · exact Or.inl ⟨hs, hn, hl, he⟩
  · rintro (⟨hs, hn, hl, -⟩ | ⟨he, hs, hl⟩)
    · exact ⟨hl, Or.inr ⟨hs, Or.inr hn⟩⟩
    · exact ⟨hl, Or.inr ⟨hs, Or.inl he⟩⟩

theorem unlockAnnounced_eq_true_iff :
    (p.unlockAnnounced id).1 = true ↔ p.isUnlocked id = false := by
  rw [unlockAnnounced, Bool.not_eq_true']

/-- **What unlocking a level unlocks** is that level if this is announced, and otherwise none. -/
theorem gains_unlock_iff {other : LevelId} :
    p.Gains (p.unlockAnnounced id).2 other ↔ (p.unlockAnnounced id).1 = true ∧ other = id := by
  have hp : (p.unlockAnnounced id).2 = p.unlock id := rfl
  rw [unlockAnnounced_eq_true_iff, hp, Gains, isUnlocked_unlock_iff]
  constructor
  · rintro ⟨hl, hu | rfl⟩
    · rw [hl] at hu
      cases hu
    · exact ⟨hl, rfl⟩
  · rintro ⟨hl, rfl⟩
    exact ⟨hl, Or.inr rfl⟩

/-- A level that is announced was locked and is unlocked. -/
theorem gains_of_announced {change : Change} (h : p.announced? catalog change = some id) :
    p.Gains (p.apply catalog change) id := by
  cases change with
  | unlock other =>
    rw [announced?] at h
    split at h
    · rename_i ha
      obtain rfl : other = id := Option.some.inj h
      exact gains_unlock_iff.2 ⟨ha, rfl⟩
    · cases h
  | record outcome => exact gains_record_iff.2 (Or.inl h)

/-- **No change locks a level.** -/
theorem isUnlocked_apply (h : p.isUnlocked id = true) (catalog : List Level) (change : Change) :
    (p.apply catalog change).isUnlocked id = true := by
  cases change with
  | unlock other => exact (isUnlocked_unlock_iff p other id).2 (Or.inl h)
  | record outcome => exact (isUnlocked_record_iff p id catalog outcome).2 (Or.inl h)

/-- **No change takes a star away.** -/
theorem stars_le_stars_apply (p : Progress) (id : LevelId) (catalog : List Level)
    (change : Change) : (p.get id).stars ≤ ((p.apply catalog change).get id).stars := by
  cases change with
  | unlock other =>
    rw [apply, stars_unlock]
    exact UInt8.le_refl _
  | record outcome =>
    rw [apply, stars_record]
    split
    · exact (max_stars_le_iff.1 (UInt8.le_refl _)).1
    · exact UInt8.le_refl _

/-! ### Many changes -/

theorem isUnlocked_after (h : p.isUnlocked id = true) (changes : List (List Level × Change)) :
    (p.after changes).isUnlocked id = true := by
  induction changes generalizing p with
  | nil => exact h
  | cons change changes ih => exact ih (isUnlocked_apply h change.1 change.2)

theorem stars_le_stars_after (p : Progress) (id : LevelId)
    (changes : List (List Level × Change)) :
    (p.get id).stars ≤ ((p.after changes).get id).stars := by
  induction changes generalizing p with
  | nil => exact UInt8.le_refl _
  | cons change changes ih =>
    exact UInt8.le_trans (stars_le_stars_apply p id change.1 change.2) (ih _)

theorem mem_announcements_cons {change : Change} {changes : List (List Level × Change)} :
    id ∈ p.announcements ((catalog, change) :: changes) ↔
      p.announced? catalog change = some id ∨
        id ∈ (p.apply catalog change).announcements changes := by
  rw [announcements, List.mem_append, Option.mem_toList]

/-- **What is announced was locked** before all the changes and is unlocked after them. -/
theorem gains_of_mem_announcements {changes : List (List Level × Change)}
    (h : id ∈ p.announcements changes) : p.Gains (p.after changes) id := by
  induction changes generalizing p with
  | nil => cases h
  | cons change changes ih =>
    obtain ⟨catalog, change⟩ := change
    obtain ha | hm := mem_announcements_cons.1 h
    · obtain ⟨hl, hu⟩ := gains_of_announced ha
      exact ⟨hl, isUnlocked_after hu changes⟩
    · obtain ⟨hl, hu⟩ := ih hm
      refine ⟨Bool.eq_false_iff.2 fun hp => ?_, hu⟩
      rw [isUnlocked_apply hp catalog change] at hl
      cases hl

/-- **No level is announced twice.** -/
theorem nodup_announcements (p : Progress) (changes : List (List Level × Change)) :
    (p.announcements changes).Nodup := by
  induction changes generalizing p with
  | nil => exact List.nodup_nil
  | cons change changes ih =>
    obtain ⟨catalog, change⟩ := change
    rw [announcements]
    cases ha : p.announced? catalog change with
    | none => exact ih _
    | some id =>
      refine List.nodup_cons.2 ⟨fun hm => ?_, ih _⟩
      -- it is unlocked by now
      have hl := (gains_of_mem_announcements hm).1
      rw [(gains_of_announced ha).2] at hl
      cases hl

/-- **Announcements are exact.**  What an outcome unlocks when it is recorded is the level that is
answered and, if it is a success, its own level.  The answer is the level after its own, and only
if that was locked.  A failure changes nothing.  A level is unlocked by name exactly when that is
the answer.  And however many changes there are, none locks a level or takes a star away, and each
level is announced at most once. -/
theorem announcements_exact (p : Progress) :
    (∀ catalog outcome,
      (∀ id, p.Gains (p.record catalog outcome).2 id ↔
        (p.record catalog outcome).1 = some id ∨
          id = outcome.levelId ∧ outcome.success = true ∧ p.isUnlocked id = false) ∧
      (∀ id, (p.record catalog outcome).1 = some id ↔
        outcome.success = true ∧ ComesAfter catalog outcome.levelId id ∧
          p.isUnlocked id = false ∧ id ≠ outcome.levelId) ∧
      (outcome.success = false → p.record catalog outcome = (none, p))) ∧
    (∀ id other, p.Gains (p.unlockAnnounced id).2 other ↔
      (p.unlockAnnounced id).1 = true ∧ other = id) ∧
    ∀ changes,
      (∀ id, (p.isUnlocked id = true → (p.after changes).isUnlocked id = true) ∧
        (p.get id).stars ≤ ((p.after changes).get id).stars) ∧
      (p.announcements changes).Nodup ∧
      ∀ id ∈ p.announcements changes, p.Gains (p.after changes) id := by
  refine ⟨fun catalog outcome => ⟨fun id => gains_record_iff, fun id => ?_, fun hs => ?_⟩,
    fun id other => gains_unlock_iff, fun changes => ⟨fun id => ⟨fun hu => ?_, ?_⟩, ?_, ?_⟩⟩
  · rw [fst_record_eq_some_iff, successor?_eq_some_iff]
  · rw [record, if_neg (by rw [hs]; exact Bool.false_ne_true)]
  · exact isUnlocked_after hu changes
  · exact stars_le_stars_after p id changes
  · exact nodup_announcements p changes
  · exact fun id hm => gains_of_mem_announcements hm

/-- Changes with two catalogs: a level that follows itself, a level that was locked when it was
passed, a level that is unlocked by name and passed over by a failure, and a level that two
outcomes and its name unlock. -/
def detours : List (List Level × Change) :=
  [([cell 5, cell 5], .record (verdict 5 true 3)), (cells, .record (verdict 2 true 2)),
    (cells, .unlock 4), (cells, .record (verdict 3 false 3)), (cells, .record (verdict 1 true 1)),
    ([cell 3, cell 9], .record (verdict 3 true 4)), (cells, .unlock 9)]

/-- The level that follows itself is not announced, nor is the second one of `cells`, which was
passed before its turn came. -/
theorem announcements_exact_detours :
    (start cells).announcements detours = [3, 4, 9] ∧
      ((start cells).announcements detours).Nodup ∧
      3 ∈ (start cells).announcements detours ∧
      (start cells).Gains ((start cells).after detours) 3 ∧
      (start cells).isUnlocked 1 = true ∧ ((start cells).after detours).isUnlocked 1 = true ∧
      (verdict 3 false 3).success = false ∧
      (start cells).record cells (verdict 3 false 3) = (none, start cells) := by
  obtain ⟨hrecord, -, hafter⟩ := announcements_exact (start cells)
  obtain ⟨hkept, hnodup, hgains⟩ := hafter detours
  have hm : 3 ∈ (start cells).announcements detours := by decide
  have hu : (start cells).isUnlocked 1 = true := by decide
  have hs : (verdict 3 false 3).success = false := rfl
  exact ⟨by decide, hnodup, hm, hgains 3 hm, hu, (hkept 1).1 hu, hs, (hrecord cells _).2.2 hs⟩

end Mazewalk.Progress
