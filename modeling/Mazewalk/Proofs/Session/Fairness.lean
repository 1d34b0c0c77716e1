import Mazewalk.Proofs.Progress.Standings
import Mazewalk.Proofs.Session.Pacing

/-!
# Nothing is skipped and nothing is given away

A session begins at one of its levels and goes on from level to level, and on the way it keeps
the player's progress.  Whatever the player does, no level is left behind that the program has not
passed, a level has the stars of the program's play on it or none, and when the session says that
a level was unlocked, going on leads to that level (`earned_after`).

`Progress.Earned` is the invariant, and it is one about the progress and the place of the current
level alone.  Two things touch it: the outcome of a run is recorded (`Earned.record`), and the
session goes on to a level that is unlocked (`Earned.next`).  It holds for the plays of the program
because a session scores no other outcome than that of the whole play, however it is ticked.  The
field `opened` is what carries it from place to place: beyond the first level nothing is unlocked
but by passing the level before it.  Here the ids matter, for two levels with one id would be
unlocked together.
-/

namespace Mazewalk

/-- In a list of levels with different ids an id has one place. -/
theorem Level.place_eq {levels : List Level} (hd : (levels.map Level.id).Nodup) {i j : Nat}
    {a b : Level} (hi : levels[i]? = some a) (hj : levels[j]? = some b) (h : a.id = b.id) :
    i = j := by
  have hlt : i < (levels.map Level.id).length := by
    rw [List.length_map]
    exact (List.getElem?_eq_some_iff.1 hi).1
  refine (List.getElem?_inj hlt hd).1 ?_
  rw [List.getElem?_map, List.getElem?_map, hi, hj, Option.map_some, Option.map_some, h]

namespace Progress

/-- The progress of a player who began at place `first` of the levels and is now at place
`current`, with all of it earned by the program. -/
structure Earned (levels : List Level) (program : Program) (first current : Nat) (p : Progress) :
    Prop where
  first_le : first ≤ current
  /-- The current level is unlocked. -/
  unlocked : ∀ level, levels[current]? = some level → p.isUnlocked level.id = true
  /-- The program passes the levels that lie behind. -/
  passed : ∀ i level, first ≤ i → i < current → levels[i]? = some level →
    (level.play program).success = true
  /-- From the first level on, a level is unlocked only if the program passes the one before. -/
  opened : ∀ i level next, first ≤ i → levels[i]? = some level → levels[i + 1]? = some next →
    p.isUnlocked next.id = true → (level.play program).success = true
  /-- A level has no stars, or those of the program's play, which passes it. -/
  stars : ∀ i level, levels[i]? = some level → (p.get level.id).stars = 0 ∨
    (first ≤ i ∧ i ≤ current ∧ (level.play program).success = true) ∧
      (p.get level.id).stars = (level.play program).stars

variable {levels : List Level} {program : Program} {first current : Nat} {p : Progress}

theorem earned_start (hd : (levels.map Level.id).Nodup) {level : Level}
    (hl : levels[first]? = some level) :
    ((start levels).unlock level.id).Earned levels program first first where
  first_le := Nat.le_refl first
  unlocked other ho := by
    obtain rfl : level = other := Option.some.inj (hl.symm.trans ho)
    exact (isUnlocked_unlock_iff _ _ _).2 (Or.inr rfl)
  passed i other hi hlt := absurd hi (Nat.not_le_of_lt hlt)
  opened i other next hi _ hn hu := by
    rw [isUnlocked_unlock_iff, isUnlocked_start_iff, List.head?_eq_getElem?,
      Option.map_eq_some_iff] at hu
    obtain ⟨a, ha, he⟩ | he := hu
    · have := Level.place_eq hd ha hn he
      omega
    · have := Level.place_eq hd hn hl he
      omega
  stars i other _ := by
    rw [stars_unlock, stars_start]
    exact Or.inl rfl

namespace Earned

/-- **Recording** the program's play on the current level. -/
theorem record (h : p.Earned levels program first current) (hd : (levels.map Level.id).Nodup)
    {level : Level} (hl : levels[current]? = some level) :
    (p.record levels (level.play program)).2.Earned levels program first current where
  first_le := h.first_le
  unlocked other ho := (isUnlocked_record_iff _ _ _ _).2 (Or.inl (h.unlocked other ho))
  passed := h.passed
  opened i other next hi ho hn hu := by
    rw [isUnlocked_record_iff] at hu
    obtain hu | ⟨hs, he | he⟩ := hu
    · exact h.opened i other next hi ho hn hu
    · have := Level.place_eq hd hn hl he
      exact h.passed i other hi (by omega) ho
    · obtain ⟨a, ha, hid⟩ := Option.map_eq_some_iff.1 ((successor?_eq hd hl).symm.trans he)
      obtain rfl : i = current := by
        have := Level.place_eq hd hn ha hid.symm
        omega
      obtain rfl : level = other := Option.some.inj (hl.symm.trans ho)
      exact hs
  stars i other ho := by
    have hold := h.stars i other ho
    rw [stars_record]
    split
    · rename_i hs
      obtain ⟨hs, he⟩ := hs
      obtain rfl := Level.place_eq hd ho hl he
      obtain rfl : level = other := Option.some.inj (hl.symm.trans ho)
      refine Or.inr ⟨⟨h.first_le, Nat.le_refl _, hs⟩, ?_⟩
      -- the level had no stars, or the same ones
      obtain hold | ⟨-, hold⟩ := hold
      · rw [hold]
        exact if_pos (UInt8.zero_le)
      · rw [hold]
        exact if_pos (UInt8.le_refl _)
    · exact hold

/-- **Going on** to a level that is unlocked. -/
theorem next (h : p.Earned levels program first current) {next : Level}
    (hn : levels[current + 1]? = some next) (hu : p.isUnlocked next.id = true) :
    p.Earned levels program first (current + 1) where
  first_le := Nat.le_succ_of_le h.first_le
  unlocked level hl := by
    obtain rfl : next = level := Option.some.inj (hn.symm.trans hl)
    exact hu
  passed i level hi hlt hl := by
    obtain hlt | rfl := Nat.lt_succ_iff_lt_or_eq.1 hlt
    · exact h.passed i level hi hlt hl
    · exact h.opened i level next hi hl hn hu
  opened := h.opened
  stars i level hl := by
    obtain h0 | ⟨⟨hi, hle, hs⟩, he⟩ := h.stars i level hl
    · exact Or.inl h0
    · exact Or.inr ⟨⟨hi, Nat.le_succ_of_le hle, hs⟩, he⟩

end Earned

end Progress

namespace Session

variable {s : Session} {id : LevelId} {first : Nat}

/-! ### Announcements -/

/-- The level at the next place has this id and is unlocked. -/
def Opens (s : Session) (id : LevelId) : Prop :=
  ∃ level, s.levels[s.current + 1]? = some level ∧ level.id = id ∧ s.progress.isUnlocked id = true

theorem Opens.next (h : s.Opens id) : s.next.current = s.current + 1 ∧ s.next.level.id = id := by
  obtain ⟨level, hl, rfl, hu⟩ := h
  obtain ⟨hlt, rfl⟩ := List.getElem?_eq_some_iff.1 hl
  obtain ⟨_, -, he⟩ | ⟨hlocked, -⟩ := s.next_cases
  · rw [he]
    exact ⟨rfl, rfl⟩
  · rw [hlocked hlt] at hu
    cases hu

theorem current_tick (s : Session) : s.tick.current = s.current := by
  obtain ⟨-, h⟩ | ⟨_, _, _, -, -, h⟩ | ⟨_, _, -, -, h⟩ := s.tick_cases <;> rw [h]
  rfl

theorem isUnlocked_tick (h : s.progress.isUnlocked id = true) :
    s.tick.progress.isUnlocked id = true := by
  obtain ⟨-, ht⟩ | ⟨_, _, _, -, -, ht⟩ | ⟨_, _, -, -, ht⟩ := s.tick_cases
  · rwa [ht]
  · rwa [ht]
  · rw [ht]
    exact (Progress.isUnlocked_record_iff _ _ _ _).2 (Or.inl h)

theorem Opens.tick (h : s.Opens id) : s.tick.Opens id := by
  obtain ⟨level, hl, he, hu⟩ := h
  refine ⟨level, ?_, he, isUnlocked_tick hu⟩
  rw [current_tick]
  have hlevels : s.tick.levels = s.levels := s.levels_apply .tick
  rwa [hlevels]

/-- Until the session goes on, what it would go on to stays open. -/
theorem Opens.after (h : s.Opens id) {events : List Event} (hn : .next ∉ events) :
    (s.after events).Opens id := by
  induction events generalizing s with
  | nil => exact h
  | cons e events ih =>
    rw [List.mem_cons, not_or] at hn
    rw [after_cons]
    refine ih ?_ hn.2
    cases e with
    | restart => exact h
    | tick => exact h.tick
    | next => exact absurd rfl hn.1
    | quit => exact h

theorem tick_eq_scored {r t : Run} (hr : s.run? = some r) (ht : r.step = (none, t)) :
    s.tick = s.scored t := by
  rw [Session.tick, hr]
  simp only [ht]

/-- A score announces the level that it has unlocked, or leaves the notice as it was. -/
theorem notice_scored {r : Run} (h : (s.scored r).notice = .unlocked id) :
    (s.progress.record s.levels (s.level.outcome s.program.length r.finish)).1 = some id ∨
      s.notice = .unlocked id := by
  simp only [scored] at h
  split at h
  · rename_i other ho
    exact Or.inl (ho.trans (congrArg some (Notice.unlocked.inj h)))
  · exact Or.inr h

theorem opening_ne_unlocked (level : Level) (program : Program) (id : LevelId) :
    opening level program ≠ .unlocked id := by
  unfold opening
  split <;> exact Notice.noConfusion

theorem notice_next_ne_unlocked (s : Session) (id : LevelId) : s.next.notice ≠ .unlocked id := by
  unfold Session.next
  split
  · split
    · exact opening_ne_unlocked _ _ id
    · exact Notice.noConfusion
  · exact Notice.noConfusion

/-! ### Events -/

/-- The progress is earned, and a level that is announced is open. -/
structure Fair (first : Nat) (s : Session) : Prop where
  earned : s.progress.Earned s.levels s.program first s.current
  announced : ∀ id, s.notice = .unlocked id → s.Opens id

namespace Fair

theorem restart (h : s.Fair first) : s.restart.Fair first where
  earned := h.earned
  announced id hn := absurd hn (opening_ne_unlocked s.level s.program id)

/-- **A score** of the whole play is fair, and what it announces is the level after. -/
theorem scored (h : s.Fair first) (hd : (s.levels.map Level.id).Nodup) {r : Run}
    (hr : s.level.outcome s.program.length r.finish = s.level.play s.program) :
    (s.scored r).Fair first := by
  have hp : (s.scored r).progress =
      (s.progress.record s.levels (s.level.outcome s.program.length r.finish)).2 := rfl
  refine ⟨?_, fun id hn => ?_⟩
  · rw [hp, hr]
    exact h.earned.record hd s.getElem?_current
  · obtain ho | ho := notice_scored hn
    · obtain ⟨hs, hnext⟩ := Progress.of_fst_record_eq_some _ _ ho
      have hu := (Progress.isUnlocked_record_iff s.progress id s.levels _).2
        (Or.inr ⟨hs, Or.inr hnext⟩)
      have hplace := Progress.successor?_eq hd s.getElem?_current
      obtain ⟨level, hl, he⟩ := Option.map_eq_some_iff.1 (hplace.symm.trans hnext)
      exact ⟨level, hl, he, hu⟩
    · obtain ⟨level, hl, he, hu⟩ := h.announced id ho
      refine ⟨level, hl, he, ?_⟩
      rw [hp]
      exact (Progress.isUnlocked_record_iff _ _ _ _).2 (Or.inl hu)

theorem tick (h : s.Fair first) (hd : (s.levels.map Level.id).Nodup) {k : Nat}
    (hp : s.Paced k) : s.tick.Fair first := by
  obtain ⟨-, ht⟩ | ⟨_, _, _, -, -, ht⟩ | ⟨r, t, hr, hs, ht⟩ := s.tick_cases
  · rwa [ht]
  · rw [ht]
    exact ⟨h.earned, h.announced⟩
  · rw [ht]
    exact h.scored hd (hp.outcome_eq_play hr hs)

theorem next (h : s.Fair first) : s.next.Fair first where
  earned := by
    obtain ⟨hlt, hu, he⟩ | ⟨-, n, he⟩ := s.next_cases
    · rw [he]
      exact h.earned.next (List.getElem?_eq_getElem hlt) hu
    · rw [he]
      exact h.earned
  announced id hn := absurd hn (s.notice_next_ne_unlocked id)

/-- **Every event is fair.** -/
theorem apply (h : s.Fair first) (hd : (s.levels.map Level.id).Nodup) {k : Nat} (hp : s.Paced k)
    (e : Event) : (s.apply e).Fair first := by
  cases e with
  | restart => exact h.restart
  | tick => exact h.tick hd hp
  | next => exact h.next
  | quit => exact ⟨h.earned, h.announced⟩

theorem after (h : s.Fair first) (hd : (s.levels.map Level.id).Nodup) {k : Nat} (hp : s.Paced k)
    (events : List Event) : (s.after events).Fair first := by
  induction events generalizing s k with
  | nil => exact h
  | cons e events ih =>
    refine ih (h.apply hd hp e) ?_ (hp.apply e)
    rwa [levels_apply]

end Fair

theorem fair_start (levels : List Level) (first : Nat) (program : Program)
    (h : first < levels.length) (hd : (levels.map Level.id).Nodup) :
    (start levels first program h).Fair first where
  earned := Progress.earned_start hd (List.getElem?_eq_getElem h)
  announced id hn := absurd hn (opening_ne_unlocked _ program id)

end Session

open Session

/-- **No level is skipped, and the scores are the true ones.**  Whatever happens after the start
of a session, its progress is earned by the program.  And when a tick shows that a level has been
unlocked, then the next time that the session goes on it goes on to that level. -/
theorem earned_after (levels : List Level) (first : Nat) (program : Program)
    (h : first < levels.length) (hd : (levels.map Level.id).Nodup) (events : List Event) :
    ((start levels first program h).after events).progress.Earned levels program first
        ((start levels first program h).after events).current ∧
      ∀ id, ((start levels first program h).after events).tick.notice = .unlocked id →
        ∀ more, .next ∉ more →
          (((start levels first program h).after events).tick.after more).next.current =
              (((start levels first program h).after events).tick.after more).current + 1 ∧
            (((start levels first program h).after events).tick.after more).next.level.id =
              id := by
  have hp : (start levels first program h).Paced 0 := paced_restart _
  have hf := (fair_start levels first program h hd).after hd hp events
  have he := hf.earned
  rw [levels_after, program_after] at he
  refine ⟨he, fun id hn more hm => ?_⟩
  have ht := hf.tick (by rwa [levels_after]) (hp.after events)
  exact ((ht.announced id hn).after hm).next

/-- The second hall is announced when the first one is passed, and it is still open after the first
one has been begun again. -/
theorem earned_after_halls :
    0 < [Level.hall 1, Level.hall 2].length ∧
      ([Level.hall 1, Level.hall 2].map Level.id).Nodup ∧
      (halls.after [.restart, .tick]).progress.Earned [Level.hall 1, Level.hall 2]
        [.act .forward] 0 (halls.after [.restart, .tick]).current ∧
      (halls.after [.restart, .tick]).tick.notice = .unlocked 2 ∧
      .next ∉ [Event.restart, .tick, .quit] ∧
      ((halls.after [.restart, .tick]).tick.after [.restart, .tick, .quit]).next.level.id = 2 := by
  have hd : ([Level.hall 1, Level.hall 2].map Level.id).Nodup := by decide
  have hr : (halls.after [.restart, .tick]).run? =
      some (((Level.hall 1).begin [.act .forward]).advance 1) := by decide +kernel
  have ht : (((Level.hall 1).begin [.act .forward]).advance 1).step =
      (none, ((Level.hall 1).begin [.act .forward]).advance 2) := by decide +kernel
  have hn : (halls.after [.restart, .tick]).tick.notice = .unlocked 2 := by
    rw [tick_eq_scored hr ht, scored, Run.finish_of_isFinished (by decide +kernel)]
    decide +kernel
  have hm : .next ∉ [Event.restart, .tick, .quit] := by decide
  obtain ⟨he, hnext⟩ := earned_after [Level.hall 1, Level.hall 2] 0 [.act .forward] (by decide) hd
    [.restart, .tick]
  exact ⟨by decide, hd, he, hn, hm, (hnext 2 hn _ hm).2⟩

end Mazewalk
