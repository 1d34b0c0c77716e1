import Mazewalk.Level

/-!
# Stars up to the largest word

The stars of a passing program come from two comparisons of its length, with the par and with the
sum of the par and two.  All of these are machine words, and the sum need not be one.  But it is
looked at only if the length is beyond the par, so that scoring breaks off for one par and one
length alone, the last word but one and the last word (`score_eq_error_iff`).  Everywhere else the
stars are those of the exact sum (`score_eq_ok_iff`).
-/

namespace Mazewalk.Level

variable {level : Level} {walker : Walker} {length : Nat}

/-! ### The stars of a passing program -/

/-- The stars by the exact thresholds. -/
def starsFor (par length : Nat) : UInt8 :=
  if length ≤ par then 3 else if length ≤ par + 2 then 2 else 1

theorem starsFor_eq_three_iff {par : Nat} : starsFor par length = 3 ↔ length ≤ par := by
  unfold starsFor
  split
  · simp [*]
  · split <;> simp [*]

theorem starsFor_eq_two_iff {par : Nat} :
    starsFor par length = 2 ↔ par < length ∧ length ≤ par + 2 := by
  unfold starsFor
  split
  · simp
    omega
  · split <;> simp <;> omega

theorem starsFor_eq_one_iff {par : Nat} : starsFor par length = 1 ↔ par + 2 < length := by
  unfold starsFor
  split
  · simp
    omega
  · split <;> simp <;> omega

theorem starsFor_cases (par length : Nat) :
    starsFor par length = 3 ∨ starsFor par length = 2 ∨ starsFor par length = 1 := by
  unfold starsFor
  split
  · exact Or.inl rfl
  · split
    · exact Or.inr (Or.inl rfl)
    · exact Or.inr (Or.inr rfl)

theorem starsFor_le_of_le {par shorter : Nat} (h : shorter ≤ length) :
    starsFor par length ≤ starsFor par shorter := by
  unfold starsFor
  by_cases hpar : length ≤ par
  · rw [if_pos hpar, if_pos (Nat.le_trans h hpar)]
    exact UInt8.le_refl _
  · rw [if_neg hpar]
    by_cases htwo : length ≤ par + 2
    · rw [if_pos htwo, if_pos (Nat.le_trans h htwo)]
      split <;> decide
    · rw [if_neg htwo]
      split
      · decide
      · split <;> decide

/-- The length is compared with the sum of the par and two, and this is no machine word. -/
def Overruns (level : Level) (length : Nat) : Prop :=
  level.par.toNat < length ∧ wordSize ≤ level.par.toNat + 2

theorem overruns_iff (hl : length < wordSize) :
    level.Overruns length ↔ level.par.toNat = wordSize - 2 ∧ length = wordSize - 1 := by
  have hw : 2 ≤ wordSize := by decide
  unfold Overruns
  omega

theorem passingStars_of_overruns (h : level.Overruns length) :
    level.passingStars length = .error .sum := by
  obtain ⟨hpar, hsum⟩ := h
  rw [passingStars, if_neg (Nat.not_le_of_lt hpar), Word.sum, if_neg (Nat.not_lt_of_le hsum)]
  rfl

theorem passingStars_of_not_overruns (h : ¬ level.Overruns length) :
    level.passingStars length = .ok (starsFor level.par.toNat length) := by
  unfold passingStars starsFor
  split
  · rfl
  · have hsum : level.par.toNat + 2 < wordSize := by
      unfold Overruns at h
      omega
    rw [Word.sum, if_pos hsum]
    rfl

/-! ### Scores -/

/-- **Where scoring breaks off.** -/
theorem score_eq_error_iff {e : Panic} :
    level.score walker length = .error e ↔
      level.isPassedBy walker = true ∧ level.Overruns length ∧ e = .sum := by
  unfold score
  by_cases hp : level.isPassedBy walker = true
  · rw [if_pos hp]
    by_cases h : level.Overruns length
    · rw [passingStars_of_overruns h]
      simp [Except.map, hp, h, eq_comm]
    · rw [passingStars_of_not_overruns h]
      simp [Except.map, h]
  · rw [if_neg hp]
    simp [hp]

/-- **Everywhere else** the stars are those of the exact thresholds. -/
theorem score_eq_ok_iff {success : Bool} {stars : UInt8} :
    level.score walker length = .ok (success, stars) ↔
      (level.isPassedBy walker = true → ¬ level.Overruns length) ∧
        success = level.isPassedBy walker ∧
        stars = if success = true then starsFor level.par.toNat length else 0 := by
  unfold score
  by_cases hp : level.isPassedBy walker = true
  · rw [if_pos hp, hp]
    by_cases h : level.Overruns length
    · rw [passingStars_of_overruns h]
      simp [Except.map, h]
    · rw [passingStars_of_not_overruns h]
      cases success <;> simp [Except.map, h, eq_comm]
  · rw [if_neg hp, Bool.eq_false_iff.2 hp]
    cases success <;> simp [eq_comm]

theorem stars_of_not_overruns (h : ¬ level.Overruns length) :
    level.stars walker length =
      if level.isPassedBy walker = true then starsFor level.par.toNat length else 0 := by
  rw [stars, score_eq_ok_iff.2 ⟨fun _ => h, rfl, rfl⟩]

theorem stars_of_overruns (h : level.Overruns length) :
    level.stars walker length = if level.isPassedBy walker = true then 1 else 0 := by
  unfold stars
  by_cases hp : level.isPassedBy walker = true
  · rw [score_eq_error_iff.2 ⟨hp, h, rfl⟩, if_pos hp]
  · rw [score, if_neg hp, if_neg hp]

/-- **The thresholds of the stars**, for all pars and all lengths that are machine words.  Scoring
breaks off for a walker that passes with one par and one length only, where the sum of the par and
two is needed and is no machine word.  Otherwise a walker that passes gets three stars up to the
par, two up to two more and one beyond, and none if it does not pass.  With a shorter program it
never gets fewer, and its score does not break off either. -/
theorem stars_thresholds (level : Level) (walker : Walker) {length : Nat}
    (hl : length < wordSize) :
    (∀ e, level.score walker length = .error e ↔
      level.isPassedBy walker = true ∧ level.par.toNat = wordSize - 2 ∧ length = wordSize - 1 ∧
        e = .sum) ∧
      ∀ success stars, level.score walker length = .ok (success, stars) →
        success = level.isPassedBy walker ∧
        (success = true →
          (stars = 3 ↔ length ≤ level.par.toNat) ∧
          (stars = 2 ↔ level.par.toNat < length ∧ length ≤ level.par.toNat + 2) ∧
          (stars = 1 ↔ level.par.toNat + 2 < length)) ∧
        (success = false → stars = 0) ∧
        ∀ shorter ≤ length, ∃ more, level.score walker shorter = .ok (success, more) ∧
          stars ≤ more := by
  refine ⟨fun e => ?_, fun success stars h => ?_⟩
  · rw [score_eq_error_iff, overruns_iff hl, and_assoc]
  · obtain ⟨ho, rfl, rfl⟩ := score_eq_ok_iff.1 h
    refine ⟨rfl, fun hp => ?_, fun hp => if_neg (by rw [hp]; exact Bool.false_ne_true),
      fun shorter hle => ⟨_, score_eq_ok_iff.2 ⟨fun hp hs => ho hp ?_, rfl, rfl⟩, ?_⟩⟩
    · rw [if_pos hp]
      exact ⟨starsFor_eq_three_iff, starsFor_eq_two_iff, starsFor_eq_one_iff⟩
    · exact ⟨Nat.lt_of_lt_of_le hs.1 hle, hs.2⟩
    · split
      · exact starsFor_le_of_le hle
      · exact UInt8.le_refl _

/-- A hallway with the goal at its left end, and a par as high as one likes. -/
def hallway (par : UInt64) (h : par ≠ 0) : Level where
  id := 1
  name := "Hallway"
  description := ""
  grid := ⟨2, 1, #[⟨.goal, false⟩, ⟨.start, false⟩]⟩
  start := ⟨⟨1, 0⟩, .left, false⟩
  palette := [.forward, .turnLeft]
  par := par
  passable_start := by decide
  par_ne_zero := h
  palette_ne_nil := by decide
  palette_sorted := by decide

/-- A walker that has come to the end of a hallway. -/
def arrived : Walker :=
  ⟨⟨0, 0⟩, .left, false⟩

theorem isPassedBy_arrived {par : UInt64} (h : par ≠ 0) :
    (hallway par h).isPassedBy arrived = true := by
  show ((hallway 1 (by decide)).isPassedBy arrived) = true
  decide +kernel

/-- The hallway with the last par to which two can be added. -/
def ample : Level := hallway 18446744073709551613 (by decide)

/-- There the longest program of all is two over the par and gets two stars. -/
theorem stars_thresholds_ample :
    wordSize - 1 < wordSize ∧ ample.score arrived (wordSize - 1) = .ok (true, 2) := by
  have hl : wordSize - 1 < wordSize := by decide
  obtain ⟨herror, hok⟩ := stars_thresholds ample arrived hl
  refine ⟨hl, ?_⟩
  cases h : ample.score arrived (wordSize - 1) with
  | error e => exact absurd ((herror e).1 h).2.1 (by decide)
  | ok score =>
    obtain ⟨success, stars⟩ := score
    obtain ⟨hs, hstars, -⟩ := hok success stars h
    obtain rfl : success = true := hs.trans (isPassedBy_arrived _)
    rw [(hstars rfl).2.1.2 (by decide)]

/-- The hallway with the next par. -/
def lavish : Level := hallway 18446744073709551614 (by decide)

/-- There the longest program is one over the par, and instead of two stars it gets no score. -/
theorem stars_lavish :
    make 1 "Hallway" lavish.grid lavish.start [.forward, .turnLeft] 18446744073709551614 =
        .ok lavish ∧
      lavish.isPassedBy arrived = true ∧ lavish.par.toNat + 1 = wordSize - 1 ∧
      lavish.score arrived (wordSize - 1) = .error .sum ∧
      ¬ ∀ (level : Level) (walker : Walker) (length : Nat), length < wordSize →
        ∃ success stars, level.score walker length = .ok (success, stars) ∧
          (success = true → (stars = 2 ↔
            level.par.toNat < length ∧ length ≤ level.par.toNat + 2)) := by
  have hp : lavish.isPassedBy arrived = true := isPassedBy_arrived _
  have he : lavish.score arrived (wordSize - 1) = .error .sum :=
    score_eq_error_iff.2 ⟨hp, ⟨by decide, by decide⟩, rfl⟩
  refine ⟨rfl, hp, by decide, he, ?_⟩
  intro h
  obtain ⟨success, stars, hs, -⟩ := h lavish arrived (wordSize - 1) (by decide)
  rw [he] at hs
  cases hs

end Mazewalk.Level
