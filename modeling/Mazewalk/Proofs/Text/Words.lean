import Mazewalk.Proofs.Text.Reading
import Mazewalk.Text.Numeral

/-!
# Writing words

A line is written as words with a blank between neighbours, and a number as its decimal digits.
Both can be read again: `words_intercalate` gives back the words of a line and
`numeral?_toDigits` the number.  The characters of written words lie in the range from `0` to `z`,
without the semicolon, and no blank and no mark of a text lies there (`IsWord`).
-/

namespace Mazewalk.Text

/-- The character may stand in a written word. -/
def IsWordChar (c : Char) : Prop :=
  '0'.toNat ≤ c.toNat ∧ c.toNat ≤ 'z'.toNat ∧ c ≠ ';'

instance (c : Char) : Decidable (IsWordChar c) :=
  inferInstanceAs (Decidable (_ ∧ _))

/-- The text may stand as a word in a written line. -/
def IsWord (w : List Char) : Prop :=
  w ≠ [] ∧ ∀ c ∈ w, IsWordChar c

-- the bounded quantifier is decided over the word, never over all characters
instance (w : List Char) : Decidable (IsWord w) :=
  @instDecidableAnd _ _ _ (List.decidableBAll IsWordChar w)

theorem IsWordChar.not_blank {c : Char} (h : IsWordChar c) : isBlank c = false := by
  obtain ⟨h1, h2, -⟩ := h
  have hout : ∀ r ∈ blankRanges, r.2 < '0'.toNat ∨ 'z'.toNat < r.1 := by decide
  rw [isBlank, List.any_eq_false]
  intro r hr
  have := hout r hr
  simp only [Bool.and_eq_true, decide_eq_true_eq]
  omega

theorem isWordChar_of_isDigit {c : Char} (h : c.isDigit = true) : IsWordChar c := by
  rw [Char.isDigit_iff_toNat] at h
  refine ⟨h.1, Nat.le_trans h.2 (by decide), ?_⟩
  rintro rfl
  exact absurd h.2 (by decide)

/-! ### Words -/

theorem words_of_not_blank {w : List Char} (hw : w ≠ []) (h : ∀ c ∈ w, isBlank c = false) :
    words w = [w] := by
  rw [words, List.splitOnP_eq_singleton h, List.filter_cons_of_pos (by simpa using hw)]
  rfl

theorem words_append_blank {w : List Char} (hw : w ≠ []) (h : ∀ c ∈ w, isBlank c = false)
    {b : Char} (hb : isBlank b = true) (rest : List Char) :
    words (w ++ b :: rest) = w :: words rest := by
  rw [words_append_cons hb, words_of_not_blank hw h]
  rfl

/-- **The words of a written line.** -/
theorem words_intercalate {ws : List (List Char)}
    (h : ∀ w ∈ ws, w ≠ [] ∧ ∀ c ∈ w, isBlank c = false) : words ([' '].intercalate ws) = ws := by
  induction ws with
  | nil => rfl
  | cons w ws ih =>
    obtain ⟨hw, hc⟩ := h w (by simp)
    cases ws with
    | nil => rw [List.intercalate_singleton, words_of_not_blank hw hc]
    | cons v ws =>
      rw [List.intercalate_cons_cons, List.append_assoc, List.singleton_append,
        words_append_blank hw hc (by decide), ih fun u hu => h u (List.mem_cons_of_mem w hu)]

/-- What stands in a written line is a blank or stands in a word of it. -/
theorem mem_intercalate {c : Char} {ws : List (List Char)} (h : c ∈ [' '].intercalate ws) :
    c = ' ' ∨ ∃ w ∈ ws, c ∈ w := by
  induction ws with
  | nil => exact absurd h List.not_mem_nil
  | cons w ws ih =>
    cases ws with
    | nil =>
      rw [List.intercalate_singleton] at h
      exact Or.inr ⟨w, by simp, h⟩
    | cons v ws =>
      rw [List.intercalate_cons_cons, List.mem_append, List.mem_append, List.mem_singleton] at h
      obtain (h | h) | h := h
      · exact Or.inr ⟨w, by simp, h⟩
      · exact Or.inl h
      · obtain hc | ⟨u, hu, hcu⟩ := ih h
        · exact Or.inl hc
        · exact Or.inr ⟨u, List.mem_cons_of_mem w hu, hcu⟩

/-! ### Numerals -/

theorem digitsValue_toDigits (n : Nat) : digitsValue (Nat.toDigits 10 n) = n :=
  Nat.ofDigitChars_ten_toDigits

theorem isDigit_of_mem_toDigits {n : Nat} {c : Char} (h : c ∈ Nat.toDigits 10 n) :
    c.isDigit = true :=
  Nat.isDigit_of_mem_toDigits (by decide) (by decide) h

theorem unsigned_of_isDigit {ds : List Char} (h : ∀ c ∈ ds, c.isDigit = true) :
    unsigned ds = ds := by
  unfold unsigned
  split
  · exact absurd (h '+' (by simp)) (by decide)
  · rfl

theorem isWord_toDigits (n : Nat) : IsWord (Nat.toDigits 10 n) :=
  ⟨Nat.toDigits_ne_nil, fun _ hc => isWordChar_of_isDigit (isDigit_of_mem_toDigits hc)⟩

/-- A written number does not begin with a zero unless it is zero. -/
theorem eq_zero_of_head?_toDigits {n : Nat} (h : (Nat.toDigits 10 n).head? = some '0') : n = 0 := by
  induction n using Nat.strongRecOn with
  | ind n ih =>
    by_cases hn : n < 10
    · rw [Nat.toDigits_of_lt_base hn, List.head?_cons, Option.some.injEq] at h
      have hz : ∀ m < 10, Nat.digitChar m = '0' → m = 0 := by decide
      exact hz n hn h
    -- the last digit stands behind those of a smaller number, which is not zero
    · rw [Nat.toDigits_of_base_le (by decide) (Nat.le_of_not_lt hn),
        List.head?_append_of_ne_nil _ Nat.toDigits_ne_nil] at h
      have := ih (n / 10) (by omega) h
      omega

/-- **The value of a written number.** -/
theorem numeral?_toDigits (n : Nat) : numeral? (Nat.toDigits 10 n) = some n := by
  have hd : (Nat.toDigits 10 n).all Char.isDigit = true :=
    List.all_eq_true.2 fun c hc => isDigit_of_mem_toDigits hc
  have he : (Nat.toDigits 10 n).isEmpty = false := by
    simp [Nat.toDigits_ne_nil]
  rw [numeral?, unsigned_of_isDigit fun c hc => isDigit_of_mem_toDigits hc]
  simp only [hd, he, digitsValue_toDigits]
  rfl

end Mazewalk.Text
