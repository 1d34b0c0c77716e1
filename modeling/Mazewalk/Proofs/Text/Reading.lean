import Mathlib.Data.List.Forall2
import Mazewalk.Proofs.Results
import Mazewalk.Text.Word

/-!
# Reading words

Programs and maps are cut at marks and at blanks, and what is between them is read without regard
to the case of the letters.  A text that is cut at a mark comes apart there
(`words_append_cons`, `congr_of_cut`), so a change between two marks can be looked at by itself.
No mark and no blank is a letter, so it makes no difference whether a text is put into lower case
before it is cut or after (`splitOn_map_toLower`, `words_map_toLower`).

A reader succeeds on a list if it succeeds on each piece, and `List.Forall₂` is then the relation
of what it was given and what it gives.  It fails with the first fault in the list, and `FirstBad`
says what that is.  Whether a piece is faulty may depend on the pieces before it.
-/

namespace Mazewalk

/-! ### The first fault -/

section FirstBad

variable {α β : Type} {bad : List α → α → β → Prop} {l r : List α} {a : α} {b : β}

/-- Nothing in the list is bad in the light of what stands before it. -/
def NoneBad (bad : List α → α → β → Prop) (l : List α) : Prop :=
  ∀ before a after b, l = before ++ a :: after → ¬ bad before a b

/-- Something in the list is bad in the way `b`, and nothing before it is bad at all. -/
def FirstBad (bad : List α → α → β → Prop) (l : List α) (b : β) : Prop :=
  ∃ before a after, l = before ++ a :: after ∧ NoneBad bad before ∧ bad before a b

theorem noneBad_nil : NoneBad bad [] := by
  intro before a after b h
  simp at h

theorem not_firstBad_nil : ¬ FirstBad bad [] b := by
  rintro ⟨before, a, after, h, -⟩
  simp at h

theorem exists_mem_of_firstBad (h : FirstBad bad l b) : ∃ before, ∃ a ∈ l, bad before a b := by
  obtain ⟨before, a, after, rfl, -, hbad⟩ := h
  exact ⟨before, a, List.mem_append_right _ List.mem_cons_self, hbad⟩

theorem noneBad_cons :
    NoneBad bad (a :: l) ↔
      (∀ b, ¬ bad [] a b) ∧ NoneBad (fun before => bad (a :: before)) l := by
  constructor
  · intro h
    refine ⟨fun b => h [] a l b rfl, ?_⟩
    rintro before c after b rfl
    exact h (a :: before) c after b rfl
  · rintro ⟨ha, hl⟩ before c after b h
    cases before with
    | nil =>
      obtain ⟨rfl, -⟩ := List.cons.inj h
      exact ha b
    | cons d before =>
      obtain ⟨rfl, rfl⟩ := List.cons.inj h
      exact hl before c after b rfl

theorem firstBad_cons :
    FirstBad bad (a :: l) b ↔
      bad [] a b ∨ (∀ b, ¬ bad [] a b) ∧ FirstBad (fun before => bad (a :: before)) l b := by
  constructor
  · rintro ⟨before, c, after, h, hnone, hbad⟩
    cases before with
    | nil =>
      obtain ⟨rfl, -⟩ := List.cons.inj h
      exact Or.inl hbad
    | cons d before =>
      obtain ⟨rfl, rfl⟩ := List.cons.inj h
      obtain ⟨ha, hnone⟩ := noneBad_cons.1 hnone
      exact Or.inr ⟨ha, before, c, after, rfl, hnone, hbad⟩
  · rintro (hbad | ⟨ha, before, c, after, rfl, hnone, hbad⟩)
    · exact ⟨[], a, l, rfl, noneBad_nil, hbad⟩
    · exact ⟨a :: before, c, after, rfl, noneBad_cons.2 ⟨ha, hnone⟩, hbad⟩

/-- A list in which nothing is bad is one that does not go wrong. -/
theorem noneBad_iff : NoneBad bad l ↔ ∀ b, ¬ FirstBad bad l b := by
  induction l generalizing bad with
  | nil => exact iff_of_true noneBad_nil fun b => not_firstBad_nil
  | cons a l ih =>
    simp only [noneBad_cons, firstBad_cons, ih, not_or, not_and, forall_and]
    exact and_congr_right fun ha => ⟨fun h b _ => h b, fun h b => h b ha⟩

theorem firstBad_append :
    FirstBad bad (l ++ r) b ↔
      FirstBad bad l b ∨ NoneBad bad l ∧ FirstBad (fun before => bad (l ++ before)) r b := by
  induction l generalizing bad with
  | nil => simp [noneBad_nil, not_firstBad_nil]
  | cons a l ih =>
    rw [List.cons_append, firstBad_cons, firstBad_cons, noneBad_cons, ih, and_or_left, or_assoc,
      and_assoc]
    rfl

end FirstBad

/-! ### Readings piece by piece -/

theorem forall₂_iff_map_eq_map {α β γ : Type} {R : α → β → Prop} {f : α → γ} {g : β → γ}
    (h : ∀ a b, R a b ↔ f a = g b) {l : List α} {u : List β} :
    List.Forall₂ R l u ↔ l.map f = u.map g := by
  obtain rfl : R = fun a b => f a = g b := by
    funext a b
    exact propext (h a b)
  rw [← List.forall₂_map_right_iff, ← List.forall₂_map_left_iff (f := f), List.forall₂_eq_eq_eq]

theorem exists_getElem?_of_forall₂ {α β : Type} {R : α → β → Prop} {l : List α} {u : List β}
    (h : List.Forall₂ R l u) {i : Nat} {a : α} (hi : l[i]? = some a) :
    ∃ b, u[i]? = some b ∧ R a b := by
  induction h generalizing i with
  | nil => cases hi
  | cons hab _ ih =>
    cases i with
    | zero =>
      obtain rfl := Option.some.inj hi
      exact ⟨_, rfl, hab⟩
    | succ i => exact ih hi

theorem forall₂_append_iff {α β : Type} {R : α → β → Prop} {l r : List α} {u : List β} :
    List.Forall₂ R (l ++ r) u ↔ ∃ v w, List.Forall₂ R l v ∧ List.Forall₂ R r w ∧ u = v ++ w := by
  induction l generalizing u with
  | nil => simp
  | cons a l ih =>
    rw [List.cons_append, List.forall₂_cons_left_iff]
    constructor
    · rintro ⟨b, u', hb, hu, rfl⟩
      obtain ⟨v, w, hv, hw, rfl⟩ := ih.1 hu
      exact ⟨b :: v, w, .cons hb hv, hw, rfl⟩
    · rintro ⟨v, w, hv, hw, rfl⟩
      obtain ⟨b, v', hb, hv', rfl⟩ := List.forall₂_cons_left_iff.1 hv
      exact ⟨b, v' ++ w, hb, ih.2 ⟨v', w, hv', hw, rfl⟩, rfl⟩

theorem exists_forall₂_iff {α β : Type} {R : α → β → Prop} {l : List α} :
    (∃ u, List.Forall₂ R l u) ↔ ∀ a ∈ l, ∃ b, R a b := by
  induction l with
  | nil => simp
  | cons a l ih =>
    rw [List.forall_mem_cons, ← ih]
    constructor
    · rintro ⟨u, hu⟩
      obtain ⟨b, u', hb, hu', rfl⟩ := List.forall₂_cons_left_iff.1 hu
      exact ⟨⟨b, hb⟩, u', hu'⟩
    · rintro ⟨⟨b, hb⟩, u, hu⟩
      exact ⟨b :: u, .cons hb hu⟩

namespace Text

/-! ### Cutting -/

/-- What is read of a text that is cut at a mark depends on the end of the text only as far as a
piece without the mark does. -/
theorem congr_of_cut {β : Type} {mark : Char} {read : List Char → List β}
    (hread : ∀ l r, read (l ++ mark :: r) = read l ++ read r) {m m' : List Char}
    (h : ∀ l, mark ∉ l → read (l ++ m) = read (l ++ m')) (l : List Char) :
    read (l ++ m) = read (l ++ m') := by
  induction hn : l.length using Nat.strongRecOn generalizing l with
  | ind n ih =>
    by_cases hl : mark ∈ l
    · obtain ⟨first, rest, rfl, -⟩ := List.eq_append_cons_of_mem hl
      have hlt : rest.length < n := by
        rw [← hn, List.length_append, List.length_cons]
        omega
      rw [List.append_assoc, List.append_assoc, List.cons_append, List.cons_append, hread, hread,
        ih rest.length hlt rest rfl]
    · exact h l hl

/-- The same for what stands in the middle of a text. -/
theorem congr_of_cut_middle {β : Type} {mark : Char} {read : List Char → List β}
    (hread : ∀ l r, read (l ++ mark :: r) = read l ++ read r) {m m' : List Char}
    (h : ∀ l r, mark ∉ l → mark ∉ r → read (l ++ m ++ r) = read (l ++ m' ++ r))
    (l r : List Char) : read (l ++ m ++ r) = read (l ++ m' ++ r) := by
  have hleft : ∀ r, mark ∉ r → ∀ l, read (l ++ m ++ r) = read (l ++ m' ++ r) := by
    intro r hr l
    rw [List.append_assoc, List.append_assoc]
    refine congr_of_cut hread (fun l hl => ?_) l
    rw [← List.append_assoc, ← List.append_assoc]
    exact h l r hl hr
  by_cases hr : mark ∈ r
  · obtain ⟨first, rest, rfl, hf⟩ := List.eq_append_cons_of_mem hr
    rw [← List.append_assoc, ← List.append_assoc, hread, hread, hleft first hf]
  · exact hleft r hr l

theorem length_splitOn (mark : Char) (l : List Char) :
    (l.splitOn mark).length = l.count mark + 1 := by
  induction l with
  | nil => rfl
  | cons c l ih =>
    rw [List.splitOn, List.splitOnP_cons_eq_if_modifyHead, List.count_cons]
    split
    · rw [List.length_cons]
      exact congrArg (· + 1) ih
    · rw [List.length_modifyHead]
      exact ih

/-! ### Words and blanks -/

theorem words_append_cons {b : Char} (hb : isBlank b = true) (l r : List Char) :
    words (l ++ b :: r) = words l ++ words r := by
  rw [words, List.splitOnP_append_cons l r hb, List.filter_append]
  rfl

theorem words_blanks_append {b : List Char} (hb : ∀ c ∈ b, isBlank c = true) (r : List Char) :
    words (b ++ r) = words r := by
  induction b with
  | nil => rfl
  | cons c b ih =>
    obtain ⟨hc, hb⟩ := List.forall_mem_cons.1 hb
    exact (words_append_cons hc [] (b ++ r)).trans (ih hb)

/-- **A gap separates the words** before it from those after it, however wide it is. -/
theorem words_gap {b : List Char} (hne : b ≠ []) (hb : ∀ c ∈ b, isBlank c = true)
    (l r : List Char) : words (l ++ b ++ r) = words l ++ words r := by
  obtain ⟨c, b, rfl⟩ := List.exists_cons_of_ne_nil hne
  obtain ⟨hc, hb⟩ := List.forall_mem_cons.1 hb
  rw [List.append_assoc, List.cons_append, words_append_cons hc, words_blanks_append hb]

theorem words_cons_ne_nil {c : Char} (hc : isBlank c = false) (r : List Char) :
    words (c :: r) ≠ [] := by
  rw [words, List.splitOnP_cons_eq_if_modifyHead, if_neg (by simp [hc])]
  cases h : r.splitOnP isBlank with
  | nil => exact absurd h (List.splitOnP_ne_nil isBlank r)
  | cons w ws =>
    rw [List.modifyHead_cons, List.filter_cons_of_pos (by simp)]
    exact List.cons_ne_nil _ _

/-- A text has no words if and only if it is blank. -/
theorem words_eq_nil_iff {l : List Char} : words l = [] ↔ ∀ c ∈ l, isBlank c = true := by
  constructor
  · intro h
    induction l with
    | nil => simp
    | cons c l ih =>
      cases hc : isBlank c with
      | false => exact absurd h (words_cons_ne_nil hc l)
      | true =>
        have hl : words (c :: l) = words l := words_append_cons hc [] l
        exact List.forall_mem_cons.2 ⟨hc, ih (hl.symm.trans h)⟩
  · intro h
    rw [← List.append_nil l, words_blanks_append h]
    rfl

/-! ### Lower case -/

theorem toNat_toLower (c : Char) :
    c.toLower.toNat = if 65 ≤ c.toNat ∧ c.toNat ≤ 90 then c.toNat + 32 else c.toNat := by
  have hrange : (c.val ≥ 'A'.val ∧ c.val ≤ 'Z'.val) ↔ 65 ≤ c.toNat ∧ c.toNat ≤ 90 := Iff.rfl
  by_cases h : 65 ≤ c.toNat ∧ c.toNat ≤ 90
  · have hval : c.toLower.val = c.val + 32 := congrArg Char.val (dif_pos (hrange.2 h))
    have hle : c.val.toNat ≤ 90 := h.2
    rw [if_pos h]
    show c.toLower.val.toNat = c.val.toNat + 32
    rw [hval, UInt32.toNat_add]
    exact Nat.mod_eq_of_lt (Nat.lt_of_le_of_lt (Nat.add_le_add_right hle 32) (by decide))
  · have hc : c.toLower = c := dif_neg fun h' => h (hrange.1 h')
    rw [hc, if_neg h]

theorem toLower_toLower (c : Char) : c.toLower.toLower = c.toLower := by
  rw [← Char.toNat_inj, toNat_toLower c.toLower, if_neg]
  rw [toNat_toLower]
  split <;> omega

theorem isAlpha_eq_false_iff {c : Char} :
    c.isAlpha = false ↔
      ¬ (65 ≤ c.toNat ∧ c.toNat ≤ 90) ∧ ¬ (97 ≤ c.toNat ∧ c.toNat ≤ 122) := by
  show (decide (c.val ≥ 'A'.val ∧ c.val ≤ 'Z'.val) ||
    (decide (c.val ≥ 'a'.val) && decide (c.val ≤ 'z'.val))) = false ↔ _
  rw [Bool.or_eq_false_iff, ← Bool.decide_and, decide_eq_false_iff_not, decide_eq_false_iff_not]
  exact Iff.rfl

theorem isAlpha_of_isDigit {c : Char} (h : c.isDigit = true) : c.isAlpha = false := by
  have h : 48 ≤ c.toNat ∧ c.toNat ≤ 57 := Char.isDigit_iff_toNat.1 h
  rw [isAlpha_eq_false_iff]
  omega

/-- Letters are changed to letters, and nothing else is changed. -/
theorem toLower_eq_iff {c d : Char} (hd : d.isAlpha = false) : c.toLower = d ↔ c = d := by
  have hd := isAlpha_eq_false_iff.1 hd
  rw [← Char.toNat_inj, ← Char.toNat_inj, toNat_toLower]
  split <;> omega

theorem isBlank_toLower (c : Char) : isBlank c.toLower = isBlank c := by
  have hout : ∀ r ∈ blankRanges, r.2 < 65 ∨ 122 < r.1 := by decide
  rw [Bool.eq_iff_iff, isBlank, isBlank, List.any_eq_true, List.any_eq_true]
  refine exists_congr fun r => and_congr_right fun hr => ?_
  have hr := hout r hr
  simp only [Bool.and_eq_true, decide_eq_true_eq, toNat_toLower]
  split <;> omega

theorem splitOnP_map {p : Char → Bool} {f : Char → Char} (h : ∀ c, p (f c) = p c)
    (l : List Char) : (l.map f).splitOnP p = (l.splitOnP p).map (List.map f) := by
  induction l with
  | nil => rfl
  | cons c l ih =>
    rw [List.map_cons, List.splitOnP_cons_eq_if_modifyHead, List.splitOnP_cons_eq_if_modifyHead,
      h, ih]
    cases p c
    · cases hl : l.splitOnP p <;> simp
    · simp

theorem splitOn_map_toLower {mark : Char} (hm : mark.isAlpha = false) (l : List Char) :
    (l.map Char.toLower).splitOn mark = (l.splitOn mark).map (List.map Char.toLower) := by
  refine splitOnP_map (fun c => ?_) l
  rw [Bool.eq_iff_iff, beq_iff_eq, beq_iff_eq, toLower_eq_iff hm]

theorem words_map_toLower (l : List Char) :
    words (l.map Char.toLower) = (words l).map (List.map Char.toLower) := by
  rw [words, splitOnP_map isBlank_toLower, List.filter_map, words]
  congr 1
  refine List.filter_congr fun w _ => ?_
  cases w <;> rfl

end Text

end Mazewalk
