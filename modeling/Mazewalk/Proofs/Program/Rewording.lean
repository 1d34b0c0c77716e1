import Mathlib.Data.List.TakeWhile
import Mathlib.Logic.Relation
import Mazewalk.Proofs.Program.Grammar

/-!
# One program, many texts

A program can be written in many ways.  The case of letters, the blanks between words and the
comments are free, and a semicolon says the same as a line break if it stands before the comment
of its line.  `Edit` is one such change of a text.  It keeps the statements of the text, up to the
case of their letters, and so `Reworded` texts denote the same program.

A change inside a line is looked at piece by piece (`Text.congr_of_cut`): first the line it
stands in, then, if it is not behind a number sign, the statement.
-/

namespace Mazewalk.Program

/-- The texts are the same up to the case of ASCII letters. -/
def SameLetters (t t' : List Char) : Prop :=
  t.map Char.toLower = t'.map Char.toLower

instance (t t' : List Char) : Decidable (SameLetters t t') :=
  inferInstanceAs (Decidable (_ = _))

/-- Blanks within a line, at least one. -/
def IsGap (b : List Char) : Prop :=
  b ≠ [] ∧ ∀ c ∈ b, Text.isBlank c = true ∧ c ≠ '\n'

-- decided over the list, never over all characters
instance (b : List Char) : Decidable (IsGap b) :=
  @instDecidableAnd _ _ _ (List.decidableBAll _ b)

/-- A comment up to the end of its line, or none. -/
def IsComment (c : List Char) : Prop :=
  c = [] ∨ ∃ rest, c = '#' :: rest ∧ '\n' ∉ rest

/-- A change of a text that does not change what it denotes. -/
inductive Edit : List Char → List Char → Prop where
  /-- Letters get another case. -/
  | letters {t t' : List Char} (h : SameLetters t t') : Edit t t'
  /-- Words are set apart by other blanks. -/
  | gap (l r : List Char) {b b' : List Char} (hb : IsGap b) (hb' : IsGap b') :
      Edit (l ++ b ++ r) (l ++ b' ++ r)
  /-- The end of a line gets another comment, or loses it, or gets one. -/
  | comment (l r : List Char) {c c' : List Char} (hc : IsComment c) (hc' : IsComment c')
      (hr : r = [] ∨ ∃ rest, r = '\n' :: rest) : Edit (l ++ c ++ r) (l ++ c' ++ r)
  /-- The line is broken at a semicolon outside its comment. -/
  | mark (l line r : List Char) (hl : l = [] ∨ ∃ front, l = front ++ ['\n'])
      (hline : '\n' ∉ line ∧ '#' ∉ line) : Edit (l ++ line ++ ';' :: r) (l ++ line ++ '\n' :: r)

/-- One text is made of the other by changes that can be taken back. -/
def Reworded : List Char → List Char → Prop :=
  Relation.EqvGen Edit

/-! ### Pieces of a text -/

theorem statementsOf_append_cons (l r : List Char) :
    statementsOf (l ++ '\n' :: r) = statementsOf l ++ statementsOf r := by
  rw [statementsOf_eq, List.splitOn_append_cons_self, List.flatMap_append, statementsOf_eq,
    statementsOf_eq]

theorem statementsOf_of_not_mem {line : List Char} (h : '\n' ∉ line) :
    statementsOf line = statements line := by
  rw [statementsOf_eq, List.splitOn_eq_singleton h]
  exact List.append_nil _

/-- The statements of a line without a comment. -/
def clauses (code : List Char) : List (List (List Char)) :=
  ((code.splitOn ';').map Text.words).filter fun words => !words.isEmpty

theorem statements_eq_clauses (line : List Char) :
    statements line = clauses (line.takeWhile (· ≠ '#')) := rfl

theorem clauses_append_cons (l r : List Char) :
    clauses (l ++ ';' :: r) = clauses l ++ clauses r := by
  rw [clauses, List.splitOn_append_cons_self, List.map_append, List.filter_append]
  rfl

theorem clauses_of_not_mem {code : List Char} (h : ';' ∉ code) :
    clauses code = [Text.words code].filter fun words => !words.isEmpty := by
  rw [clauses, List.splitOn_eq_singleton h]
  rfl

theorem statements_append_of_mem {l : List Char} (h : '#' ∈ l) (r : List Char) :
    statements (l ++ r) = statements l := by
  rw [statements_eq_clauses, List.takeWhile_append, if_neg, ← statements_eq_clauses]
  intro hlen
  have hl : l.takeWhile (· ≠ '#') = l := (List.takeWhile_prefix _).eq_of_length hlen
  rw [← hl] at h
  simpa using List.mem_takeWhile_imp h

theorem statements_append_of_not_mem {l : List Char} (h : '#' ∉ l) (r : List Char) :
    statements (l ++ r) = clauses (l ++ r.takeWhile (· ≠ '#')) := by
  rw [statements_eq_clauses, List.takeWhile_append_of_pos]
  intro c hc
  simpa using fun he : c = '#' => h (he ▸ hc)

theorem statements_of_not_mem {l : List Char} (h : '#' ∉ l) : statements l = clauses l := by
  have := statements_append_of_not_mem h []
  rwa [List.append_nil, List.takeWhile_nil, List.append_nil] at this

/-! ### The case of letters -/

theorem eq_of_sameLetters {w w' : List Char} (hw : ∀ c ∈ w, c.isAlpha = false)
    (h : SameLetters w w') : w = w' := by
  induction w generalizing w' with
  | nil => exact (List.map_eq_nil_iff.1 h.symm).symm
  | cons c w ih =>
    obtain ⟨hc, hw⟩ := List.forall_mem_cons.1 hw
    cases w' with
    | nil => cases h
    | cons c' w' =>
      obtain ⟨h1, h2⟩ := List.cons.inj h
      rw [(Text.toLower_eq_iff hc).2 rfl] at h1
      rw [(Text.toLower_eq_iff hc).1 h1.symm, ih hw h2]

/-- A numeral has no letters. -/
theorem isNumeral_congr {w w' : List Char} {n : Nat} (h : Text.IsNumeral w n)
    (hw : SameLetters w w') : Text.IsNumeral w' n := by
  obtain ⟨digits, hd, -, hall, -⟩ := id h
  have halpha : ∀ c ∈ digits, c.isAlpha = false := fun c hc => Text.isAlpha_of_isDigit (hall c hc)
  have hletters : ∀ c ∈ w, c.isAlpha = false := by
    rcases hd with rfl | rfl
    · exact halpha
    · exact List.forall_mem_cons.2 ⟨by decide, halpha⟩
  rwa [← eq_of_sameLetters hletters hw]

theorem lower_congr {w w' : List Char} (h : SameLetters w w') : Text.lower w = Text.lower w' :=
  congrArg String.ofList h

theorem Denotes.congr {words words' : List (List Char)} {x : Instruction} (h : Denotes words x)
    (hw : List.Forall₂ SameLetters words words') : Denotes words' x := by
  cases h with
  | act hv =>
    obtain _ | ⟨h1, ⟨⟩⟩ := hw
    exact .act (lower_congr h1 ▸ hv)
  | times hk hn =>
    obtain _ | ⟨h1, _ | ⟨h2, ⟨⟩⟩⟩ := hw
    exact .times (lower_congr h1 ▸ hk) (isNumeral_congr hn h2)
  | whilst hk hc hn =>
    obtain _ | ⟨h1, _ | ⟨h2, ⟨⟩⟩⟩ := hw
    exact .whilst (lower_congr h1 ▸ hk) (lower_congr h2 ▸ hc) hn
  | whilstUpTo hk hc hn =>
    obtain _ | ⟨h1, _ | ⟨h2, _ | ⟨h3, ⟨⟩⟩⟩⟩ := hw
    exact .whilstUpTo (lower_congr h1 ▸ hk) (lower_congr h2 ▸ hc) (isNumeral_congr hn h3)

theorem denotes_map_toLower {words : List (List Char)} {x : Instruction} :
    Denotes (words.map (List.map Char.toLower)) x ↔ Denotes words x := by
  have hsame : ∀ w : List Char, SameLetters (w.map Char.toLower) w := by
    intro w
    rw [SameLetters, List.map_map]
    exact List.map_congr_left fun c _ => Text.toLower_toLower c
  constructor
  · intro h
    exact h.congr (List.forall₂_map_left_iff.2 (List.forall₂_same.2 fun w _ => hsame w))
  · intro h
    exact h.congr (List.forall₂_map_right_iff.2 (List.forall₂_same.2 fun w _ => (hsame w).symm))

theorem clauses_map_toLower (code : List Char) :
    clauses (code.map Char.toLower) = (clauses code).map (List.map (List.map Char.toLower)) := by
  have hwords : Text.words ∘ List.map Char.toLower =
      List.map (List.map Char.toLower) ∘ Text.words := funext Text.words_map_toLower
  rw [clauses, Text.splitOn_map_toLower (by decide), List.map_map, hwords, ← List.map_map,
    List.filter_map, clauses]
  congr 1
  refine List.filter_congr fun words _ => ?_
  cases words <;> rfl

theorem statements_map_toLower (line : List Char) :
    statements (line.map Char.toLower) =
      (statements line).map (List.map (List.map Char.toLower)) := by
  have hcode : (line.map Char.toLower).takeWhile (· ≠ '#') =
      (line.takeWhile (· ≠ '#')).map Char.toLower := by
    have hmark : ∀ c : Char, c.toLower = '#' ↔ c = '#' := fun c => Text.toLower_eq_iff (by decide)
    rw [List.takeWhile_map]
    congr 2
    funext c
    simp [hmark]
  rw [statements_eq_clauses, hcode, clauses_map_toLower, ← statements_eq_clauses]

theorem statementsOf_map_toLower (t : List Char) :
    statementsOf (t.map Char.toLower) =
      (statementsOf t).map (List.map (List.map Char.toLower)) := by
  rw [statementsOf_eq, Text.splitOn_map_toLower (by decide), List.flatMap_map, statementsOf_eq,
    List.map_flatMap]
  congr 1
  exact funext statements_map_toLower

/-! ### Edits -/

theorem clauses_gap {b b' : List Char} (hb : IsGap b) (hb' : IsGap b') (l r : List Char) :
    clauses (l ++ b ++ r) = clauses (l ++ b' ++ r) := by
  refine Text.congr_of_cut_middle clauses_append_cons (fun l r hl hr => ?_) l r
  have hmark : ∀ {b}, IsGap b → ';' ∉ l ++ b ++ r := by
    intro b hb h
    rcases List.mem_append.1 h with h | h
    · rcases List.mem_append.1 h with h | h
      · exact hl h
      · exact absurd (hb.2 _ h).1 (by decide)
    · exact hr h
  rw [clauses_of_not_mem (hmark hb), clauses_of_not_mem (hmark hb'),
    Text.words_gap hb.1 fun c hc => (hb.2 c hc).1, Text.words_gap hb'.1 fun c hc => (hb'.2 c hc).1]

theorem statements_gap {b b' : List Char} (hb : IsGap b) (hb' : IsGap b') (l r : List Char) :
    statements (l ++ b ++ r) = statements (l ++ b' ++ r) := by
  by_cases hl : '#' ∈ l
  · rw [List.append_assoc, statements_append_of_mem hl, List.append_assoc,
      statements_append_of_mem hl]
  · have hmark : ∀ {b}, IsGap b → '#' ∉ l ++ b := by
      intro b hb h
      rcases List.mem_append.1 h with h | h
      · exact hl h
      · exact absurd (hb.2 _ h).1 (by decide)
    rw [statements_append_of_not_mem (hmark hb), statements_append_of_not_mem (hmark hb'),
      clauses_gap hb hb']

theorem statementsOf_gap {b b' : List Char} (hb : IsGap b) (hb' : IsGap b') (l r : List Char) :
    statementsOf (l ++ b ++ r) = statementsOf (l ++ b' ++ r) := by
  refine Text.congr_of_cut_middle statementsOf_append_cons (fun l r hl hr => ?_) l r
  have hbreak : ∀ {b}, IsGap b → '\n' ∉ l ++ b ++ r := by
    intro b hb h
    rcases List.mem_append.1 h with h | h
    · rcases List.mem_append.1 h with h | h
      · exact hl h
      · exact (hb.2 _ h).2 rfl
    · exact hr h
  rw [statementsOf_of_not_mem (hbreak hb), statementsOf_of_not_mem (hbreak hb'),
    statements_gap hb hb']

theorem statementsOf_append_comment {c : List Char} (hc : IsComment c) (l : List Char) :
    statementsOf (l ++ c) = statementsOf l := by
  rcases hc with rfl | ⟨rest, rfl, hrest⟩
  · rw [List.append_nil]
  · conv_rhs => rw [← List.append_nil l]
    refine Text.congr_of_cut statementsOf_append_cons (fun l hl => ?_) l
    have hbreak : '\n' ∉ l ++ '#' :: rest := by
      intro h
      rcases List.mem_append.1 h with h | h
      · exact hl h
      · exact hrest (List.mem_of_ne_of_mem (by decide) h)
    rw [List.append_nil, statementsOf_of_not_mem hbreak, statementsOf_of_not_mem hl]
    by_cases hm : '#' ∈ l
    · exact statements_append_of_mem hm _
    · rw [statements_of_not_mem hm, statements_append_of_not_mem hm,
        List.takeWhile_cons_of_neg (by simp), List.append_nil]

theorem statementsOf_mark {line : List Char} (hline : '\n' ∉ line ∧ '#' ∉ line) (r : List Char) :
    statementsOf (line ++ ';' :: r) = statementsOf (line ++ '\n' :: r) := by
  obtain ⟨hbreak, hmark⟩ := hline
  -- the semicolon separates the statements of its line
  have hone : ∀ first, '\n' ∉ first →
      statementsOf (line ++ ';' :: first) = statementsOf line ++ statementsOf first := by
    intro first hf
    have hb : '\n' ∉ line ++ ';' :: first := by
      intro h
      rcases List.mem_append.1 h with h | h
      · exact hbreak h
      · exact hf (List.mem_of_ne_of_mem (by decide) h)
    rw [statementsOf_of_not_mem hb, statementsOf_of_not_mem hbreak, statementsOf_of_not_mem hf,
      statements_append_of_not_mem hmark, List.takeWhile_cons_of_pos (by decide),
      clauses_append_cons, statements_of_not_mem hmark, statements_eq_clauses first]
  rw [statementsOf_append_cons]
  by_cases hr : '\n' ∈ r
  · obtain ⟨first, rest, rfl, hf⟩ := List.eq_append_cons_of_mem hr
    rw [← List.cons_append, ← List.append_assoc, statementsOf_append_cons, hone first hf,
      statementsOf_append_cons, List.append_assoc]
  · exact hone r hr

/-- **An edit does not change what a text denotes.** -/
theorem Edit.denotes_iff {t t' : List Char} (h : Edit t t') {program : Program} :
    List.Forall₂ Denotes (statementsOf t) program ↔
      List.Forall₂ Denotes (statementsOf t') program := by
  cases h with
  | letters h =>
    have hlower : ∀ t : List Char,
        List.Forall₂ Denotes (statementsOf (t.map Char.toLower)) program ↔
        List.Forall₂ Denotes (statementsOf t) program := by
      intro t
      rw [statementsOf_map_toLower, List.forall₂_map_left_iff]
      simp only [denotes_map_toLower]
    rw [← hlower t, ← hlower t', h]
  | gap l r hb hb' => rw [statementsOf_gap hb hb']
  | comment l r hc hc' hr =>
    rcases hr with rfl | ⟨rest, rfl⟩
    · rw [List.append_nil, List.append_nil, statementsOf_append_comment hc,
        statementsOf_append_comment hc']
    · rw [statementsOf_append_cons, statementsOf_append_cons, statementsOf_append_comment hc,
        statementsOf_append_comment hc']
  | mark l line r hl hline =>
    rcases hl with rfl | ⟨front, rfl⟩
    · rw [List.nil_append, statementsOf_mark hline]
    · have hfront : ∀ r, statementsOf (front ++ ['\n'] ++ line ++ r) =
          statementsOf front ++ statementsOf (line ++ r) := by
        intro r
        rw [← statementsOf_append_cons]
        simp
      rw [hfront, hfront, statementsOf_mark hline]

theorem Reworded.denotes_iff {t t' : List Char} (h : Reworded t t') {program : Program} :
    List.Forall₂ Denotes (statementsOf t) program ↔
      List.Forall₂ Denotes (statementsOf t') program := by
  induction h with
  | rel _ _ h => exact h.denotes_iff
  | refl => exact Iff.rfl
  | symm _ _ _ ih => exact ih.symm
  | trans _ _ _ _ _ ih ih' => exact ih.trans ih'

/-- **The reader accepts exactly the grammar**: a text of which every statement denotes an
instruction, and it gives these instructions in their order.  It gives the same for every rewording
of the text. -/
theorem read_iff_denotes :
    (∀ text : String, (∃ program, read text = .ok program) ↔
      ∀ words ∈ statementsOf text.toList, ∃ x, Denotes words x) ∧
    (∀ (text : String) (program : Program), read text = .ok program ↔
      List.Forall₂ Denotes (statementsOf text.toList) program) ∧
    ∀ (text text' : String) (program : Program), Reworded text.toList text'.toList →
      read text = .ok program → read text' = .ok program := by
  refine ⟨fun text => ?_, fun text program => read_eq_ok_iff_forall₂, ?_⟩
  · simp only [read_eq_ok_iff_forall₂, exists_forall₂_iff]
  · intro text text' program h hr
    rw [read_eq_ok_iff_forall₂] at hr ⊢
    exact h.denotes_iff.1 hr

/-- Letters, a semicolon, a comment and blanks are changed, one after another. -/
theorem reworded_march :
    Reworded "Repeat +03;FORWARD # go".toList "repeat\t +03\nforward ".toList := by
  have hletters : Edit "Repeat +03;FORWARD # go".toList "repeat +03;forward # GO".toList :=
    .letters (by decide)
  have hmark : Edit "repeat +03;forward # GO".toList "repeat +03\nforward # GO".toList :=
    .mark [] "repeat +03".toList "forward # GO".toList (Or.inl rfl) (by decide)
  have hcomment : Edit "repeat +03\nforward # GO".toList "repeat +03\nforward ".toList :=
    .comment "repeat +03\nforward ".toList [] (Or.inr ⟨" GO".toList, rfl, by decide⟩) (Or.inl rfl)
      (Or.inl rfl)
  have hgap : Edit "repeat +03\nforward ".toList "repeat\t +03\nforward ".toList :=
    @Edit.gap "repeat".toList "+03\nforward ".toList [' '] ['\t', ' '] (by decide) (by decide)
  exact .trans _ _ _ (.rel _ _ hletters)
    (.trans _ _ _ (.rel _ _ hmark) (.trans _ _ _ (.rel _ _ hcomment) (.rel _ _ hgap)))

theorem read_iff_denotes_march :
    Reworded "Repeat +03;FORWARD # go".toList "repeat\t +03\nforward ".toList ∧
      read "Repeat +03;FORWARD # go" =
        .ok [.wrap (.times ⟨3, by decide, by decide⟩), .act .forward] ∧
      read "repeat\t +03\nforward " =
        .ok [.wrap (.times ⟨3, by decide, by decide⟩), .act .forward] := by
  have hread : read "Repeat +03;FORWARD # go" =
      .ok [.wrap (.times ⟨3, by decide, by decide⟩), .act .forward] := by decide
  exact ⟨reworded_march, hread, read_iff_denotes.2.2 _ _ _ reworded_march hread⟩

end Mazewalk.Program
