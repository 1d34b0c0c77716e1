import Mazewalk.Proofs.Map.Language

/-!
# The first defect of a map

A text that is no map can have several defects at once.  The reader looks at the rows from the top
and measures each before it looks at its codes from the left; `looks` is the list of all that it
looks at.  `Defect` says what is wrong with one of these in the light of what was looked at before,
because a start is a defect if there was one already.  The error is the first defect
(`readRows_eq_error_iff`), and the lack of a start is an error of a text without defects.

The reader keeps the start that it has met, and not what it has looked at.  `Remembers` relates the
two, and it is kept from code to code and from row to row.
-/

namespace Mazewalk.Map

/-! ### Looks and defects -/

/-- One look at a text: how many codes a row has, or what a code is. -/
inductive Look where
  | row (y found : Nat)
  | code (x y : Nat) (word : List Char)

/-- The look meets a start. -/
def Look.IsStart : Look → Prop
  | row _ _ => False
  | code _ _ word => Text.upper word = "ST"

/-- The looks at some codes of row `y`, the first of which is in column `x`. -/
def codeLooks (y x : Nat) (words : List (List Char)) : List Look :=
  (words.zipIdx x).map fun (word, x) => .code x y word

/-- The looks at some rows, the first of which is row `y`. -/
def rowLooks (y : Nat) (lines : List (List (List Char))) : List Look :=
  (lines.zipIdx y).flatMap fun (line, y) => .row y line.length :: codeLooks y 0 line

/-- What is looked at in a text, in order. -/
def looks (text : String) : List Look :=
  rowLooks 0 (codeLines text)

/-- How many codes the first row has. -/
def firstWidth (text : String) : Nat :=
  ((codeLines text).headD []).length

/-- What is wrong with what is looked at, after other looks. -/
inductive Defect (width : Nat) (before : List Look) : Look → Error → Prop where
  | ragged {y found : Nat} (h : found ≠ width) :
      Defect width before (.row y found) (.raggedRow y width found)
  | unknown {x y : Nat} {word : List Char}
      (h : Text.upper word ∉ ["ST", "PA", "WL", "GO", "IT", "GI"]) :
      Defect width before (.code x y word) (.unknownCode (String.ofList word) x y)
  | second {x y : Nat} {word : List Char} (h : Text.upper word = "ST")
      (hb : ∃ look ∈ before, look.IsStart) :
      Defect width before (.code x y word) .multipleStarts

variable {width : Nat} {before : List Look} {e : Error}

theorem codeLooks_cons (y x : Nat) (word : List Char) (words : List (List Char)) :
    codeLooks y x (word :: words) = .code x y word :: codeLooks y (x + 1) words :=
  rfl

theorem rowLooks_cons (y : Nat) (line : List (List Char)) (lines : List (List (List Char))) :
    rowLooks y (line :: lines) =
      .row y line.length :: (codeLooks y 0 line ++ rowLooks (y + 1) lines) :=
  rfl

theorem defect_row_iff {y found : Nat} :
    Defect width before (.row y found) e ↔ found ≠ width ∧ e = .raggedRow y width found := by
  constructor
  · rintro ⟨h⟩
    exact ⟨h, rfl⟩
  · rintro ⟨h, rfl⟩
    exact .ragged h

theorem defect_unknown_iff {x y : Nat} {word : List Char}
    (h : Text.upper word ∉ ["ST", "PA", "WL", "GO", "IT", "GI"]) :
    Defect width before (.code x y word) e ↔ e = .unknownCode (String.ofList word) x y := by
  constructor
  · intro hd
    cases hd with
    | unknown => rfl
    | second hs => exact absurd (hs ▸ List.mem_cons_self) h
  · rintro rfl
    exact .unknown h

theorem defect_code_iff {x y : Nat} {word : List Char} {tile : Tile}
    (hc : Tile.Code (Text.upper word) tile) :
    Defect width before (.code x y word) e ↔
      (tile.terrain = .start ∧ ∃ look ∈ before, look.IsStart) ∧ e = .multipleStarts := by
  rw [← eq_start_iff hc]
  constructor
  · intro hd
    cases hd with
    | unknown h => exact absurd (exists_code_iff.1 ⟨tile, hc⟩) h
    | second hs hb => exact ⟨⟨hs, hb⟩, rfl⟩
  · rintro ⟨⟨hs, hb⟩, rfl⟩
    exact .second hs hb

/-! ### The start that was met -/

/-- A start is remembered if and only if one was met. -/
def Remembers (start : Option Position) (before : List Look) : Prop :=
  start.isSome = true ↔ ∃ look ∈ before, look.IsStart

theorem remembers_append_row {start : Option Position} (h : Remembers start before)
    (y found : Nat) : Remembers start (before ++ [.row y found]) := by
  rw [Remembers] at h ⊢
  rw [h]
  simp [Look.IsStart]

theorem remembers_meet {start : Option Position} (h : Remembers start before) {x y : Nat}
    {word : List Char} {tile : Tile} (hc : Tile.Code (Text.upper word) tile) :
    Remembers (meet start tile ⟨x, y⟩) (before ++ [.code x y word]) := by
  have hmeet : (meet start tile ⟨x, y⟩).isSome = true ↔
      start.isSome = true ∨ tile.terrain = .start := by
    rw [meet]
    split <;> simp [*]
  rw [Remembers] at h ⊢
  rw [hmeet, h, ← eq_start_iff hc]
  simp [Look.IsStart, or_and_right, exists_or]

theorem remembers_readCodes {y x : Nat} {start start' : Option Position}
    {words : List (List Char)} {tiles : List Tile} (h : Remembers start before)
    (hr : readCodes y x start words = .ok (tiles, start')) :
    Remembers start' (before ++ codeLooks y x words) := by
  induction words generalizing x start tiles before with
  | nil =>
    cases hr
    rw [codeLooks, List.zipIdx_nil, List.map_nil, List.append_nil]
    exact h
  | cons word words ih =>
    cases hw : Tile.ofCode? word with
    | none => simp [readCodes, hw] at hr
    | some tile =>
      rw [readCodes_cons hw] at hr
      split at hr
      · cases hr
      · obtain ⟨⟨rest, s⟩, hr, he⟩ := map_eq_ok_iff.1 hr
        cases he
        have hnext := ih (remembers_meet h (ofCode?_eq_some_iff.1 hw)) hr
        rwa [List.append_assoc] at hnext

theorem remembers_readRows {y : Nat} {start start' : Option Position}
    {lines : List (List (List Char))} {rows : List (List Tile)} (h : Remembers start before)
    (hr : readRows width y start lines = .ok (rows, start')) :
    Remembers start' (before ++ rowLooks y lines) := by
  induction lines generalizing y start rows before with
  | nil =>
    cases hr
    rw [rowLooks, List.zipIdx_nil, List.flatMap_nil, List.append_nil]
    exact h
  | cons line lines ih =>
    rw [readRows] at hr
    split at hr
    · cases hr
    · obtain ⟨⟨tiles, s⟩, hc, hr⟩ := bind_eq_ok_iff.1 hr
      obtain ⟨⟨rest, s'⟩, hrest, he⟩ := bind_eq_ok_iff.1 hr
      cases he
      have hnext := ih (remembers_readCodes (remembers_append_row h y line.length) hc) hrest
      rwa [List.append_assoc, List.append_assoc] at hnext

/-! ### The first defect -/

theorem readCodes_eq_error_iff {y x : Nat} {start : Option Position}
    {words : List (List Char)} (h : Remembers start before) :
    readCodes y x start words = .error e ↔
      FirstBad (fun looked => Defect width (before ++ looked)) (codeLooks y x words) e := by
  induction words generalizing x start before with
  | nil => exact iff_of_false nofun not_firstBad_nil
  | cons word words ih =>
    rw [codeLooks_cons, firstBad_cons, List.append_nil]
    cases hw : Tile.ofCode? word with
    | none =>
      have hu : Text.upper word ∉ ["ST", "PA", "WL", "GO", "IT", "GI"] := by
        intro hm
        obtain ⟨tile, hc⟩ := exists_code_iff.2 hm
        rw [ofCode?_eq_some_iff.2 hc] at hw
        cases hw
      simp only [readCodes, hw, defect_unknown_iff hu, Except.error.injEq]
      constructor
      · rintro rfl
        exact Or.inl rfl
      · rintro (rfl | ⟨hnone, -⟩)
        · rfl
        · exact absurd rfl (hnone _)
    | some tile =>
      have hc := ofCode?_eq_some_iff.1 hw
      have hnext := ih (x := x + 1) (remembers_meet (x := x) (y := y) h hc)
      have hhere : ∀ d, Defect width before (.code x y word) d ↔
          (tile.terrain = .start ∧ start.isSome = true) ∧ d = .multipleStarts := by
        intro d
        have hmet : start.isSome = true ↔ ∃ look ∈ before, look.IsStart := h
        rw [defect_code_iff hc, hmet]
      rw [readCodes_cons hw]
      simp only [hhere]
      by_cases hs : tile.terrain = .start ∧ start.isSome = true
      · simp [hs, eq_comm]
      · rw [if_neg hs, map_eq_error_iff, hnext]
        simp [hs]

theorem readRows_cons {y : Nat} {start : Option Position} {line : List (List Char)}
    (hl : line.length = width) (lines : List (List (List Char))) :
    readRows width y start (line :: lines) = (do
      let (tiles, start) ← readCodes y 0 start line
      (readRows width (y + 1) start lines).map fun (rows, start) => (tiles :: rows, start)) := by
  rw [readRows, if_neg (not_not_intro hl)]
  cases readCodes y 0 start line with
  | error d => rfl
  | ok read => cases readRows width (y + 1) read.2 lines <;> rfl

/-- The reader of rows stops at the first defect. -/
theorem readRows_eq_error_iff {y : Nat} {start : Option Position}
    {lines : List (List (List Char))} (h : Remembers start before) :
    readRows width y start lines = .error e ↔
      FirstBad (fun looked => Defect width (before ++ looked)) (rowLooks y lines) e := by
  induction lines generalizing y start before with
  | nil => exact iff_of_false nofun not_firstBad_nil
  | cons line lines ih =>
    rw [rowLooks_cons, firstBad_cons]
    by_cases hl : line.length = width
    · have hrow := remembers_append_row h y line.length
      have hcodes : ∀ d, readCodes y 0 start line = .error d ↔
          FirstBad (fun looked => Defect width (before ++ .row y line.length :: looked))
            (codeLooks y 0 line) d := by
        intro d
        simpa using readCodes_eq_error_iff hrow
      have hfits : ∀ d, ¬ Defect width (before ++ []) (.row y line.length) d :=
        fun d hd => (defect_row_iff.1 hd).1 hl
      rw [readRows_cons hl, or_iff_right (hfits e), and_iff_right hfits, firstBad_append,
        noneBad_iff]
      simp only [← hcodes]
      cases hr : readCodes y 0 start line with
      | error d => simp [bind, Except.bind]
      | ok read =>
        obtain ⟨tiles, s⟩ := read
        have hnext := ih (y := y + 1) (remembers_readCodes hrow hr)
        refine map_eq_error_iff.trans (hnext.trans ?_)
        simp
    · rw [readRows, if_pos hl]
      simp [defect_row_iff, hl, eq_comm]

variable {text : String}

theorem read_eq_error_iff :
    read text = .error e ↔
      codeLines text = [] ∧ e = .empty ∨ FirstBad (Defect (firstWidth text)) (looks text) e ∨
        codeLines text ≠ [] ∧ NoneBad (Defect (firstWidth text)) (looks text) ∧
          (∀ look ∈ looks text, ¬ look.IsStart) ∧ e = .noStart := by
  rw [looks, firstWidth, codeLines_eq]
  cases hw : wordRows text with
  | nil =>
    have hempty : read text = .error .empty := by rw [read, hw]
    have hbad : ∀ w, ¬ FirstBad (Defect w) (rowLooks 0 []) e := fun w => not_firstBad_nil
    simp [hempty, hbad, eq_comm]
  | cons first rest =>
    rw [List.headD_cons]
    have hmet : Remembers none [] := by simp [Remembers]
    have hrows : ∀ d, readRows first.length 0 none (first :: rest) = .error d ↔
        FirstBad (Defect first.length) (rowLooks 0 (first :: rest)) d :=
      fun d => readRows_eq_error_iff hmet
    rw [noneBad_iff]
    simp only [← hrows]
    cases hr : readRows first.length 0 none (first :: rest) with
    | error d => simp [read, hw, hr, bind, Except.bind]
    | ok found =>
      obtain ⟨rows, start⟩ := found
      have hstart : Remembers start ([] ++ rowLooks 0 (first :: rest)) :=
        remembers_readRows hmet hr
      rw [Remembers, List.nil_append] at hstart
      cases start with
      | none =>
        have hnone : ∀ look ∈ rowLooks 0 (first :: rest), ¬ look.IsStart := by simpa using hstart
        have hread : read text = .error .noStart := by simp [read, hw, hr, bind, Except.bind]
        rw [hread, Except.error.injEq]
        constructor
        · rintro rfl
          refine Or.inr (Or.inr ⟨List.cons_ne_nil _ _, fun d hd => ?_, hnone, rfl⟩)
          cases hd
        · rintro (⟨h, -⟩ | h | ⟨-, -, -, rfl⟩)
          · cases h
          · cases h
          · rfl
      | some p =>
        obtain ⟨look, hl, hs⟩ := hstart.1 rfl
        obtain ⟨g, hg⟩ := exists_ofRows_of_readRows hw hr
        have hread : read text = .ok (g, p) := by simp [read, hw, hr, hg, bind, Except.bind]
        rw [hread]
        constructor
        · intro h
          cases h
        · rintro (⟨h, -⟩ | h | ⟨-, -, hnone, -⟩)
          · cases h
          · cases h
          · exact absurd hs (hnone look hl)

/-! ### Where a defect is -/

theorem mem_codeLooks_iff {x y row : Nat} {words : List (List Char)} {word : List Char} :
    .code x y word ∈ codeLooks row 0 words ↔ words[x]? = some word ∧ row = y := by
  simp [codeLooks, List.mem_zipIdx_iff_getElem?]

theorem row_mem_looks_iff {y found : Nat} :
    .row y found ∈ looks text ↔
      ∃ line, (codeLines text)[y]? = some line ∧ line.length = found := by
  simp [looks, rowLooks, codeLooks, List.mem_zipIdx_iff_getElem?, eq_comm]

theorem code_mem_looks_iff {x y : Nat} {word : List Char} :
    .code x y word ∈ looks text ↔
      ∃ codes, (codeLines text)[y]? = some codes ∧ codes[x]? = some word := by
  simp [looks, rowLooks, codeLooks, List.mem_zipIdx_iff_getElem?]

/-- A row in which an unknown code is reported has been measured, so the code is in one of the
columns of the first row. -/
theorem lt_width_of_firstBad {y cx cy : Nat} {lines : List (List (List Char))} {code : String}
    (h : FirstBad (fun looked => Defect width (before ++ looked)) (rowLooks y lines)
      (.unknownCode code cx cy)) : cx < width := by
  induction lines generalizing y before with
  | nil => exact absurd h not_firstBad_nil
  | cons line lines ih =>
    rw [rowLooks_cons, firstBad_cons, firstBad_append] at h
    rcases h with h | ⟨hfits, h | ⟨-, h⟩⟩
    · cases h
    · have hl : line.length = width := by
        by_contra hne
        exact hfits _ (.ragged hne)
      obtain ⟨looked, look, hm, hd⟩ := exists_mem_of_firstBad h
      cases hd
      rw [← hl]
      exact (List.getElem?_eq_some_iff.1 (mem_codeLooks_iff.1 hm).1).1
    · have hmore : ∀ looked, before ++ .row y line.length :: (codeLooks y 0 line ++ looked) =
          before ++ .row y line.length :: codeLooks y 0 line ++ looked := by simp
      simp only [hmore] at h
      exact ih h

theorem of_firstBad_ragged {row expected found : Nat}
    (h : FirstBad (Defect width) (looks text) (.raggedRow row expected found)) :
    expected = width ∧ found ≠ expected ∧
      ∃ line, (codeLines text)[row]? = some line ∧ line.length = found := by
  obtain ⟨looked, look, hm, hd⟩ := exists_mem_of_firstBad h
  cases hd with
  | ragged hne => exact ⟨rfl, hne, row_mem_looks_iff.1 hm⟩

theorem of_firstBad_unknown {code : String} {x y : Nat}
    (h : FirstBad (Defect width) (looks text) (.unknownCode code x y)) :
    x < width ∧ ∃ codes word, (codeLines text)[y]? = some codes ∧ codes[x]? = some word ∧
      code = String.ofList word := by
  have hfrom : FirstBad (fun looked => Defect width ([] ++ looked)) (rowLooks 0 (codeLines text))
      (.unknownCode code x y) := h
  refine ⟨lt_width_of_firstBad hfrom, ?_⟩
  obtain ⟨looked, look, hm, hd⟩ := exists_mem_of_firstBad h
  cases hd
  obtain ⟨codes, hl, hw⟩ := code_mem_looks_iff.1 hm
  exact ⟨codes, _, hl, hw, rfl⟩

/-- **A text that is no map is refused for its first defect.**  It is empty if it has no row, and it
lacks a start if there is none and nothing else is wrong.  Otherwise the error is what is wrong with
the first of the looks at which something is, and it tells the row and the column. -/
theorem read_first_defect (text : String) :
    (read text = .error .empty ↔ codeLines text = []) ∧
      (∀ e, read text = .error e →
        e = .empty ∨ FirstBad (Defect (firstWidth text)) (looks text) e ∨ e = .noStart) ∧
      (∀ e, FirstBad (Defect (firstWidth text)) (looks text) e → read text = .error e) ∧
      (read text = .error .noStart ↔ codeLines text ≠ [] ∧
        NoneBad (Defect (firstWidth text)) (looks text) ∧
          ∀ look ∈ looks text, ¬ look.IsStart) ∧
      (∀ row expected found, read text = .error (.raggedRow row expected found) →
        expected = firstWidth text ∧ found ≠ expected ∧
          ∃ line, (codeLines text)[row]? = some line ∧ line.length = found) ∧
      ∀ code x y, read text = .error (.unknownCode code x y) →
        x < firstWidth text ∧ ∃ codes word, (codeLines text)[y]? = some codes ∧
          codes[x]? = some word ∧ code = String.ofList word := by
  have hdefect : ∀ e, read text = .error e →
      e = .empty ∨ FirstBad (Defect (firstWidth text)) (looks text) e ∨ e = .noStart := by
    intro e h
    rcases read_eq_error_iff.1 h with ⟨-, he⟩ | hbad | ⟨-, -, -, he⟩
    · exact Or.inl he
    · exact Or.inr (Or.inl hbad)
    · exact Or.inr (Or.inr he)
  have hfirst : ∀ e, FirstBad (Defect (firstWidth text)) (looks text) e → read text = .error e :=
    fun e h => read_eq_error_iff.2 (Or.inr (Or.inl h))
  refine ⟨read_eq_empty_iff, hdefect, hfirst, ?_, ?_, ?_⟩
  · constructor
    · intro h
      rcases read_eq_error_iff.1 h with ⟨-, he⟩ | hbad | ⟨hne, hnone, hstart, -⟩
      · cases he
      · obtain ⟨before, look, -, hd⟩ := exists_mem_of_firstBad hbad
        cases hd
      · exact ⟨hne, hnone, hstart⟩
    · rintro ⟨hne, hnone, hstart⟩
      exact read_eq_error_iff.2 (Or.inr (Or.inr ⟨hne, hnone, hstart, rfl⟩))
  · intro row expected found h
    rcases hdefect _ h with he | hbad | he
    · cases he
    · exact of_firstBad_ragged hbad
    · cases he
  · intro code x y h
    rcases hdefect _ h with he | hbad | he
    · cases he
    · exact of_firstBad_unknown hbad
    · cases he

/-- A text with an unknown code, and after it a second start and a row that is too short. -/
def pit : String := "st PA\n \n PA hole\nSt PA\n\nGO"

theorem read_first_defect_pit :
    FirstBad (Defect 2) (looks pit) (.unknownCode "hole" 1 1) ∧
      read pit = .error (.unknownCode "hole" 1 1) ∧
      (1 < 2 ∧ ∃ codes word, (codeLines pit)[1]? = some codes ∧ codes[1]? = some word ∧
        "hole" = String.ofList word) ∧
      ((2 : Nat) = 2 ∧ 1 ≠ 2 ∧ ∃ line, (codeLines "ST PA\n??")[1]? = some line ∧ line.length = 1) ∧
      (codeLines "go it" ≠ [] ∧ NoneBad (Defect 2) (looks "go it") ∧
        ∀ look ∈ looks "go it", ¬ look.IsStart) := by
  obtain ⟨-, herror, hfirst, -, -, hunknown⟩ := read_first_defect pit
  obtain ⟨-, -, -, -, hragged, -⟩ := read_first_defect "ST PA\n??"
  obtain ⟨-, -, -, hnoStart, -, -⟩ := read_first_defect "go it"
  have hpit : read pit = .error (.unknownCode "hole" 1 1) := by decide
  have hbad : FirstBad (Defect 2) (looks pit) (.unknownCode "hole" 1 1) := by
    rcases herror _ hpit with he | hbad | he
    · cases he
    · exact hbad
    · cases he
  have hshort : read "ST PA\n??" = .error (.raggedRow 1 2 1) := by decide
  have hopen : read "go it" = .error .noStart := by decide
  exact ⟨hbad, hfirst _ hbad, hunknown _ _ _ hpit, hragged _ _ _ hshort, hnoStart.1 hopen⟩

end Mazewalk.Map
