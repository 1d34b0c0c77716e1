import Mazewalk.Program.Text
import Mazewalk.Proofs.Text.Words

/-!
# The grammar of programs

A text is cut into lines, what follows a number sign is dropped, and the rest of a line is cut at
its semicolons; what is not blank of that are the statements of the text (`statementsOf`).  A
statement is a list of words, and `Denotes` says which of them denote which instruction.  The
reader accepts a text exactly if every statement of it denotes an instruction, and gives these
instructions in their order (`read_eq_ok_iff_forall₂`).

Only the error that is reported depends on the order of the reader's tests, so the lemmas here say
of each reader when it succeeds and with what.
-/

namespace Mazewalk

/-! ### What words denote -/

/-- The numerals of a number: its decimal digits, with leading zeros or without, and perhaps a plus
sign before them. -/
def Text.IsNumeral (word : List Char) (n : Nat) : Prop :=
  ∃ digits, (word = digits ∨ word = '+' :: digits) ∧ digits ≠ [] ∧
    (∀ c ∈ digits, c.isDigit = true) ∧ Nat.ofDigitChars 10 digits 0 = n

namespace Program

/-- The words for an action. -/
inductive Verb : String → Action → Prop where
  | forward : Verb "forward" .forward
  | left : Verb "left" .turnLeft
  | turnLeft : Verb "turn_left" .turnLeft
  | right : Verb "right" .turnRight
  | turnRight : Verb "turn_right" .turnRight
  | pickup : Verb "pickup" .pickup

/-- The words for a condition. -/
inductive Clause : String → Condition → Prop where
  | pathAhead : Clause "path_ahead" .pathAhead
  | pathahead : Clause "pathahead" .pathAhead
  | notAtGoal : Clause "not_at_goal" .notAtGoal
  | notatgoal : Clause "notatgoal" .notAtGoal

/-- The instruction that a list of words denotes.  The case of letters does not matter. -/
inductive Denotes : List (List Char) → Instruction → Prop where
  | act {verb : List Char} {action : Action} (h : Verb (Text.lower verb) action) :
      Denotes [verb] (.act action)
  | times {keyword number : List Char} {count : Count} (h : Text.lower keyword = "repeat")
      (hn : Text.IsNumeral number count.val) : Denotes [keyword, number] (.wrap (.times count))
  | whilst {keyword clause : List Char} {condition : Condition} {ceiling : Count}
      (h : Text.lower keyword = "while") (hc : Clause (Text.lower clause) condition)
      (hn : ceiling.val = 50) : Denotes [keyword, clause] (.wrap (.whilst condition ceiling))
  | whilstUpTo {keyword clause number : List Char} {condition : Condition} {ceiling : Count}
      (h : Text.lower keyword = "while") (hc : Clause (Text.lower clause) condition)
      (hn : Text.IsNumeral number ceiling.val) :
      Denotes [keyword, clause, number] (.wrap (.whilst condition ceiling))

/-- The statements of a text as words, blank ones left out. -/
def statementsOf (text : List Char) : List (List (List Char)) :=
  let pieces := (text.splitOn '\n').flatMap fun line => (line.takeWhile (· ≠ '#')).splitOn ';'
  (pieces.map Text.words).filter fun words => !words.isEmpty

theorem statementsOf_eq (text : List Char) :
    statementsOf text = (text.splitOn '\n').flatMap statements := by
  rw [statementsOf, List.map_flatMap, List.filter_flatMap]
  rfl

/-! ### Words -/

theorem keyword?_eq_some_iff {word : List Char} {b : Block} :
    keyword? word = some b ↔ Text.lower word ∈ keywords b := by
  rw [keyword?]
  generalize Text.lower word = s
  constructor
  · intro h
    simpa using List.find?_some h
  · intro h
    cases b <;> simp only [keywords, List.mem_cons, List.not_mem_nil, or_false] at h <;>
      rcases h with rfl | rfl <;> decide

theorem mem_keywords_ofAction_iff {s : String} {action : Action} :
    s ∈ keywords (Block.ofAction action) ↔ Verb s action := by
  constructor
  · intro h
    cases action <;>
      simp only [Block.ofAction, keywords, List.mem_cons, List.not_mem_nil, or_false] at h <;>
      rcases h with rfl | rfl <;> constructor
  · intro h
    cases h <;> decide

theorem ofWord?_eq_some_iff {word : List Char} {condition : Condition} :
    Condition.ofWord? word = some condition ↔ Clause (Text.lower word) condition := by
  rw [Condition.ofWord?]
  generalize Text.lower word = s
  constructor
  · intro h
    have hs : s ∈ condition.spellings := by simpa using List.find?_some h
    cases condition <;>
      simp only [Condition.spellings, List.mem_cons, List.not_mem_nil, or_false] at hs <;>
      rcases hs with rfl | rfl <;> constructor
  · intro h
    cases h <;> decide

theorem digits_unsigned {word digits : List Char} (h : word = digits ∨ word = '+' :: digits)
    (hd : ∀ c ∈ digits, c.isDigit = true) : Text.unsigned word = digits := by
  rcases h with rfl | rfl
  · exact Text.unsigned_of_isDigit hd
  · rfl

theorem numeral?_eq_some_iff {word : List Char} {n : Nat} :
    Text.numeral? word = some n ↔ Text.IsNumeral word n := by
  rw [Text.numeral?]
  constructor
  · intro h
    split at h
    · cases h
    · rename_i hd
      simp only [Bool.or_eq_true, List.isEmpty_iff, Bool.not_eq_true', not_or,
        Bool.not_eq_false, List.all_eq_true] at hd
      refine ⟨Text.unsigned word, ?_, hd.1, hd.2, Option.some.inj h⟩
      unfold Text.unsigned
      split
      · exact Or.inr rfl
      · exact Or.inl rfl
  · rintro ⟨digits, hw, hne, hd, rfl⟩
    have hall : digits.all Char.isDigit = true := List.all_eq_true.2 hd
    have hemp : digits.isEmpty = false := by simpa using hne
    simp only [digits_unsigned hw hd, hall, hemp]
    rfl

theorem readCount_eq_ok_iff {word : List Char} {count : Count} :
    readCount word = .ok count ↔ Text.IsNumeral word count.val := by
  rw [← numeral?_eq_some_iff, readCount]
  constructor
  · intro h
    split at h
    · rename_i c hc
      obtain ⟨n, hn, hv⟩ := Option.bind_eq_some_iff.1 hc
      cases h
      rw [hn]
      rw [Count.ofNat?] at hv
      split at hv
      · cases hv
        rfl
      · cases hv
    · cases h
  · intro h
    rw [h, Option.bind_some, Count.ofNat?_val]

/-! ### Statements -/

theorem finished_eq_ok_iff {x y : Instruction} {rest : List (List Char)} :
    finished x rest = .ok y ↔ rest = [] ∧ x = y := by
  cases rest <;> simp [finished]

theorem readStatement_act {keyword : List Char} {action : Action}
    (h : keyword? keyword = some (Block.ofAction action)) (args : List (List Char)) :
    readStatement keyword args = finished (.act action) args := by
  cases action <;> rw [Block.ofAction] at h <;> simp only [readStatement, h]

theorem block_cases (b : Block) :
    (∃ action, b = Block.ofAction action) ∨ b = .times ∨ b = .whilst := by
  cases b with
  | forward => exact Or.inl ⟨.forward, rfl⟩
  | turnLeft => exact Or.inl ⟨.turnLeft, rfl⟩
  | turnRight => exact Or.inl ⟨.turnRight, rfl⟩
  | pickup => exact Or.inl ⟨.pickup, rfl⟩
  | times => exact Or.inr (Or.inl rfl)
  | whilst => exact Or.inr (Or.inr rfl)

theorem lower_eq_repeat_iff {word : List Char} :
    Text.lower word = "repeat" ↔ keyword? word = some .times := by
  simp [keyword?_eq_some_iff, keywords]

theorem lower_eq_while_iff {word : List Char} :
    Text.lower word = "while" ↔ keyword? word = some .whilst := by
  simp [keyword?_eq_some_iff, keywords]

theorem denotes_of_readStatement {keyword : List Char} {args : List (List Char)} {x : Instruction}
    (h : readStatement keyword args = .ok x) : Denotes (keyword :: args) x := by
  cases hk : keyword? keyword with
  | none =>
    simp only [readStatement, hk] at h
    cases h
  | some b =>
    rcases block_cases b with ⟨action, rfl⟩ | rfl | rfl
    · rw [readStatement_act hk, finished_eq_ok_iff] at h
      obtain ⟨rfl, rfl⟩ := h
      exact .act (mem_keywords_ofAction_iff.1 (keyword?_eq_some_iff.1 hk))
    · cases args with
      | nil =>
        simp only [readStatement, hk] at h
        cases h
      | cons number rest =>
        simp only [readStatement, hk, bind_eq_ok_iff, finished_eq_ok_iff] at h
        obtain ⟨count, hc, rfl, rfl⟩ := h
        exact .times (lower_eq_repeat_iff.2 hk) (readCount_eq_ok_iff.1 hc)
    · cases args with
      | nil =>
        simp only [readStatement, hk] at h
        cases h
      | cons clause rest =>
        simp only [readStatement, hk] at h
        cases hc : Condition.ofWord? clause with
        | none =>
          rw [hc] at h
          cases h
        | some condition =>
          rw [hc] at h
          cases rest with
          | nil =>
            cases h
            exact .whilst (lower_eq_while_iff.2 hk) (ofWord?_eq_some_iff.1 hc) rfl
          | cons number rest =>
            simp only [bind_eq_ok_iff, finished_eq_ok_iff] at h
            obtain ⟨ceiling, hn, rfl, rfl⟩ := h
            exact .whilstUpTo (lower_eq_while_iff.2 hk) (ofWord?_eq_some_iff.1 hc)
              (readCount_eq_ok_iff.1 hn)

theorem readStatement_of_denotes {keyword : List Char} {args : List (List Char)} {x : Instruction}
    (h : Denotes (keyword :: args) x) : readStatement keyword args = .ok x := by
  cases h with
  | act hv =>
    have hk := keyword?_eq_some_iff.2 (mem_keywords_ofAction_iff.2 hv)
    rw [readStatement_act hk, finished]
  | times hk hn =>
    simp only [readStatement, lower_eq_repeat_iff.1 hk, readCount_eq_ok_iff.2 hn]
    rfl
  | @whilst _ _ _ ceiling hk hc hn =>
    have hceiling : defaultCeiling = ceiling := by
      cases ceiling
      cases hn
      rfl
    simp only [readStatement, lower_eq_while_iff.1 hk, ofWord?_eq_some_iff.2 hc, hceiling]
  | whilstUpTo hk hc hn =>
    simp only [readStatement, lower_eq_while_iff.1 hk, ofWord?_eq_some_iff.2 hc,
      readCount_eq_ok_iff.2 hn]
    rfl

/-- **A statement is read as what it denotes.** -/
theorem readStatement_eq_ok_iff {keyword : List Char} {args : List (List Char)} {x : Instruction} :
    readStatement keyword args = .ok x ↔ Denotes (keyword :: args) x :=
  ⟨denotes_of_readStatement, readStatement_of_denotes⟩

/-! ### Texts -/

theorem readStatements_eq_ok_iff {pieces : List (List (List Char))} {program : Program}
    (h : ∀ words ∈ pieces, words ≠ []) :
    readStatements pieces = .ok program ↔ List.Forall₂ Denotes pieces program := by
  induction pieces generalizing program with
  | nil => simp [readStatements, eq_comm]
  | cons words pieces ih =>
    obtain ⟨hw, ht⟩ := List.forall_mem_cons.1 h
    obtain ⟨keyword, args, rfl⟩ := List.exists_cons_of_ne_nil hw
    rw [readStatements, List.forall₂_cons_left_iff]
    simp only [bind_eq_ok_iff, readStatement_eq_ok_iff, ih ht]
    constructor
    · rintro ⟨x, hx, rest, hr, he⟩
      cases he
      exact ⟨x, rest, hx, hr, rfl⟩
    · rintro ⟨x, rest, hx, hr, rfl⟩
      exact ⟨x, hx, rest, hr, rfl⟩

theorem ne_nil_of_mem_statements {line : List Char} :
    ∀ words ∈ statements line, words ≠ [] := by
  intro words h
  have := (List.mem_filter.1 h).2
  simpa using this

theorem readLines_eq_ok_iff {n : Nat} {lines : List (List Char)} {program : Program} :
    readLines n lines = .ok program ↔
      List.Forall₂ Denotes (lines.flatMap statements) program := by
  induction lines generalizing n program with
  | nil => simp [readLines, eq_comm]
  | cons line lines ih =>
    rw [readLines, List.flatMap_cons, forall₂_append_iff]
    simp only [bind_eq_ok_iff, mapError_eq_ok_iff,
      readStatements_eq_ok_iff ne_nil_of_mem_statements, ih]
    constructor
    · rintro ⟨here, hh, rest, hr, he⟩
      cases he
      exact ⟨here, rest, hh, hr, rfl⟩
    · rintro ⟨here, rest, hh, hr, rfl⟩
      exact ⟨here, hh, rest, hr, rfl⟩

/-- **A text is read as the instructions that its statements denote.** -/
theorem read_eq_ok_iff_forall₂ {text : String} {program : Program} :
    read text = .ok program ↔ List.Forall₂ Denotes (statementsOf text.toList) program := by
  rw [read, readLines_eq_ok_iff, statementsOf_eq]

end Program

end Mazewalk
