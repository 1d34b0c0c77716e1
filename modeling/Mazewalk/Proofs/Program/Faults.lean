import Mazewalk.Proofs.Program.Grammar

/-!
# The first fault of a program

Several things can be wrong with a program, and one of them is reported.  `Flaw` says what can be
found wrong with a statement, each kind of fault by itself and without regard to the others, and
`FirstFlaw` picks the one that comes first in a fixed order of the kinds.  The statements are then
gone through in the order of the text, and the first one that has a flaw decides
(`readLines_eq_error_iff`).

So what is wrong with a text is not changed by what follows it, and what is wrong with a text
stands as many lines later as there are lines before it (`read_append_line`).
-/

namespace Mazewalk.Program

/-! ### The flaws of a statement -/

/-- How many words there can be after a keyword. -/
inductive Takes : String → Nat → Prop where
  | act {verb : String} {action : Action} (h : Verb verb action) : Takes verb 0
  | times : Takes "repeat" 1
  | whilst : Takes "while" 2

/-- The word names a condition. -/
def IsClause (word : List Char) : Prop :=
  ∃ condition, Clause (Text.lower word) condition

/-- The word is a positive 32-bit number. -/
def IsCount (word : List Char) : Prop :=
  ∃ count : Count, Text.IsNumeral word count.val

/-- What can be found wrong with a statement, one kind of fault apart from the others.  A count is
the last word that there can be after a keyword, and a word after that is one too many. -/
def Flaw : List (List Char) → Fault → Prop
  | [], _ => False
  | keyword :: _, .unknownInstruction w =>
      w = String.ofList keyword ∧ ∀ n, ¬ Takes (Text.lower keyword) n
  | keyword :: args, .missingCount => Text.lower keyword = "repeat" ∧ args = []
  | keyword :: args, .missingCondition => Text.lower keyword = "while" ∧ args = []
  | keyword :: args, .unknownCondition w =>
      Text.lower keyword = "while" ∧ ∃ clause, args[0]? = some clause ∧
        ¬ IsClause clause ∧ w = String.ofList clause
  | keyword :: args, .invalidCount w =>
      ∃ n number, Takes (Text.lower keyword) (n + 1) ∧ args[n]? = some number ∧
        ¬ IsCount number ∧ w = String.ofList number
  | keyword :: args, .trailing w =>
      ∃ n extra, Takes (Text.lower keyword) n ∧ args[n]? = some extra ∧ w = String.ofList extra

/-- The order in which faults are looked for. -/
def Fault.rank : Fault → Nat
  | unknownInstruction _ => 0
  | missingCount => 1
  | missingCondition => 1
  | unknownCondition _ => 2
  | invalidCount _ => 3
  | trailing _ => 4

/-- Of the flaws of a statement this is the first in order. -/
def FirstFlaw (words : List (List Char)) (f : Fault) : Prop :=
  Flaw words f ∧ ∀ f', Flaw words f' → f.rank ≤ f'.rank

/-- How many words there can be after the keywords of a kind of instruction. -/
def wordsAfter : Block → Nat
  | .times => 1
  | .whilst => 2
  | _ => 0

theorem takes_iff {keyword : List Char} {n : Nat} :
    Takes (Text.lower keyword) n ↔ ∃ b, keyword? keyword = some b ∧ n = wordsAfter b := by
  constructor
  · intro h
    generalize hs : Text.lower keyword = s at h
    cases h with
    | @act _ action h =>
      subst hs
      refine ⟨Block.ofAction action, ?_, by cases action <;> rfl⟩
      exact keyword?_eq_some_iff.2 (mem_keywords_ofAction_iff.2 h)
    | times => exact ⟨.times, lower_eq_repeat_iff.1 hs, rfl⟩
    | whilst => exact ⟨.whilst, lower_eq_while_iff.1 hs, rfl⟩
  · rintro ⟨b, hk, rfl⟩
    rcases block_cases b with ⟨action, rfl⟩ | rfl | rfl
    · have hn : wordsAfter (Block.ofAction action) = 0 := by cases action <;> rfl
      rw [hn]
      exact .act (mem_keywords_ofAction_iff.1 (keyword?_eq_some_iff.1 hk))
    · rw [lower_eq_repeat_iff.2 hk]
      exact .times
    · rw [lower_eq_while_iff.2 hk]
      exact .whilst

variable {keyword : List Char} {args : List (List Char)} {f : Fault}

theorem flaw_unknown_iff (hk : keyword? keyword = none) :
    Flaw (keyword :: args) f ↔ f = .unknownInstruction (String.ofList keyword) := by
  cases f <;> simp [Flaw, takes_iff, lower_eq_repeat_iff, lower_eq_while_iff, hk]

theorem flaw_act_iff {action : Action} (hk : keyword? keyword = some (Block.ofAction action)) :
    Flaw (keyword :: args) f ↔
      ∃ extra, args[0]? = some extra ∧ f = .trailing (String.ofList extra) := by
  have ht : ∀ n, Takes (Text.lower keyword) n ↔ n = 0 := by
    intro n
    rw [takes_iff, hk]
    cases action <;> simp [Block.ofAction, wordsAfter]
  have hne : Block.ofAction action ≠ .times ∧ Block.ofAction action ≠ .whilst := by
    cases action <;> decide
  cases f <;> simp [Flaw, ht, lower_eq_repeat_iff, lower_eq_while_iff, hk, hne]

theorem flaw_times_iff (hk : keyword? keyword = some .times) :
    Flaw (keyword :: args) f ↔ args = [] ∧ f = .missingCount ∨
      (∃ number, args[0]? = some number ∧ ¬ IsCount number ∧
        f = .invalidCount (String.ofList number)) ∨
      ∃ extra, args[1]? = some extra ∧ f = .trailing (String.ofList extra) := by
  have ht : ∀ n, Takes (Text.lower keyword) n ↔ n = 1 := by simp [takes_iff, hk, wordsAfter]
  cases f <;> simp [Flaw, ht, lower_eq_repeat_iff, lower_eq_while_iff, hk]

theorem flaw_whilst_iff (hk : keyword? keyword = some .whilst) :
    Flaw (keyword :: args) f ↔ args = [] ∧ f = .missingCondition ∨
      (∃ clause, args[0]? = some clause ∧
        ¬ IsClause clause ∧
        f = .unknownCondition (String.ofList clause)) ∨
      (∃ number, args[1]? = some number ∧ ¬ IsCount number ∧
        f = .invalidCount (String.ofList number)) ∨
      ∃ extra, args[2]? = some extra ∧ f = .trailing (String.ofList extra) := by
  have ht : ∀ n, Takes (Text.lower keyword) n ↔ n = 2 := by simp [takes_iff, hk, wordsAfter]
  cases f <;> simp [Flaw, ht, lower_eq_repeat_iff, lower_eq_while_iff, hk]

/-! ### The flaw that is reported -/

variable {words : List (List Char)}

/-- An error is the first flaw if all others are of later kinds. -/
theorem error_eq_error_iff {f₀ : Fault} (h₀ : Flaw words f₀)
    (h : ∀ f, Flaw words f → f = f₀ ∨ f₀.rank < f.rank) :
    (.error f₀ : Except Fault Instruction) = .error f ↔ FirstFlaw words f := by
  rw [Except.error.injEq]
  constructor
  · rintro rfl
    refine ⟨h₀, fun f hf => ?_⟩
    rcases h f hf with rfl | hlt
    · exact Nat.le_refl _
    · exact Nat.le_of_lt hlt
  · rintro ⟨hf, hmin⟩
    rcases h f hf with he | hlt
    · exact he.symm
    · exact absurd (hmin f₀ h₀) (Nat.not_le_of_lt hlt)

/-- A statement whose only flaw can be that words are left over. -/
theorem finished_eq_error_iff {x : Instruction} {rest : List (List Char)}
    (h : ∀ f, Flaw words f ↔
      ∃ extra, rest[0]? = some extra ∧ f = .trailing (String.ofList extra)) :
    finished x rest = .error f ↔ FirstFlaw words f := by
  cases rest with
  | nil =>
    refine ⟨nofun, fun hf => ?_⟩
    obtain ⟨extra, he, -⟩ := (h f).1 hf.1
    cases he
  | cons extra rest =>
    refine error_eq_error_iff ((h _).2 ⟨extra, rfl, rfl⟩) fun f hf => ?_
    obtain ⟨_, he, rfl⟩ := (h f).1 hf
    cases he
    exact Or.inl rfl

/-- A statement in which a count can be wrong, and after it that words are left over. -/
theorem counted_eq_error_iff {number : List Char} {rest : List (List Char)}
    {make : Count → Instruction}
    (h : ∀ f, Flaw words f ↔ ¬ IsCount number ∧ f = .invalidCount (String.ofList number) ∨
      ∃ extra, rest[0]? = some extra ∧ f = .trailing (String.ofList extra)) :
    (do finished (make (← readCount number)) rest) = .error f ↔ FirstFlaw words f := by
  by_cases hn : IsCount number
  · obtain ⟨count, hc⟩ := id hn
    rw [readCount_eq_ok_iff.2 hc]
    refine finished_eq_error_iff fun f => (h f).trans (or_iff_right fun hf => hf.1 hn)
  · have hr : readCount number = .error (.invalidCount (String.ofList number)) := by
      unfold readCount
      split
      · rename_i count hc
        refine absurd ⟨count, readCount_eq_ok_iff.1 ?_⟩ hn
        rw [readCount, hc]
      · rfl
    rw [hr]
    refine error_eq_error_iff ((h _).2 (Or.inl ⟨hn, rfl⟩)) fun f hf => ?_
    rcases (h f).1 hf with ⟨-, rfl⟩ | ⟨_, -, rfl⟩
    · exact Or.inl rfl
    · exact Or.inr (by simp [Fault.rank])

theorem readStatement_times_eq_error_iff (hk : keyword? keyword = some .times) :
    readStatement keyword args = .error f ↔ FirstFlaw (keyword :: args) f := by
  cases args with
  | nil =>
    simp only [readStatement, hk]
    refine error_eq_error_iff ((flaw_times_iff hk).2 (Or.inl ⟨rfl, rfl⟩)) fun f hf => Or.inl ?_
    simpa using (flaw_times_iff hk).1 hf
  | cons number rest =>
    simp only [readStatement, hk]
    refine counted_eq_error_iff fun f => ?_
    rw [flaw_times_iff hk]
    simp

theorem readStatement_whilst_eq_error_iff (hk : keyword? keyword = some .whilst) :
    readStatement keyword args = .error f ↔ FirstFlaw (keyword :: args) f := by
  cases args with
  | nil =>
    simp only [readStatement, hk]
    refine error_eq_error_iff ((flaw_whilst_iff hk).2 (Or.inl ⟨rfl, rfl⟩)) fun f hf => Or.inl ?_
    simpa using (flaw_whilst_iff hk).1 hf
  | cons clause rest =>
    cases hc : Condition.ofWord? clause with
    | none =>
      have hn : ¬ IsClause clause := by
        rintro ⟨condition, h⟩
        rw [ofWord?_eq_some_iff.2 h] at hc
        cases hc
      simp only [readStatement, hk, hc]
      refine error_eq_error_iff ((flaw_whilst_iff hk).2 (Or.inr (Or.inl ⟨clause, rfl, hn, rfl⟩))) ?_
      intro f hf
      rcases (flaw_whilst_iff hk).1 hf with ⟨h, -⟩ | ⟨_, h, -, rfl⟩ | ⟨_, -, -, rfl⟩ | ⟨_, -, rfl⟩
      · cases h
      · cases h
        exact Or.inl rfl
      · exact Or.inr (by simp [Fault.rank])
      · exact Or.inr (by simp [Fault.rank])
    | some condition =>
      have hcl : IsClause clause := ⟨condition, ofWord?_eq_some_iff.1 hc⟩
      cases rest with
      | nil =>
        simp only [readStatement, hk, hc]
        show finished _ [] = .error f ↔ _
        refine finished_eq_error_iff fun f => ?_
        rw [flaw_whilst_iff hk]
        simp [hcl]
      | cons number rest =>
        simp only [readStatement, hk, hc]
        refine counted_eq_error_iff fun f => ?_
        rw [flaw_whilst_iff hk]
        simp [hcl]

/-- **A statement is refused for its first flaw.** -/
theorem readStatement_eq_error_iff :
    readStatement keyword args = .error f ↔ FirstFlaw (keyword :: args) f := by
  cases hk : keyword? keyword with
  | none =>
    simp only [readStatement, hk]
    exact error_eq_error_iff ((flaw_unknown_iff hk).2 rfl)
      fun f hf => Or.inl ((flaw_unknown_iff hk).1 hf)
  | some b =>
    rcases block_cases b with ⟨action, rfl⟩ | rfl | rfl
    · rw [readStatement_act hk]
      exact finished_eq_error_iff fun f => flaw_act_iff hk
    · exact readStatement_times_eq_error_iff hk
    · exact readStatement_whilst_eq_error_iff hk

/-! ### The first faulty statement -/

/-- The reader of statements stops at the first one that has a flaw. -/
theorem readStatements_eq_error_iff {pieces : List (List (List Char))}
    (h : ∀ words ∈ pieces, words ≠ []) :
    readStatements pieces = .error f ↔ FirstBad (fun _ => FirstFlaw) pieces f := by
  induction pieces with
  | nil => exact iff_of_false nofun not_firstBad_nil
  | cons words pieces ih =>
    obtain ⟨hw, ht⟩ := List.forall_mem_cons.1 h
    obtain ⟨keyword, args, rfl⟩ := List.exists_cons_of_ne_nil hw
    rw [readStatements, bind_pure_eq_error_iff, firstBad_cons, exists_and_right, exists_eq_ok_iff,
      ih ht]
    simp only [readStatement_eq_error_iff]

/-- The statements of some lines, the first of which has this number, each with the number of the
line it stands on. -/
def numbered (line : Nat) (lines : List (List Char)) : List (Nat × List (List Char)) :=
  (lines.zipIdx line).flatMap fun (text, n) => (statements text).map fun words => (n, words)

/-- What is reported for a statement: the number of its line, and its first flaw. -/
def Faulty (s : Nat × List (List Char)) (e : SyntaxError) : Prop :=
  e.line = s.1 ∧ FirstFlaw s.2 e.fault

theorem firstBad_map_pair {line : Nat} {pieces : List (List (List Char))} {e : SyntaxError} :
    FirstBad (fun _ => Faulty) (pieces.map fun words => (line, words)) e ↔
      e.line = line ∧ FirstBad (fun _ => FirstFlaw) pieces e.fault := by
  induction pieces with
  | nil => exact iff_of_false not_firstBad_nil fun h => not_firstBad_nil h.2
  | cons words pieces ih =>
    have hfirst : (∀ b, ¬ Faulty (line, words) b) ↔ ∀ f, ¬ FirstFlaw words f :=
      ⟨fun h f hf => h ⟨line, f⟩ ⟨rfl, hf⟩, fun h b hb => h b.fault hb.2⟩
    rw [List.map_cons, firstBad_cons, firstBad_cons, ih, hfirst, and_or_left, and_left_comm]
    rfl

theorem readLines_eq_error_iff {line : Nat} {lines : List (List Char)} {e : SyntaxError} :
    readLines line lines = .error e ↔ FirstBad (fun _ => Faulty) (numbered line lines) e := by
  induction lines generalizing line with
  | nil => exact iff_of_false nofun not_firstBad_nil
  | cons text lines ih =>
    have hnum : numbered line (text :: lines) =
        (statements text).map (fun words => (line, words)) ++ numbered (line + 1) lines := by
      rw [numbered, List.zipIdx_cons, List.flatMap_cons]
      rfl
    have hhere : ∀ e, (readStatements (statements text)).mapError (SyntaxError.mk line) = .error e ↔
        FirstBad (fun _ => Faulty) ((statements text).map fun words => (line, words)) e := by
      intro e
      rw [mapError_eq_error_iff, firstBad_map_pair]
      simp only [readStatements_eq_error_iff ne_nil_of_mem_statements]
      constructor
      · rintro ⟨f, hf, rfl⟩
        exact ⟨rfl, hf⟩
      · rintro ⟨hl, hf⟩
        exact ⟨e.fault, hf, by rw [← hl]⟩
    rw [readLines, bind_pure_eq_error_iff, hnum, firstBad_append, exists_and_right,
      exists_eq_ok_iff, noneBad_iff, ih]
    simp only [hhere]

theorem read_eq_error_iff {text : String} {e : SyntaxError} :
    read text = .error e ↔
      FirstBad (fun _ => Faulty) (numbered 1 (text.toList.splitOn '\n')) e :=
  readLines_eq_error_iff

/-! ### One text after another -/

/-- The same error some lines further down. -/
def SyntaxError.later (lines : Nat) (e : SyntaxError) : SyntaxError :=
  ⟨e.line + lines, e.fault⟩

theorem readLines_add (line n : Nat) (lines : List (List Char)) :
    readLines (line + n) lines = (readLines line lines).mapError (SyntaxError.later n) := by
  induction lines generalizing line with
  | nil => rfl
  | cons text lines ih =>
    have hnext : readLines (line + n + 1) lines =
        (readLines (line + 1) lines).mapError (SyntaxError.later n) := by
      rw [← ih (line + 1), Nat.add_right_comm]
    rw [readLines, readLines, hnext]
    cases readStatements (statements text) with
    | error f => rfl
    | ok here => cases readLines (line + 1) lines <;> rfl

theorem readLines_append (line : Nat) (l r : List (List Char)) :
    readLines line (l ++ r) = (do
      let before ← readLines line l
      let after ← readLines (line + l.length) r
      return before ++ after) := by
  induction l generalizing line with
  | nil => cases h : readLines line r <;> simp [readLines, h] <;> rfl
  | cons text l ih =>
    have hlen : line + (text :: l).length = line + 1 + l.length := by
      rw [List.length_cons]
      omega
    rw [List.cons_append, readLines, readLines, ih, hlen]
    cases readStatements (statements text) with
    | error f => rfl
    | ok here =>
      cases readLines (line + 1) l with
      | error e => rfl
      | ok before =>
        cases readLines (line + 1 + l.length) r with
        | error e => rfl
        | ok after => exact congrArg Except.ok (List.append_assoc here before after).symm

/-- **A line break separates what is read** before it from what is read after it. -/
theorem read_append_line (s₁ s₂ : String) :
    read (s₁ ++ "\n" ++ s₂) = (do
      let before ← read s₁
      let after ← (read s₂).mapError (SyntaxError.later (1 + s₁.toList.count '\n'))
      return before ++ after) := by
  have htext : (s₁ ++ "\n" ++ s₂).toList = s₁.toList ++ '\n' :: s₂.toList := by
    rw [String.toList_append, String.toList_append, List.append_assoc]
    rfl
  rw [read, htext, List.splitOn_append_cons_self, readLines_append, readLines_add,
    Text.length_splitOn, Nat.add_comm (List.count _ _)]
  rfl

/-- **A program is refused for its first fault.**  Of two texts, one after the other, the first
decides if there is a fault in it.  Otherwise the second does, and its lines are counted from the
beginning of the first.  The statement that is reported is the first one with a flaw, and of its
flaws it is the one whose kind comes first. -/
theorem read_fails_first :
    (∀ s₁ s₂ e, read s₁ = .error e → read (s₁ ++ "\n" ++ s₂) = .error e) ∧
      (∀ s₁ s₂ p₁ p₂, read s₁ = .ok p₁ → read s₂ = .ok p₂ →
        read (s₁ ++ "\n" ++ s₂) = .ok (p₁ ++ p₂)) ∧
      (∀ s₁ s₂ p₁ e, read s₁ = .ok p₁ → read s₂ = .error e →
        read (s₁ ++ "\n" ++ s₂) =
          .error ⟨e.line + (1 + s₁.toList.count '\n'), e.fault⟩) ∧
      (∀ text e, read text = .error e ↔
        FirstBad (fun _ => Faulty) (numbered 1 (text.toList.splitOn '\n')) e) ∧
      ∀ keyword args f, readStatement keyword args = .error f ↔
        Flaw (keyword :: args) f ∧ ∀ f', Flaw (keyword :: args) f' → f.rank ≤ f'.rank := by
  refine ⟨?_, ?_, ?_, fun _ _ => read_eq_error_iff, fun _ _ _ => readStatement_eq_error_iff⟩
  · intro s₁ s₂ e h
    rw [read_append_line, h]
    rfl
  · intro s₁ s₂ p₁ p₂ h₁ h₂
    rw [read_append_line, h₁, h₂]
    rfl
  · intro s₁ s₂ p₁ e h₁ h₂
    rw [read_append_line, h₁, h₂]
    rfl

/-- Two lines in which nothing is wrong, the second one blank. -/
def sound : String := "Left; forward # and so on\n"

/-- Two lines with faults in both; in the second statement there are three. -/
def faulty : String := "pickup;While PATH_behind 0 now\nhop"

theorem read_fails_first_faulty :
    read (faulty ++ "\n" ++ sound) = .error ⟨1, .unknownCondition "PATH_behind"⟩ ∧
      read (sound ++ "\n" ++ sound) =
        .ok [.act .turnLeft, .act .forward, .act .turnLeft, .act .forward] ∧
      read (sound ++ "\n" ++ faulty) = .error ⟨3, .unknownCondition "PATH_behind"⟩ ∧
      FirstBad (fun _ => Faulty) (numbered 1 (faulty.toList.splitOn '\n'))
        ⟨1, .unknownCondition "PATH_behind"⟩ ∧
      Flaw ["repeat".toList, "0".toList, "x".toList] (.invalidCount "0") ∧
      Flaw ["repeat".toList, "0".toList, "x".toList] (.trailing "x") := by
  obtain ⟨hfirst, hboth, hlater, hstatement, hkind⟩ := read_fails_first
  have hsound : read sound = .ok [.act .turnLeft, .act .forward] := by decide
  have hfaulty : read faulty = .error ⟨1, .unknownCondition "PATH_behind"⟩ := by decide
  have hcount : readStatement "repeat".toList ["0".toList, "x".toList] =
      .error (.invalidCount "0") := by decide
  refine ⟨hfirst _ _ _ hfaulty, hboth _ _ _ _ hsound hsound, hlater _ _ _ _ hsound hfaulty,
    (hstatement _ _).1 hfaulty, ((hkind _ _ _).1 hcount).1, ?_⟩
  exact ⟨1, "x".toList, .times, rfl, rfl⟩

end Mazewalk.Program
