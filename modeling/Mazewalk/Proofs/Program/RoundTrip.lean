import Mathlib.Data.List.TakeWhile
import Mazewalk.Program.Text
import Mazewalk.Proofs.Text.Words

/-!
# Reading what was written

The reader gives back every program from its text.  An instruction is written as the words
`Instruction.spelling`, with a blank between neighbours.  No word of it holds a blank, a line
break, a semicolon or a number sign, so the line is one statement and its words are the spelling.

* `Program.statements_text`: the statements on the line of an instruction.
* `Program.readStatements_spelling`: the statement reads as the instruction.
* `Program.readLines_text`: the lines of a program read as the program, whatever the number of
  the first line.
-/

namespace Mazewalk

open Text (IsWord IsWordChar)

/-! ### Spellings -/

namespace Instruction

/-- The words that an instruction is written with, the keyword first. -/
def spelling : Instruction → List (List Char)
  | act action => [action.word.toList]
  | wrap (.times count) => ["repeat".toList, Nat.toDigits 10 count.val]
  | wrap (.whilst condition ceiling) =>
      ["while".toList, condition.name.toList, Nat.toDigits 10 ceiling.val]

theorem toList_text (x : Instruction) : x.text.toList = [' '].intercalate x.spelling := by
  cases x with
  | act action =>
    rw [spelling, List.intercalate_singleton]
    rfl
  | wrap wrapper =>
    cases wrapper <;> simp [text, spelling, toString, String.toList_append, Nat.toList_repr]

/-- **The words of a spelling are words.** -/
theorem isWord_of_mem_spelling (x : Instruction) : ∀ w ∈ x.spelling, IsWord w := by
  cases x with
  | act action =>
    refine List.forall_mem_singleton.2 ?_
    cases action <;> decide
  | wrap wrapper =>
    cases wrapper with
    | times count =>
      exact List.forall_mem_cons.2 ⟨by decide,
        List.forall_mem_singleton.2 (Text.isWord_toDigits count.val)⟩
    | whilst condition ceiling =>
      have hname : IsWord condition.name.toList := by cases condition <;> decide
      exact List.forall_mem_cons.2 ⟨by decide, List.forall_mem_cons.2 ⟨hname,
        List.forall_mem_singleton.2 (Text.isWord_toDigits ceiling.val)⟩⟩

/-- A mark of a program text, one that neither stands in a word nor between words, does not
stand in the text of an instruction. -/
theorem not_mem_text (x : Instruction) {d : Char} (hd : ¬ IsWordChar d) (hs : d ≠ ' ') :
    d ∉ x.text.toList := by
  intro h
  rw [toList_text] at h
  obtain h | ⟨w, hw, hdw⟩ := Text.mem_intercalate h
  · exact hs h
  · exact hd ((x.isWord_of_mem_spelling w hw).2 d hdw)

end Instruction

namespace Program

/-! ### Statements -/

/-- **The statements on the line of an instruction.**  There is one, and its words are the
spelling. -/
theorem statements_text (x : Instruction) : statements x.text.toList = [x.spelling] := by
  have hcomment : x.text.toList.takeWhile (· ≠ '#') = x.text.toList := by
    rw [List.takeWhile_eq_self_iff]
    intro c hc
    have : c ≠ '#' := fun h => x.not_mem_text (by decide) (by decide) (h ▸ hc)
    simpa using this
  have hsemicolon : ';' ∉ x.text.toList := x.not_mem_text (by decide) (by decide)
  have hwords : Text.words x.text.toList = x.spelling := by
    rw [x.toList_text]
    refine Text.words_intercalate fun w hw => ?_
    obtain ⟨hne, hc⟩ := x.isWord_of_mem_spelling w hw
    exact ⟨hne, fun c hcw => (hc c hcw).not_blank⟩
  have hne : x.spelling ≠ [] := by
    rcases x with a | ⟨c⟩ | ⟨c, n⟩ <;> simp [Instruction.spelling]
  rw [statements, hcomment, List.splitOn_eq_singleton hsemicolon, List.map_singleton, hwords,
    List.filter_cons_of_pos (by simpa using hne)]
  rfl

theorem readCount_toDigits (count : Count) : readCount (Nat.toDigits 10 count.val) = .ok count := by
  rw [readCount, Text.numeral?_toDigits, Option.bind_some, Count.ofNat?_val]

theorem ofWord?_name (condition : Condition) :
    Condition.ofWord? condition.name.toList = some condition := by
  cases condition <;> rfl

theorem readStatement_spelling_times (count : Count) :
    readStatement "repeat".toList [Nat.toDigits 10 count.val] = .ok (.wrap (.times count)) := by
  have hk : keyword? "repeat".toList = some .times := by decide
  simp only [readStatement, hk, readCount_toDigits]
  rfl

theorem readStatement_spelling_whilst (condition : Condition) (ceiling : Count) :
    readStatement "while".toList [condition.name.toList, Nat.toDigits 10 ceiling.val] =
      .ok (.wrap (.whilst condition ceiling)) := by
  have hk : keyword? "while".toList = some .whilst := by decide
  simp only [readStatement, hk, ofWord?_name, readCount_toDigits]
  rfl

/-- **The statement reads as the instruction.** -/
theorem readStatements_spelling (x : Instruction) : readStatements [x.spelling] = .ok [x] := by
  cases x with
  | act action =>
    cases action <;> rfl
  | wrap wrapper =>
    cases wrapper with
    | times count =>
      rw [Instruction.spelling, readStatements, readStatement_spelling_times]
      rfl
    | whilst condition ceiling =>
      rw [Instruction.spelling, readStatements, readStatement_spelling_whilst]
      rfl

/-! ### Programs -/

/-- **The lines of a program** read as the program, whatever the number of the first line. -/
theorem readLines_text (program : Program) (line : Nat) :
    readLines line (program.map fun x => x.text.toList) = .ok program := by
  induction program generalizing line with
  | nil => rfl
  | cons x program ih =>
    rw [List.map_cons, readLines, statements_text, readStatements_spelling, ih]
    rfl

/-- **The reader gives back every program from its text**: every list of actions and wrappers,
with every count, whether or not its wrappers have an action to govern. -/
theorem read_text (program : Program) : read program.text = .ok program := by
  have hlines : program.text.toList =
      ['\n'].intercalate (program.map fun x => x.text.toList) := by
    rw [text, String.toList_intercalate, List.map_map]
    rfl
  cases program with
  | nil => rfl
  | cons x program =>
    rw [read, hlines, List.splitOn_intercalate '\n' ?_ (by simp), readLines_text]
    intro l hl
    obtain ⟨y, -, rfl⟩ := List.mem_map.1 hl
    exact y.not_mem_text (by decide) (by decide)

end Program

end Mazewalk
