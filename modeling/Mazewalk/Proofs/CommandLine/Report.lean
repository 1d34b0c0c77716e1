import Mathlib.Data.List.Forall2
import Mazewalk.CommandLine.Report
import Mazewalk.Failure

/-!
# What is printed

A report has its parts in a fixed order, and each part is about the outcome of the program: the
places off the palette, the entries of the trace, the warnings, and where the walker has come to
rest.  What a line for each of these shows is said here letter by letter, and `reports_report` says
that the report has these lines, no place or entry left out and none twice.  In the same way
`showsFailure_report` says what is printed in place of a report when there is a failure.
-/

namespace Mazewalk

namespace Level

variable {level : Level} {program : Program}

theorem mem_offPalette_iff {i : Nat} :
    i ∈ level.offPalette program ↔ ∃ x, program[i]? = some x ∧ x.block ∉ level.palette := by
  have hallows : ∀ block, level.allows block = false ↔ block ∉ level.palette := by
    intro block
    rw [allows, ← Bool.not_eq_true, List.contains_iff_mem]
  simp only [← hallows]
  rw [offPalette, List.mem_map]
  constructor
  · rintro ⟨⟨x, j⟩, hx, rfl⟩
    rw [List.mem_filter, List.mk_mem_zipIdx_iff_getElem?] at hx
    exact ⟨x, hx.1, by simpa using hx.2⟩
  · rintro ⟨x, hx, ha⟩
    refine ⟨(x, i), ?_, rfl⟩
    rw [List.mem_filter, List.mk_mem_zipIdx_iff_getElem?]
    exact ⟨hx, by simpa using ha⟩

theorem pairwise_offPalette : (level.offPalette program).Pairwise (· < ·) := by
  have hs : (level.offPalette program).Sublist (program.zipIdx.map Prod.snd) :=
    List.filter_sublist.map Prod.snd
  rw [List.zipIdx_map_snd] at hs
  exact List.Pairwise.sublist hs List.pairwise_lt_range'

end Level

namespace CommandLine

/-! ### Lines -/

/-- As many blanks. -/
def blanks (count : Nat) : String :=
  String.ofList (List.replicate count ' ')

/-- The note names the instruction at the place. -/
def ShowsNote (program : Program) (place : Nat) (line : String) : Prop :=
  ∃ x, program[place]? = some x ∧
    line = "note: instruction " ++ toString (place + 1) ++ " (" ++ x.text ++
      ") is not in this level's palette"

def ShowsLevel (level : Level) (line : String) : Prop :=
  line = "Level " ++ toString level.id.toNat ++ ": " ++ level.name

/-- The words for the actions in a report. -/
def actionWords : List (Action × String) :=
  [(.forward, "forward"), (.turnLeft, "left"), (.turnRight, "right"), (.pickup, "pickup")]

/-- The words for the headings in a report. -/
def headingWords : List (Heading × String) :=
  [(.up, "Up"), (.right, "Right"), (.down, "Down"), (.left, "Left")]

/-- The line shows a step with its number: the place in the program, the action, and where the
walker is then and which way it faces.  The number ends in the third column or later, and the word
for the action is followed by blanks up to eight letters. -/
def ShowsStep (number : Nat) (e : Step) (line : String) : Prop :=
  ∃ word facing, (e.action, word) ∈ actionWords ∧ (e.walker.heading, facing) ∈ headingWords ∧
    line = blanks (3 - (toString number).length) ++ toString number ++
      ". [" ++ toString (e.index + 1) ++ "] " ++ word ++ blanks (8 - word.length) ++
      " -> (" ++ toString e.walker.position.x ++ ", " ++ toString e.walker.position.y ++
      ") facing " ++ facing

/-- What a warning says of an instruction. -/
inductive Complains : Warning → Nat → String → Prop where
  | ceiling (i limit : Nat) : Complains (.ceiling i limit) i
      ("while loop stopped after " ++ toString limit ++ " iterations")
  | dangling (i : Nat) : Complains (.dangling i) i "loop has nothing to repeat"
  | nested (i : Nat) : Complains (.nested i) i "loop cannot wrap another loop and was skipped"

def ShowsWarning (warning : Warning) (line : String) : Prop :=
  ∃ i complaint, Complains warning i complaint ∧
    line = "warning: instruction " ++ toString (i + 1) ++ ": " ++ complaint

/-- The line shows whether the program has passed, where the walker is, and the stars. -/
def ShowsOutcome (outcome : Level.Outcome) (line : String) : Prop :=
  ∃ verdict, (outcome.success, verdict) ∈ [(true, "Success"), (false, "Try again")] ∧
    line = verdict ++ " at (" ++ toString outcome.walker.position.x ++ ", " ++
      toString outcome.walker.position.y ++ ") with " ++ toString outcome.stars.toNat ++
      " star(s)"

theorem showsNote_noteLine {program : Program} {place : Nat} {x : Instruction}
    (h : program[place]? = some x) : ShowsNote program place (noteLine program place) := by
  refine ⟨x, h, ?_⟩
  unfold noteLine
  rw [h]
  simp only [Option.map_some, Option.getD_some, toString]

theorem showsLevel_levelLine (level : Level) : ShowsLevel level (levelLine level) := by
  simp [ShowsLevel, levelLine, toString]

theorem showsStep_stepLine (number : Nat) (e : Step) :
    ShowsStep number e (stepLine number e) := by
  refine ⟨e.action.word, e.walker.heading.title, ?_, ?_, ?_⟩
  · cases e.action <;> decide
  · cases e.walker.heading <;> decide
  · simp [stepLine, Text.padLeft, Text.padRight, blanks, toString, String.append_assoc]

theorem showsWarning_warningLine (warning : Warning) :
    ShowsWarning warning (warningLine warning) := by
  have hfirst : "warning: instruction " = "warning: " ++ "instruction " := by decide
  cases warning with
  | ceiling i limit =>
    have hlast : ": while loop stopped after " = ": " ++ "while loop stopped after " := by decide
    refine ⟨i, _, .ceiling i limit, ?_⟩
    show "warning: " ++ ("instruction " ++ toString (i + 1) ++ ": while loop stopped after " ++
      toString limit ++ " iterations") = _
    simp only [hfirst, hlast, String.append_assoc]
  | dangling i =>
    have hlast : ": loop has nothing to repeat" = ": " ++ "loop has nothing to repeat" := by decide
    refine ⟨i, _, .dangling i, ?_⟩
    show "warning: " ++ ("instruction " ++ toString (i + 1) ++ ": loop has nothing to repeat") = _
    simp only [hfirst, hlast, String.append_assoc]
  | nested i =>
    have hlast : ": loop cannot wrap another loop and was skipped" =
        ": " ++ "loop cannot wrap another loop and was skipped" := by decide
    refine ⟨i, _, .nested i, ?_⟩
    show "warning: " ++ ("instruction " ++ toString (i + 1) ++
      ": loop cannot wrap another loop and was skipped") = _
    simp only [hfirst, hlast, String.append_assoc]

theorem showsOutcome_outcomeLine (outcome : Level.Outcome) :
    ShowsOutcome outcome (outcomeLine outcome) := by
  refine ⟨if outcome.success then "Success" else "Try again", ?_, ?_⟩
  · cases outcome.success <;> decide
  · simp [outcomeLine, toString, String.append_assoc]

/-! ### The whole report -/

/-- The lines report on a program on a level: a note for each place off the palette, in order, the
level, one numbered line for each step, one line for each warning, and the outcome. -/
def Reports (level : Level) (program : Program) (lines : List String) : Prop :=
  ∃ (places : List Nat) (notes : List String) (header : String) (steps warnings : List String)
      (last : String),
    places.Pairwise (· < ·) ∧
    (∀ i, i ∈ places ↔ ∃ x, program[i]? = some x ∧ x.block ∉ level.palette) ∧
    List.Forall₂ (ShowsNote program) places notes ∧
    ShowsLevel level header ∧
    steps.length = (level.play program).trace.size ∧
    (∀ k e, (level.play program).trace[k]? = some e →
      ∃ line, steps[k]? = some line ∧ ShowsStep (k + 1) e line) ∧
    List.Forall₂ ShowsWarning (level.play program).warnings.toList warnings ∧
    ShowsOutcome (level.play program) last ∧
    lines = notes ++ header :: steps ++ warnings ++ [last]

theorem reports_report (level : Level) (program : Program) :
    Reports level program (report level program) := by
  refine ⟨level.offPalette program, (level.offPalette program).map (noteLine program),
    levelLine level, (level.play program).trace.toList.zipIdx.map fun e => stepLine (e.2 + 1) e.1,
    (level.play program).warnings.toList.map warningLine, outcomeLine (level.play program),
    Level.pairwise_offPalette, fun i => Level.mem_offPalette_iff, ?_, showsLevel_levelLine level,
    ?_, fun k e he => ⟨stepLine (k + 1) e, ?_, showsStep_stepLine _ _⟩, ?_,
    showsOutcome_outcomeLine _, ?_⟩
  · refine List.forall₂_map_right_iff.2 (List.forall₂_same.2 fun i hi => ?_)
    obtain ⟨x, hx, -⟩ := Level.mem_offPalette_iff.1 hi
    exact showsNote_noteLine hx
  · rw [List.length_map, List.length_zipIdx, Array.length_toList]
  · rw [List.getElem?_map, List.getElem?_zipIdx, Array.getElem?_toList, he]
    simp
  · exact List.forall₂_map_right_iff.2 (List.forall₂_same.2 fun w _ => showsWarning_warningLine w)
  · rw [report, List.append_assoc _ [levelLine level]]
    rfl

/-! ### Failures -/

/-- The second text is the first one with as many blanks after every line break. -/
inductive Hangs (indent : Nat) : List Char → List Char → Prop where
  | nil : Hangs indent [] []
  | newline {text shown : List Char} (h : Hangs indent text shown) :
      Hangs indent ('\n' :: text) ('\n' :: (List.replicate indent ' ' ++ shown))
  | other {c : Char} {text shown : List Char} (hc : c ≠ '\n') (h : Hangs indent text shown) :
      Hangs indent (c :: text) (c :: shown)

/-- A cause on its own is indented by four blanks; one of several has its number in front. -/
def ShowsCause (several : Prop) (cause : String × Nat) (line : String) : Prop :=
  ∃ shown,
    (¬ several ∧ Hangs 4 cause.1.toList shown ∧ line = blanks 4 ++ String.ofList shown ++ "\n") ∨
      several ∧ Hangs 7 cause.1.toList shown ∧
        line = blanks (5 - (toString cause.2).length) ++ toString cause.2 ++ ": " ++
          String.ofList shown ++ "\n"

/-- The text shows the message of a failure, and the messages of its causes in their order. -/
def ShowsFailure (failure : Failure) (text : String) : Prop :=
  ∃ lines, List.Forall₂ (ShowsCause (1 < failure.causes.length)) failure.causes.zipIdx lines ∧
    (failure.causes = [] ∧ text = "Error: " ++ failure.message ++ "\n" ∨
      failure.causes ≠ [] ∧ text = "Error: " ++ failure.message ++ "\n\nCaused by:\n" ++
        String.join lines)

theorem hangs_hanging (indent : Nat) (text : List Char) :
    Hangs indent text (text.flatMap fun c =>
      if c = '\n' then c :: List.replicate indent ' ' else [c]) := by
  induction text with
  | nil => exact .nil
  | cons c text ih =>
    rw [List.flatMap_cons]
    by_cases hc : c = '\n'
    · rw [if_pos hc, hc]
      exact .newline ih
    · rw [if_neg hc]
      exact .other hc ih

theorem showsCause_causeLines (several : Bool) (cause : String × Nat) :
    ShowsCause (several = true) cause
      (Failure.causeLines several cause.2 cause.1 ++ "\n") := by
  unfold Failure.causeLines Failure.hanging
  cases several with
  | true =>
    refine ⟨_, Or.inr ⟨rfl, hangs_hanging 7 _, ?_⟩⟩
    simp [Text.padLeft, blanks, String.append_assoc]
  | false =>
    refine ⟨_, Or.inl ⟨Bool.false_ne_true, hangs_hanging 4 _, ?_⟩⟩
    rfl

theorem showsFailure_report (failure : Failure) : ShowsFailure failure failure.report := by
  refine ⟨failure.causes.zipIdx.map fun cause =>
    Failure.causeLines (1 < failure.causes.length) cause.2 cause.1 ++ "\n", ?_, ?_⟩
  · refine List.forall₂_map_right_iff.2 (List.forall₂_same.2 fun cause _ => ?_)
    have h := showsCause_causeLines (decide (1 < failure.causes.length)) cause
    rwa [decide_eq_true_eq] at h
  · unfold Failure.report
    cases hc : failure.causes with
    | nil => simp
    | cons cause causes => simp [← String.toList_inj]

end CommandLine

end Mazewalk
