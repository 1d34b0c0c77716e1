import Mazewalk.Proofs.CommandLine.Options
import Mazewalk.Proofs.CommandLine.Report
import Mazewalk.Proofs.CommandLine.Stages
import Mazewalk.Proofs.Session.Fairness
import Mazewalk.Toml.Document

/-!
# Commands without a screen

With `--headless` a command prints a report in place of a game.  It prints all of it or nothing:
either everything that the command asks for is there, and then the report is on the play of the
program on the level; or some stage fails, and then nothing is printed and the first such stage says
why (`run_headless`).  The game that the same command would play on the screen comes to the same
outcome, one step with each tick.

What reads the arguments and the TOML documents can be anything, as long as the arguments that it
accepts are used as they are given (`Documented`).  Whether a document is accepted, and what it
says, is part of what the command asks for.
-/

namespace Mazewalk

namespace Session

theorem ticksFrom_replicate_tick (s : Session) (j k : Nat) :
    s.ticksFrom j (List.replicate k .tick) = j + k := by
  induction k generalizing s j with
  | zero => rfl
  | succ k ih =>
    show (s.apply .tick).ticksFrom (j + 1) (List.replicate k .tick) = j + (k + 1)
    rw [ih]
    omega

theorem current_after_ticks (s : Session) (k : Nat) :
    (s.after (List.replicate k .tick)).current = s.current := by
  induction k generalizing s with
  | zero => rfl
  | succ k ih =>
    show (s.tick.after (List.replicate k .tick)).current = s.current
    rw [ih, current_tick]

/-- **A session that is only ticked** plays the program on the level on which it began. -/
theorem inStep_ticked {levels : List Level} {current : Nat} {level : Level} (program : Program)
    (h : current < levels.length) (hl : levels[current]? = some level) (k : Nat) :
    ((start levels current program h).after (List.replicate k .tick)).InStep level program k := by
  have hp : (start levels current program h).Paced 0 := paced_restart _
  have hi := (hp.after (List.replicate k .tick)).inStep
  have hc := getElem?_current ((start levels current program h).after (List.replicate k .tick))
  rw [levels_after, current_after_ticks] at hc
  have hlevel : ((start levels current program h).after (List.replicate k .tick)).level = level :=
    Option.some.inj (hc.symm.trans hl)
  rwa [hlevel, program_after, ticksFrom_replicate_tick, Nat.zero_add] at hi

end Session

namespace CommandLine

/-- What comes of a command without a screen. -/
structure Headless (toml : Toml.Reader) (arguments : Arguments) (files : Files)
    (result : Result) : Prop where
  code : result.code = 0 ↔
    ∃ program levels current, Ready toml arguments files program levels current
  failing : result.code ≠ 0 → ∃ stage failure, FirstFails toml arguments files stage failure
  /-- Nothing but the failure of the first stage that fails is reported. -/
  failed : ∀ stage failure, FirstFails toml arguments files stage failure →
    result.code = 1 ∧ result.printed = "" ∧ ShowsFailure failure result.complaint
  /-- The report is on the play of the program, and so is the game, tick by tick. -/
  played : ∀ program levels current, Ready toml arguments files program levels current →
    ∃ level, levels[current]? = some level ∧
      (∃ lines, Reports level program lines ∧
        result.printed = String.join (lines.map fun line => line ++ "\n")) ∧
      result.complaint = "" ∧
      ∀ h k, ((Session.start levels current program h).after
        (List.replicate k .tick)).InStep level program k

section

variable {read : Arguments.Reader} {toml : Toml.Reader} {texts : List String}
  {arguments : Arguments} {files : Files}

theorem Ready.run_eq {program : Program} {levels : List Level} {current : Nat} {level : Level}
    (h : Ready toml arguments files program levels current) (hl : levels[current]? = some level)
    (ha : read texts = some arguments) (hh : arguments.headless = true) :
    run read toml texts files = .ready (.report (report level program)) := by
  have hs := h.stages_eq hh
  rw [hl] at hs
  simp only [run, ha, hs]
  rfl

theorem FirstFails.run_eq {stage : Stage} {failure : Failure}
    (h : FirstFails toml arguments files stage failure) (ha : read texts = some arguments) :
    run read toml texts files = .failed failure := by
  simp only [run, ha, h.stages_eq]

theorem headless_run (files : Files) (ha : read texts = some arguments)
    (hh : arguments.headless = true) :
    Headless toml arguments files (run read toml texts files) := by
  have hready : ∀ program levels current, Ready toml arguments files program levels current →
      (run read toml texts files).code = 0 := by
    intro program levels current h
    obtain ⟨level, hl⟩ := h.exists_level
    rw [h.run_eq hl ha hh]
    rfl
  have hfailed : ∀ stage failure, FirstFails toml arguments files stage failure →
      (run read toml texts files).code = 1 := by
    intro stage failure h
    rw [h.run_eq ha]
    rfl
  refine ⟨⟨fun h => ?_, fun ⟨program, levels, current, h⟩ => hready _ _ _ h⟩, fun h => ?_,
    fun stage failure h => ?_, fun program levels current h => ?_⟩
  · refine (ready_or_firstFails toml arguments files).resolve_right ?_
    rintro ⟨stage, failure, hf⟩
    rw [hfailed _ _ hf] at h
    cases h
  · refine (ready_or_firstFails toml arguments files).resolve_left ?_
    rintro ⟨program, levels, current, hr⟩
    exact h (hready _ _ _ hr)
  · rw [h.run_eq ha]
    exact ⟨rfl, rfl, showsFailure_report failure⟩
  · obtain ⟨level, hl⟩ := h.exists_level
    refine ⟨level, hl, ⟨report level program, reports_report level program, ?_⟩, ?_,
      fun hlt k => Session.inStep_ticked program hlt hl k⟩
    · rw [h.run_eq hl ha hh]
      rfl
    · rw [h.run_eq hl ha hh]
      rfl

end

/-- A file with settings under which the walker would not move. -/
def stillFiles : Files :=
  ⟨[(["run.log"], .file (some "tick_ms = 0"))]⟩

/-- The log is written over the settings. -/
def loggedOver : List String :=
  ["--headless", "--log-file", "run.log", "--config=run.log", "-c", "forward; forward; forward"]

example : (run Arguments.read? Toml.read? ["--headless", "--config=run.log", "--tick-ms", "0"]
    stillFiles).complaint = "Error: tick_ms must be > 0\n" := by
  decide +kernel

end CommandLine

end Mazewalk
