import Mazewalk.CommandLine
import Mazewalk.Proofs.Catalog.Par
import Mazewalk.Proofs.Documents
import Mazewalk.Proofs.Results

/-!
# The stages of a command

What each stage asks for is said here without the order in which it is computed: `Configured`,
`Source` and `Chosen` say which settings, text and levels a command has, `Ready` that it has all of
them, and `Fails` in which ways a stage can fail and what is then reported.  All stages but the
first look at the files as they are when the log file has been created (`opened`), which may have
emptied one of them.

Every stage goes through or fails, so a command is `Ready` or there is a first stage that fails
(`ready_or_firstFails`).  What `stages` computes is then either of the two (`Ready.stages_eq`,
`FirstFails.stages_eq`).
-/

namespace Mazewalk

namespace CommandLine

/-! ### What a command has -/

/-- The files when the log file has been created. -/
def opened (arguments : Arguments) (files : Files) : Files :=
  match arguments.logFile? with
  | none => files
  | some path => (files.create path).toOption.getD files

/-- The settings file that is named is there, and this is its text. -/
structure ConfigText (arguments : Arguments) (files : Files) (path text : String) : Prop where
  named : arguments.config? = some path
  there : files.holds path = true
  text : files.read path = .ok text

/-- The settings are the defaults, or those of the settings file if it is there. -/
inductive Configured (toml : Toml.Reader) (arguments : Arguments) (files : Files) :
    Settings → Prop
  | defaults (hn : ∀ path, arguments.config? = some path → files.holds path = false) :
      Configured toml arguments files {}
  | file {path text : String} {settings : Settings} (ht : ConfigText arguments files path text)
      (hs : Settings.Says toml text settings)
      (hz : settings.tickMs ≠ 0) : Configured toml arguments files settings

/-- The program is given as this text, in a file or in the arguments. -/
inductive Source (arguments : Arguments) (files : Files) : String → Prop
  | file {path text : String} (hp : arguments.program? = some path)
      (hr : files.read path = .ok text) : Source arguments files text
  | code {text : String} (hp : arguments.program? = none) (hc : arguments.code? = some text) :
      Source arguments files text

/-- The levels of the game, with those of the directory in the settings if there is one. -/
inductive Catalogued (toml : Toml.Reader) (files : Files) : Option String → List Level → Prop
  | builtin {base : List Level} (hb : Catalog.builtin = .ok base) : Catalogued toml files none base
  | merged {dir : String} {base extra : List Level} (hb : Catalog.builtin = .ok base)
      (he : Catalog.loadDirectory toml files dir = .ok extra) :
      Catalogued toml files (some dir) (Catalog.merge base extra)

/-- The levels to play and the place of the first one: the level in the file that is named, or the
first level of the catalog with the id that is asked for. -/
inductive Chosen (toml : Toml.Reader) (arguments : Arguments) (files : Files)
    (levelsDir? : Option String) : List Level → Nat → Prop
  | file {path : String} {level : Level} (hp : arguments.levelFile? = some path)
      (hl : Level.Loads toml files path level) :
      Chosen toml arguments files levelsDir? [level] 0
  | catalog {levels : List Level} {current : Nat} {level : Level}
      (hp : arguments.levelFile? = none) (hc : Catalogued toml files levelsDir? levels)
      (hi : levels[current]? = some level) (hid : level.id = arguments.level)
      (hfirst : ∀ k other, k < current → levels[k]? = some other → other.id ≠ arguments.level) :
      Chosen toml arguments files levelsDir? levels current

/-- All that the command asks for is there. -/
structure Ready (toml : Toml.Reader) (arguments : Arguments) (files : Files) (program : Program)
    (levels : List Level) (current : Nat) : Prop where
  log : ∀ path, arguments.logFile? = some path → ∃ after, files.create path = .ok after
  delay : arguments.tickMs? ≠ some 0
  program : ∃ text, Source arguments (opened arguments files) text ∧ Program.read text = .ok program
  levels : ∃ settings, Configured toml arguments (opened arguments files) settings ∧
    Chosen toml arguments (opened arguments files) settings.levelsDir? levels current

/-! ### How a stage fails -/

/-- The stages, in their order. -/
inductive Stage where
  | log
  | config
  | delay
  | program
  | level
  deriving DecidableEq, Repr

def Stage.number : Stage → Nat
  | log => 0
  | config => 1
  | delay => 2
  | program => 3
  | level => 4

/-- The stage fails, and this is reported. -/
inductive Fails (toml : Toml.Reader) (arguments : Arguments) (files : Files) :
    Stage → Failure → Prop
  | createLog {path : String} {error : Files.Error} (hp : arguments.logFile? = some path)
      (he : files.create path = .error error) :
      Fails toml arguments files .log ⟨s!"failed to create log file {path}", [error.message]⟩
  | readConfig {path : String} {error : Files.Error} (hp : arguments.config? = some path)
      (hh : (opened arguments files).holds path = true)
      (he : (opened arguments files).read path = .error error) :
      Fails toml arguments files .config ⟨s!"failed to read config {path}", [error.message]⟩
  | decodeConfig {path text : String} (ht : ConfigText arguments (opened arguments files) path text)
      (hn : ∀ settings, ¬ Settings.Says toml text settings) :
      Fails toml arguments files .config ⟨s!"invalid config {path}", [Toml.errorMessage]⟩
  | checkConfig {path text : String} {settings : Settings}
      (ht : ConfigText arguments (opened arguments files) path text)
      (hs : Settings.Says toml text settings)
      (hz : settings.tickMs = 0) : Fails toml arguments files .config ⟨"tick_ms must be > 0", []⟩
  | checkDelay (hz : arguments.tickMs? = some 0) :
      Fails toml arguments files .delay ⟨"tick_ms must be > 0", []⟩
  | findProgram (hp : arguments.program? = none) (hc : arguments.code? = none) :
      Fails toml arguments files .program ⟨"no program given; use --program or --code", []⟩
  | readProgram {path : String} {error : Files.Error} (hp : arguments.program? = some path)
      (he : (opened arguments files).read path = .error error) :
      Fails toml arguments files .program ⟨s!"failed to read program {path}", [error.message]⟩
  | parseProgram {text : String} {error : Program.SyntaxError}
      (hs : Source arguments (opened arguments files) text)
      (he : Program.read text = .error error) :
      Fails toml arguments files .program ⟨"invalid program", [error.message]⟩
  | loadLevel {path : String} {error : Level.Error} (hp : arguments.levelFile? = some path)
      (he : Level.FailsToLoad toml (opened arguments files) path error) :
      Fails toml arguments files .level ⟨error.message, error.causes⟩
  | loadDirectory {settings : Settings} {dir : String} {error : Level.Error}
      (hp : arguments.levelFile? = none)
      (hs : Configured toml arguments (opened arguments files) settings)
      (hd : settings.levelsDir? = some dir)
      (he : Catalog.loadDirectory toml (opened arguments files) dir = .error error) :
      Fails toml arguments files .level
        ⟨s!"failed to load levels from {dir}", error.message :: error.causes⟩
  | findLevel {settings : Settings} {levels : List Level} (hp : arguments.levelFile? = none)
      (hs : Configured toml arguments (opened arguments files) settings)
      (hc : Catalogued toml (opened arguments files) settings.levelsDir? levels)
      (hn : ∀ level ∈ levels, level.id ≠ arguments.level) :
      Fails toml arguments files .level ⟨s!"no level with id {arguments.level}", []⟩

/-- The stage fails, and no stage before it does. -/
def FirstFails (toml : Toml.Reader) (arguments : Arguments) (files : Files) (stage : Stage)
    (failure : Failure) : Prop :=
  Fails toml arguments files stage failure ∧
    ∀ earlier other, earlier.number < stage.number → ¬ Fails toml arguments files earlier other

section

variable {toml : Toml.Reader} {arguments : Arguments} {files : Files} {failure : Failure}

/-! ### The log file -/

theorem openLog_of_exists
    (h : ∀ path, arguments.logFile? = some path → ∃ after, files.create path = .ok after) :
    openLog arguments files = .ok (opened arguments files) := by
  unfold openLog opened
  cases hp : arguments.logFile? with
  | none => rfl
  | some path =>
    obtain ⟨after, hc⟩ := h path hp
    simp only [hc]
    rfl

theorem Fails.openLog_eq (h : Fails toml arguments files .log failure) :
    openLog arguments files = .error failure := by
  cases h with
  | createLog hp he =>
    rw [openLog, hp]
    simp only [he]
    rfl

theorem log_or_fails (arguments : Arguments) (files : Files) :
    (∀ path, arguments.logFile? = some path → ∃ after, files.create path = .ok after) ∨
      ∃ failure, Fails toml arguments files .log failure := by
  by_cases h : ∃ path error, arguments.logFile? = some path ∧ files.create path = .error error
  · obtain ⟨path, error, hp, he⟩ := h
    exact Or.inr ⟨_, .createLog hp he⟩
  · refine Or.inl fun path hp => ?_
    cases hc : files.create path with
    | error error => exact absurd ⟨path, error, hp, hc⟩ h
    | ok after => exact ⟨after, rfl⟩

/-! ### The settings -/

theorem load_of_unreadable {path : String} {error : Files.Error}
    (hp : arguments.config? = some path) (hh : files.holds path = true)
    (he : files.read path = .error error) :
    Settings.load toml files arguments.config? = .error (.unreadable path error) := by
  have hf : arguments.config?.filter files.holds = some path := by
    rw [hp, Option.filter_some, if_pos hh]
  simp only [Settings.load, hf, he]

theorem load_of_decoded {path text : String} {settings : Settings}
    (ht : ConfigText arguments files path text) (hs : Settings.Says toml text settings) :
    Settings.load toml files arguments.config? = settings.checked := by
  have hf : arguments.config?.filter files.holds = some path := by
    rw [ht.named, Option.filter_some, if_pos ht.there]
  simp only [Settings.load, hf, ht.text, Settings.bind_ofFields?_eq_some_iff.2 hs]

theorem load_of_not_decoded {path text : String} (ht : ConfigText arguments files path text)
    (hn : ∀ settings, ¬ Settings.Says toml text settings) :
    Settings.load toml files arguments.config? = .error (.document path) := by
  have hf : arguments.config?.filter files.holds = some path := by
    rw [ht.named, Option.filter_some, if_pos ht.there]
  have hnone : (toml text).bind Settings.ofFields? = none :=
    Option.eq_none_iff_forall_ne_some.2 fun settings h =>
      hn settings (Settings.bind_ofFields?_eq_some_iff.1 h)
  simp only [Settings.load, hf, ht.text, hnone]

theorem Configured.load_eq {settings : Settings} (h : Configured toml arguments files settings) :
    Settings.load toml files arguments.config? = .ok settings := by
  cases h with
  | defaults hn =>
    have hf : arguments.config?.filter files.holds = none :=
      Option.filter_eq_none_iff.2 fun path hp => Bool.eq_false_iff.1 (hn path hp)
    simp only [Settings.load, hf]
  | file ht hs hz =>
    rw [load_of_decoded ht hs]
    exact if_neg hz

theorem Fails.load_eq (h : Fails toml arguments files .config failure) :
    (Settings.load toml (opened arguments files) arguments.config?).mapError
      Settings.Error.failure = .error failure := by
  cases h with
  | readConfig hp hh he =>
    rw [load_of_unreadable hp hh he]
    rfl
  | decodeConfig ht hn =>
    rw [load_of_not_decoded ht hn]
    rfl
  | checkConfig ht hs hz =>
    rw [load_of_decoded ht hs, Settings.checked, if_pos hz]
    rfl

theorem configured_or_fails (toml : Toml.Reader) (arguments : Arguments) (files : Files) :
    (∃ settings, Configured toml arguments (opened arguments files) settings) ∨
      ∃ failure, Fails toml arguments files .config failure := by
  by_cases h : ∃ path, arguments.config? = some path ∧ (opened arguments files).holds path = true
  · obtain ⟨path, hp, hh⟩ := h
    cases hr : (opened arguments files).read path with
    | error error => exact Or.inr ⟨_, .readConfig hp hh hr⟩
    | ok text =>
      by_cases hs : ∃ settings, Settings.Says toml text settings
      · obtain ⟨settings, hs⟩ := hs
        by_cases hz : settings.tickMs = 0
        · exact Or.inr ⟨_, .checkConfig ⟨hp, hh, hr⟩ hs hz⟩
        · exact Or.inl ⟨settings, .file ⟨hp, hh, hr⟩ hs hz⟩
      · exact Or.inr ⟨_, .decodeConfig ⟨hp, hh, hr⟩ fun settings h => hs ⟨settings, h⟩⟩
  · refine Or.inl ⟨{}, .defaults fun path hp => ?_⟩
    refine Bool.eq_false_iff.2 fun hh => h ⟨path, hp, hh⟩

/-- Settings are the only ones. -/
theorem Configured.unique {settings other : Settings} (h : Configured toml arguments files settings)
    (h' : Configured toml arguments files other) : other = settings :=
  Except.ok.inj (h'.load_eq.symm.trans h.load_eq)

/-- The delay in the arguments takes the place of that in the settings. -/
theorem exists_settings_of_delay {settings : Settings}
    (h : Configured toml arguments files settings) (hz : arguments.tickMs? ≠ some 0) :
    ∃ tickMs, CommandLine.settings toml arguments files =
      .ok { settings with tickMs := tickMs } := by
  unfold CommandLine.settings
  rw [h.load_eq]
  cases ht : arguments.tickMs? with
  | none => exact ⟨settings.tickMs, rfl⟩
  | some tickMs =>
    have hne : tickMs ≠ 0 := by
      rintro rfl
      exact hz ht
    have hc : ({ settings with tickMs := tickMs } : Settings).checked =
        .ok { settings with tickMs := tickMs } := if_neg hne
    exact ⟨tickMs, mapError_eq_ok_iff.2 hc⟩

theorem Fails.settings_eq {settings : Settings} (h : Fails toml arguments files .delay failure)
    (hs : Configured toml arguments (opened arguments files) settings) :
    CommandLine.settings toml arguments (opened arguments files) = .error failure := by
  cases h with
  | checkDelay hz =>
    rw [CommandLine.settings, hs.load_eq, hz]
    rfl

/-! ### The program -/

theorem Source.source_eq {text : String} (h : Source arguments files text) :
    source arguments files = .ok text := by
  cases h with
  | file hp hr =>
    rw [source, hp]
    simp only [hr]
    rfl
  | code hp hc => rw [source, hp, hc]

theorem program_of_source {text : String} (h : Source arguments files text) :
    program arguments files =
      (Program.read text).mapError fun error => ⟨"invalid program", [error.message]⟩ := by
  rw [program, h.source_eq]
  rfl

theorem Fails.program_eq (h : Fails toml arguments files .program failure) :
    program arguments (opened arguments files) = .error failure := by
  cases h with
  | findProgram hp hc =>
    rw [program, source, hp, hc]
    rfl
  | readProgram hp he =>
    rw [program, source, hp]
    simp only [he]
    rfl
  | parseProgram hs he =>
    rw [program_of_source hs, he]
    rfl

theorem program_or_fails (arguments : Arguments) (files : Files) :
    (∃ program text, Source arguments (opened arguments files) text ∧
        Program.read text = .ok program) ∨
      ∃ failure, Fails toml arguments files .program failure := by
  have hread : ∀ text, Source arguments (opened arguments files) text →
      (∃ program text, Source arguments (opened arguments files) text ∧
        Program.read text = .ok program) ∨
      ∃ failure, Fails toml arguments files .program failure := by
    intro text hs
    cases he : Program.read text with
    | error error => exact Or.inr ⟨_, .parseProgram hs he⟩
    | ok program => exact Or.inl ⟨program, text, hs, he⟩
  cases hp : arguments.program? with
  | some path =>
    cases hr : (opened arguments files).read path with
    | error error => exact Or.inr ⟨_, .readProgram hp hr⟩
    | ok text => exact hread text (.file hp hr)
  | none =>
    cases hc : arguments.code? with
    | none => exact Or.inr ⟨_, .findProgram hp hc⟩
    | some text => exact hread text (.code hp hc)

/-! ### The level -/

theorem levels_of_levelFile {path : String} (hp : arguments.levelFile? = some path)
    (dir? : Option String) :
    levels toml arguments files dir? =
      ((Level.load toml files path).mapError levelFailure).map fun level => ([level], 0) := by
  rw [levels, hp]
  rfl

theorem levels_of_catalogued {dir? : Option String} {catalog : List Level}
    (hp : arguments.levelFile? = none) (hc : Catalogued toml files dir? catalog) :
    levels toml arguments files dir? =
      match catalog.findIdx? fun level => level.id == arguments.level with
      | some current => .ok (catalog, current)
      | none => .error ⟨s!"no level with id {arguments.level}", []⟩ := by
  cases hc with
  | builtin hb =>
    rw [levels, hp]
    simp only [hb]
    rfl
  | merged hb he =>
    rw [levels, hp]
    simp only [hb, he]
    rfl

/-- The levels of the game are sound. -/
theorem exists_builtin : ∃ base, Catalog.builtin = .ok base := by
  obtain ⟨base, hb, -⟩ := Catalog.exists_mapM_ofFile Catalog.exists_meets
  exact ⟨base, hb⟩

theorem Chosen.levels_eq {dir? : Option String} {chosen : List Level} {current : Nat}
    (h : Chosen toml arguments files dir? chosen current) :
    levels toml arguments files dir? = .ok (chosen, current) := by
  cases h with
  | file hp hl =>
    rw [levels_of_levelFile hp, hl.load_eq]
    rfl
  | @catalog _ _ level hp hc hi hid hfirst =>
    obtain ⟨hlt, rfl⟩ := List.getElem?_eq_some_iff.1 hi
    have hf : chosen.findIdx? (fun level => level.id == arguments.level) = some current := by
      refine List.findIdx?_eq_some_iff_getElem.2 ⟨hlt, beq_iff_eq.2 hid, fun k hk => ?_⟩
      rw [beq_iff_eq]
      exact hfirst k _ hk (List.getElem?_eq_getElem (Nat.lt_trans hk hlt))
    rw [levels_of_catalogued hp hc, hf]

theorem Chosen.exists_level {dir? : Option String} {chosen : List Level} {current : Nat}
    (h : Chosen toml arguments files dir? chosen current) :
    ∃ level, chosen[current]? = some level := by
  cases h with
  | @file path level hp hl => exact ⟨level, rfl⟩
  | @catalog _ _ level hp hc hi hid hfirst => exact ⟨level, hi⟩

theorem Fails.levels_eq {settings : Settings} (h : Fails toml arguments files .level failure)
    (hs : Configured toml arguments (opened arguments files) settings) :
    levels toml arguments (opened arguments files) settings.levelsDir? = .error failure := by
  cases h with
  | loadLevel hp he =>
    rw [levels_of_levelFile hp, he.load_eq]
    rfl
  | loadDirectory hp hs' hd he =>
    obtain rfl := hs'.unique hs
    obtain ⟨base, hb⟩ := exists_builtin
    rw [levels, hp, hd]
    simp only [hb, he]
    rfl
  | @findLevel _ catalog hp hs' hc hn =>
    obtain rfl := hs'.unique hs
    have hf : catalog.findIdx? (fun level => level.id == arguments.level) = none :=
      List.findIdx?_eq_none_iff.2 fun level hm => beq_eq_false_iff_ne.2 (hn level hm)
    rw [levels_of_catalogued hp hc, hf]

theorem catalogued_or_fails {settings : Settings} (hp : arguments.levelFile? = none)
    (hs : Configured toml arguments (opened arguments files) settings) :
    (∃ catalog, Catalogued toml (opened arguments files) settings.levelsDir? catalog) ∨
      ∃ failure, Fails toml arguments files .level failure := by
  obtain ⟨base, hb⟩ := exists_builtin
  cases hd : settings.levelsDir? with
  | none => exact Or.inl ⟨base, .builtin hb⟩
  | some dir =>
    cases he : Catalog.loadDirectory toml (opened arguments files) dir with
    | error error => exact Or.inr ⟨_, .loadDirectory hp hs hd he⟩
    | ok extra => exact Or.inl ⟨_, .merged hb he⟩

theorem chosen_or_fails {settings : Settings}
    (hs : Configured toml arguments (opened arguments files) settings) :
    (∃ chosen current,
        Chosen toml arguments (opened arguments files) settings.levelsDir? chosen current) ∨
      ∃ failure, Fails toml arguments files .level failure := by
  cases hp : arguments.levelFile? with
  | some path =>
    obtain ⟨level, hl⟩ | ⟨error, he⟩ :=
      Level.loads_or_failsToLoad toml (opened arguments files) path
    · exact Or.inl ⟨[level], 0, .file hp hl⟩
    · exact Or.inr ⟨_, .loadLevel hp he⟩
  | none =>
    obtain ⟨catalog, hc⟩ | h := catalogued_or_fails hp hs
    · cases hf : catalog.findIdx? fun level => level.id == arguments.level with
      | none =>
        refine Or.inr ⟨_, .findLevel hp hs hc fun level hm => ?_⟩
        exact beq_eq_false_iff_ne.1 (List.findIdx?_eq_none_iff.1 hf level hm)
      | some current =>
        obtain ⟨hlt, hid, hfirst⟩ := List.findIdx?_eq_some_iff_getElem.1 hf
        refine Or.inl ⟨catalog, current, .catalog hp hc (List.getElem?_eq_getElem hlt)
          (beq_iff_eq.1 hid) fun k other hk ho he => hfirst k hk ?_⟩
        obtain ⟨hk', rfl⟩ := List.getElem?_eq_some_iff.1 ho
        exact beq_iff_eq.2 he
    · exact Or.inr h

/-! ### All stages -/

/-- Among the stages that fail there is a first one. -/
theorem exists_firstFails {stage : Stage} (h : Fails toml arguments files stage failure) :
    ∃ first other, FirstFails toml arguments files first other := by
  induction hn : stage.number using Nat.strongRecOn generalizing stage failure with
  | ind n ih =>
    by_cases he : ∃ earlier other, earlier.number < stage.number ∧
        Fails toml arguments files earlier other
    · obtain ⟨earlier, other, hlt, hf⟩ := he
      exact ih earlier.number (hn ▸ hlt) hf rfl
    · exact ⟨stage, failure, h, fun earlier other hlt hf => he ⟨earlier, other, hlt, hf⟩⟩

/-- **A command has all that it asks for, or a first stage fails.** -/
theorem ready_or_firstFails (toml : Toml.Reader) (arguments : Arguments) (files : Files) :
    (∃ program chosen current, Ready toml arguments files program chosen current) ∨
      ∃ stage failure, FirstFails toml arguments files stage failure := by
  by_cases h : ∃ stage failure, Fails toml arguments files stage failure
  · obtain ⟨stage, failure, hf⟩ := h
    exact Or.inr (exists_firstFails hf)
  · have hno : ∀ stage, ¬ ∃ failure, Fails toml arguments files stage failure :=
      fun stage ⟨failure, hf⟩ => h ⟨stage, failure, hf⟩
    have hlog := (log_or_fails arguments files).resolve_right (hno .log)
    obtain ⟨settings, hs⟩ := (configured_or_fails toml arguments files).resolve_right (hno .config)
    obtain ⟨program, hp⟩ := (program_or_fails arguments files).resolve_right (hno .program)
    obtain ⟨chosen, current, hc⟩ := (chosen_or_fails hs).resolve_right (hno .level)
    have hdelay : arguments.tickMs? ≠ some 0 := fun hz => hno .delay ⟨_, .checkDelay hz⟩
    exact Or.inl ⟨program, chosen, current, hlog, hdelay, hp, settings, hs, hc⟩

theorem Ready.exists_level {program : Program} {chosen : List Level} {current : Nat}
    (h : Ready toml arguments files program chosen current) :
    ∃ level, chosen[current]? = some level := by
  obtain ⟨settings, -, hc⟩ := h.levels
  exact hc.exists_level

/-- A command that has all it asks for goes through. -/
theorem Ready.stages_eq {program : Program} {chosen : List Level} {current : Nat}
    (h : Ready toml arguments files program chosen current) (hh : arguments.headless = true) :
    stages toml arguments files =
      .ok (.report ((chosen[current]?.map fun level => report level program).getD [])) := by
  obtain ⟨text, hs, hr⟩ := h.program
  obtain ⟨settings, hc, hl⟩ := h.levels
  obtain ⟨tickMs, ht⟩ := exists_settings_of_delay hc h.delay
  have hp := program_of_source hs
  rw [hr] at hp
  simp only [stages, bind_eq_ok_iff]
  exact ⟨_, openLog_of_exists h.log, _, ht, program, hp, _, hl.levels_eq, if_pos hh⟩

/-- **A command whose stages do not all succeed** says what the first of them to fail has to say. -/
theorem FirstFails.stages_eq {stage : Stage} (h : FirstFails toml arguments files stage failure) :
    stages toml arguments files = .error failure := by
  obtain ⟨hf, hno⟩ := h
  have hpass : ∀ earlier, earlier.number < stage.number →
      ¬ ∃ other, Fails toml arguments files earlier other :=
    fun earlier hlt ⟨other, ho⟩ => hno earlier other hlt ho
  have hlog : 0 < stage.number →
      openLog arguments files = .ok (opened arguments files) :=
    fun hlt => openLog_of_exists ((log_or_fails arguments files).resolve_right (hpass .log hlt))
  have hconfig : 1 < stage.number →
      ∃ settings, Configured toml arguments (opened arguments files) settings :=
    fun hlt => (configured_or_fails toml arguments files).resolve_right (hpass .config hlt)
  have hdelay : 2 < stage.number → arguments.tickMs? ≠ some 0 :=
    fun hlt hz => hpass .delay hlt ⟨_, .checkDelay hz⟩
  simp only [stages, bind_eq_error_iff]
  cases stage with
  | log => exact Or.inl hf.openLog_eq
  | config =>
    refine Or.inr ⟨_, hlog (by decide), Or.inl ?_⟩
    exact bind_eq_error_iff.2 (Or.inl hf.load_eq)
  | delay =>
    obtain ⟨settings, hs⟩ := hconfig (by decide)
    exact Or.inr ⟨_, hlog (by decide), Or.inl (hf.settings_eq hs)⟩
  | program =>
    obtain ⟨settings, hs⟩ := hconfig (by decide)
    obtain ⟨tickMs, ht⟩ := exists_settings_of_delay hs (hdelay (by decide))
    exact Or.inr ⟨_, hlog (by decide), Or.inr ⟨_, ht, Or.inl hf.program_eq⟩⟩
  | level =>
    obtain ⟨settings, hs⟩ := hconfig (by decide)
    obtain ⟨tickMs, ht⟩ := exists_settings_of_delay hs (hdelay (by decide))
    obtain ⟨program, text, hsource, hread⟩ :=
      (program_or_fails arguments files).resolve_right (hpass .program (by decide))
    have hp := program_of_source hsource
    rw [hread] at hp
    have hl := hf.levels_eq hs
    exact Or.inr ⟨_, hlog (by decide), Or.inr ⟨_, ht, Or.inr ⟨program, hp, Or.inl hl⟩⟩⟩

end

end CommandLine

end Mazewalk
