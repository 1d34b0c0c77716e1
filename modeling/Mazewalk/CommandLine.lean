import Mazewalk.Catalog
import Mazewalk.CommandLine.Arguments
import Mazewalk.CommandLine.Report
import Mazewalk.Settings

/-!
# The command line

A command goes through its stages in a fixed order: the log file is created, the settings are
read and checked, the program is read, the level is looked up.  The first stage that fails
decides what is reported, and nothing is printed before all of them are through.  After that
the program is run, either for a report or on the screen.
-/

namespace Mazewalk.CommandLine

/-- What a command does when all its stages are through. -/
inductive Plan where
  /-- Prints the lines of a report. -/
  | report (lines : List String)
  /-- Plays a game on the screen. -/
  | game (levels : List Level) (current : Nat) (program : Program) (tickMs : UInt64)
  deriving DecidableEq, Repr

inductive Result where
  /-- The arguments are not used as they must be. -/
  | usage
  /-- A stage failed. -/
  | failed (failure : Failure)
  | ready (plan : Plan)
  deriving DecidableEq, Repr

namespace Result

def code : Result → Nat
  | usage => 2
  | failed _ => 1
  | ready _ => 0

/-- What the command prints.  A failure prints nothing, and a game draws its own screen. -/
def printed : Result → String
  | ready (.report lines) => String.join (lines.map fun line => line ++ "\n")
  | _ => ""

def complaint : Result → String
  | failed failure => failure.report
  | _ => ""

end Result

def levelFailure (error : Level.Error) : Failure :=
  ⟨error.message, error.causes⟩

def openLog (arguments : Arguments) (files : Files) : Except Failure Files :=
  match arguments.logFile? with
  | none => .ok files
  | some path =>
      (files.create path).mapError fun error =>
        ⟨s!"failed to create log file {path}", [error.message]⟩

/-- Reads the settings, and puts the delay from the arguments in place of theirs. -/
def settings (toml : Toml.Reader) (arguments : Arguments) (files : Files) :
    Except Failure Settings := do
  let settings ← (Settings.load toml files arguments.config?).mapError Settings.Error.failure
  match arguments.tickMs? with
  | none => return settings
  | some tickMs => ({ settings with tickMs := tickMs }).checked.mapError Settings.Error.failure

/-- The text of the program, from the arguments or from a file. -/
def source (arguments : Arguments) (files : Files) : Except Failure String :=
  match arguments.program?, arguments.code? with
  | some path, _ =>
      (files.read path).mapError fun error =>
        ⟨s!"failed to read program {path}", [error.message]⟩
  | none, some code => .ok code
  | none, none => .error ⟨"no program given; use --program or --code", []⟩

def program (arguments : Arguments) (files : Files) : Except Failure Program := do
  (Program.read (← source arguments files)).mapError fun error =>
    ⟨"invalid program", [error.message]⟩

/-- The levels to play and the place among them of the first one. -/
def levels (toml : Toml.Reader) (arguments : Arguments) (files : Files)
    (levelsDir? : Option String) : Except Failure (List Level × Nat) :=
  match arguments.levelFile? with
  | some path => do
      let level ← (Level.load toml files path).mapError levelFailure
      return ([level], 0)
  | none => do
      let base ← Catalog.builtin.mapError fun error =>
        (levelFailure error).within "built-in levels are broken"
      let catalog ←
        match levelsDir? with
        | none => .ok base
        | some dir =>
            match Catalog.loadDirectory toml files dir with
            | .ok extra => .ok (Catalog.merge base extra)
            | .error error =>
                .error ((levelFailure error).within s!"failed to load levels from {dir}")
      match catalog.findIdx? fun level => level.id == arguments.level with
      | some current => return (catalog, current)
      | none => throw ⟨s!"no level with id {arguments.level}", []⟩

def stages (toml : Toml.Reader) (arguments : Arguments) (files : Files) : Except Failure Plan := do
  let files ← openLog arguments files
  let settings ← settings toml arguments files
  let program ← program arguments files
  let (levels, current) ← levels toml arguments files settings.levelsDir?
  if arguments.headless then
    return .report ((levels[current]?.map fun level => report level program).getD [])
  else return .game levels current program settings.tickMs

/-- Runs a command with its arguments on a snapshot of the files. -/
def run (read : Arguments.Reader) (toml : Toml.Reader) (texts : List String) (files : Files) :
    Result :=
  match read texts with
  | none => .usage
  | some arguments =>
      match stages toml arguments files with
      | .ok plan => .ready plan
      | .error failure => .failed failure

end Mazewalk.CommandLine
