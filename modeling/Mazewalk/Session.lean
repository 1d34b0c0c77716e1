import Mazewalk.Progress

/-!
# Sessions

A session is a player at the screen, with one program and a list of levels.  It keeps the run in
progress, what was last drawn of it, and the outcome once the run has been scored.  Each tick
performs one action; the tick after the last action scores the run and records it.  Restarting
begins the current level again, and going on to the next level needs it to be unlocked.
-/

namespace Mazewalk

/-- What the last line of the screen tells the player. -/
inductive Notice where
  | none
  /-- The places of the instructions that the level does not allow. -/
  | offPalette (places : List Nat)
  /-- The run unlocked a level. -/
  | unlocked (id : LevelId)
  /-- The next level is still locked. -/
  | locked
  | lastLevel
  deriving DecidableEq, Repr

def Notice.message : Notice → String
  | none => ""
  | offPalette places =>
      let numbers := ", ".intercalate (places.map fun place => toString (place + 1))
      s!"Instructions {numbers} are not in this level's palette"
  | unlocked id => s!"Level {id} unlocked! Press 'n' to play it."
  | locked => "Solve this level to unlock the next one."
  | lastLevel => "That was the last level."

/-- A player at the screen. -/
structure Session where
  levels : List Level
  /-- The place of the current level in the list. -/
  current : Nat
  current_lt : current < levels.length
  program : Program
  progress : Progress
  /-- The run in progress, until it has been scored. -/
  run? : Option Run
  /-- The world as last drawn. -/
  world : World
  /-- The outcome of the run, once it has been scored. -/
  outcome? : Option Level.Outcome
  notice : Notice
  hasQuit : Bool
  deriving DecidableEq, Repr

namespace Session

def level (s : Session) : Level :=
  s.levels.get ⟨s.current, s.current_lt⟩

/-- The notice at the beginning of a run. -/
def opening (level : Level) (program : Program) : Notice :=
  match level.offPalette program with
  | [] => .none
  | places => .offPalette places

/-- Begins the current level, whatever was going on. -/
def restart (s : Session) : Session :=
  { s with
    run? := some (s.level.begin s.program)
    world := s.level.world
    outcome? := none
    notice := opening s.level s.program }

/-- A session that begins on one of the levels, which is thereby unlocked. -/
def start (levels : List Level) (current : Nat) (program : Program)
    (current_lt : current < levels.length) : Session :=
  let level := levels[current]
  restart
    { levels := levels
      current := current
      current_lt := current_lt
      program := program
      progress := (Progress.start levels).unlock level.id
      run? := none
      world := level.world
      outcome? := none
      notice := .none
      hasQuit := false }

/-- Scores a run whose program is exhausted, and records it.  What is drawn stays as it is. -/
def scored (s : Session) (run : Run) : Session :=
  let outcome := s.level.outcome s.program.length run.finish
  let (unlocked?, progress) := s.progress.record s.levels outcome
  { s with
    progress := progress
    run? := none
    outcome? := some outcome
    notice :=
      match unlocked? with
      | some id => .unlocked id
      | none => s.notice }

/-- Performs one action and draws the world after it, or scores the run when there is no action
left.  Without a run in progress nothing happens. -/
def tick (s : Session) : Session :=
  match s.run? with
  | none => s
  | some run =>
      match run.step with
      | (some _, next) => { s with run? := some next, world := next.world }
      | (none, last) => s.scored last

/-- Goes on to the next level if it is unlocked. -/
def next (s : Session) : Session :=
  if h : s.current + 1 < s.levels.length then
    if s.progress.isUnlocked s.levels[s.current + 1].id then
      ({ s with current := s.current + 1, current_lt := h } : Session).restart
    else { s with notice := .locked }
  else { s with notice := .lastLevel }

def quit (s : Session) : Session :=
  { s with hasQuit := true }

def index? (s : Session) : Option Nat :=
  s.run?.bind fun run => run.cursor.index?

end Session

end Mazewalk
