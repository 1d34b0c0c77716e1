import Mazewalk.Roster

/-!
# Arguments

What the arguments of a command ask for.  How they are spelled is left to whatever reads them.
-/

namespace Mazewalk.CommandLine

/-- The arguments as the program uses them. -/
structure Arguments where
  level : LevelId := 1
  levelFile? : Option String := none
  program? : Option String := none
  code? : Option String := none
  headless : Bool := false
  config? : Option String := none
  tickMs? : Option UInt64 := none
  logFile? : Option String := none
  deriving DecidableEq, Repr

/-- What reads arguments.  There is no answer if they are not used as they must be. -/
abbrev Arguments.Reader := List String → Option Arguments

end Mazewalk.CommandLine
