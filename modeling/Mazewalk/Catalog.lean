import Mazewalk.Level.File

/-!
# Catalogs

A catalog is the list of levels that a player goes through, in order of their ids.  The game
brings six levels; a directory of level files can add to them or replace some of them, and of
several levels with one id the last one counts.
-/

namespace Mazewalk.Catalog

/-! ### The levels of the game -/

/-- The files of the levels that the game brings, in playing order. -/
def builtinFiles : List Level.File :=
  [ { id := 1
      name := "First Steps"
      description := "Use the forward block to reach the goal."
      par := 3
      allowed := [.forward]
      map := "ST PA PA GO" },
    { id := 2
      name := "The Turn"
      description := "Use a turn block to change direction."
      par := 5
      allowed := [.forward, .turnRight]
      map := "ST PA PA WL\nWL WL PA WL\nWL WL GO WL\n" },
    { id := 3
      name := "Collect"
      description := "Pick up the gem before heading to the goal."
      par := 4
      allowed := [.forward, .pickup]
      map := "ST IT PA GO" },
    { id := 4
      name := "Simple Maze"
      description := "Find your way through the maze to the goal."
      par := 8
      allowed := [.forward, .turnLeft, .turnRight]
      map := "ST PA WL PA\nWL PA PA PA\nPA PA WL GO\n" },
    { id := 5
      name := "Long Hall"
      description := "Repeat a block instead of stacking the same one over and over."
      par := 2
      allowed := [.forward, .times]
      map := "ST PA PA PA PA PA GO" },
    { id := 6
      name := "Until the Wall"
      description :=
        "Keep walking while the way ahead is clear, then keep going until you arrive."
      par := 5
      allowed := [.forward, .turnRight, .whilst]
      map := "ST PA PA PA PA\nWL WL WL WL PA\nWL WL WL WL GO\n" } ]

def builtin : Except Level.Error (List Level) :=
  builtinFiles.mapM Level.ofFile

/-! ### Merging -/

/-- The entries of a list of levels under their ids. -/
def keyed (levels : List Level) : List (LevelId × Level) :=
  levels.map fun level => (level.id, level)

/-- Merges more levels into a catalog.  A level replaces one with the same id. -/
def merge (base extra : List Level) : List Level :=
  ((Roster.empty.insertAll (keyed base)).insertAll (keyed extra)).values

/-! ### Directories of level files -/

/-- Collects levels as they are read, up to the first error or repeated id. -/
def gather : List (Except Level.Error Level) → Roster Level → Except Level.Error (Roster Level)
  | [], roster => .ok roster
  | .error error :: _, _ => .error error
  | .ok level :: rest, roster =>
      if (roster.get? level.id).isSome then .error (.duplicateId level.id)
      else gather rest (roster.insert level.id level)

def isLevelFile (name : String) : Bool :=
  Files.extension? name == some "toml"

/-- Reads the level files among some names in a directory, one after another. -/
def loadNames (toml : Toml.Reader) (files : Files) (dir : String) (names : List String) :
    Except Level.Error (List Level) := do
  let loaded := (names.filter isLevelFile).map fun name =>
    Level.load toml files (Files.join dir name)
  return (← gather loaded .empty).values

def loadDirectory (toml : Toml.Reader) (files : Files) (dir : String) :
    Except Level.Error (List Level) :=
  match files.list dir with
  | .error error => .error (.unreadable dir error)
  | .ok names => loadNames toml files dir names

end Mazewalk.Catalog
