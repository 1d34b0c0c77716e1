import Mazewalk.Files
import Mazewalk.Map
import Mazewalk.Roster
import Mazewalk.Run

/-!
# Levels

A level is a maze to solve: a grid that no run ever changes, the walker at its start, the kinds
of instruction that a program should use, and the par, the number of instructions of a good
program.  A level has been checked: the walker starts on a tile that it can stand on, at least
one kind of instruction is allowed, and the par is positive.  The type keeps these facts.

A program passes a level when its run ends on the first goal tile, row after row, with an item
in hand if the maze holds any.  The stars of a passing program compare its length with the par.
-/

namespace Mazewalk

/-- Each of some kinds of instruction once, in the fixed order of the kinds. -/
def Block.sorted (blocks : List Block) : List Block :=
  Block.all.filter fun block => blocks.contains block

theorem Block.mem_sorted {blocks : List Block} {block : Block} :
    block ∈ Block.sorted blocks ↔ block ∈ blocks := by
  simp [Block.sorted, Block.mem_all]

theorem Block.sorted_sorted (blocks : List Block) :
    Block.sorted (Block.sorted blocks) = Block.sorted blocks := by
  unfold Block.sorted
  apply List.filter_congr
  intro block _
  simp [Block.mem_all]

structure Level where
  id : LevelId
  name : String
  description : String
  grid : Grid Tile
  start : Walker
  palette : List Block
  par : UInt64
  passable_start : grid.passable start.position = true
  par_ne_zero : par ≠ 0
  palette_ne_nil : palette ≠ []
  palette_sorted : Block.sorted palette = palette
  deriving DecidableEq, Repr

namespace Level

/-- Why a level could not be had. -/
inductive Error where
  /-- The map of the level is faulty. -/
  | map (error : Map.Error)
  /-- The level file is no document, or a field is missing or has the wrong type. -/
  | document
  /-- The file or directory at the path cannot be read. -/
  | unreadable (path : String) (error : Files.Error)
  | badStart (id : LevelId) (position : Position)
  | zeroPar (id : LevelId)
  | noBlocks (id : LevelId)
  /-- Two files of one directory define a level with this id. -/
  | duplicateId (id : LevelId)
  deriving DecidableEq, Repr

/-- Builds a level from its parts.  The faults are looked for in the order of the tests. -/
def make (id : LevelId) (name : String) (grid : Grid Tile) (start : Walker)
    (allowed : List Block) (par : UInt64) : Except Error Level :=
  if passable : grid.passable start.position = true then
    if positive : par ≠ 0 then
      if chosen : Block.sorted allowed ≠ [] then
        .ok ⟨id, name, "", grid, start, Block.sorted allowed, par, passable, positive, chosen,
          Block.sorted_sorted allowed⟩
      else .error (.noBlocks id)
    else .error (.zeroPar id)
  else .error (.badStart id start.position)

def withDescription (level : Level) (description : String) : Level :=
  { level with description := description }

/-! ### Programs on a level -/

/-- The world in which every run on the level begins. -/
def world (level : Level) : World :=
  ⟨level.start, level.grid⟩

def allows (level : Level) (block : Block) : Bool :=
  level.palette.contains block

/-- The places of the instructions whose kind the level does not allow. -/
def offPalette (level : Level) (program : Program) : List Nat :=
  (program.zipIdx.filter fun (instruction, _) => !level.allows instruction.block).map Prod.snd

/-- A run of a program on the level that has not begun yet. -/
def begin (level : Level) (program : Program) : Run :=
  Run.start program level.world

/-! ### Scores -/

/-- The maze holds an item, so a walker must bring one. -/
def needsItem (level : Level) : Bool :=
  level.grid.cells.any fun tile => tile.item

/-- A walker that comes to rest like this has passed. -/
def isPassedBy (level : Level) (walker : Walker) : Bool :=
  level.grid.goal? == some walker.position && (walker.carrying || !level.needsItem)

/-- The stars of a passing program: three up to the par, two up to two more, one beyond. -/
def passingStars (level : Level) (length : Nat) : Except Panic UInt8 :=
  if length ≤ level.par.toNat then .ok 3
  else (Word.sum level.par.toNat 2).map fun most => if length ≤ most then 2 else 1

/-- Whether a walker at rest after a program of some length has passed, and its stars. -/
def score (level : Level) (walker : Walker) (length : Nat) : Except Panic (Bool × UInt8) :=
  if level.isPassedBy walker then (level.passingStars length).map (Prod.mk true)
  else .ok (false, 0)

/-- The stars as they are computed without checks.  Where a score breaks off, the sum of the par and
two has gone round to zero, and the length is beyond it. -/
def stars (level : Level) (walker : Walker) (length : Nat) : UInt8 :=
  match level.score walker length with
  | .ok (_, stars) => stars
  | .error _ => 1

/-- What came of a program on a level. -/
structure Outcome where
  levelId : LevelId
  success : Bool
  stars : UInt8
  walker : Walker
  trace : Array Step
  warnings : Array Warning
  deriving DecidableEq, Repr

/-- The outcome of a finished run of a program of some length. -/
def outcome (level : Level) (length : Nat) (walk : Walk) : Outcome where
  levelId := level.id
  success := level.isPassedBy walk.world.walker
  stars := level.stars walk.world.walker length
  walker := walk.world.walker
  trace := walk.trace
  warnings := walk.warnings

def play (level : Level) (program : Program) : Outcome :=
  level.outcome program.length (program.run level.world)

end Level

end Mazewalk
