import Mazewalk.Json.Value
import Mazewalk.Level.File
import Mazewalk.Progress
import Mazewalk.Text.Numeral

/-!
# Stored forms

How mazes, programs, runs, levels and progress are written as JSON values and read back.
Numbers must be integers in their range, fields with other names do not count, and a field may
be missing only if it has a default.  What is written reads back as it was.
-/

namespace Mazewalk

open Json

/-- A machine word. -/
def Json.Value.word? (value : Value) : Option Nat :=
  value.natBelow? wordSize

/-- A field that may be missing. -/
def Json.fieldOr {α : Type} (fields : List (String × Value)) (name : String) (default : α)
    (decode? : Value → Option α) : Option α :=
  match fields.lookup name with
  | some value => decode? value
  | none => some default

/-! ### Names -/

namespace Heading

def toJson (heading : Heading) : Value := .text heading.name

def ofJson? (value : Value) : Option Heading := value.name?.bind ofName?

end Heading

namespace Terrain

def toJson (terrain : Terrain) : Value := .text terrain.name

def ofJson? (value : Value) : Option Terrain := value.name?.bind ofName?

end Terrain

namespace Action

def toJson (action : Action) : Value := .text action.name

def ofJson? (value : Value) : Option Action := value.name?.bind ofName?

end Action

namespace Condition

def toJson (condition : Condition) : Value := .text condition.name

def ofJson? (value : Value) : Option Condition := value.name?.bind ofName?

/-- Reads a condition in a field of a tagged record. -/
def ofInnerJson? (value : Value) : Option Condition := value.innerName?.bind ofName?

end Condition

namespace Block

def toJson (block : Block) : Value := .text block.name

def ofJson? (value : Value) : Option Block := value.name?.bind ofName?

end Block

/-! ### Worlds -/

namespace Position

def toJson (p : Position) : Value :=
  .object [("x", .nat p.x), ("y", .nat p.y)]

def ofJson? (value : Value) : Option Position := do
  let fields ← value.record? ["x", "y"]
  return ⟨← (← fields.lookup "x").word?, ← (← fields.lookup "y").word?⟩

end Position

namespace Tile

def toJson (tile : Tile) : Value :=
  .object [("kind", tile.terrain.toJson), ("item", .boolean tile.item)]

def ofJson? (value : Value) : Option Tile := do
  let fields ← value.record? ["kind", "item"]
  return ⟨← (← fields.lookup "kind") |> Terrain.ofJson?,
    ← fieldOr fields "item" false Value.boolean?⟩

end Tile

namespace Walker

def toJson (walker : Walker) : Value :=
  .object [("position", walker.position.toJson), ("facing", walker.heading.toJson),
    ("holds_item", .boolean walker.carrying)]

def ofJson? (value : Value) : Option Walker := do
  let fields ← value.record? ["position", "facing", "holds_item"]
  return ⟨← (← fields.lookup "position") |> Position.ofJson?,
    ← (← fields.lookup "facing") |> Heading.ofJson?,
    ← fieldOr fields "holds_item" false Value.boolean?⟩

end Walker

namespace Grid

variable {α : Type}

def toJson (encode : α → Value) (grid : Grid α) : Value :=
  .object [("width", .nat grid.width), ("height", .nat grid.height),
    ("cells", .list encode grid.cells.toList)]

/-- Reads a grid.  The number of cells is taken as it comes. -/
def ofJson? (decode? : Value → Option α) (value : Value) : Option (Grid α) := do
  let fields ← value.record? ["width", "height", "cells"]
  return ⟨← (← fields.lookup "width").word?, ← (← fields.lookup "height").word?,
    (← (← fields.lookup "cells").list? decode?).toArray⟩

end Grid

/-! ### Programs -/

namespace Count

def toJson (count : Count) : Value := .nat count.val

def ofJson? (value : Value) : Option Count :=
  (value.natBelow? UInt32.size).bind ofNat?

end Count

namespace Instruction

def toJson : Instruction → Value
  | act action => .object [("kind", action.toJson)]
  | wrap (.times count) => .object [("kind", .text "repeat"), ("count", count.toJson)]
  | wrap (.whilst condition ceiling) =>
      .object [("kind", .text "while"), ("condition", condition.toJson),
        ("max_iterations", ceiling.toJson)]

def ofJson? (value : Value) : Option Instruction := do
  let (kind, record) ← value.tagged?
  match ← Block.ofName? kind with
  | .forward => if record.isBare then some (act .forward) else none
  | .turnLeft => if record.isBare then some (act .turnLeft) else none
  | .turnRight => if record.isBare then some (act .turnRight) else none
  | .pickup => if record.isBare then some (act .pickup) else none
  | .times => do
      let fields ← record.record? ["count"]
      return wrap (.times (← (← fields.lookup "count") |> Count.ofJson?))
  | .whilst => do
      let fields ← record.record? ["condition", "max_iterations"]
      return wrap (.whilst (← (← fields.lookup "condition") |> Condition.ofInnerJson?)
        (← (← fields.lookup "max_iterations") |> Count.ofJson?))

end Instruction

namespace Program

def toJson (program : Program) : Value := .list Instruction.toJson program

def ofJson? (value : Value) : Option Program := value.list? Instruction.ofJson?

end Program

/-! ### Runs -/

namespace Step

def toJson (step : Step) : Value :=
  .object [("index", .nat step.index), ("action", step.action.toJson),
    ("agent", step.walker.toJson)]

def ofJson? (value : Value) : Option Step := do
  let fields ← value.record? ["index", "action", "agent"]
  return ⟨← (← fields.lookup "index").word?, ← (← fields.lookup "action") |> Action.ofJson?,
    ← (← fields.lookup "agent") |> Walker.ofJson?⟩

end Step

namespace Warning

def toJson : Warning → Value
  | ceiling index limit =>
      .object [("kind", .text "iteration_limit"), ("index", .nat index),
        ("max_iterations", .nat limit)]
  | dangling index => .object [("kind", .text "dangling_wrapper"), ("index", .nat index)]
  | nested index => .object [("kind", .text "nested_wrapper"), ("index", .nat index)]

def ofJson? (value : Value) : Option Warning := do
  let (kind, record) ← value.tagged?
  if kind = "iteration_limit" then
    let fields ← record.record? ["index", "max_iterations"]
    return ceiling (← (← fields.lookup "index").word?)
      (← (← fields.lookup "max_iterations").natBelow? UInt32.size)
  else
    let fields ← record.record? ["index"]
    let index ← (← fields.lookup "index").word?
    if kind = "dangling_wrapper" then some (dangling index)
    else if kind = "nested_wrapper" then some (nested index)
    else none

end Warning

namespace Walk

def toJson (walk : Walk) : Value :=
  .object [("agent", walk.world.walker.toJson), ("grid", walk.world.grid.toJson Tile.toJson),
    ("trace", .list Step.toJson walk.trace.toList),
    ("warnings", .list Warning.toJson walk.warnings.toList)]

def ofJson? (value : Value) : Option Walk := do
  let fields ← value.record? ["agent", "grid", "trace", "warnings"]
  return ⟨⟨← (← fields.lookup "agent") |> Walker.ofJson?,
      ← (← fields.lookup "grid") |> Grid.ofJson? Tile.ofJson?⟩,
    (← (← fields.lookup "trace").list? Step.ofJson?).toArray,
    (← (← fields.lookup "warnings").list? Warning.ofJson?).toArray⟩

end Walk

/-! ### Levels -/

namespace Level

def toJson (level : Level) : Value :=
  .object [("id", .nat level.id.toNat), ("name", .text level.name),
    ("description", .text level.description), ("grid", level.grid.toJson Tile.toJson),
    ("start", level.start.toJson), ("allowed", .list Block.toJson level.palette),
    ("par", .nat level.par.toNat)]

def idOfJson? (value : Value) : Option LevelId :=
  (value.natBelow? UInt32.size).map UInt32.ofNat

def parOfJson? (value : Value) : Option UInt64 :=
  value.word?.map UInt64.ofNat

def starsOfJson? (value : Value) : Option UInt8 :=
  (value.natBelow? UInt8.size).map UInt8.ofNat

namespace File

def toJson (file : File) : Value :=
  .object [("id", .nat file.id.toNat), ("name", .text file.name),
    ("description", .text file.description), ("par", .nat file.par.toNat),
    ("facing", file.heading.toJson), ("allowed", .list Block.toJson file.allowed),
    ("map", .text file.map)]

def ofJson? (value : Value) : Option File := do
  let fields ← value.record? ["id", "name", "description", "par", "facing", "allowed", "map"]
  return {
    id := ← (← fields.lookup "id") |> idOfJson?
    name := ← (← fields.lookup "name").text?
    description := ← fieldOr fields "description" "" Value.text?
    par := ← (← fields.lookup "par") |> parOfJson?
    heading := ← fieldOr fields "facing" .right Heading.ofJson?
    allowed := ← (← fields.lookup "allowed").list? Block.ofJson?
    map := ← (← fields.lookup "map").text? }

end File

namespace Outcome

def toJson (outcome : Outcome) : Value :=
  .object [("level_id", .nat outcome.levelId.toNat), ("success", .boolean outcome.success),
    ("stars", .nat outcome.stars.toNat), ("final_agent", outcome.walker.toJson),
    ("trace", .list Step.toJson outcome.trace.toList),
    ("warnings", .list Warning.toJson outcome.warnings.toList)]

def ofJson? (value : Value) : Option Outcome := do
  let fields ←
    value.record? ["level_id", "success", "stars", "final_agent", "trace", "warnings"]
  return {
    levelId := ← (← fields.lookup "level_id") |> idOfJson?
    success := ← (← fields.lookup "success").boolean?
    stars := ← (← fields.lookup "stars") |> starsOfJson?
    walker := ← (← fields.lookup "final_agent") |> Walker.ofJson?
    trace := (← (← fields.lookup "trace").list? Step.ofJson?).toArray
    warnings := (← (← fields.lookup "warnings").list? Warning.ofJson?).toArray }

end Outcome

end Level

/-! ### Progress -/

namespace Standing

def toJson (standing : Standing) : Value :=
  .object [("unlocked", .boolean standing.unlocked), ("stars", .nat standing.stars.toNat)]

def ofJson? (value : Value) : Option Standing := do
  let fields ← value.record? ["unlocked", "stars"]
  return ⟨← (← fields.lookup "unlocked").boolean?,
    ← (← fields.lookup "stars") |> Level.starsOfJson?⟩

end Standing

namespace Progress

/-- Reads a level id that is the key of an object: decimal digits without a leading zero. -/
def idOfKey? (key : String) : Option LevelId :=
  let digits := key.toList
  if digits.isEmpty || !digits.all Char.isDigit then none
  else if digits.head? = some '0' ∧ digits ≠ ['0'] then none
  else if Text.digitsValue digits < UInt32.size then some (UInt32.ofNat (Text.digitsValue digits))
  else none

def toJson (progress : Progress) : Value :=
  .object [("levels", .object (progress.standings.entries.map fun (id, standing) =>
    (toString id.toNat, standing.toJson)))]

def ofJson? (value : Value) : Option Progress := do
  let fields ← value.record? ["levels"]
  match ← fields.lookup "levels" with
  | .object levels => do
      let entries ← levels.mapM fun (key, standing) => do
        return (← idOfKey? key, ← Standing.ofJson? standing)
      return ⟨Roster.empty.insertAll entries⟩
  | _ => none

end Progress

end Mazewalk
