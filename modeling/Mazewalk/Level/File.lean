import Mazewalk.Level
import Mazewalk.Toml.Value

/-!
# Level files

A level is kept as a TOML file with a few named fields, its maze as a map.  A file says less
than a level: the start is the start tile of the map, and an item on a start or a wall is lost.
Reading a file checks the map first and then the level.  Whatever reads the TOML documents is left
open.
-/

namespace Mazewalk.Level

structure File where
  id : LevelId
  name : String
  description : String := ""
  par : UInt64
  heading : Heading := .right
  allowed : List Block
  map : String
  deriving DecidableEq, Repr

def Error.message : Error → String
  | map error => error.message
  | document => s!"invalid level file: {Toml.errorMessage}"
  | unreadable path error => s!"failed to read {path}: {error.message}"
  | badStart id p => s!"level {id}: start ({p.x}, {p.y}) is outside the grid or on a wall"
  | zeroPar id => s!"level {id}: par must be at least 1"
  | noBlocks id => s!"level {id}: no instructions are allowed"
  | duplicateId id => s!"duplicate level id {id}"

/-- The texts of what an error goes back to. -/
def Error.causes : Error → List String
  | document => [Toml.errorMessage]
  | unreadable _ error => [error.message]
  | _ => []

/-- Builds the level that a file describes. -/
def ofFile (file : File) : Except Error Level := do
  let (grid, start) ← (Map.read file.map).mapError Error.map
  let level ← make file.id file.name grid ⟨start, file.heading, false⟩ file.allowed file.par
  return level.withDescription file.description

/-- The file that describes a level, as far as a file can. -/
def toFile (level : Level) : File where
  id := level.id
  name := level.name
  description := level.description
  par := level.par
  heading := level.start.heading
  allowed := level.palette
  map := Map.text level.grid

def File.heading? (value : Toml.Value) : Option Heading :=
  value.name?.bind Heading.ofName?

def File.block? (value : Toml.Value) : Option Block :=
  value.name?.bind Block.ofName?

def File.blocks? (value : Toml.Value) : Option (List Block) :=
  value.items?.bind fun items => items.mapM File.block?

/-- Reads the fields of a level file.  A field with a default may be missing, and fields with
other names do not count. -/
def File.ofFields? (fields : Toml.Fields) : Option File := do
  let id ← fields.read? "id" Toml.Value.uint32?
  let name ← fields.read? "name" Toml.Value.text?
  let description ← fields.readOr? "description" "" Toml.Value.text?
  let par ← fields.read? "par" Toml.Value.uint64?
  let heading ← fields.readOr? "facing" .right heading?
  let allowed ← fields.read? "allowed" blocks?
  let map ← fields.read? "map" Toml.Value.text?
  return ⟨id, name, description, par, heading, allowed, map⟩

def ofText (toml : Toml.Reader) (text : String) : Except Error Level :=
  match (toml text).bind File.ofFields? with
  | some file => ofFile file
  | none => .error .document

def load (toml : Toml.Reader) (files : Files) (path : String) : Except Error Level :=
  match files.read path with
  | .ok text => ofText toml text
  | .error error => .error (.unreadable path error)

end Mazewalk.Level
