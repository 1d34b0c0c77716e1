import Mazewalk.World
import Mazewalk.Text.Word

/-!
# Maps

A map is the text of a maze: one line for each row, a two-letter code for each tile, blanks
between the codes.  Blank lines do not count.  There are six codes, read without regard to the
case of their letters, and exactly one tile of a map is the start.  A map is read from the top:
a row is measured before its codes are looked at, and the first defect on the way is the one
reported.
-/

namespace Mazewalk

namespace Tile

/-- The code of a tile.  Start and wall have one code each, so an item on them is not shown. -/
def code (tile : Tile) : String :=
  match tile.terrain, tile.item with
  | .start, _ => "ST"
  | .wall, _ => "WL"
  | .path, false => "PA"
  | .path, true => "IT"
  | .goal, false => "GO"
  | .goal, true => "GI"

/-- The tiles that have a code of their own. -/
def coded : List Tile :=
  [⟨.start, false⟩, ⟨.path, false⟩, ⟨.wall, false⟩, ⟨.goal, false⟩, ⟨.path, true⟩, ⟨.goal, true⟩]

/-- The tile that one word of a map denotes. -/
def ofCode? (word : List Char) : Option Tile :=
  coded.find? fun tile => tile.code == Text.upper word

end Tile

namespace Map

/-- Why a text is not a map. -/
inductive Error where
  /-- There is no line with a code. -/
  | empty
  /-- The row with this number has another length than the first one. -/
  | raggedRow (row expected found : Nat)
  /-- The word in this column and row is none of the six codes. -/
  | unknownCode (code : String) (x y : Nat)
  | multipleStarts
  | noStart
  deriving DecidableEq, Repr

def Error.message : Error → String
  | empty => "Map string is empty."
  | raggedRow row expected found =>
      s!"Inconsistent width at row {row}: expected {expected}, found {found}"
  | unknownCode code x y => s!"Unknown map code '{code}' at position ({x}, {y})."
  | multipleStarts => "Multiple start positions ('ST') found."
  | noStart => "No start position ('ST') found in map."

/-! ### Reading -/

/-- The rows of a map as words, blank lines left out. -/
def wordRows (text : String) : List (List (List Char)) :=
  ((text.toList.splitOn '\n').map Text.words).filter fun row => !row.isEmpty

/-- Reads the codes of row `y` from column `x` on.  `start` is the start tile met so far. -/
def readCodes (y : Nat) : Nat → Option Position → List (List Char) →
    Except Error (List Tile × Option Position)
  | _, start, [] => .ok ([], start)
  | x, start, word :: rest =>
      match Tile.ofCode? word with
      | none => .error (.unknownCode (String.ofList word) x y)
      | some tile =>
          if tile.terrain = .start then
            if start.isSome then .error .multipleStarts
            else do
              let (tiles, start) ← readCodes y (x + 1) (some ⟨x, y⟩) rest
              return (tile :: tiles, start)
          else do
            let (tiles, start) ← readCodes y (x + 1) start rest
            return (tile :: tiles, start)

/-- Reads the rows from row `y` on, each of which must have `width` codes. -/
def readRows (width : Nat) : Nat → Option Position → List (List (List Char)) →
    Except Error (List (List Tile) × Option Position)
  | _, start, [] => .ok ([], start)
  | y, start, row :: rest =>
      if row.length ≠ width then .error (.raggedRow y width row.length)
      else do
        let (tiles, start) ← readCodes y 0 start row
        let (rows, start) ← readRows width (y + 1) start rest
        return (tiles :: rows, start)

/-- Reads a map: the grid it denotes and the position of its start tile. -/
def read (text : String) : Except Error (Grid Tile × Position) :=
  match wordRows text with
  | [] => .error .empty
  | first :: rest => do
      let (rows, start) ← readRows first.length 0 none (first :: rest)
      match start with
      | none => .error .noStart
      | some start =>
          match Grid.ofRows rows with
          | .ok grid => .ok (grid, start)
          | .error _ => .error .empty

/-! ### Writing -/

/-- Writes one row: its codes with a blank between neighbours. -/
def rowText (row : List Tile) : String :=
  " ".intercalate (row.map Tile.code)

/-- Writes a grid as a map, one line for each row and no line break at the end. -/
def text (grid : Grid Tile) : String :=
  "\n".intercalate (grid.rows.map rowText)

end Map

end Mazewalk
