import Mazewalk.Grid

/-!
# Worlds

A world is a grid of tiles and the walker on it.  A tile has a terrain and may hold an item,
whatever its terrain.  Only four actions change a world: a step forward, two quarter turns and
a pickup.  A step into a wall or over the edge, and a pickup where nothing lies, change nothing
at all.
-/

namespace Mazewalk

/-- What a tile is made of. -/
inductive Terrain where
  | path
  | wall
  | goal
  | start
  deriving DecidableEq, Repr, Inhabited

structure Tile where
  terrain : Terrain
  item : Bool := false
  deriving DecidableEq, Repr, Inhabited

/-- Where the walker is, which way it faces, and whether it carries an item. -/
structure Walker where
  position : Position
  heading : Heading
  carrying : Bool := false
  deriving DecidableEq, Repr, Inhabited

structure World where
  walker : Walker
  grid : Grid Tile
  deriving DecidableEq, Repr

namespace Terrain

def all : List Terrain := [path, wall, goal, start]

/-- The name under which stored grids know the terrain. -/
def name : Terrain → String
  | path => "path"
  | wall => "wall"
  | goal => "goal"
  | start => "start"

def ofName? (text : String) : Option Terrain :=
  all.find? fun terrain => terrain.name == text

@[simp] theorem ofName?_name (t : Terrain) : ofName? t.name = some t := by
  cases t <;> rfl

end Terrain

/-! ### Looking at the maze -/

namespace Grid

/-- The position is inside the maze and not a wall. -/
def passable (g : Grid Tile) (p : Position) : Bool :=
  match g.get? p with
  | some tile => tile.terrain != .wall
  | none => false

/-- The position is inside the maze and holds an item. -/
def hasItem (g : Grid Tile) (p : Position) : Bool :=
  match g.get? p with
  | some tile => tile.item
  | none => false

/-- The positions that hold an item, row after row. -/
def items (g : Grid Tile) : List Position :=
  (g.entries.filter fun (_, tile) => tile.item).map Prod.fst

/-- The first goal tile, row after row. -/
def goal? (g : Grid Tile) : Option Position :=
  g.find? fun tile => tile.terrain == .goal

end Grid

/-! ### Actions -/

/-- What a walker can do. -/
inductive Action where
  | forward
  | turnLeft
  | turnRight
  | pickup
  deriving DecidableEq, Repr, Inhabited

namespace Action

def all : List Action := [forward, turnLeft, turnRight, pickup]

/-- The name under which stored runs know the action. -/
def name : Action → String
  | forward => "forward"
  | turnLeft => "turn_left"
  | turnRight => "turn_right"
  | pickup => "pickup"

def ofName? (text : String) : Option Action :=
  all.find? fun action => action.name == text

/-- The word for the action in a program. -/
def word : Action → String
  | forward => "forward"
  | turnLeft => "left"
  | turnRight => "right"
  | pickup => "pickup"

@[simp] theorem ofName?_name (a : Action) : ofName? a.name = some a := by
  cases a <;> rfl

end Action

namespace World

/-- The cell the walker faces, if it lies inside the maze and is not a wall. -/
def wayAhead? (w : World) : Option Position :=
  (w.grid.neighbor? w.walker.position w.walker.heading).filter w.grid.passable

def act (w : World) : Action → World
  | .forward =>
      match w.wayAhead? with
      | some target => { w with walker := { w.walker with position := target } }
      | none => w
  | .turnLeft => { w with walker := { w.walker with heading := w.walker.heading.turnLeft } }
  | .turnRight => { w with walker := { w.walker with heading := w.walker.heading.turnRight } }
  | .pickup =>
      match w.grid.get? w.walker.position with
      | some tile =>
          if tile.item then
            { walker := { w.walker with carrying := true }
              grid := w.grid.put w.walker.position { tile with item := false } }
          else w
      | none => w

end World

end Mazewalk
