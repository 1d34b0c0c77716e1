import Mazewalk.Program.Text
import Mazewalk.Screen.Canvas
import Mazewalk.Session
import Mazewalk.Text.Padding

/-!
# The screen

The screen of a session has three parts above each other: the maze with the walker beside the
program, the outcome of the run, and a line of help.  What does not fit is cut off.
-/

namespace Mazewalk.Screen

/-! ### The maze -/

/-- The symbol of a tile without the walker. -/
def tileCell (tile : Tile) : Cell :=
  if tile.item then ⟨'*', { foreground := .magenta }⟩
  else
    match tile.terrain with
    | .wall => ⟨'#', { foreground := .darkGray }⟩
    | .goal => ⟨'G', { foreground := .green, bold := true }⟩
    | .start => ⟨'s', { foreground := .blue }⟩
    | .path => ⟨'.', {}⟩

def walkerCell (walker : Walker) : Cell :=
  ⟨walker.heading.arrow, { foreground := .lightRed, bold := true }⟩

def cellAt (walker : Walker) (p : Position) (tile : Tile) : Cell :=
  if walker.position = p then walkerCell walker else tileCell tile

/-- The symbols of the maze, row by row. -/
def mapCells (world : World) : List (List Cell) :=
  world.grid.rows.zipIdx.map fun (row, y) =>
    row.zipIdx.map fun (tile, x) => cellAt world.walker ⟨x, y⟩ tile

/-- The lines of the maze, with a blank after each symbol. -/
def mapLines (world : World) : List Line :=
  (mapCells world).map fun row => row.flatMap fun cell => [cell, blank]

def mapBox (s : Session) (width height : Nat) : Canvas :=
  box width height (joined s!"Level {s.level.id}: {s.level.name}")
    ((mapLines s.world).map (centred (width - 2)))

/-! ### The program -/

/-- The style of an instruction: the active one stands out, then those not allowed. -/
def instructionStyle (s : Session) (place : Nat) (instruction : Instruction) : Style :=
  if s.index? = some place then { foreground := .black, background := .yellow }
  else if s.level.allows instruction.block then {}
  else { foreground := .red }

/-- The line of an instruction, coloured over its whole width. -/
def instructionLine (s : Session) (width place : Nat) (instruction : Instruction) : Line :=
  let style := instructionStyle s place instruction
  let text := s!"{Text.padLeft 2 (toString (place + 1))}. {instruction.text}"
  fill ⟨' ', style⟩ width (styled style text)

def programBox (s : Session) (width height : Nat) : Canvas :=
  box width height s!"Program ({s.program.length} / par {s.level.par})"
    (s.program.zipIdx.map fun (instruction, place) =>
      instructionLine s (width - 2) place instruction)

/-! ### The outcome -/

def starsText (stars : UInt8) : String :=
  String.ofList (List.replicate stars.toNat '*' ++ List.replicate (3 - stars.toNat) '-')

def outcomeLine (progress : Progress) (outcome : Level.Outcome) : Line :=
  let verdict :=
    if outcome.success then styled { foreground := .green, bold := true } "Success! "
    else styled { foreground := .red, bold := true } "Try again. "
  let best := (progress.get outcome.levelId).stars
  verdict ++ styled { foreground := .yellow } (starsText outcome.stars) ++
    plain (s!"  ({outcome.trace.size} steps, best {best} star(s), " ++
      s!"{progress.totalStars} total)")

/-- The lines about the run: its state, and the first warning if there is one. -/
def runLines (s : Session) : List Line :=
  match s.outcome? with
  | none => [styled { foreground := .yellow } "Running..."]
  | some outcome =>
      outcomeLine s.progress outcome ::
        (outcome.warnings.toList.take 1).map fun warning =>
          styled { foreground := .yellow } warning.message

def outcomeBox (s : Session) (width height : Nat) : Canvas :=
  let notice := s.notice.message
  box width height "Outcome"
    ([plain (joined s.level.description)] ++ runLines s ++
      (if notice.isEmpty then [] else [plain notice]))

/-! ### The whole screen -/

def help : String := "'r' restart  'n' next level  'q'/'Esc' quit"

def helpLines (width : Nat) : Canvas :=
  [List.replicate width (⟨'─', {}⟩ : Cell), fit width (centred width (plain help))]

/-- The width of the box with the maze: 65 hundredths of the screen, to the nearest column. -/
def mapWidth (width : Nat) : Nat :=
  (65 * width + 50) / 100

def draw (s : Session) (width height : Nat) : Canvas :=
  let top := height - 7
  beside (mapBox s (mapWidth width) top) (programBox s (width - mapWidth width) top) ++
    outcomeBox s width 5 ++ helpLines width

end Mazewalk.Screen
