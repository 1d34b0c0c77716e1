/-!
# Canvases

A canvas is a list of lines, and a line is a list of cells.  A cell is a character with its
colours.  Lines are fitted to a width by cutting them or filling them with blanks, and boxes
draw a border around lines that have been fitted.
-/

namespace Mazewalk.Screen

/-- The colours in use; `reset` is the terminal's own. -/
inductive Colour where
  | reset
  | black
  | red
  | green
  | yellow
  | blue
  | magenta
  | darkGray
  | lightRed
  deriving DecidableEq, Repr

structure Style where
  foreground : Colour := .reset
  background : Colour := .reset
  bold : Bool := false
  deriving DecidableEq, Repr

/-- One character of the screen. -/
structure Cell where
  char : Char
  style : Style := {}
  deriving DecidableEq, Repr

/-- Cells from left to right. -/
abbrev Line := List Cell

/-- Lines from top to bottom. -/
abbrev Canvas := List Line

def blank : Cell := ⟨' ', {}⟩

def styled (style : Style) (text : String) : Line :=
  text.toList.map fun c => ⟨c, style⟩

/-- A text in the terminal's own colours. -/
def plain (text : String) : Line :=
  styled {} text

/-- Characters without their line breaks; a break is a line feed, or a return and a line feed. -/
def withoutBreaks : List Char → List Char
  | [] => []
  | '\r' :: '\n' :: rest => withoutBreaks rest
  | '\n' :: rest => withoutBreaks rest
  | c :: rest => c :: withoutBreaks rest

/-- A text on one line: its line breaks are left out. -/
def joined (text : String) : String :=
  String.ofList (withoutBreaks text.toList)

/-- A line with exactly `width` cells: cut, or filled up with a cell. -/
def fill (filler : Cell) (width : Nat) (line : Line) : Line :=
  line.take width ++ List.replicate (width - line.length) filler

@[simp] theorem length_fill (filler : Cell) (width : Nat) (line : Line) :
    (fill filler width line).length = width := by
  simp only [fill, List.length_append, List.length_take, List.length_replicate]
  omega

/-- A line with exactly `width` cells: cut, or filled up with blanks. -/
def fit (width : Nat) (line : Line) : Line :=
  fill blank width line

/-- A line moved so that its middle is the middle of a width. -/
def centred (width : Nat) (line : Line) : Line :=
  List.replicate (width / 2 - line.length / 2) blank ++ line

/-- A list with exactly `height` lines: cut, or filled up with empty ones. -/
def fitHeight (height : Nat) (lines : List Line) : List Line :=
  lines.take height ++ List.replicate (height - lines.length) []

@[simp] theorem length_fitHeight (height : Nat) (lines : List Line) :
    (fitHeight height lines).length = height := by
  simp only [fitHeight, List.length_append, List.length_take, List.length_replicate]
  omega

/-- A box with a title in its border and lines inside. -/
def box (width height : Nat) (title : String) (lines : List Line) : Canvas :=
  let inner := width - 2
  let top := fill ⟨'─', {}⟩ inner (plain title)
  let bottom := List.replicate inner (⟨'─', {}⟩ : Cell)
  [plain "┌" ++ top ++ plain "┐"] ++
    (fitHeight (height - 2) lines).map (fun line => plain "│" ++ fit inner line ++ plain "│") ++
    [plain "└" ++ bottom ++ plain "┘"]

def beside (left right : Canvas) : Canvas :=
  List.zipWith (· ++ ·) left right

/-! ### Runs of style -/

/-- Neighbouring cells of one style in a line. -/
structure Span where
  row : Nat
  column : Nat
  cells : Nat
  style : Style
  deriving DecidableEq, Repr

/-- The longest runs of neighbouring cells of one style, from a column on. -/
def spansFrom (row : Nat) : Nat → Line → List Span
  | _, [] => []
  | column, cell :: rest =>
      match spansFrom row (column + 1) rest with
      | span :: spans =>
          if span.style = cell.style ∧ span.column = column + 1 then
            { span with column := column, cells := span.cells + 1 } :: spans
          else ⟨row, column, 1, cell.style⟩ :: span :: spans
      | [] => [⟨row, column, 1, cell.style⟩]

/-- The runs of cells that are not drawn in the terminal's own colours, line by line. -/
def spans (canvas : Canvas) : List Span :=
  (canvas.zipIdx.flatMap fun (line, row) => spansFrom row 0 line).filter (·.style ≠ {})

end Mazewalk.Screen
