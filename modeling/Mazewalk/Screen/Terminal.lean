import Mazewalk.Screen.Canvas

/-!
# Terminals

A canvas as text for a terminal: control sequences for the colours, a line break after each
line, and the cursor at the top before the first one.
-/

namespace Mazewalk.Screen

/-- The number that selects a colour for the foreground. -/
def Colour.number : Colour → Nat
  | reset => 39
  | black => 30
  | red => 31
  | green => 32
  | yellow => 33
  | blue => 34
  | magenta => 35
  | darkGray => 90
  | lightRed => 91

/-- The sequence that selects a style.  A background has the number of the foreground and ten. -/
def Style.sequence (style : Style) : String :=
  let weight := if style.bold then "1" else "22"
  s!"\x1b[{weight};{style.foreground.number};{style.background.number + 10}m"

/-- A line, with a sequence wherever the style changes. -/
def lineText (line : Line) : String :=
  let add := fun (text, style) (cell : Cell) =>
    if cell.style = style then (text.push cell.char, style)
    else ((text ++ cell.style.sequence).push cell.char, cell.style)
  (line.foldl add ("", ({} : Style))).1 ++ ({} : Style).sequence

/-- A canvas on a cleared terminal. -/
def canvasText (canvas : Canvas) : String :=
  "\x1b[2J\x1b[H" ++ "\n".intercalate (canvas.map lineText) ++ "\n"

end Mazewalk.Screen
