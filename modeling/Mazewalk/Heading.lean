/-!
# Headings

A walker always faces one of four ways.  Columns grow to the right and rows grow downward, so
`up` is the way of falling row numbers.  The two quarter turns are each other's inverses and
four of a kind make a full circle.
-/

namespace Mazewalk

/-- The way a walker is facing. -/
inductive Heading where
  | up
  | right
  | down
  | left
  deriving DecidableEq, Repr, Inhabited

namespace Heading

/-- Every heading, clockwise from `up`. -/
def all : List Heading := [up, right, down, left]

def turnRight : Heading → Heading
  | up => right
  | right => down
  | down => left
  | left => up

def turnLeft : Heading → Heading
  | up => left
  | left => down
  | down => right
  | right => up

/-- The unit step in this direction, as a change of column and a change of row. -/
def delta : Heading → Int × Int
  | up => (0, -1)
  | right => (1, 0)
  | down => (0, 1)
  | left => (-1, 0)

/-- The name under which level files and stored runs know the heading. -/
def name : Heading → String
  | up => "up"
  | right => "right"
  | down => "down"
  | left => "left"

/-- The name as a report writes it, with a capital letter. -/
def title : Heading → String
  | up => "Up"
  | right => "Right"
  | down => "Down"
  | left => "Left"

/-- The arrow that stands for a walker facing this way on the screen. -/
def arrow : Heading → Char
  | up => '^'
  | right => '>'
  | down => 'v'
  | left => '<'

def ofName? (text : String) : Option Heading :=
  all.find? fun heading => heading.name == text

@[simp] theorem turnLeft_turnRight (h : Heading) : h.turnRight.turnLeft = h := by
  cases h <;> rfl

@[simp] theorem turnRight_turnLeft (h : Heading) : h.turnLeft.turnRight = h := by
  cases h <;> rfl

@[simp] theorem ofName?_name (h : Heading) : ofName? h.name = some h := by
  cases h <;> rfl

end Heading

end Mazewalk
