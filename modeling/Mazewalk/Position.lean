import Mazewalk.Heading
import Mazewalk.Word

/-!
# Positions

A position is a column and a row, counted from the top left corner.  Nothing lies above row
zero or left of column zero, so a step may have no destination.  Positions are exchanged as
pairs of machine words; `offset?` is the step that also stays inside that range, while the
plain step `next?` leaves the upper bound to whoever knows the size of the grid.
-/

namespace Mazewalk

/-- A cell address: column `x`, row `y`. -/
structure Position where
  x : Nat
  y : Nat
  deriving DecidableEq, Repr, Inhabited

namespace Position

/-- The position one cell away, if there is one on this side of the origin. -/
def next? (p : Position) : Heading → Option Position
  | .up => if p.y = 0 then none else some ⟨p.x, p.y - 1⟩
  | .right => some ⟨p.x + 1, p.y⟩
  | .down => some ⟨p.x, p.y + 1⟩
  | .left => if p.x = 0 then none else some ⟨p.x - 1, p.y⟩

/-- Both coordinates are machine words. -/
def IsWord (p : Position) : Prop :=
  p.x < wordSize ∧ p.y < wordSize

instance (p : Position) : Decidable p.IsWord :=
  inferInstanceAs (Decidable (_ ∧ _))

/-- The position one cell away, if both coordinates stay machine words. -/
def offset? (p : Position) (heading : Heading) : Option Position :=
  (p.next? heading).filter fun q => decide q.IsWord

end Position

end Mazewalk
