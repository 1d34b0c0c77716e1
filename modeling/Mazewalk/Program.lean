import Mazewalk.Condition

/-!
# Programs

A program is a flat list of instructions.  An instruction is an action or a wrapper, and a
wrapper governs the one instruction right after it, so wrappers never nest.  Counts are
positive and fit in 32 bits; the type `Count` holds no other number.
-/

namespace Mazewalk

/-- A positive number below `2 ^ 32`: how often a loop may go round. -/
structure Count where
  val : Nat
  pos : 0 < val
  lt : val < UInt32.size
  deriving DecidableEq, Repr

/-- The count with a given value, if there is one. -/
def Count.ofNat? (n : Nat) : Option Count :=
  if h : 0 < n ∧ n < UInt32.size then some ⟨n, h.1, h.2⟩ else none

@[simp] theorem Count.ofNat?_val (count : Count) : Count.ofNat? count.val = some count :=
  dif_pos ⟨count.pos, count.lt⟩

/-- A loop around the next instruction. -/
inductive Wrapper where
  /-- Runs the next instruction a fixed number of times. -/
  | times (count : Count)
  /-- Runs the next instruction as long as a condition holds, up to a ceiling. -/
  | whilst (condition : Condition) (ceiling : Count)
  deriving DecidableEq, Repr

/-- One entry of a program. -/
inductive Instruction where
  | act (action : Action)
  | wrap (wrapper : Wrapper)
  deriving DecidableEq, Repr

/-- The instructions in the order in which the player wrote them. -/
abbrev Program := List Instruction

/-- The kinds of instruction, which a level allows or not, in their fixed order. -/
inductive Block where
  | forward
  | turnLeft
  | turnRight
  | pickup
  | times
  | whilst
  deriving DecidableEq, Repr, Inhabited

namespace Block

def all : List Block := [forward, turnLeft, turnRight, pickup, times, whilst]

/-- The name under which level files and stored programs know the kind. -/
def name : Block → String
  | forward => "forward"
  | turnLeft => "turn_left"
  | turnRight => "turn_right"
  | pickup => "pickup"
  | times => "repeat"
  | whilst => "while"

def ofName? (text : String) : Option Block :=
  all.find? fun block => block.name == text

def ofAction : Action → Block
  | .forward => forward
  | .turnLeft => turnLeft
  | .turnRight => turnRight
  | .pickup => pickup

@[simp] theorem ofName?_name (b : Block) : ofName? b.name = some b := by
  cases b <;> rfl

theorem mem_all (b : Block) : b ∈ all := by
  cases b <;> decide

end Block

namespace Instruction

/-- The action of a simple instruction.  A wrapper has none. -/
def action? : Instruction → Option Action
  | act action => some action
  | wrap _ => none

def block : Instruction → Block
  | act action => Block.ofAction action
  | wrap (.times _) => .times
  | wrap (.whilst _ _) => .whilst

/-- A loop with a fixed number of rounds, if that number is a count. -/
def times? (n : Nat) : Option Instruction :=
  (Count.ofNat? n).map fun count => wrap (.times count)

/-- A guarded loop, if its ceiling is a count. -/
def whilst? (condition : Condition) (n : Nat) : Option Instruction :=
  (Count.ofNat? n).map fun ceiling => wrap (.whilst condition ceiling)

end Instruction

end Mazewalk
