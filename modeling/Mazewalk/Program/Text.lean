import Mazewalk.Program
import Mazewalk.Text.Numeral

/-!
# The text of a program

A program is written one statement to a line, or several on a line with semicolons between
them; a number sign starts a comment.  A statement is a list of words: a keyword and what it
needs.  Keywords and conditions are read without regard to the case of their letters, and a
guarded loop without a ceiling gets the ceiling 50.  The first faulty statement decides the
error, which carries the number of its line, counted from one.
-/

namespace Mazewalk

/-! ### Writing -/

def Instruction.text : Instruction → String
  | act action => action.word
  | wrap (.times count) => s!"repeat {count.val}"
  | wrap (.whilst condition ceiling) => s!"while {condition.name} {ceiling.val}"

namespace Program

/-- The text of a program, one statement to a line and no line break at the end. -/
def text (program : Program) : String :=
  "\n".intercalate (program.map Instruction.text)

/-! ### Faults -/

/-- What is wrong with a statement. -/
inductive Fault where
  /-- The first word is no keyword. -/
  | unknownInstruction (word : String)
  /-- The loop with a fixed number of rounds stands alone. -/
  | missingCount
  /-- The word is no positive 32-bit number. -/
  | invalidCount (word : String)
  /-- The guarded loop stands alone. -/
  | missingCondition
  /-- The word names no condition. -/
  | unknownCondition (word : String)
  /-- The first word that the statement has no use for. -/
  | trailing (word : String)
  deriving DecidableEq, Repr

/-- A fault and the line of its statement, counted from one. -/
structure SyntaxError where
  line : Nat
  fault : Fault
  deriving DecidableEq, Repr

def Fault.message : Fault → String
  | unknownInstruction word => s!"unknown instruction '{word}'"
  | missingCount => "'repeat' needs a count"
  | invalidCount word => s!"'{word}' is not a positive count"
  | missingCondition => "'while' needs a condition"
  | unknownCondition word =>
      s!"unknown condition '{word}' (expected path_ahead or not_at_goal)"
  | trailing word => s!"unexpected '{word}'"

def SyntaxError.message (e : SyntaxError) : String :=
  s!"line {e.line}: {e.fault.message}"

/-! ### Reading -/

/-- The keywords of each kind of instruction, in lower case. -/
def keywords : Block → List String
  | .forward => ["forward"]
  | .turnLeft => ["left", "turn_left"]
  | .turnRight => ["right", "turn_right"]
  | .pickup => ["pickup"]
  | .times => ["repeat"]
  | .whilst => ["while"]

/-- The kind of instruction that a keyword starts. -/
def keyword? (word : List Char) : Option Block :=
  Block.all.find? fun block => (keywords block).contains (Text.lower word)

/-- The ceiling of a guarded loop that names none. -/
def defaultCeiling : Count := ⟨50, by decide, by decide⟩

def readCount (word : List Char) : Except Fault Count :=
  match (Text.numeral? word).bind Count.ofNat? with
  | some count => .ok count
  | none => .error (.invalidCount (String.ofList word))

/-- Accepts an instruction if no words are left over. -/
def finished (instruction : Instruction) : List (List Char) → Except Fault Instruction
  | [] => .ok instruction
  | word :: _ => .error (.trailing (String.ofList word))

/-- Reads the words of one statement: its keyword and the words after it. -/
def readStatement (keyword : List Char) (args : List (List Char)) : Except Fault Instruction :=
  match keyword? keyword, args with
  | none, _ => .error (.unknownInstruction (String.ofList keyword))
  | some .forward, rest => finished (.act .forward) rest
  | some .turnLeft, rest => finished (.act .turnLeft) rest
  | some .turnRight, rest => finished (.act .turnRight) rest
  | some .pickup, rest => finished (.act .pickup) rest
  | some .times, [] => .error .missingCount
  | some .times, word :: rest => do finished (.wrap (.times (← readCount word))) rest
  | some .whilst, [] => .error .missingCondition
  | some .whilst, word :: rest =>
      match Condition.ofWord? word, rest with
      | none, _ => .error (.unknownCondition (String.ofList word))
      | some condition, [] => .ok (.wrap (.whilst condition defaultCeiling))
      | some condition, ceiling :: rest => do
          finished (.wrap (.whilst condition (← readCount ceiling))) rest

/-- The statements of one line as words, blank ones left out. -/
def statements (line : List Char) : List (List (List Char)) :=
  ((line.takeWhile (· ≠ '#')).splitOn ';').map Text.words |>.filter fun words => !words.isEmpty

/-- Reads a list of statements in order. -/
def readStatements : List (List (List Char)) → Except Fault Program
  | [] => .ok []
  | [] :: rest => readStatements rest
  | (keyword :: args) :: rest => do
      let instruction ← readStatement keyword args
      return instruction :: (← readStatements rest)

/-- Reads the lines from line number `line` on. -/
def readLines (line : Nat) : List (List Char) → Except SyntaxError Program
  | [] => .ok []
  | text :: rest => do
      let here ← (readStatements (statements text)).mapError (SyntaxError.mk line)
      return here ++ (← readLines (line + 1) rest)

def read (text : String) : Except SyntaxError Program :=
  readLines 1 (text.toList.splitOn '\n')

end Program

end Mazewalk
