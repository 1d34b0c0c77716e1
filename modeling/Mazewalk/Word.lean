/-!
# Machine words

The program counts in machine words.  Where a sum or a product is no word it breaks off if its
arithmetic is checked, which is what `Word.sum` and `Word.product` do, and otherwise goes on with
what is left of the number in a word.  A division by zero breaks off in any case.
-/

namespace Mazewalk

/-- One more than the largest machine word. -/
def wordSize : Nat := UInt64.size

/-- Why a computation breaks off. -/
inductive Panic where
  | product
  | sum
  /-- A remainder was asked for, of a division by zero. -/
  | remainder
  /-- A list was to be cut into pieces of no length. -/
  | pieces
  deriving DecidableEq, Repr

def Panic.message : Panic → String
  | product => "attempt to multiply with overflow"
  | sum => "attempt to add with overflow"
  | remainder => "attempt to calculate the remainder with a divisor of zero"
  | pieces => "chunk size must be non-zero"

namespace Word

def product (a b : Nat) : Except Panic Nat :=
  if a * b < wordSize then .ok (a * b) else .error .product

def sum (a b : Nat) : Except Panic Nat :=
  if a + b < wordSize then .ok (a + b) else .error .sum

theorem product_eq_ok_iff {a b c : Nat} : product a b = .ok c ↔ a * b < wordSize ∧ a * b = c := by
  unfold product
  split
  · rename_i h
    simp [h]
  · rename_i h
    simp [h]

theorem sum_eq_ok_iff {a b c : Nat} : sum a b = .ok c ↔ a + b < wordSize ∧ a + b = c := by
  unfold sum
  split
  · rename_i h
    simp [h]
  · rename_i h
    simp [h]

end Word

end Mazewalk
