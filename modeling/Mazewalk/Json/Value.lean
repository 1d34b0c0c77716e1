/-!
# JSON values

The values that stored mazes, programs and runs are made of, and the ways in which a record or
a name may be written.  A record is an object, or a list of its fields in their fixed order of
which the last ones may be missing.  A name out of a fixed set is a text, or an object with that
name as its only key and nothing for its value: `null`, or within a tagged record also `{}`.
-/

namespace Mazewalk.Json

inductive Value where
  | null
  | boolean (b : Bool)
  | integer (n : Int)
  /-- A number that is written with a fraction or an exponent. -/
  | real
  | text (t : String)
  | array (items : List Value)
  | object (fields : List (String × Value))
  deriving Repr, Inhabited

namespace Value

/-! ### Writing -/

def nat (n : Nat) : Value :=
  integer n

def list {α : Type} (encode : α → Value) (items : List α) : Value :=
  array (items.map encode)

/-! ### Reading -/

def boolean? : Value → Option Bool
  | boolean b => some b
  | _ => none

def integer? : Value → Option Int
  | integer n => some n
  | _ => none

/-- The number of an integer, if it is at least zero and below a bound. -/
def natBelow? (bound : Nat) : Value → Option Nat
  | integer n => if 0 ≤ n ∧ n < bound then some n.toNat else none
  | _ => none

def text? : Value → Option String
  | text t => some t
  | _ => none

/-- The items of a list, each read by `decode?`. -/
def list? {α : Type} (decode? : Value → Option α) : Value → Option (List α)
  | array items => items.mapM decode?
  | _ => none

/-- A name out of a fixed set of names. -/
def name? : Value → Option String
  | text t => some t
  | object [(name, null)] => some name
  | _ => none

/-- A name out of a fixed set of names, in a field of a tagged record. -/
def innerName? : Value → Option String
  | object [(name, object [])] => some name
  | value => value.name?

/-- The fields of a record under their names. -/
def record? (names : List String) : Value → Option (List (String × Value))
  | object fields => some fields
  | array items => if items.length ≤ names.length then some (names.zip items) else none
  | _ => none

/-- The name in the field `kind`, and the record without it. -/
def tagged? : Value → Option (String × Value)
  | object fields => do return (← (← fields.lookup "kind").text?, object fields)
  | array (text kind :: items) => some (kind, array items)
  | _ => none

/-- The record of a kind without fields: any object, or an empty list. -/
def isBare : Value → Bool
  | object _ => true
  | array items => items.isEmpty
  | _ => false

@[simp] theorem natBelow?_nat {bound n : Nat} (h : n < bound) :
    (nat n).natBelow? bound = some n := by
  simp [natBelow?, nat, h]

theorem list?_list {α : Type} {encode : α → Value} {decode? : Value → Option α} {items : List α}
    (h : ∀ item ∈ items, decode? (encode item) = some item) :
    (list encode items).list? decode? = some items := by
  simp only [list, list?]
  induction items with
  | nil => rfl
  | cons item rest ih =>
      rw [List.map_cons, List.mapM_cons, h item List.mem_cons_self,
        ih fun other mem => h other (List.mem_cons_of_mem _ mem)]
      rfl

end Value

end Mazewalk.Json
