/-!
# TOML values and tables

A TOML document denotes a table of named values.  While a document is read, a table remembers
how it came to be, because the format lets each table be defined only once: a table made on the
way to a header may still get a header of its own, one made by a dotted key may be extended by
dotted keys alone, and one that has its header or its braces is complete.
-/

namespace Mazewalk.Toml

/-- How a table came to be. -/
inductive Origin where
  /-- On the way to the table of a header. -/
  | implied
  /-- On the way to the value of a dotted key. -/
  | dotted
  /-- By a header of its own, or as the whole document. -/
  | defined
  /-- By braces. -/
  | inline
  deriving DecidableEq, Repr

inductive Value where
  | text (text : String)
  | integer (n : Int)
  /-- A number with a fraction or an exponent, infinity, or not a number. -/
  | real
  | boolean (b : Bool)
  /-- A date, a time, or both. -/
  | moment
  /-- A bracketed list. -/
  | array (items : List Value)
  | table (origin : Origin) (fields : List (String × Value))
  /-- The tables of a repeated double-bracket header: the earlier ones and the open one. -/
  | tables (earlier : List (List (String × Value))) (last : List (String × Value))
  deriving Repr, Inhabited

/-- The named values of a table, in the order of their definition. -/
abbrev Fields := List (String × Value)

/-- What reads documents: it gives the fields of a text, if the text is a document. -/
abbrev Reader := String → Option Fields

/-- How the text shown for a document that is refused begins.  The reader says more after it. -/
def errorMessage : String := "TOML parse error"

namespace Fields

def replace (fields : Fields) (key : String) (value : Value) : Fields :=
  fields.map fun (name, old) => (name, if name = key then value else old)

/-- Goes down a path and changes the table at its end.  Tables that are missing on the way are
made with the origin `fresh`; if that is `dotted`, a complete table on the way is an error. -/
def edit (fresh : Origin) (change : Origin → Fields → Option Fields) :
    List String → Origin → Fields → Option Fields
  | [], origin, fields => change origin fields
  | key :: path, _, fields =>
      match fields.lookup key with
      | none => do
          let inner ← edit fresh change path fresh []
          return fields ++ [(key, .table fresh inner)]
      | some (.table origin inner) =>
          if origin = .inline ∨ fresh = .dotted ∧ origin = .defined then none
          else do
            let inner ← edit fresh change path origin inner
            return fields.replace key (.table origin inner)
      | some (.tables earlier last) => do
          let last ← edit fresh change path .defined last
          return fields.replace key (.tables earlier last)
      | some _ => none

/-- Adds a field that must be new.  A field written with dots goes into a dotted table, and a
field written without dots does not. -/
def add (isDotted : Bool) (key : String) (value : Value) (origin : Origin) (fields : Fields) :
    Option Fields :=
  if (origin == .dotted) != isDotted || (fields.lookup key).isSome then none
  else some (fields ++ [(key, value)])

/-- Adds the value of a dotted key, given as the path to its table and its last part. -/
def assign (path : List String) (key : String) (value : Value) (origin : Origin)
    (fields : Fields) : Option Fields :=
  edit .dotted (add (!path.isEmpty) key value) path origin fields

def openTable (path : List String) (key : String) (fields : Fields) : Option Fields :=
  edit .implied (fun _ fields =>
    match fields.lookup key with
    | none => some (fields ++ [(key, .table .defined [])])
    | some (.table .implied inner) => some (fields.replace key (.table .defined inner))
    | some _ => none) path .defined fields

/-- Opens the next table of a double-bracket header. -/
def openNext (path : List String) (key : String) (fields : Fields) : Option Fields :=
  edit .implied (fun _ fields =>
    match fields.lookup key with
    | none => some (fields ++ [(key, .tables [] [])])
    | some (.tables earlier last) => some (fields.replace key (.tables (earlier ++ [last]) []))
    | some _ => none) path .defined fields

end Fields

namespace Value

/-- The items of a list, whichever way it is written. -/
def items? : Value → Option (List Value)
  | array items => some items
  | tables earlier last => some ((earlier ++ [last]).map (table .defined))
  | _ => none

def text? : Value → Option String
  | text t => some t
  | _ => none

/-- The number of an integer value, if it is at least zero and below a bound. -/
def natBelow? (bound : Nat) : Value → Option Nat
  | integer n => if 0 ≤ n ∧ n < bound then some n.toNat else none
  | _ => none

def uint32? (value : Value) : Option UInt32 :=
  (value.natBelow? UInt32.size).map UInt32.ofNat

def uint64? (value : Value) : Option UInt64 :=
  (value.natBelow? UInt64.size).map UInt64.ofNat

def isEmpty : Value → Bool
  | array items => items.isEmpty
  | table _ fields => fields.isEmpty
  | _ => false

/-- A name out of a fixed set of names: a text, or a table with that name as its only key and
nothing in it. -/
def name? : Value → Option String
  | text t => some t
  | table _ [(name, content)] => if content.isEmpty then some name else none
  | _ => none

end Value

namespace Fields

/-- Reads a field that must be there. -/
def read? {α : Type} (fields : Fields) (key : String) (decode? : Value → Option α) : Option α :=
  (fields.lookup key).bind decode?

/-- Reads a field that may be missing. -/
def readOr? {α : Type} (fields : Fields) (key : String) (default : α)
    (decode? : Value → Option α) : Option α :=
  match fields.lookup key with
  | some value => decode? value
  | none => some default

end Fields

end Mazewalk.Toml
