/-!
# Decimal numerals

A numeral is one or more ASCII digits, with an optional plus sign before them.  Leading zeros
are allowed and there is no limit on the length; whoever needs a bounded number checks the
value.
-/

namespace Mazewalk.Text

/-- The number that a list of digits denotes, the leading digit first. -/
def digitsValue (digits : List Char) : Nat :=
  digits.foldl (fun value digit => 10 * value + (digit.toNat - '0'.toNat)) 0

/-- The numeral without its plus sign. -/
def unsigned : List Char → List Char
  | '+' :: rest => rest
  | text => text

/-- The value of a numeral, if the text is one. -/
def numeral? (text : List Char) : Option Nat :=
  let digits := unsigned text
  if digits.isEmpty || !digits.all Char.isDigit then none else some (digitsValue digits)

/-- The value of a numeral that is below a bound. -/
def numeralBelow? (bound : Nat) (text : List Char) : Option Nat :=
  (numeral? text).filter fun n => decide (n < bound)

end Mazewalk.Text
