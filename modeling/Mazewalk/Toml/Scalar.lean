import Mazewalk.Toml.Value
import Mazewalk.Text.Numeral

/-!
# Texts, numbers and dates in TOML

Scanners for the values without parts.  Each takes the characters from where it stands, and
gives what it has read and the characters after it, or nothing if the text is not well formed
there.
-/

namespace Mazewalk.Toml

/-! ### Characters -/

/-- The characters that separate tokens within a line. -/
def isSpace (c : Char) : Bool :=
  c = ' ' || c = '\t'

/-- The characters that may stand in a comment: all but the control characters, of which only
the tab is let through. -/
def isPlain (c : Char) : Bool :=
  c = '\t' || (' ' ≤ c && c != '\x7f')

def newline? : List Char → Option (List Char)
  | '\n' :: rest => some rest
  | '\r' :: '\n' :: rest => some rest
  | _ => none

/-- Puts a character before what a scanner has read. -/
def consed (c : Char) (scanned : Option (List Char × List Char)) : Option (List Char × List Char) :=
  scanned.map fun (text, rest) => (c :: text, rest)

/-! ### Texts -/

def hexValue? (c : Char) : Option Nat :=
  if c.isDigit then some (c.toNat - '0'.toNat)
  else if 'a' ≤ c ∧ c ≤ 'f' then some (c.toNat - 'a'.toNat + 10)
  else if 'A' ≤ c ∧ c ≤ 'F' then some (c.toNat - 'A'.toNat + 10)
  else none

/-- The character with a code point written in hexadecimal digits, if there is one. -/
def scalar? (digits : List Char) : Option Char := do
  let n := (← digits.mapM hexValue?).foldl (fun n digit => 16 * n + digit) 0
  if n < 0xD800 ∨ 0xDFFF < n ∧ n < 0x110000 then some (Char.ofNat n) else none

def escaped? : Char → Option Char
  | 'b' => some '\x08'
  | 't' => some '\t'
  | 'n' => some '\n'
  | 'f' => some '\x0c'
  | 'r' => some '\r'
  | '"' => some '"'
  | '\\' => some '\\'
  | _ => none

/-- The body of a text between double quotes, from after the opening quote. -/
def basicText : List Char → Option (List Char × List Char)
  | [] => none
  | '"' :: rest => some ([], rest)
  | '\\' :: 'u' :: a :: b :: c :: d :: rest => do consed (← scalar? [a, b, c, d]) (basicText rest)
  | '\\' :: 'U' :: a :: b :: c :: d :: e :: f :: g :: h :: rest => do
      consed (← scalar? [a, b, c, d, e, f, g, h]) (basicText rest)
  | '\\' :: letter :: rest => do consed (← escaped? letter) (basicText rest)
  | c :: rest => if isPlain c && c != '\\' then consed c (basicText rest) else none

/-- The body of a text between single quotes, from after the opening quote. -/
def literalText : List Char → Option (List Char × List Char)
  | [] => none
  | '\'' :: rest => some ([], rest)
  | c :: rest => if isPlain c then consed c (literalText rest) else none

/-- What a scanner of a text with several lines expects. -/
inductive Expect where
  /-- Any part of the text. -/
  | anything
  /-- The line break that a backslash at the end of a line joins over. -/
  | lineBreak
  /-- Any part of the text, but blanks and line breaks do not count. -/
  | visible
  deriving DecidableEq

/-- The body of a text between triple double quotes, from after the opening quotes and the line
break that may follow them.  One or two quotes just before the closing ones belong to the
text. -/
def basicLines (expect : Expect) : List Char → Option (List Char × List Char)
  | [] => none
  | '\n' :: rest =>
      if expect = .anything then consed '\n' (basicLines .anything rest)
      else basicLines .visible rest
  | '\r' :: '\n' :: rest =>
      if expect = .anything then consed '\n' (basicLines .anything rest)
      else basicLines .visible rest
  | ' ' :: rest =>
      if expect = .anything then consed ' ' (basicLines .anything rest)
      else basicLines expect rest
  | '\t' :: rest =>
      if expect = .anything then consed '\t' (basicLines .anything rest)
      else basicLines expect rest
  | '"' :: '"' :: '"' :: '"' :: '"' :: rest =>
      if expect = .lineBreak then none else some (['"', '"'], rest)
  | '"' :: '"' :: '"' :: '"' :: rest => if expect = .lineBreak then none else some (['"'], rest)
  | '"' :: '"' :: '"' :: rest => if expect = .lineBreak then none else some ([], rest)
  | '\\' :: 'u' :: a :: b :: c :: d :: rest =>
      if expect = .lineBreak then none
      else do consed (← scalar? [a, b, c, d]) (basicLines .anything rest)
  | '\\' :: 'U' :: a :: b :: c :: d :: e :: f :: g :: h :: rest =>
      if expect = .lineBreak then none
      else do consed (← scalar? [a, b, c, d, e, f, g, h]) (basicLines .anything rest)
  | '\\' :: next :: rest =>
      if expect = .lineBreak then none
      else if isSpace next || next = '\n' || next = '\r' then basicLines .lineBreak (next :: rest)
      else do consed (← escaped? next) (basicLines .anything rest)
  | c :: rest =>
      if expect = .lineBreak then none
      else if isPlain c && c != '\\' then consed c (basicLines .anything rest)
      else none

/-- The body of a text between triple single quotes, from after the opening quotes and the line
break that may follow them. -/
def literalLines : List Char → Option (List Char × List Char)
  | [] => none
  | '\'' :: '\'' :: '\'' :: '\'' :: '\'' :: rest => some (['\'', '\''], rest)
  | '\'' :: '\'' :: '\'' :: '\'' :: rest => some (['\''], rest)
  | '\'' :: '\'' :: '\'' :: rest => some ([], rest)
  | '\n' :: rest => consed '\n' (literalLines rest)
  | '\r' :: '\n' :: rest => consed '\n' (literalLines rest)
  | c :: rest => if isPlain c then consed c (literalLines rest) else none

def text? (chars : List Char) : Option (List Char × List Char) :=
  match chars with
  | '"' :: '"' :: '"' :: rest => basicLines .anything ((newline? rest).getD rest)
  | '"' :: rest => basicText rest
  | '\'' :: '\'' :: '\'' :: rest => literalLines ((newline? rest).getD rest)
  | '\'' :: rest => literalText rest
  | _ => none

/-! ### Dates and times -/

/-- Reads a number of exactly `n` digits that lies between two bounds. -/
def fixedDigits? (n first last : Nat) (chars : List Char) : Option (Nat × List Char) :=
  let digits := chars.take n
  let value := Text.digitsValue digits
  if digits.length = n ∧ digits.all Char.isDigit ∧ first ≤ value ∧ value ≤ last then
    some (value, chars.drop n)
  else none

def expect? (c : Char) : List Char → Option (List Char)
  | head :: rest => if head = c then some rest else none
  | [] => none

def daysInMonth (year month : Nat) : Nat :=
  if month = 2 then
    if year % 4 = 0 ∧ (year % 100 ≠ 0 ∨ year % 400 = 0) then 29 else 28
  else if month = 4 ∨ month = 6 ∨ month = 9 ∨ month = 11 then 30
  else 31

def date? (chars : List Char) : Option (List Char) := do
  let (year, rest) ← fixedDigits? 4 0 9999 chars
  let (month, rest) ← fixedDigits? 2 1 12 (← expect? '-' rest)
  let (_, rest) ← fixedDigits? 2 1 (daysInMonth year month) (← expect? '-' rest)
  return rest

def afterFraction (chars : List Char) : List Char :=
  match chars with
  | '.' :: digit :: rest => if digit.isDigit then rest.dropWhile Char.isDigit else chars
  | _ => chars

def time? (chars : List Char) : Option (List Char) := do
  let (_, rest) ← fixedDigits? 2 0 23 chars
  let (_, rest) ← fixedDigits? 2 0 59 (← expect? ':' rest)
  let (_, rest) ← fixedDigits? 2 0 60 (← expect? ':' rest)
  return afterFraction rest

/-- Reads past an offset from universal time. -/
def offset? (chars : List Char) : Option (List Char) :=
  match chars with
  | 'Z' :: rest => some rest
  | 'z' :: rest => some rest
  | sign :: rest =>
      if sign = '+' ∨ sign = '-' then do
        let (_, rest) ← fixedDigits? 2 0 23 rest
        let (_, rest) ← fixedDigits? 2 0 59 (← expect? ':' rest)
        return rest
      else none
  | [] => none

/-- Reads past the time of day that may follow a date, and past its offset. -/
def afterDate (chars : List Char) : List Char :=
  match chars with
  | mark :: rest =>
      if mark = 'T' ∨ mark = 't' ∨ mark = ' ' then
        match time? rest with
        | some rest => (offset? rest).getD rest
        | none => chars
      else chars
  | [] => chars

/-- Reads past a date, a time of day, or both. -/
def moment? (chars : List Char) : Option (List Char) :=
  match date? chars with
  | some rest => some (afterDate rest)
  | none => time? chars

/-! ### Numbers -/

/-- Reads the digits after the first one.  A single underscore may stand between two digits. -/
def moreDigits (isDigit : Char → Bool) : List Char → Option (List Char × List Char)
  | [] => some ([], [])
  | ['_'] => none
  | '_' :: digit :: rest =>
      if isDigit digit then consed digit (moreDigits isDigit rest) else none
  | digit :: rest =>
      if isDigit digit then consed digit (moreDigits isDigit rest) else some ([], digit :: rest)

/-- Reads one or more digits, underscores left out. -/
def digits? (isDigit : Char → Bool) : List Char → Option (List Char × List Char)
  | digit :: rest => if isDigit digit then consed digit (moreDigits isDigit rest) else none
  | [] => none

/-- Reads a sign, if there is one, and says whether it is a minus. -/
def sign (chars : List Char) : Bool × List Char :=
  match chars with
  | '-' :: rest => (true, rest)
  | '+' :: rest => (false, rest)
  | _ => (false, chars)

/-- Reads decimal digits, of which the first is not zero unless it is the only one. -/
def decimal? (chars : List Char) : Option (List Char × List Char) :=
  match chars with
  | '0' :: rest => some (['0'], rest)
  | _ => digits? Char.isDigit chars

/-- The least number that the nearest double-precision number no longer approximates. -/
def realLimit : Nat := Nat.pow 2 1024 - Nat.pow 2 970

/-- Whether `digits` times ten to the power `scale` is at least `realLimit`. -/
def isTooLarge (digits : List Char) (scale : Int) : Bool :=
  let value := Text.digitsValue digits
  if value = 0 then false
  else if 400 < scale then true
  else if scale + digits.length < 300 then false
  else if 0 ≤ scale then realLimit ≤ value * Nat.pow 10 scale.toNat
  else realLimit * Nat.pow 10 (-scale).toNat ≤ value

/-- Reads the exponent of a number, if there is one; the flag says whether there is. -/
def exponent? (chars : List Char) : Option (Int × Bool × List Char) :=
  match chars with
  | mark :: rest =>
      if mark = 'e' ∨ mark = 'E' then do
        let (minus, rest) := sign rest
        let (digits, rest) ← digits? Char.isDigit rest
        let size : Int := Text.digitsValue digits
        return (if minus then -size else size, true, rest)
      else some (0, false, chars)
  | [] => some (0, false, [])

/-- Reads past a number with a fraction or an exponent.  Too large a number is refused. -/
def fractional? (chars : List Char) : Option (List Char) := do
  let (minus, rest) := sign chars
  let (whole, rest) ← decimal? rest
  match rest with
  | '.' :: rest => do
      let (fraction, rest) ← digits? Char.isDigit rest
      let (scale, _, rest) ← exponent? rest
      if !minus && isTooLarge (whole ++ fraction) (scale - fraction.length) then none else rest
  | rest => do
      let (scale, found, rest) ← exponent? rest
      if !found || !minus && isTooLarge whole scale then none else rest

/-- Reads past infinity or not-a-number, with a sign or without. -/
def special? (chars : List Char) : Option (List Char) :=
  match (sign chars).2 with
  | 'i' :: 'n' :: 'f' :: rest => some rest
  | 'n' :: 'a' :: 'n' :: rest => some rest
  | _ => none

def baseValue (base : Nat) (digits : List Char) : Nat :=
  digits.foldl (fun n digit => base * n + (hexValue? digit).getD 0) 0

/-- One more than the largest integer of 64 bits with a sign. -/
def integerLimit : Nat := Nat.pow 2 63

/-- Reads an integer in any of its four notations.  It must fit in 64 bits with a sign. -/
def integer? (chars : List Char) : Option (Int × List Char) := do
  let (n, rest) ← (match chars with
    | '0' :: 'x' :: rest => based 16 (fun c => (hexValue? c).isSome) rest
    | '0' :: 'o' :: rest => based 8 (fun c => '0' ≤ c && c ≤ '7') rest
    | '0' :: 'b' :: rest => based 2 (fun c => c = '0' || c = '1') rest
    | _ => do
        let (minus, rest) := sign chars
        let (digits, rest) ← decimal? rest
        let size : Int := Text.digitsValue digits
        return (if minus then -size else size, rest))
  if -(integerLimit : Int) ≤ n ∧ n < integerLimit then some (n, rest) else none
where
  /-- Reads digits in a base. -/
  based (base : Nat) (isDigit : Char → Bool) (chars : List Char) : Option (Int × List Char) := do
    let (digits, rest) ← digits? isDigit chars
    return (baseValue base digits, rest)

/-! ### Values without parts -/

/-- Reads a value that starts with a sign or a digit. -/
def number? (chars : List Char) : Option (Value × List Char) :=
  match moment? chars with
  | some rest => some (.moment, rest)
  | none =>
      match fractional? chars with
      | some rest => some (.real, rest)
      | none =>
          match special? chars with
          | some rest => some (.real, rest)
          | none => (integer? chars).map fun (n, rest) => (.integer n, rest)

/-- Reads a value without parts. -/
def scalarValue? (chars : List Char) : Option (Value × List Char) :=
  match chars with
  | 't' :: 'r' :: 'u' :: 'e' :: rest => some (.boolean true, rest)
  | 'f' :: 'a' :: 'l' :: 's' :: 'e' :: rest => some (.boolean false, rest)
  | '"' :: _ | '\'' :: _ => (text? chars).map fun (text, rest) => (.text (String.ofList text), rest)
  | _ => number? chars

end Mazewalk.Toml
