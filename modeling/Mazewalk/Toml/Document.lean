import Mazewalk.Toml.Scalar

/-!
# TOML documents

A document is a sequence of lines: headers, which open a table, and assignments, which give a
key of the open table its value.  Lists may run over several lines and hold comments; inline
tables may not.  Brackets nest less than eighty deep, and a key has fewer than eighty parts.
A text is read as a whole or refused as a whole.
-/

namespace Mazewalk.Toml

/-! ### Between the tokens -/

def skipSpaces (chars : List Char) : List Char :=
  chars.dropWhile isSpace

/-- Reads the rest of a line: blanks, perhaps a comment, and the line break or the end. -/
def lineEnd? (chars : List Char) : Option (List Char) :=
  let rest :=
    match skipSpaces chars with
    | '#' :: comment => comment.dropWhile isPlain
    | rest => rest
  if rest.isEmpty then some [] else newline? rest

/-- Skips blanks, comments and line breaks.  A comment must end in a line break.  The number
bounds the lines. -/
def skipLines? : Nat → List Char → Option (List Char)
  | 0, chars => some chars
  | lines + 1, chars =>
      match skipSpaces chars with
      | '#' :: comment => do skipLines? lines (← newline? (comment.dropWhile isPlain))
      | '\n' :: rest => skipLines? lines rest
      | '\r' :: rest => do skipLines? lines (← newline? ('\r' :: rest))
      | rest => some rest

/-! ### Keys -/

/-- The characters of a key without quotes. -/
def isBare (c : Char) : Bool :=
  c.isAlphanum || c = '_' || c = '-'

def keyPart? (chars : List Char) : Option (String × List Char) :=
  match chars with
  | '"' :: rest => (basicText rest).map fun (text, rest) => (String.ofList text, rest)
  | '\'' :: rest => (literalText rest).map fun (text, rest) => (String.ofList text, rest)
  | _ =>
      let bare := chars.takeWhile isBare
      if bare.isEmpty then none else some (String.ofList bare, chars.dropWhile isBare)

/-- Reads the parts of a key.  The number bounds the parts. -/
def keyParts? : Nat → List Char → Option (List String × List Char)
  | 0, _ => none
  | parts + 1, chars => do
      let (part, rest) ← keyPart? (skipSpaces chars)
      match skipSpaces rest with
      | '.' :: rest => do
          let (more, rest) ← keyParts? parts rest
          return (part :: more, rest)
      | rest => return ([part], rest)

/-- A bound on the depth of brackets and on the parts of a key. -/
def nesting : Nat := 79

/-- Reads a key: the path to its table and its last part. -/
def key? (chars : List Char) : Option ((List String × String) × List Char) := do
  let (parts, rest) ← keyParts? nesting chars
  let last ← parts.getLast?
  return ((parts.dropLast, last), rest)

/-! ### Values -/

/-- Reads a value. -/
abbrev Scanner := List Char → Option (Value × List Char)

/-- Reads the items of a list, from after the opening bracket.  The number bounds the items. -/
def items? (item? : Scanner) : Nat → List Char → Option (List Value × List Char)
  | 0, _ => none
  | bound + 1, chars => do
      match ← skipLines? chars.length chars with
      | ']' :: rest => return ([], rest)
      | chars =>
          let (item, rest) ← item? (← skipLines? chars.length chars)
          match ← skipLines? rest.length rest with
          | ',' :: rest => do
              let (more, rest) ← items? item? bound rest
              return (item :: more, rest)
          | ']' :: rest => return ([item], rest)
          | _ => none

/-- Reads the assignments of an inline table into its fields.  The number bounds them. -/
def pairs? (value? : Scanner) : Nat → Fields → List Char → Option (Fields × List Char)
  | 0, _, _ => none
  | bound + 1, fields, chars => do
      let ((path, key), rest) ← key? chars
      let (value, rest) ← value? (skipSpaces (← expect? '=' rest))
      let fields ← fields.assign path key value .inline
      match skipSpaces rest with
      | ',' :: rest => pairs? value? bound fields rest
      | '}' :: rest => return (fields, rest)
      | _ => none

/-- Reads a value whose brackets nest at most `depth` deep. -/
def value? (depth : Nat) (chars : List Char) : Option (Value × List Char) :=
  match depth, chars with
  | depth + 1, '[' :: rest => do
      let (items, rest) ← items? (value? depth) (rest.length + 1) rest
      return (.array items, rest)
  | depth + 1, '{' :: rest =>
      match skipSpaces rest with
      | '}' :: rest => some (.table .inline [], rest)
      | rest => do
          let (fields, rest) ← pairs? (value? depth) (rest.length + 1) [] rest
          return (.table .inline fields, rest)
  | _, chars => scalarValue? chars

/-! ### Lines -/

/-- A document that has been read in part: its fields, and the path to the open table. -/
structure Document where
  fields : Fields
  header : List String

namespace Document

/-- The document with a change to the fields of its open table. -/
def inOpenTable (document : Document) (change : Origin → Fields → Option Fields) :
    Option Document := do
  let fields ← document.fields.edit .implied change document.header .defined
  return { document with fields := fields }

def readHeader? (document : Document) (chars : List Char) : Option (Document × List Char) :=
  match chars with
  | '[' :: '[' :: rest => do
      let ((path, key), rest) ← key? rest
      let rest ← lineEnd? (← expect? ']' (← expect? ']' rest))
      return (⟨← document.fields.openNext path key, path ++ [key]⟩, rest)
  | '[' :: rest => do
      let ((path, key), rest) ← key? rest
      let rest ← lineEnd? (← expect? ']' rest)
      return (⟨← document.fields.openTable path key, path ++ [key]⟩, rest)
  | _ => none

def readPair? (document : Document) (chars : List Char) : Option (Document × List Char) := do
  let ((path, key), rest) ← key? chars
  let (value, rest) ← value? nesting (skipSpaces (← expect? '=' rest))
  let rest ← lineEnd? rest
  return (← document.inOpenTable fun origin fields => fields.assign path key value origin, rest)

/-- Reads the lines that are left.  The number bounds them. -/
def readLines? : Nat → Document → List Char → Option Document
  | 0, _, _ => none
  | bound + 1, document, chars =>
      match skipSpaces chars with
      | [] => some document
      | '#' :: rest => do readLines? bound document (← lineEnd? ('#' :: rest))
      | '\n' :: rest => readLines? bound document rest
      | '\r' :: rest => do readLines? bound document (← newline? ('\r' :: rest))
      | '[' :: rest => do
          let (document, rest) ← document.readHeader? ('[' :: rest)
          readLines? bound document rest
      | rest => do
          let (document, rest) ← document.readPair? rest
          readLines? bound document rest

end Document

/-- Reads a document.  A byte order mark at its start does not count. -/
def read? (text : String) : Option Fields := do
  let chars :=
    match text.toList with
    | '\ufeff' :: rest => rest
    | chars => chars
  let document ← Document.readLines? (chars.length + 1) ⟨[], []⟩ chars
  return document.fields

end Mazewalk.Toml
