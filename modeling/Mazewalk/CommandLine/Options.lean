import Mazewalk.CommandLine.Arguments
import Mazewalk.Text.Numeral

/-!
# Options

The arguments of the program are options: a long name after two dashes, or a letter after one.
A value stands in the same argument, after an equals sign or right after the letter, or it is
the next argument, which must then not look like an option.  No option may be given twice, some
exclude each other, and there are no other arguments.
-/

namespace Mazewalk.CommandLine

inductive Flag where
  | level
  | levelFile
  | program
  | code
  | headless
  | config
  | tickMs
  | logFile
  deriving DecidableEq, Repr

namespace Flag

def all : List Flag := [level, levelFile, program, code, headless, config, tickMs, logFile]

def name : Flag → String
  | level => "level"
  | levelFile => "level-file"
  | program => "program"
  | code => "code"
  | headless => "headless"
  | config => "config"
  | tickMs => "tick-ms"
  | logFile => "log-file"

def letter? : Flag → Option Char
  | level => some 'l'
  | program => some 'p'
  | code => some 'c'
  | _ => none

def takesValue (flag : Flag) : Bool :=
  flag != headless

/-- The value is a path, which is never empty. -/
def takesPath : Flag → Bool
  | levelFile | program | config | logFile => true
  | _ => false

end Flag

/-! ### Splitting the arguments -/

/-- An argument with this text is not the value of the option before it. -/
def looksLikeOption (text : String) : Bool :=
  match text.toList with
  | '-' :: _ :: _ => true
  | _ => false

/-- The value in the rest of an argument, after an equals sign or without one. -/
def attached? : List Char → Option String
  | [] => none
  | '=' :: value => some (String.ofList value)
  | value => some (String.ofList value)

/-- The option in one argument, and its value if that is in the same argument. -/
def option? (text : String) : Option (Flag × Option String) :=
  match text.toList with
  | '-' :: '-' :: long =>
      let name := String.ofList (long.takeWhile (· ≠ '='))
      (Flag.all.find? (·.name == name)).map fun flag => (flag, attached? (long.dropWhile (· ≠ '=')))
  | '-' :: letter :: rest =>
      (Flag.all.find? (·.letter? == some letter)).map fun flag => (flag, attached? rest)
  | _ => none

/-- The options with their values, in the order in which they are given. -/
abbrev Given := List (Flag × String)

/-- Splits the arguments into options and values.  Two dashes may end them. -/
def split : List String → Option Given
  | [] => some []
  | text :: rest =>
      if text = "--" ∧ rest = [] then some []
      else
        match option? text, rest with
        | none, _ => none
        | some (flag, some value), rest =>
            if flag.takesValue then (split rest).map ((flag, value) :: ·) else none
        | some (flag, none), rest =>
            if flag.takesValue then
              match rest with
              | [] => none
              | value :: rest =>
                  if looksLikeOption value then none else (split rest).map ((flag, value) :: ·)
            else (split rest).map ((flag, "") :: ·)

/-! ### Reading the values -/

/-- Reads a level id.  A minus sign is let through before zero. -/
def readLevel? (text : String) : Option LevelId :=
  match text.toList with
  | '-' :: digits =>
      if digits.isEmpty || !digits.all (· == '0') then none else some 0
  | chars => (Text.numeralBelow? UInt32.size chars).map UInt32.ofNat

def readTick? (text : String) : Option UInt64 :=
  (Text.numeralBelow? UInt64.size text.toList).map UInt64.ofNat

namespace Arguments

/-- Two options that are not given together. -/
def exclusive : List (Flag × Flag) := [(.level, .levelFile), (.program, .code)]

/-- The options are given as they must be: none twice, none that excludes another one, and no
empty path. -/
def areFine (given : Given) : Bool :=
  let flags := given.map Prod.fst
  decide flags.Nodup &&
    !exclusive.any (fun (one, other) => flags.contains one && flags.contains other) &&
    !given.any fun (flag, value) => flag.takesPath && value.isEmpty

def read? : Reader := fun texts => do
  let given ← split texts
  if areFine given then
    let level ← ((given.lookup .level).map readLevel?).getD (some 1)
    let tickMs? ←
      ((given.lookup .tickMs).map fun text => (readTick? text).map some).getD (some none)
    return {
      level := level
      levelFile? := given.lookup .levelFile
      program? := given.lookup .program
      code? := given.lookup .code
      headless := (given.lookup .headless).isSome
      config? := given.lookup .config
      tickMs? := tickMs?
      logFile? := given.lookup .logFile }
  else none

end Arguments

end Mazewalk.CommandLine
