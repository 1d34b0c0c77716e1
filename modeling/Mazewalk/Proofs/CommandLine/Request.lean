import Mazewalk.CommandLine.Arguments
import Mazewalk.Proofs.Program.Grammar

/-!
# What is requested

The arguments of a command are read by something else, and here is what is expected of it.  An
option is spelled with its long name or its letter, and its value is in the same argument or in the
next one (`Gives`).  If arguments are accepted at all then they are read as what they give
(`Documented`).  There is at most one way to read them so (`Reads.unique`).
-/

namespace Mazewalk.CommandLine

/-! ### Options -/

/-- The argument is an option with this long name and perhaps this letter, with its value if that is
in the same argument. -/
inductive Spells (name : String) (letter? : Option Char) : String → Option String → Prop where
  | name : Spells name letter? ("--" ++ name) none
  | nameWith (value : String) : Spells name letter? ("--" ++ name ++ "=" ++ value) (some value)
  | letter {c : Char} (h : letter? = some c) : Spells name letter? (String.ofList ['-', c]) none
  | letterWith {c : Char} (h : letter? = some c) (value : String) :
      Spells name letter? (String.ofList ('-' :: c :: '=' :: value.toList)) (some value)
  | letterBefore {c : Char} (h : letter? = some c) (value : String) (hv : value ≠ "")
      (he : value.toList.head? ≠ some '=') :
      Spells name letter? (String.ofList ('-' :: c :: value.toList)) (some value)

/-- The arguments give the option this value. -/
def Gives (texts : List String) (name : String) (letter? : Option Char) (value : String) : Prop :=
  (∃ text ∈ texts, Spells name letter? text (some value)) ∨
    ∃ text, Spells name letter? text none ∧ [text, value] <:+: texts

/-- The text stands for the number of a level.  Zero may be negative. -/
def IsLevelId (text : String) (n : Nat) : Prop :=
  Text.IsNumeral text.toList n ∨
    n = 0 ∧ ∃ k, text.toList = '-' :: List.replicate (k + 1) '0'

/-- The arguments are used as they are given. -/
structure Reads (texts : List String) (arguments : Arguments) : Prop where
  level : ∀ text, Gives texts "level" (some 'l') text → IsLevelId text arguments.level.toNat
  noLevel : (∀ text, ¬ Gives texts "level" (some 'l') text) → arguments.level = 1
  levelFile : ∀ path, arguments.levelFile? = some path ↔ Gives texts "level-file" none path
  program : ∀ path, arguments.program? = some path ↔ Gives texts "program" (some 'p') path
  code : ∀ text, arguments.code? = some text ↔ Gives texts "code" (some 'c') text
  headless : arguments.headless = true ↔ "--headless" ∈ texts
  config : ∀ path, arguments.config? = some path ↔ Gives texts "config" none path
  tickMs : ∀ tickMs, arguments.tickMs? = some tickMs ↔
    ∃ text, Gives texts "tick-ms" none text ∧ Text.IsNumeral text.toList tickMs.toNat
  logFile : ∀ path, arguments.logFile? = some path ↔ Gives texts "log-file" none path

/-- Arguments that are accepted are read as they are given. -/
def Documented (read : Arguments.Reader) : Prop :=
  ∀ texts arguments, read texts = some arguments → Reads texts arguments

/-! ### One way to read -/

theorem IsLevelId.unique {text : String} {m n : Nat} (hm : IsLevelId text m)
    (hn : IsLevelId text n) : m = n := by
  have hzero : ∀ {k}, Text.IsNumeral text.toList k →
      ¬ ∃ j, text.toList = '-' :: List.replicate (j + 1) '0' := by
    rintro k h ⟨j, ht⟩
    rw [ht, ← Program.numeral?_eq_some_iff] at h
    cases h
  rcases hm with hm | ⟨rfl, hm⟩
  · rcases hn with hn | ⟨rfl, hn⟩
    · rw [← Program.numeral?_eq_some_iff] at hm hn
      exact Option.some.inj (hm.symm.trans hn)
    · exact absurd hn (hzero hm)
  · rcases hn with hn | ⟨rfl, hn⟩
    · exact absurd hm (hzero hn)
    · rfl

theorem Reads.unique {texts : List String} {a b : Arguments} (ha : Reads texts a)
    (hb : Reads texts b) : a = b := by
  have hlevel : a.level = b.level := by
    by_cases h : ∃ text, Gives texts "level" (some 'l') text
    · obtain ⟨text, h⟩ := h
      exact UInt32.toNat_inj.1 ((ha.level text h).unique (hb.level text h))
    · rw [ha.noLevel fun text ht => h ⟨text, ht⟩, hb.noLevel fun text ht => h ⟨text, ht⟩]
  have hheadless : a.headless = b.headless :=
    Bool.eq_iff_iff.2 (ha.headless.trans hb.headless.symm)
  have hfile := Option.ext fun path => (ha.levelFile path).trans (hb.levelFile path).symm
  have hprogram := Option.ext fun path => (ha.program path).trans (hb.program path).symm
  have hcode := Option.ext fun text => (ha.code text).trans (hb.code text).symm
  have hconfig := Option.ext fun path => (ha.config path).trans (hb.config path).symm
  have htick := Option.ext fun tickMs => (ha.tickMs tickMs).trans (hb.tickMs tickMs).symm
  have hlog := Option.ext fun path => (ha.logFile path).trans (hb.logFile path).symm
  cases a
  cases b
  simp_all

end Mazewalk.CommandLine
