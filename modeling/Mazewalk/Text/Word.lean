/-!
# Words

Programs and maps are read word by word.  A word is a maximal run of characters that are not
blank, where the blanks are the characters with the `White_Space` property of the Unicode
character database.  Letters are compared after folding the case of the ASCII letters alone.
-/

namespace Mazewalk.Text

/-- The ranges of code points with the `White_Space` property, in order. -/
def blankRanges : List (Nat × Nat) :=
  [(0x09, 0x0D), (0x20, 0x20), (0x85, 0x85), (0xA0, 0xA0), (0x1680, 0x1680), (0x2000, 0x200A),
    (0x2028, 0x2029), (0x202F, 0x202F), (0x205F, 0x205F), (0x3000, 0x3000)]

/-- The character separates words. -/
def isBlank (c : Char) : Bool :=
  blankRanges.any fun (first, last) => first ≤ c.toNat && c.toNat ≤ last

def words (text : List Char) : List (List Char) :=
  (text.splitOnP isBlank).filter fun word => !word.isEmpty

/-- A word with its ASCII letters in lower case. -/
def lower (word : List Char) : String :=
  String.ofList (word.map Char.toLower)

/-- A word with its ASCII letters in upper case. -/
def upper (word : List Char) : String :=
  String.ofList (word.map Char.toUpper)

end Mazewalk.Text
