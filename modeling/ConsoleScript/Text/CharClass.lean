import ConsoleScript.Text.Alphabetic
import ConsoleScript.Text.Numeric
import ConsoleScript.Text.Extending
import ConsoleScript.Text.Hidden

/-!
# Classes of characters

ASCII is decided directly. Beyond it a class is a table of code point ranges, and a
character belongs to the class when its code point lies in one of them.
-/

namespace ConsoleScript.Text

def inRanges (ranges : List (Nat × Nat)) (c : Char) : Bool :=
  ranges.any fun range => range.1 ≤ c.toNat && c.toNat ≤ range.2

def isAlphabetic (c : Char) : Bool :=
  if c.toNat < 0x80 then c.isAlpha else inRanges alphabeticRanges c

def isNumeric (c : Char) : Bool :=
  if c.toNat < 0x80 then c.isDigit else inRanges numericRanges c

def isAlphanumeric (c : Char) : Bool :=
  isAlphabetic c || isNumeric c

def isWordChar (c : Char) : Bool :=
  isAlphanumeric c || c == '_'

/-- Code points with the property White_Space. -/
def blankRanges : List (Nat × Nat) :=
  [(0x09, 0x0D), (0x20, 0x20), (0x85, 0x85), (0xA0, 0xA0), (0x1680, 0x1680), (0x2000, 0x200A),
   (0x2028, 0x2029), (0x202F, 0x202F), (0x205F, 0x205F), (0x3000, 0x3000)]

def isBlank (c : Char) : Bool :=
  inRanges blankRanges c

/-- Whether a character shows as itself, neither attaching to the one before it nor invisible. -/
def isVisible (c : Char) : Bool :=
  !inRanges extendingRanges c && !inRanges hiddenRanges c

end ConsoleScript.Text
