/-!
# Characters of YAML

The classes of characters that a reader and a writer of YAML tell apart. Nothing, the end of the
text, belongs to the classes that end a line or a word.
-/
namespace NicTuning.Yaml

def isBreak (c : Char) : Bool :=
  c == '\n' || c == '\r' || c == '\u0085' || c == '\u2028' || c == '\u2029'

def isGap (c : Char) : Bool := c == ' ' || c == '\t'

def isWordChar (c : Char) : Bool := c.isAlphanum || c == '_' || c == '-'

/-- The end of the text counts as a line end. -/
def endsLine : Option Char → Bool
  | none => true
  | some c => isBreak c

/-- A space, a tab, a line end or the end of the text. -/
def endsWord : Option Char → Bool
  | none => true
  | some c => isGap c || isBreak c

/-- A character that may be written as it is: no control but the line feed, no byte order mark, and
nothing beyond the basic plane. -/
def isPrintable (c : Char) : Bool :=
  let n := c.toNat
  n == 0x0A || (0x20 ≤ n && n ≤ 0x7E) || (0xA0 ≤ n && n ≤ 0xFFFD && n != 0xFEFF)

end NicTuning.Yaml
