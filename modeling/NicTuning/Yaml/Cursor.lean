import NicTuning.Yaml.Character

/-!
# Positions in a YAML text

A cursor is what is left of a text together with the place reached: how many characters came
before, on which line, and how many on that line. A line ends at a line feed, a carriage return
(one end with a line feed directly after it), U+0085, U+2028 or U+2029.
-/
namespace NicTuning.Yaml

structure Cursor where
  rest : List Char
  index : Nat
  line : Nat
  column : Nat

namespace Cursor

def start (cs : List Char) : Cursor := ⟨cs, 0, 0, 0⟩

def peek (c : Cursor) : Option Char := c.rest.head?

def peekAt (c : Cursor) (i : Nat) : Option Char := c.rest[i]?

def atEnd (c : Cursor) : Bool := c.rest.isEmpty

def looksAt (c : Cursor) (x : Char) : Bool := c.peek == some x

/-- The cursor `n` characters further on the same line. -/
def skip (c : Cursor) (n : Nat := 1) : Cursor :=
  { c with rest := c.rest.drop n, index := c.index + n, column := c.column + n }

/-- The characters in front that satisfy `p`, all on one line, and the cursor behind them. -/
def span (c : Cursor) (p : Char → Bool) : List Char × Cursor :=
  let taken := c.rest.takeWhile p
  (taken, c.skip taken.length)

def skipWhile (c : Cursor) (p : Char → Bool) : Cursor := (c.span p).2

/-- The line end in front, as it counts in a scalar, and the cursor on the next line. All line ends
count as a line feed but U+2028 and U+2029, which count as themselves. -/
def lineEnd (c : Cursor) : List Char × Cursor :=
  let next (n : Nat) : Cursor := ⟨c.rest.drop n, c.index + n, c.line + 1, 0⟩
  match c.rest with
  | '\r' :: '\n' :: _ => (['\n'], next 2)
  | '\u2028' :: _ => (['\u2028'], next 1)
  | '\u2029' :: _ => (['\u2029'], next 1)
  | x :: _ => if isBreak x then (['\n'], next 1) else ([], c)
  | [] => ([], c)

def skipLineEnd (c : Cursor) : Cursor := c.lineEnd.2

/-- A document marker: three times `x` at the start of a line, as a word. -/
def marker (c : Cursor) (x : Char) : Bool :=
  c.column == 0 && c.peek == some x && c.peekAt 1 == some x && c.peekAt 2 == some x &&
    endsWord (c.peekAt 3)

/-- The start of a document, or its end. -/
def anyMarker (c : Cursor) : Bool := c.marker '-' || c.marker '.'

end Cursor

end NicTuning.Yaml
