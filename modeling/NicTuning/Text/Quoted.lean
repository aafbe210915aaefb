import NicTuning.Text.Quoted.Table

/-!
# Quoted text

A text between double quotes in which no character can be mistaken: the quote, the backslash and
the common controls have short escapes, and every other code point without a mark of its own is
spelled out in hexadecimal.
-/
namespace NicTuning.Text

namespace Quoted

/-- A number in hexadecimal, with small letters and no leading zeros. -/
def hex (n : Nat) : String := String.ofList (Nat.toDigits 16 n)

def isHidden (c : Char) : Bool :=
  hiddenRanges.any fun (first, last) => first ≤ c.toNat && c.toNat ≤ last

def escape (c : Char) : String :=
  match c with
  | '"' => "\\\""
  | '\\' => "\\\\"
  | '\x00' => "\\0"
  | '\t' => "\\t"
  | '\n' => "\\n"
  | '\r' => "\\r"
  | c => if isHidden c then "\\u\x7b" ++ hex c.toNat ++ "\x7d" else c.toString

end Quoted

/-- The text between double quotes, escaped. -/
def quoted (s : String) : String := "\"" ++ String.join (s.toList.map Quoted.escape) ++ "\""

/-- Quoted texts between brackets. -/
def quotedList (l : List String) : String := "[" ++ ", ".intercalate (l.map quoted) ++ "]"

end NicTuning.Text
