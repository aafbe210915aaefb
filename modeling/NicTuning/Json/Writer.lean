import NicTuning.Json.Number

/-!
# Writing JSON

The layout puts every item and entry on a line of its own, two spaces further in than its
container; an empty container stays on its line. In texts only the quote, the backslash and the
controls are escaped.
-/
namespace NicTuning.Json

def hex2 (n : Nat) : String :=
  String.ofList [Nat.digitChar (n / 16), Nat.digitChar (n % 16)]

def escape (c : Char) : String :=
  match c with
  | '"' => "\\\""
  | '\\' => "\\\\"
  | '\x08' => "\\b"
  | '\x0c' => "\\f"
  | '\n' => "\\n"
  | '\r' => "\\r"
  | '\t' => "\\t"
  | c => if c.toNat < 0x20 then "\\u00" ++ hex2 c.toNat else c.toString

def quote (s : String) : String := "\"" ++ String.join (s.toList.map escape) ++ "\""

/-- A line break and the margin of a depth. -/
def newline (depth : Nat) : String := "\n" ++ "".pushn ' ' (2 * depth)

/-- Parts between brackets, each on a line of its own. -/
def bracketed (opening closing : String) (depth : Nat) (parts : List String) : String :=
  if parts.isEmpty then opening ++ closing
  else
    opening ++ newline (depth + 1) ++ ("," ++ newline (depth + 1)).intercalate parts ++
      newline depth ++ closing

mutual

/-- A value whose container stands `depth` steps from the margin. -/
def writeAt (depth : Nat) : Document → String
  | .null => "null"
  | .flag b => if b then "true" else "false"
  | .integer n => toString n
  | .float x => floatText x
  | .text s => quote s
  | .list items => bracketed "[" "]" depth (writeItems (depth + 1) items)
  | .map entries => bracketed "\x7b" "\x7d" depth (writeEntries (depth + 1) entries)

def writeItems (depth : Nat) : List Document → List String
  | [] => []
  | v :: rest => writeAt depth v :: writeItems depth rest

def writeEntries (depth : Nat) : List (Document × Document) → List String
  | [] => []
  | (k, v) :: rest => (writeAt depth k ++ ": " ++ writeAt depth v) :: writeEntries depth rest

end

def write (v : Document) : String := writeAt 0 v

end NicTuning.Json
