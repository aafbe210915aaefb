import NicTuning.Json.Number
import NicTuning.Yaml.Character
import NicTuning.Yaml.Plain

/-!
# Writing YAML

Collections are written in block style, two spaces further in than their container, and a list that
belongs to a key as far in as the key. A text stands without quotes where nothing else could be
read, in single quotes where it could be, in double quotes where single ones do not suffice, and as
a literal block if it has several lines.
-/
namespace NicTuning.Yaml

namespace Layout

inductive Style
  | plain
  | single
  | double
  | literal
  deriving DecidableEq

def isBlankOrEnd : List Char → Bool
  | [] => true
  | c :: _ => c == ' ' || c == '\t' || c == '\x00' || isBreak c

/-- The first character has a meaning of its own in a plain scalar. -/
def startsSpecial : List Char → Bool
  | [] => false
  | c :: rest =>
    "#,[]\x7b\x7d&*!|>'\"%@`".toList.contains c ||
      ((c == '?' || c == ':' || c == '-') && isBlankOrEnd rest)

/-- A colon before a blank or a number sign after one would end a plain scalar. -/
def hasIndicator (afterBlank : Bool) : List Char → Bool
  | [] => false
  | c :: rest =>
    (c == ':' && isBlankOrEnd rest) || (c == '#' && afterBlank) ||
      hasIndicator (isBlankOrEnd [c]) rest

/-- Somewhere a character of the first kind stands directly before one of the second. -/
def hasPair (first second : Char → Bool) : List Char → Bool
  | c :: d :: rest => (first c && second d) || hasPair first second (d :: rest)
  | _ => false

def isSpace (c : Char) : Bool := c == ' '

def isMarker (cs : List Char) : Bool := "---".toList.isPrefixOf cs || "...".toList.isPrefixOf cs

def allowsPlain (cs : List Char) : Bool :=
  cs.all (fun c => isPrintable c && !isBreak c) && !cs.head?.any isSpace &&
    !cs.getLast?.any isSpace && !isMarker cs && !startsSpecial cs && !hasIndicator true cs

def allowsSingle (cs : List Char) : Bool :=
  cs.all isPrintable && !hasPair isSpace isBreak cs && !hasPair isBreak isSpace cs

def allowsLiteral (cs : List Char) : Bool :=
  cs.all isPrintable && !hasPair isSpace isBreak cs && !cs.getLast?.any isSpace

/-- A text that means something else when it stands without quotes. -/
def isMistakable (s : String) : Bool :=
  match Plain.meaning? s with
  | some (.text _) => Plain.isPadded s.toList
  | _ => true

/-- How a text is written. -/
def style (s : String) : Style :=
  let cs := s.toList
  if cs.contains '\n' then if allowsLiteral cs then .literal else .double
  else if !isMistakable s && allowsPlain cs then .plain
  else if allowsSingle cs then .single
  else .double

def margin (n : Nat) : String := "".pushn ' ' n

/-- Characters in which each run of line breaks is followed by the margin; `due` if one is open. -/
def indented (indent : Nat) (due : Bool) (write : Char → String) : List Char → String
  | [] => ""
  | c :: rest =>
    if isBreak c then c.toString ++ indented indent true write rest
    else (if due then margin indent else "") ++ write c ++ indented indent false write rest

def single (indent : Nat) (cs : List Char) : String :=
  let closing := if cs.getLast?.any isBreak then margin indent else ""
  "'" ++ indented indent false (fun c => if c == '\'' then "''" else c.toString) cs ++ closing ++
    "'"

/-- A number in capital hexadecimal digits, with leading zeros. -/
def hex (width n : Nat) : String :=
  let digits := (Nat.toDigits 16 n).map Char.toUpper
  "".pushn '0' (width - digits.length) ++ String.ofList digits

def escape (c : Char) : String :=
  match c.toNat with
  | 0x22 => "\\\""
  | 0x5C => "\\\\"
  | 0x00 => "\\0"
  | 0x07 => "\\a"
  | 0x08 => "\\b"
  | 0x09 => "\\t"
  | 0x0A => "\\n"
  | 0x0B => "\\v"
  | 0x0C => "\\f"
  | 0x0D => "\\r"
  | 0x1B => "\\e"
  | 0x85 => "\\N"
  | 0x2028 => "\\L"
  | 0x2029 => "\\P"
  | n =>
    if isPrintable c then c.toString
    else if n ≤ 0xFF then "\\x" ++ hex 2 n
    else if n ≤ 0xFFFF then "\\u" ++ hex 4 n
    else "\\U" ++ hex 8 n

def double (cs : List Char) : String := "\"" ++ String.join (cs.map escape) ++ "\""

/-- The marks behind the bar of a block: the indentation where the first line does not show it, and
what becomes of the last line break. -/
def literalHints (cs : List Char) : String :=
  let indentation := if cs.head?.any fun c => isSpace c || isBreak c then "2" else ""
  let chomping := match cs.reverse with
    | [] => "-"
    | c :: rest =>
      if !isBreak c then "-" else if rest.isEmpty || rest.head?.any isBreak then "+" else ""
  indentation ++ chomping

def literal (indent : Nat) (cs : List Char) : String :=
  "|" ++ literalHints cs ++ "\n" ++ indented indent true Char.toString cs

/-- The end of the line that a scalar leaves open. -/
def lineEnd (s : String) : Style → String
  | .literal => if s.toList.getLast?.any isBreak then "" else "\n"
  | _ => "\n"

/-- A text, without the end of its last line. -/
def text (indent : Nat) (s : String) : String :=
  match style s with
  | .plain => s
  | .single => single indent s.toList
  | .double => double s.toList
  | .literal => literal indent s.toList

/-- A scalar and the end of its line. -/
def scalarLine (indent : Nat) : Document → String
  | .null => "null\n"
  | .flag b => if b then "true\n" else "false\n"
  | .integer n => toString n ++ "\n"
  | .float .nan => ".nan\n"
  | .float (.infinite negative) => if negative then "-.inf\n" else ".inf\n"
  | .float x => Json.floatText x ++ "\n"
  | .text s => text indent s ++ lineEnd s (style s)
  | .list _ => "[]\n"
  | .map _ => "\x7b\x7d\n"

/-- A key that fits on the line of its value: one line of at most 128 octets. -/
def isShortKey (s : String) : Bool := !s.toList.any isBreak && s.utf8ByteSize ≤ 128

/-- Parts of a collection, each on lines of its own from a margin on. -/
def below (indent : Nat) (parts : List String) : String :=
  "\n" ++ String.join (parts.map (margin indent ++ ·))

/-- Parts of a collection of which the first stands on the line at hand. -/
def beside (indent : Nat) : List String → String
  | [] => ""
  | first :: rest => " " ++ first ++ String.join (rest.map (margin indent ++ ·))

mutual

/-- The value of a short key that stands `indent` spaces in. -/
def afterKey (indent : Nat) : Document → String
  | .list (first :: rest) => below indent (items indent (first :: rest))
  | .map (first :: rest) => below (indent + 2) (entries (indent + 2) (first :: rest))
  | v => " " ++ scalarLine (indent + 2) v

/-- A value after an indicator that stands `indent` spaces in. -/
def afterIndicator (indent : Nat) : Document → String
  | .list (first :: rest) => beside (indent + 2) (items (indent + 2) (first :: rest))
  | .map (first :: rest) => beside (indent + 2) (entries (indent + 2) (first :: rest))
  | v => " " ++ scalarLine (indent + 2) v

/-- The items of a list, without their margins. -/
def items (indent : Nat) : List Document → List String
  | [] => []
  | v :: rest => ("-" ++ afterIndicator indent v) :: items indent rest

/-- The entries of a map, without their margins. -/
def entries (indent : Nat) : List (Document × Document) → List String
  | [] => []
  | (.text k, v) :: rest =>
    (if isShortKey k then text (indent + 2) k ++ ":" ++ afterKey indent v
    else
      "? " ++ scalarLine (indent + 2) (.text k) ++ margin indent ++ ":" ++
        afterIndicator indent v) :: entries indent rest
  | (k, v) :: rest =>
    ("?" ++ afterIndicator indent k ++ margin indent ++ ":" ++ afterIndicator indent v) ::
      entries indent rest

end

end Layout

/-- The text of a document. -/
def write : Document → String
  | .list (first :: rest) => String.join (Layout.items 0 (first :: rest))
  | .map (first :: rest) => String.join (Layout.entries 0 (first :: rest))
  | v => Layout.scalarLine 2 v

end NicTuning.Yaml
