import NicTuning.Json.Number

/-!
# Reading JSON

`value? depth cs` reads the value at the front of `cs` and gives what is left. Nothing else is
accepted than the grammar says, and no value may hold more than `depth` containers in one another.
A text escape must make up a Unicode scalar value, two escapes together where they are surrogates.
-/
namespace NicTuning.Json

def isSpace (c : Char) : Bool := c == ' ' || c == '\n' || c == '\t' || c == '\r'

def skipSpace (cs : List Char) : List Char := cs.dropWhile isSpace

/-- The containers that may stand in one another. -/
def maxDepth : Nat := 127

def hexDigit? (c : Char) : Option Nat :=
  if c.isDigit then some (c.toNat - 48)
  else if 'a' ≤ c ∧ c ≤ 'f' then some (c.toNat - 87)
  else if 'A' ≤ c ∧ c ≤ 'F' then some (c.toNat - 55)
  else none

def hex4? (a b c d : Char) : Option Nat := do
  return 4096 * (← hexDigit? a) + 256 * (← hexDigit? b) + 16 * (← hexDigit? c) + (← hexDigit? d)

/-- The character that a one-letter escape stands for. -/
def escaped? : Char → Option Char
  | '"' => some '"'
  | '\\' => some '\\'
  | '/' => some '/'
  | 'b' => some '\x08'
  | 'f' => some '\x0c'
  | 'n' => some '\n'
  | 'r' => some '\r'
  | 't' => some '\t'
  | _ => none

def isLeading (n : Nat) : Bool := 0xD800 ≤ n && n < 0xDC00

def isTrailing (n : Nat) : Bool := 0xDC00 ≤ n && n < 0xE000

/-- The characters of a text up to its closing quote. -/
def chars? : List Char → Option (List Char × List Char)
  | [] => none
  | '"' :: rest => some ([], rest)
  | '\\' :: 'u' :: a :: b :: c :: d :: '\\' :: 'u' :: a' :: b' :: c' :: d' :: rest => do
    let n ← hex4? a b c d
    if isLeading n then
      let n' ← hex4? a' b' c' d'
      if isTrailing n' then
        let (cs, rest) ← chars? rest
        return (Char.ofNat (0x10000 + 1024 * (n - 0xD800) + (n' - 0xDC00)) :: cs, rest)
      else none
    else if isTrailing n then none
    else
      let (cs, rest) ← chars? ('\\' :: 'u' :: a' :: b' :: c' :: d' :: rest)
      return (Char.ofNat n :: cs, rest)
  | '\\' :: 'u' :: a :: b :: c :: d :: rest => do
    let n ← hex4? a b c d
    if isLeading n || isTrailing n then none
    else
      let (cs, rest) ← chars? rest
      return (Char.ofNat n :: cs, rest)
  | '\\' :: c :: rest => do
    let x ← escaped? c
    let (cs, rest) ← chars? rest
    return (x :: cs, rest)
  | c :: rest =>
    if c.toNat < 0x20 || c == '\\' then none
    else (chars? rest).map fun (cs, rest) => (c :: cs, rest)

/-- A text whose opening quote has been read. -/
def text? (cs : List Char) : Option (String × List Char) :=
  (chars? cs).map fun (cs, rest) => (String.ofList cs, rest)

/-- The rest of a text that begins with `word`. -/
def word? (word : String) (cs : List Char) : Option (List Char) :=
  if word.toList.isPrefixOf cs then some (cs.drop word.length) else none

mutual

/-- The value at the front; `fuel` bounds the values, items and entries read one after another. -/
def valueWith (fuel depth : Nat) (cs : List Char) : Option (Document × List Char) :=
  match fuel with
  | 0 => none
  | fuel + 1 =>
    match skipSpace cs with
    | [] => none
    | '"' :: rest => (text? rest).map fun (s, rest) => (.text s, rest)
    | '[' :: rest =>
      if depth = 0 then none
      else match skipSpace rest with
        | ']' :: rest => some (.list [], rest)
        | rest => (itemsWith fuel (depth - 1) rest).map fun (l, rest) => (.list l, rest)
    | '\x7b' :: rest =>
      if depth = 0 then none
      else match skipSpace rest with
        | '\x7d' :: rest => some (.map [], rest)
        | rest => (entriesWith fuel (depth - 1) rest).map fun (l, rest) => (.map l, rest)
    | '-' :: rest => number? true rest
    | 'n' :: rest => (word? "ull" rest).map fun rest => (.null, rest)
    | 't' :: rest => (word? "rue" rest).map fun rest => (.flag true, rest)
    | 'f' :: rest => (word? "alse" rest).map fun rest => (.flag false, rest)
    | rest => number? false rest

/-- At least one item, and the closing bracket. -/
def itemsWith (fuel depth : Nat) (cs : List Char) : Option (List Document × List Char) :=
  match fuel with
  | 0 => none
  | fuel + 1 => do
    let (v, rest) ← valueWith fuel depth cs
    match skipSpace rest with
    | ']' :: rest => return ([v], rest)
    | ',' :: rest =>
      let (l, rest) ← itemsWith fuel depth rest
      return (v :: l, rest)
    | _ => none

/-- At least one entry, and the closing brace. -/
def entriesWith (fuel depth : Nat) (cs : List Char) :
    Option (List (Document × Document) × List Char) :=
  match fuel with
  | 0 => none
  | fuel + 1 =>
    match skipSpace cs with
    | '"' :: rest => do
      let (k, rest) ← text? rest
      match skipSpace rest with
      | ':' :: rest =>
        let (v, rest) ← valueWith fuel depth rest
        match skipSpace rest with
        | '\x7d' :: rest => return ([(.text k, v)], rest)
        | ',' :: rest =>
          let (l, rest) ← entriesWith fuel depth rest
          return ((.text k, v) :: l, rest)
        | _ => none
      | _ => none
    | _ => none

end

/-- The value at the front of a text and what follows it. Each step reads a character, so the
length of the text bounds their number. -/
def value? (depth : Nat) (cs : List Char) : Option (Document × List Char) :=
  valueWith (cs.length + 1) depth cs

/-- A text that holds one value and nothing else. -/
def read? (s : String) : Option Document :=
  match value? maxDepth s.toList with
  | some (v, rest) => if (skipSpace rest).isEmpty then some v else none
  | none => none

end NicTuning.Json
