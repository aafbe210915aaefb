import NicTuning.Yaml.Scalar

/-!
# Tokens of a YAML text

The text is cut into indicators, properties and scalars, and the indentation of block collections
becomes tokens of its own. That something is a key shows only at its colon, so each place where a
key may begin is kept until the colon comes or the key has become too long; the token for the key
then goes in at that place.
-/
namespace NicTuning.Yaml

inductive Token
  | version (major minor : Nat)
  | shorthand (handle expansion : String)
  | documentStart
  | documentEnd
  | blockSequence
  | blockMapping
  | blockEnd
  | flowSequence
  | flowSequenceEnd
  | flowMapping
  | flowMappingEnd
  | blockEntry
  | flowEntry
  | key
  | value
  | alias (name : String)
  | anchor (name : String)
  | tag (handle suffix : String)
  | scalar (plain : Bool) (text : String)
  | textEnd
  deriving DecidableEq

/-- A place where a key may begin. A required key stands at the indentation of its block. -/
structure KeyPlace where
  required : Bool
  tokens : Nat
  index : Nat
  line : Nat
  column : Nat

/-- The tokens so far and what decides on the next one. `places` has one entry per flow collection
around the cursor, the innermost first, and one more. -/
structure Lexer where
  cursor : Cursor
  tokens : Array Token := #[]
  indent : Int := -1
  outer : List Int := []
  keyAllowed : Bool := true
  places : List (Option KeyPlace) := [none]

namespace Lexer

def inFlow (l : Lexer) : Bool := 1 < l.places.length

def push (l : Lexer) (t : Token) : Lexer := { l with tokens := l.tokens.push t }

/-- The token for `n` characters in front. -/
def take (l : Lexer) (n : Nat) (t : Token) : Lexer :=
  { l with cursor := l.cursor.skip n }.push t

/-- Gives up the innermost key place, unless it has to become a key. -/
def dropPlace? (l : Lexer) : Option Lexer :=
  match l.places with
  | some p :: rest => if p.required then none else some { l with places := none :: rest }
  | _ => some l

/-- Remembers that a key may begin here. -/
def markPlace? (l : Lexer) : Option Lexer :=
  if !l.keyAllowed then some l
  else do
    let l ← l.dropPlace?
    let p : KeyPlace :=
      { required := !l.inFlow && l.indent == l.cursor.column, tokens := l.tokens.size,
        index := l.cursor.index, line := l.cursor.line, column := l.cursor.column }
    return { l with places := some p :: l.places.tail }

/-- A key ends on its line and within 1024 characters. -/
def dropStale? (l : Lexer) : Option Lexer := do
  let places ← l.places.mapM fun p? =>
    match p? with
    | some p =>
      if p.line < l.cursor.line || p.index + 1024 < l.cursor.index then
        if p.required then none else some none
      else some (some p)
    | none => some none
  return { l with places }

/-- Closes the blocks that stand further right than `column`. -/
def closeBlocks (column : Int) (l : Lexer) : Lexer :=
  if l.inFlow then l
  else go l.outer l
where
  go : List Int → Lexer → Lexer
    | [], l => if l.indent ≤ column then l else { l.push .blockEnd with indent := -1, outer := [] }
    | i :: outer, l =>
      if l.indent ≤ column then l else go outer { l.push .blockEnd with indent := i, outer }

/-- Opens a block at `column`, with its token at the place `at?` or else at the end. -/
def openBlock (column : Nat) (at? : Option Nat) (t : Token) (l : Lexer) : Lexer :=
  if l.inFlow || (column : Int) ≤ l.indent then l
  else
    let tokens := match at? with
      | some i => l.tokens.insertIdxIfInBounds i t
      | none => l.tokens.push t
    { l with tokens, indent := column, outer := l.indent :: l.outer }

/-- Skips blanks, comments and line ends. A tab is no indentation where a key may begin. -/
def skipBlanks (fuel : Nat) (l : Lexer) : Lexer :=
  match fuel with
  | 0 => l
  | fuel + 1 =>
    let c := if l.cursor.index = 0 && l.cursor.looksAt '\uFEFF' then l.cursor.skip else l.cursor
    let c := c.skipWhile fun x => x == ' ' || ((l.inFlow || !l.keyAllowed) && x == '\t')
    let c := if c.looksAt '#' then c.skipWhile fun x => !isBreak x else c
    if c.peek.any isBreak then
      skipBlanks fuel { l with cursor := c.skipLineEnd, keyAllowed := l.keyAllowed || !l.inFlow }
    else { l with cursor := c }

/-! ## Directives and properties -/

def decimal (cs : List Char) : Nat := cs.foldl (fun n c => 10 * n + (c.toNat - 48)) 0

/-- One to nine digits. -/
def versionNumber? (c : Cursor) : Option (Nat × Cursor) :=
  let (digits, c) := c.span Char.isDigit
  if digits.isEmpty || 9 < digits.length then none else some (decimal digits, c)

def isUriChar (inTag : Bool) (c : Char) : Bool :=
  isWordChar c || ";/?:@&=+$.!~*'()%".toList.contains c ||
    (!inTag && (c == ',' || c == '[' || c == ']'))

/-- The octets of `%` escapes in front, which have to be UTF-8. -/
def uriOctets (fuel : Nat) (cs : List Char) : Option (List UInt8 × List Char) :=
  match fuel, cs with
  | fuel + 1, '%' :: a :: b :: rest => do
    let n ← hexValue? [a, b]
    let (bytes, rest) ← uriOctets fuel rest
    return (UInt8.ofNat n :: bytes, rest)
  | _, '%' :: _ => none
  | _, cs => some ([], cs)

/-- A URI with its escapes decoded. -/
def uriText? (fuel : Nat) (cs : List Char) : Option (List Char) :=
  match fuel, cs with
  | _, [] => some []
  | 0, _ => none
  | fuel + 1, '%' :: rest => do
    let (bytes, rest) ← uriOctets (rest.length + 1) ('%' :: rest)
    let text ← String.fromUTF8? ⟨bytes.toArray⟩
    let more ← uriText? fuel rest
    return text.toList ++ more
  | fuel + 1, c :: rest => (uriText? fuel rest).map (c :: ·)

/-- The URI in front; `given` characters of it have been read before. -/
def uri? (inTag : Bool) (given : Nat) (c : Cursor) : Option (List Char × Cursor) := do
  let (chars, c) := c.span (isUriChar inTag)
  if given = 0 && chars.isEmpty then none
  let text ← uriText? (chars.length + 1) chars
  return (text, c)

/-- A tag handle: an exclamation mark, a name, and a second mark if there is one. -/
def handle? (directive : Bool) (c : Cursor) : Option (List Char × Cursor) :=
  if !c.looksAt '!' then none
  else
    let (name, c) := c.skip.span isWordChar
    if c.looksAt '!' then some ('!' :: name ++ ['!'], c.skip)
    else if directive && !name.isEmpty then none
    else some ('!' :: name, c)

/-- A directive: its name, its values, and nothing but a comment after them. -/
def directive? (l : Lexer) : Option Lexer := do
  let (name, c) := l.cursor.skip.span isWordChar
  if name.isEmpty || !endsWord c.peek then none
  let (t, c) ←
    match String.ofList name with
    | "YAML" => do
      let (major, c) ← versionNumber? (c.skipWhile isGap)
      if !c.looksAt '.' then none
      let (minor, c) ← versionNumber? c.skip
      pure (Token.version major minor, c)
    | "TAG" => do
      let (handle, c) ← handle? true (c.skipWhile isGap)
      if !c.peek.any isGap then none
      let (expansion, c) ← uri? false 0 (c.skipWhile isGap)
      if !endsWord c.peek then none
      pure (Token.shorthand (String.ofList handle) (String.ofList expansion), c)
    | _ => none
  let c := c.skipWhile isGap
  let c := if c.looksAt '#' then c.skipWhile fun x => !isBreak x else c
  if !endsLine c.peek then none
  return { l with cursor := c.skipLineEnd }.push t

/-- The name of an anchor or alias. -/
def name? (c : Cursor) : Option (String × Cursor) :=
  let (name, c) := c.span isWordChar
  let ended := endsWord c.peek || c.peek.any fun x => "?:,]\x7d%@`".toList.contains x
  if name.isEmpty || !ended then none else some (String.ofList name, c)

/-- A tag: verbatim between angle brackets, or a handle and a suffix. -/
def tag? (l : Lexer) : Option Lexer := do
  let c := l.cursor
  let ((handle, suffix), c) ←
    if c.peekAt 1 == some '<' then do
      let (uri, c) ← uri? false 0 (c.skip 2)
      if !c.looksAt '>' then none
      pure ((([] : List Char), uri), c.skip)
    else do
      let (handle, c) ← handle? false c
      if 1 < handle.length && handle.getLast? == some '!' then
        let (suffix, c) ← uri? true 0 c
        pure ((handle, suffix), c)
      else
        let (more, c) ← uri? true handle.length c
        let suffix := handle.tail ++ more
        pure (if suffix.isEmpty then ([], ['!']) else (['!'], suffix), c)
  if !(l.inFlow && c.looksAt ',') && !endsWord c.peek then none
  return { l with cursor := c }.push (.tag (String.ofList handle) (String.ofList suffix))

/-! ## The next token -/

/-- A property or a scalar that a key may begin with. -/
def keyed? (l : Lexer) (read : Lexer → Option Lexer) : Option Lexer := do
  let l ← l.markPlace?
  read { l with keyAllowed := false }

def openFlow? (t : Token) (l : Lexer) : Option Lexer := do
  let l ← l.markPlace?
  return { l with places := none :: l.places, keyAllowed := true }.take 1 t

def closeFlow? (t : Token) (l : Lexer) : Option Lexer := do
  let l ← l.dropPlace?
  let places := if l.inFlow then l.places.tail else l.places
  return { l with places, keyAllowed := false }.take 1 t

def entry? (l : Lexer) : Option Lexer := do
  if !l.inFlow && !l.keyAllowed then none
  let l ← (l.openBlock l.cursor.column none .blockSequence).dropPlace?
  return { l with keyAllowed := true }.take 1 .blockEntry

def key? (l : Lexer) : Option Lexer := do
  if !l.inFlow && !l.keyAllowed then none
  let l ← (l.openBlock l.cursor.column none .blockMapping).dropPlace?
  return { l with keyAllowed := !l.inFlow }.take 1 .key

def value? (l : Lexer) : Option Lexer :=
  match l.places with
  | some p :: places =>
    let l := { l with tokens := l.tokens.insertIdxIfInBounds p.tokens .key }
    let l := l.openBlock p.column (some p.tokens) .blockMapping
    some ({ l with places := none :: places, keyAllowed := false }.take 1 .value)
  | _ =>
    if !l.inFlow && !l.keyAllowed then none
    else
      let l := l.openBlock l.cursor.column none .blockMapping
      some ({ l with keyAllowed := !l.inFlow }.take 1 .value)

def blockScalar? (literal : Bool) (l : Lexer) : Option Lexer := do
  let l ← l.dropPlace?
  let (text, c) ← block? literal l.indent l.cursor.skip
  return { l with cursor := c, keyAllowed := true }.push (.scalar false (String.ofList text))

def quotedScalar? (single : Bool) (l : Lexer) : Option Lexer :=
  l.keyed? fun l => do
    let (text, c) ← quoted? single l.cursor.skip
    return { l with cursor := c }.push (.scalar false (String.ofList text))

def plainScalar? (l : Lexer) : Option Lexer :=
  l.keyed? fun l => do
    let (text, broken, c) ← plain? l.inFlow (l.indent + 1).toNat l.cursor
    return { l with cursor := c, keyAllowed := broken }.push (.scalar true (String.ofList text))

/-- A directive or a document marker ends every block. -/
def atTop? (l : Lexer) : Option Lexer := do
  let l ← (l.closeBlocks (-1)).dropPlace?
  return { l with keyAllowed := false }

/-- Whether a plain scalar may begin with this character. -/
def startsPlain (l : Lexer) (x : Char) : Bool :=
  let next := l.cursor.peekAt 1
  if x == '-' then !next.any isGap
  else if x == '?' || x == ':' then !l.inFlow && !endsWord next
  else !"\t,[]\x7b\x7d#&*!|>'\"%@`".toList.contains x

/-- Cuts off the next token. -/
def next? (l : Lexer) : Option Lexer := do
  let l ← (l.skipBlanks (l.cursor.rest.length + 1)).dropStale?
  let l := l.closeBlocks l.cursor.column
  let c := l.cursor
  match c.peek with
  | none =>
    let l ← l.atTop?
    return l.push .textEnd
  | some x =>
    if c.column = 0 && x == '%' then l.atTop?.bind directive?
    else if c.marker '-' then l.atTop?.map (·.take 3 .documentStart)
    else if c.marker '.' then l.atTop?.map (·.take 3 .documentEnd)
    else if x == '[' then l.openFlow? .flowSequence
    else if x == '\x7b' then l.openFlow? .flowMapping
    else if x == ']' then l.closeFlow? .flowSequenceEnd
    else if x == '\x7d' then l.closeFlow? .flowMappingEnd
    else if x == ',' then
      let l ← l.dropPlace?
      return { l with keyAllowed := true }.take 1 .flowEntry
    else if x == '-' && endsWord (c.peekAt 1) then l.entry?
    else if x == '?' && (l.inFlow || endsWord (c.peekAt 1)) then l.key?
    else if x == ':' && (l.inFlow || endsWord (c.peekAt 1)) then l.value?
    else if x == '*' then l.keyed? fun l => do
      let (name, c) ← name? l.cursor.skip
      return { l with cursor := c }.push (.alias name)
    else if x == '&' then l.keyed? fun l => do
      let (name, c) ← name? l.cursor.skip
      return { l with cursor := c }.push (.anchor name)
    else if x == '!' then l.keyed? tag?
    else if x == '|' && !l.inFlow then l.blockScalar? true
    else if x == '>' && !l.inFlow then l.blockScalar? false
    else if x == '\'' then l.quotedScalar? true
    else if x == '"' then l.quotedScalar? false
    else if l.startsPlain x then l.plainScalar?
    else none

def run? (fuel : Nat) (l : Lexer) : Option (Array Token) :=
  match fuel with
  | 0 => none
  | fuel + 1 => do
    let l ← l.next?
    if l.tokens.back? = some .textEnd then return l.tokens
    run? fuel l

end Lexer

/-- The characters that may stand in a YAML text. -/
def isAllowed (c : Char) : Bool :=
  let n := c.toNat
  n == 9 || n == 0xA || n == 0xD || (0x20 ≤ n && n ≤ 0x7E) || n == 0x85 ||
    (0xA0 ≤ n && n ≤ 0xFFFD) || 0x10000 ≤ n

/-- The tokens of a text, whose first character may be a byte order mark. Each step takes a
character or ends the text. -/
def tokens? (s : String) : Option (List Token) :=
  let cs := if s.toList.head? = some '\uFEFF' then s.toList.tail else s.toList
  if cs.all isAllowed then
    (Lexer.run? (cs.length + 2) { cursor := .start cs }).map Array.toList
  else none

end NicTuning.Yaml
