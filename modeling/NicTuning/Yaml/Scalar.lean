import NicTuning.Yaml.Cursor

/-!
# The text of scalars

How the three kinds of scalar are read: plain, between quotes, and in blocks. In plain and quoted
scalars one line end counts as a space, and of more the first is dropped. A block keeps its lines,
or folds them in the same way between lines that are not indented further. `none` means that the
text is no scalar of the kind.
-/
namespace NicTuning.Yaml

/-- The blanks between two runs of a scalar: spaces on the line, the first line end, the others. -/
structure Gap where
  spaces : List Char := []
  first : List Char := []
  more : List Char := []
  broken : Bool := false

namespace Gap

/-- What the blanks count for. -/
def text (g : Gap) : List Char :=
  if g.broken then
    if g.first.head? = some '\n' then
      if g.more.isEmpty then [' '] else g.more
    else g.first ++ g.more
  else g.spaces

/-- A line end read after the blanks so far. -/
def addLineEnd (g : Gap) (chars : List Char) : Gap :=
  if g.broken then { g with more := g.more ++ chars }
  else { spaces := [], first := chars, more := [], broken := true }

/-- The blanks in front. A tab is refused on a later line before the column `indent`. -/
def read? (indent : Nat) (fuel : Nat) (g : Gap) (c : Cursor) : Option (Gap × Cursor) :=
  match fuel with
  | 0 => none
  | fuel + 1 =>
    match c.peek with
    | some x =>
      if isGap x then
        if g.broken && x == '\t' && c.column < indent then none
        else
          let g := if g.broken then g else { g with spaces := g.spaces ++ [x] }
          read? indent fuel g (c.skip)
      else if isBreak x then
        let (chars, c) := c.lineEnd
        read? indent fuel (g.addLineEnd chars) c
      else some (g, c)
    | none => some (g, c)

end Gap

/-! ## Plain scalars -/

def isFlowMark (c : Char) : Bool := c == ',' || c == '[' || c == ']' || c == '\x7b' || c == '\x7d'

/-- A run of a plain scalar: up to a blank, a colon before a blank and, in a flow collection, an
indicator. There a colon directly before an indicator is refused. -/
def plainRun? (inFlow : Bool) (fuel : Nat) (c : Cursor) : Option (List Char × Cursor) :=
  match fuel with
  | 0 => none
  | fuel + 1 =>
    match c.peek with
    | none => some ([], c)
    | some x =>
      if isGap x || isBreak x then some ([], c)
      else if inFlow && x == ':' && (c.peekAt 1).any (fun y => isFlowMark y || y == '?') then none
      else if (x == ':' && endsWord (c.peekAt 1)) || (inFlow && isFlowMark x) then some ([], c)
      else (plainRun? inFlow fuel c.skip).map fun (cs, c) => (x :: cs, c)

/-- Runs and the blanks between them. The flag tells whether a line end came last. -/
def plainFrom? (inFlow : Bool) (indent : Nat) (fuel : Nat) (text : List Char) (g : Gap)
    (c : Cursor) : Option (List Char × Bool × Cursor) :=
  match fuel with
  | 0 => none
  | fuel + 1 =>
    if c.anyMarker || c.looksAt '#' then some (text, g.broken, c)
    else do
      let (run, c) ← plainRun? inFlow (c.rest.length + 1) c
      let (text, g) := if run.isEmpty then (text, g) else (text ++ g.text ++ run, {})
      if !(c.peek.any fun x => isGap x || isBreak x) then return (text, g.broken, c)
      let (g, c) ← g.read? indent (c.rest.length + 1) c
      if !inFlow && c.column < indent then return (text, g.broken, c)
      plainFrom? inFlow indent fuel text g c

/-- A plain scalar whose lines stand at the column `indent` or further right. -/
def plain? (inFlow : Bool) (indent : Nat) (c : Cursor) : Option (List Char × Bool × Cursor) :=
  plainFrom? inFlow indent (c.rest.length + 1) [] {} c

/-! ## Quoted scalars -/

def hexValue? (cs : List Char) : Option Nat :=
  cs.foldl (fun acc c => do
    let n ← acc
    let d ← if c.isDigit then some (c.toNat - 48)
      else if 'a' ≤ c ∧ c ≤ 'f' then some (c.toNat - 87)
      else if 'A' ≤ c ∧ c ≤ 'F' then some (c.toNat - 55)
      else none
    return 16 * n + d) (some 0)

/-- The character with a number, surrogates and numbers above U+10FFFF apart. -/
def scalarValue? (n : Nat) : Option Char := if h : n.isValidChar then some ⟨n.toUInt32, by
  have := h
  simp only [Nat.isValidChar] at this
  simp only [UInt32.isValidChar, Nat.isValidChar, Nat.toUInt32]
  have hn : (UInt32.ofNat n).toNat = n := UInt32.toNat_ofNat_of_lt' (by
    simp only [UInt32.size]; omega)
  rw [hn]; exact this⟩ else none

/-- An escape after its backslash: what it stands for and how many characters it takes. -/
def escape? (c : Cursor) : Option (Char × Nat) :=
  let coded (n : Nat) : Option (Char × Nat) :=
    let digits := (c.rest.drop 1).take n
    if digits.length < n then none
    else (hexValue? digits).bind fun v => (scalarValue? v).map fun x => (x, n + 1)
  match c.peek with
  | some '0' => some ('\x00', 1)
  | some 'a' => some ('\x07', 1)
  | some 'b' => some ('\x08', 1)
  | some 't' | some '\t' => some ('\t', 1)
  | some 'n' => some ('\n', 1)
  | some 'v' => some ('\x0b', 1)
  | some 'f' => some ('\x0c', 1)
  | some 'r' => some ('\r', 1)
  | some 'e' => some ('\x1b', 1)
  | some ' ' => some (' ', 1)
  | some '"' => some ('"', 1)
  | some '/' => some ('/', 1)
  | some '\\' => some ('\\', 1)
  | some 'N' => some ('\u0085', 1)
  | some '_' => some ('\u00a0', 1)
  | some 'L' => some ('\u2028', 1)
  | some 'P' => some ('\u2029', 1)
  | some 'x' => coded 2
  | some 'u' => coded 4
  | some 'U' => coded 8
  | _ => none

/-- A run of a quoted scalar, up to a blank or the closing quote. The flag tells whether an escaped
line end closed it. -/
def quotedRun? (single : Bool) (fuel : Nat) (c : Cursor) : Option (List Char × Bool × Cursor) :=
  match fuel with
  | 0 => none
  | fuel + 1 =>
    let after (x : Char) (c : Cursor) :=
      (quotedRun? single fuel c).map fun (cs, b, c) => (x :: cs, b, c)
    match c.peek with
    | none => some ([], false, c)
    | some x =>
      if isGap x || isBreak x then some ([], false, c)
      else if single && x == '\'' && c.peekAt 1 == some '\'' then after '\'' (c.skip 2)
      else if x == (if single then '\'' else '"') then some ([], false, c)
      else if !single && x == '\\' then
        if (c.peekAt 1).any isBreak then some ([], true, c.skip.skipLineEnd)
        else (escape? c.skip).bind fun (y, n) => after y (c.skip (n + 1))
      else after x c.skip

def quotedFrom? (single : Bool) (fuel : Nat) (text : List Char) (c : Cursor) :
    Option (List Char × Cursor) :=
  match fuel with
  | 0 => none
  | fuel + 1 =>
    if c.anyMarker || c.atEnd then none
    else do
      let (run, joined, c) ← quotedRun? single (c.rest.length + 1) c
      let text := text ++ run
      if c.looksAt (if single then '\'' else '"') then return (text, c.skip)
      let (g, c) ← Gap.read? 0 (c.rest.length + 1) { broken := joined } c
      quotedFrom? single fuel (text ++ g.text) c

/-- A scalar whose opening quote has been read. -/
def quoted? (single : Bool) (c : Cursor) : Option (List Char × Cursor) :=
  quotedFrom? single (c.rest.length + 2) [] c

/-! ## Block scalars -/

/-- What happens to the line ends at the end of a block. -/
inductive Chomp
  | strip
  | clip
  | keep
  deriving DecidableEq

def chomp? : Option Char → Option Chomp
  | some '+' => some .keep
  | some '-' => some .strip
  | _ => none

/-- An indentation given as a digit, which must not be zero. -/
def indentDigit? (c : Cursor) : Option (Option Nat × Cursor) :=
  match c.peek with
  | some x =>
    if x.isDigit then if x == '0' then none else some (some (x.toNat - 48), c.skip)
    else some (none, c)
  | none => some (none, c)

/-- The header after the indicator: chomping and indentation in either order. -/
def header? (c : Cursor) : Option (Chomp × Option Nat × Cursor) := do
  match chomp? c.peek with
  | some chomp =>
    let (digit, c) ← indentDigit? c.skip
    return (chomp, digit, c)
  | none =>
    let (digit, c) ← indentDigit? c
    match digit, chomp? c.peek with
    | some _, some chomp => return (chomp, digit, c.skip)
    | _, _ => return (.clip, digit, c)

/-- Empty lines and the indentation of the next line. Without a known indentation the deepest of
these lines counts. A tab may not stand for indentation. -/
def blockBreaks? (known : Option Nat) (fuel : Nat) (deepest : Nat) (breaks : List Char)
    (c : Cursor) : Option (Nat × List Char × Cursor) :=
  match fuel with
  | 0 => none
  | fuel + 1 =>
    let room := (known.map fun n => n - c.column).getD c.rest.length
    let spaces := (c.rest.takeWhile (· == ' ')).length
    let c := c.skip (min room spaces)
    let deepest := max deepest c.column
    let inside := known.all fun n => c.column < n
    if inside && c.looksAt '\t' then none
    else if c.peek.any isBreak then
      let (chars, c) := c.lineEnd
      blockBreaks? known fuel deepest (breaks ++ chars) c
    else some (deepest, breaks, c)

/-- Line by line: `pending` is the last line end, `breaks` the empty lines after it. -/
def blockFrom? (literal : Bool) (indent : Nat) (fuel : Nat) (text pending breaks : List Char)
    (wasBlank : Bool) (c : Cursor) : Option (List Char × List Char × List Char × Cursor) :=
  match fuel with
  | 0 => none
  | fuel + 1 =>
    if c.column == indent && !c.atEnd then do
      let isBlank := c.peek.any isGap
      let joined := !literal && pending.head? == some '\n' && !wasBlank && !isBlank
      let text :=
        if joined then text ++ (if breaks.isEmpty then [' '] else []) ++ breaks
        else text ++ pending ++ breaks
      let (content, c) := c.span fun x => !isBreak x
      let (pending, c) := c.lineEnd
      let (_, breaks, c) ← blockBreaks? (some indent) (c.rest.length + 1) 0 [] c
      blockFrom? literal indent fuel (text ++ content) pending breaks isBlank c
    else some (text, pending, breaks, c)

/-- A block scalar after its indicator; `outer` is the indentation of the block around it. -/
def block? (literal : Bool) (outer : Int) (c : Cursor) : Option (List Char × Cursor) := do
  let (chomp, digit, c) ← header? c
  let c := c.skipWhile isGap
  let c := if c.looksAt '#' then c.skipWhile fun x => !isBreak x else c
  if !endsLine c.peek then none
  let c := c.skipLineEnd
  let known := digit.map fun d => if 0 ≤ outer then outer.toNat + d else d
  let (deepest, breaks, c) ← blockBreaks? known (c.rest.length + 1) 0 [] c
  let indent := known.getD (max deepest (max (outer + 1).toNat 1))
  let fuel := c.rest.length + 1
  let (text, pending, breaks, c) ← blockFrom? literal indent fuel [] [] breaks false c
  let last := if chomp = .strip then [] else pending
  let after := if chomp = .keep then breaks else []
  return (text ++ last ++ after, c)

end NicTuning.Yaml
