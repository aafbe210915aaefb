import NicTuning.Shell.Syntax

/-!
# Tokens of the shell

Source text is cut into words and operators. Quotes and substitutions belong to the word they stand
in. A text that ends inside of one gives a token that says so, and every other one an end.
-/
namespace NicTuning.Shell

inductive Token
  | word (line : Nat) (pieces : Word)
  /-- Digits directly before a redirection operator. -/
  | descriptor (n : Nat)
  | operator (line : Nat) (name : String)
  /-- A redirection to text that stands in the source on the lines after this one. -/
  | document (line : Nat) (text : Word)
  | newline (line : Nat)
  | finish (line : Nat)
  | broken (line : Nat) (complaint : String)

namespace Token

def isBlank (c : Char) : Bool := c == ' ' || c == '\t'

/-- An octet that ends a word unless it is quoted. -/
def endsWord (c : Char) : Bool := isBlank c || "\n;&|<>()".toList.contains c

def isNameStart (c : Char) : Bool := c.isAlpha || c == '_'

def isNameChar (c : Char) : Bool := c.isAlphanum || c == '_'

/-- A parameter with a name of one special octet. -/
def isSpecial (c : Char) : Bool := "@*#?$!-".toList.contains c

/-- Octets up to a single quote. -/
def singleQuoted : Octets → Option (Octets × Octets)
  | [] => none
  | '\'' :: rest => some ([], rest)
  | c :: rest => (singleQuoted rest).map fun (l, r) => (c :: l, r)

/-- The inside of a pair of brackets, of which `depth` are open, with what follows it. Brackets in
quotes do not count; `quoted` says that double quotes are open. -/
def enclosed (opening closing : Char) (depth : Nat) (quoted : Bool) (fuel : Nat) (cs : Octets) :
    Option (Octets × Octets) :=
  match fuel with
  | 0 => none
  | fuel + 1 =>
    let onward (taken rest : Octets) (depth : Nat) (quoted : Bool) :=
      (enclosed opening closing depth quoted fuel rest).map fun (l, r) => (taken ++ l, r)
    match cs with
    | [] => none
    | '\\' :: c :: rest => onward ['\\', c] rest depth quoted
    | '"' :: rest => onward ['"'] rest depth !quoted
    | c :: rest =>
      if c == '\'' && !quoted then
        (singleQuoted rest).bind fun (l, rest) => onward ('\'' :: l ++ ['\'']) rest depth quoted
      else if quoted then onward [c] rest depth quoted
      else if c == closing then
        if depth = 0 then some ([], rest) else onward [c] rest (depth - 1) quoted
      else if c == opening then onward [c] rest (depth + 1) quoted
      else onward [c] rest depth quoted

/-- The inside of backquotes, with its backslashes resolved. -/
def backquoted (quoted : Bool) : Octets → Option (Octets × Octets)
  | [] => none
  | '`' :: rest => some ([], rest)
  | '\\' :: c :: rest =>
    (backquoted quoted rest).map fun (l, r) =>
      if c == '`' || c == '\\' || c == '$' || (quoted && c == '"') then (c :: l, r)
      else ('\\' :: c :: l, r)
  | c :: rest => (backquoted quoted rest).map fun (l, r) => (c :: l, r)

/-- What a pair of braces after a dollar sign asks for. -/
def bracedParameter (quoted : Bool) (inside : Octets) : Option Piece :=
  let named (cs : Octets) : Octets × Octets :=
    match cs with
    | c :: rest =>
      if isNameStart c then (cs.takeWhile isNameChar, cs.dropWhile isNameChar)
      else if c.isDigit then (cs.takeWhile Char.isDigit, cs.dropWhile Char.isDigit)
      else if isSpecial c then ([c], rest)
      else ([], cs)
    | [] => ([], [])
  match inside with
  | '#' :: c :: rest =>
    let (name, after) := named (c :: rest)
    if after.isEmpty && !name.isEmpty then some (.parameter quoted name .length) else none
  | _ =>
    let (name, after) := named inside
    if name.isEmpty then none
    else
      let change? : Option Change :=
        match after with
        | [] => some .value
        | '%' :: '%' :: p => some (.strip true true p)
        | '%' :: p => some (.strip true false p)
        | '#' :: '#' :: p => some (.strip false true p)
        | '#' :: p => some (.strip false false p)
        | ':' :: c :: w => if "-=?+".toList.contains c then some (.orElse true c w) else none
        | c :: w => if "-=?+".toList.contains c then some (.orElse false c w) else none
      change?.map fun change => .parameter quoted name change

/-- What follows a dollar sign, or an error. A lone dollar sign stands for itself. -/
def dollar (quoted : Bool) (cs : Octets) : Except String (Piece × Octets) :=
  let fuel := cs.length + 1
  match cs with
  | '(' :: '(' :: rest =>
    match enclosed '(' ')' 0 false fuel rest with
    | some (inside, ')' :: rest) => .ok (.arithmetic quoted inside, rest)
    | _ => .error "Syntax error: Missing '))'"
  | '(' :: rest =>
    match enclosed '(' ')' 0 false fuel rest with
    | some (inside, rest) => .ok (.output quoted inside, rest)
    | none => .error "Syntax error: end of file unexpected (expecting \")\")"
  | '\x7b' :: rest =>
    match enclosed '\x7b' '\x7d' 0 false fuel rest with
    | some (inside, rest) =>
      match bracedParameter quoted inside with
      | some piece => .ok (piece, rest)
      | none => .error "Bad substitution"
    | none => .error "Syntax error: Missing '\x7d'"
  | c :: rest =>
    if isNameStart c then
      .ok (.parameter quoted (cs.takeWhile isNameChar) .value, cs.dropWhile isNameChar)
    else if isSpecial c || c.isDigit then .ok (.parameter quoted [c] .value, rest)
    else .ok (.octet quoted '$', cs)
  | [] => .ok (.octet quoted '$', [])

/-- The pieces up to the closing double quote, or the pieces of a whole document, in which such a
quote is an octet like any other. -/
def doubleQuoted (document : Bool) (fuel : Nat) (cs : Octets) : Except String (Word × Octets) :=
  match fuel with
  | 0 => .error "Syntax error: Unterminated quoted string"
  | fuel + 1 =>
    match cs with
    | [] =>
      if document then .ok ([], []) else .error "Syntax error: Unterminated quoted string"
    | '\\' :: c :: rest => do
      let (w, r) ← doubleQuoted document fuel rest
      if c == '\n' then return (w, r)
      else if "$`\\".toList.contains c || (c == '"' && !document) then
        return (.octet true c :: w, r)
      else return (.octet true '\\' :: .octet true c :: w, r)
    | '$' :: rest => do
      let (piece, rest) ← dollar true rest
      let (w, r) ← doubleQuoted document fuel rest
      return (piece :: w, r)
    | '`' :: rest =>
      match backquoted true rest with
      | none => .error "Syntax error: EOF in backquote substitution"
      | some (source, rest) => do
        let (w, r) ← doubleQuoted document fuel rest
        return (.output true source :: w, r)
    | c :: rest =>
      if c == '"' && !document then .ok ([], rest)
      else do
        let (w, r) ← doubleQuoted document fuel rest
        return (.octet true c :: w, r)

def orNothing (w : Word) : Word := if w.isEmpty then [.nothing] else w

/-- The pieces of the word in front. With `whole`, blanks and operators belong to it. -/
def pieces (whole : Bool) (fuel : Nat) (cs : Octets) : Except String (Word × Octets) :=
  match fuel with
  | 0 => .ok ([], cs)
  | fuel + 1 =>
    match cs with
    | [] => .ok ([], [])
    | '\\' :: '\n' :: rest => pieces whole fuel rest
    | '\\' :: c :: rest => do
      let (w, r) ← pieces whole fuel rest
      return (.octet true c :: w, r)
    | '\'' :: rest =>
      match singleQuoted rest with
      | none => .error "Syntax error: Unterminated quoted string"
      | some (inside, rest) => do
        let (w, r) ← pieces whole fuel rest
        return (orNothing (inside.map (.octet true ·)) ++ w, r)
    | '"' :: rest => do
      let (inside, rest) ← doubleQuoted false (rest.length + 1) rest
      let (w, r) ← pieces whole fuel rest
      return (orNothing inside ++ w, r)
    | '$' :: rest => do
      let (piece, rest) ← dollar false rest
      let (w, r) ← pieces whole fuel rest
      return (piece :: w, r)
    | '`' :: rest =>
      match backquoted false rest with
      | none => .error "Syntax error: EOF in backquote substitution"
      | some (source, rest) => do
        let (w, r) ← pieces whole fuel rest
        return (.output false source :: w, r)
    | c :: rest =>
      if !whole && endsWord c then .ok ([], cs)
      else do
        let (w, r) ← pieces whole fuel rest
        return (.octet false c :: w, r)

/-- The operators, longer ones first. -/
def operators : List String :=
  ["<<-", "&&", "||", ";;", "<<", ">>", "<&", ">&", "<>", ">|", "&", "|", ";", "<", ">", "(", ")"]

/-- The operator in front, and what follows it. -/
def operator? (cs : Octets) : Option (String × Octets) :=
  (operators.find? fun o => o.toList.isPrefixOf cs).map fun o => (o, cs.drop o.length)

/-- The lines up to the one that is the delimiter, how many lines that takes, and what follows. -/
def documentLines (dropTabs : Bool) (delimiter : Octets) (fuel : Nat) (cs : Octets) :
    Octets × Nat × Octets :=
  match fuel, cs with
  | 0, cs => ([], 0, cs)
  | _, [] => ([], 0, [])
  | fuel + 1, cs =>
    let cs := if dropTabs then cs.dropWhile (· == '\t') else cs
    let line := cs.takeWhile (· != '\n')
    let after := cs.drop line.length
    if line == delimiter then ([], 1, after.tail)
    else
      let (text, n, rest) := documentLines dropTabs delimiter fuel after.tail
      (line ++ after.take 1 ++ text, n + 1, rest)

/-- The octets that a delimiter spells, and whether some of them are quoted. -/
def delimiter (w : Word) : Octets × Bool :=
  (w.filterMap fun | .octet _ c => some c | _ => none,
    w.any fun | .octet quoted _ => quoted | .nothing => true | _ => false)

/-- The document whose delimiter is in front: its text, how many lines it takes, and what is left
without it. There is none if the delimiter is no word. -/
def document? (dropTabs : Bool) (cs : Octets) : Except String (Option (Word × Nat × Octets)) := do
  let (w, rest) ← pieces false (cs.length + 1) (cs.dropWhile isBlank)
  if w.isEmpty then return none
  let (ending, quoted) := delimiter w
  let onLine := rest.takeWhile (· != '\n')
  let below := rest.drop onLine.length
  let (body, n, after) := documentLines dropTabs ending (below.length + 1) below.tail
  let text ← if quoted then .ok (body.map (.octet true ·))
    else (doubleQuoted true (body.length + 1) body).map Prod.fst
  return some (text, n, onLine ++ below.take 1 ++ after)

/-- The tokens of a source text. Documents have taken `late` lines from below this one. -/
def scan (fuel line late : Nat) (cs : Octets) : List Token :=
  match fuel with
  | 0 => [.finish line]
  | fuel + 1 =>
    match cs with
    | [] => [.finish (line + late)]
    | '\n' :: rest => .newline line :: scan fuel (line + late + 1) 0 rest
    | '\\' :: '\n' :: rest => scan fuel (line + 1) late rest
    | '#' :: rest => scan fuel line late (rest.dropWhile (· != '\n'))
    | c :: rest =>
      if isBlank c then scan fuel line late rest
      else
        match operator? cs with
        | some (o, rest) =>
          match if o.startsWith "<<" then document? (o == "<<-") rest else .ok none with
          | .error complaint => [.broken line complaint]
          | .ok none => .operator line o :: scan fuel line late rest
          | .ok (some (text, n, rest)) =>
            .document line text :: scan fuel line (late + n) rest
        | none =>
          match pieces false (cs.length + 1) cs with
          | .error complaint => [.broken line complaint]
          | .ok (w, rest) =>
            let lines := (cs.take (cs.length - rest.length)).count '\n'
            let next := scan fuel (line + lines) late rest
            let digits := (Word.plain? w).filter fun d => d.all Char.isDigit
            match digits, rest.head? with
            | some d, some '<' | some d, some '>' =>
              .descriptor (Octets.value d) :: next
            | _, _ => .word line w :: next

def ofSource (source : Octets) : List Token := scan (source.length + 1) 1 0 source

end Token

end NicTuning.Shell
