import NicTuning.Shell.Token

/-!
# Reading commands

Tokens are read into commands. A source text is read and carried out line by line, where a line
goes on as long as a command in it is not complete, so a mistake on a later line does not keep the
earlier ones from running.
-/
namespace NicTuning.Shell

/-- What is wrong with a source text, and on which line. -/
structure Complaint where
  line : Nat
  text : String

namespace Parser

/-- Takes tokens from the front. -/
abbrev Reading := StateT (List Token) (Except Complaint)

/-- Words with a meaning of their own where a command may begin. -/
def reserved : List String :=
  ["!", "case", "do", "done", "elif", "else", "esac", "fi", "for", "if", "in", "then", "until",
    "while", "\x7b", "\x7d"]

/-- Words and operators that cannot begin a command but end a list of them. -/
def closing : List String :=
  [")", ";;", "do", "done", "elif", "else", "esac", "fi", "then", "\x7d"]

def redirecting : List String := ["<", ">", ">>", "<&", ">&", "<>", ">|", "<<", "<<-"]

/-- The operator or the reserved word that a token is. -/
def mark? : Token → Option String
  | .operator _ name => some name
  | .word _ w => ((Word.plain? w).map String.ofList).filter reserved.contains
  | _ => none

/-- How a token is called in complaints. -/
def called (t : Token) : String :=
  match t with
  | .newline _ => "newline"
  | .finish _ => "end of file"
  | .descriptor _ | .document .. => "redirection"
  | t =>
    match mark? t with
    | some name =>
      if redirecting.contains name then "redirection"
      else "\"" ++ name ++ "\""
    | none => "word"

def lineOf : Token → Nat
  | .word line _ | .operator line _ | .document line _ => line
  | .newline line | .finish line | .broken line _ => line
  | .descriptor _ => 1

/-- Complains about the token in front, which stands where another one has to. -/
def unexpected {α : Type} (wanted : Option String) : Reading α := do
  match ← get with
  | .broken line complaint :: _ => throw ⟨line, complaint⟩
  | t :: _ =>
    throw ⟨lineOf t, "Syntax error: " ++ called t ++ " unexpected" ++
      match wanted with
      | some name => " (expecting " ++ name ++ ")"
      | none => ""⟩
  | [] => throw ⟨1, "Syntax error: end of file unexpected"⟩

def skip : Reading Unit := modify List.tail

/-- The operator or reserved word in front. -/
def mark : Reading (Option String) := do return (← get).head?.bind mark?

/-- Takes the operator or reserved word if it is in front. -/
def takes (name : String) : Reading Bool := do
  if (← mark) == some name then
    skip
    return true
  else return false

/-- Takes the operator or reserved word that has to come next. -/
def expect (name : String) : Reading Unit := do
  unless ← takes name do unexpected (some ("\"" ++ name ++ "\""))

def skipNewlines : Reading Unit :=
  modify (·.dropWhile (· matches .newline _))

def atNewline : Reading Bool := do return (← get).head?.any (· matches .newline _)

def atFinish : Reading Bool := do return (← get).head?.any (· matches .finish _)

/-- The word in front. -/
def word? : Reading (Option Word) := do
  match ← get with
  | .word _ w :: rest =>
    set rest
    return some w
  | _ => return none

def isName (cs : Octets) : Bool :=
  match cs with
  | c :: _ => Token.isNameStart c && cs.all Token.isNameChar
  | [] => false

/-- The name that a word spells. -/
def name? (w : Word) : Option Octets := (Word.plain? w).filter isName

/-- A word that gives a variable a value. -/
def assignment? (w : Word) : Option (Octets × Word) :=
  let isEqual : Piece → Bool := (· == .octet false '=')
  if w.any isEqual then
    (name? (w.takeWhile (!isEqual ·))).map fun name => (name, (w.dropWhile (!isEqual ·)).tail)
  else none

/-- A redirection in front, if there is one. -/
def redirection? : Reading (Option Redirection) := do
  let given ← (do
    match ← get with
    | .descriptor n :: rest =>
      set rest
      return some n
    | _ => return none : Reading (Option Nat))
  match ← get, (← mark).filter redirecting.contains with
  | .document _ text :: rest, _ =>
    set rest
    return some (.document (given.getD 0) text)
  | _, none => if given.isSome then unexpected none else return none
  | _, some o =>
    skip
    match ← word? with
    | none => unexpected none
    | some w =>
      let reads := o.startsWith "<"
      let n := given.getD (if reads then 0 else 1)
      return some (if o == "<&" || o == ">&" then .duplicate n w
        else if reads then .read n w else .write n (o == ">>") w)

/-- The redirections after a compound command. -/
def redirections (fuel : Nat) : Reading (List Redirection) := do
  match fuel with
  | 0 => return []
  | fuel + 1 =>
    match ← redirection? with
    | none => return []
    | some r => return r :: (← redirections fuel)

def redirect (body : Command) (l : List Redirection) : Command :=
  if l.isEmpty then body else .redirected body l

/-- The words up to the first other token. -/
def words (fuel : Nat) : Reading (List Word) := do
  match fuel with
  | 0 => return []
  | fuel + 1 =>
    match ← word? with
    | none => return []
    | some w => return w :: (← words fuel)

/-- The patterns of an arm with the bracket after them. -/
def patterns (fuel : Nat) : Reading (List Word) := do
  match fuel with
  | 0 => unexpected none
  | fuel + 1 =>
    match ← word? with
    | none => unexpected (some "\")\"")
    | some w =>
      if ← takes "|" then return w :: (← patterns fuel)
      else
        expect ")"
        return [w]

/-- A simple command so far; its parts are kept in reverse. -/
structure Simple where
  line : Nat
  assignments : List (Octets × Word)
  words : List Word
  redirections : List Redirection

def Simple.command (s : Simple) : Command :=
  redirect (.simple s.line s.assignments.reverse s.words.reverse) s.redirections.reverse

/-- The words, assignments and redirections of a simple command. -/
def simple (fuel : Nat) (s : Simple) : Reading Simple := do
  match fuel with
  | 0 => return s
  | fuel + 1 =>
    match ← word? with
    | some w =>
      match if s.words.isEmpty then assignment? w else none with
      | some a => simple fuel { s with assignments := a :: s.assignments }
      | none => simple fuel { s with words := w :: s.words }
    | none =>
      match ← redirection? with
      | some r => simple fuel { s with redirections := r :: s.redirections }
      | none => return s

mutual

/-- Commands up to a token that closes them. Unless `mayBeEmpty`, there is at least one. -/
def list (fuel : Nat) (mayBeEmpty : Bool) : Reading Command := do
  match fuel with
  | 0 => unexpected none
  | fuel + 1 =>
    skipNewlines
    if (← atFinish) || (mayBeEmpty && (← mark).any closing.contains) then return .skip
    let first ← conditional fuel
    if ← takes "&" then return .inOrder (.background first) (← list fuel true)
    else if (← takes ";") || (← atNewline) then return .inOrder first (← list fuel true)
    else return first

/-- Pipelines of which the next one runs if this one succeeds, or if it fails. -/
def conditional (fuel : Nat) : Reading Command := do
  match fuel with
  | 0 => unexpected none
  | fuel + 1 => conditionalRest fuel (← pipeline fuel)

def conditionalRest (fuel : Nat) (first : Command) : Reading Command := do
  match fuel with
  | 0 => return first
  | fuel + 1 =>
    if ← takes "&&" then
      skipNewlines
      conditionalRest fuel (.both first (← pipeline fuel))
    else if ← takes "||" then
      skipNewlines
      conditionalRest fuel (.either first (← pipeline fuel))
    else return first

def pipeline (fuel : Nat) : Reading Command := do
  match fuel with
  | 0 => unexpected none
  | fuel + 1 =>
    let negated ← takes "!"
    let first ← command fuel
    let more ← stages fuel
    let whole := if more.isEmpty then first else .pipeline (first :: more)
    return if negated then .negated whole else whole

def stages (fuel : Nat) : Reading (List Command) := do
  match fuel with
  | 0 => return []
  | fuel + 1 =>
    if ← takes "|" then
      skipNewlines
      let next ← command fuel
      return next :: (← stages fuel)
    else return []

/-- A compound command with its redirections, a definition or a simple command. -/
def command (fuel : Nat) : Reading Command := do
  match fuel with
  | 0 => unexpected none
  | fuel + 1 =>
    match ← compound? fuel with
    | some body => return redirect body (← redirections fuel)
    | none => plain fuel

def compound? (fuel : Nat) : Reading (Option Command) := do
  match fuel with
  | 0 => unexpected none
  | fuel + 1 =>
    if ← takes "(" then
      let body ← list fuel false
      expect ")"
      return some (.subshell body)
    else if ← takes "\x7b" then
      let body ← list fuel false
      expect "\x7d"
      return some body
    else if ← takes "if" then return some (← choice fuel)
    else if ← takes "while" then return some (← loop fuel true)
    else if ← takes "until" then return some (← loop fuel false)
    else if ← takes "for" then return some (← forEach fuel)
    else if ← takes "case" then
      match ← word? with
      | none => unexpected (some "word")
      | some w =>
        skipNewlines
        expect "in"
        return some (.select w (← arms fuel))
    else return none

/-- The condition, the branches and the end of a choice. -/
def choice (fuel : Nat) : Reading Command := do
  match fuel with
  | 0 => unexpected none
  | fuel + 1 =>
    let condition ← list fuel false
    expect "then"
    let body ← list fuel false
    if ← takes "elif" then return .choose condition body (← choice fuel)
    let otherwise ← if ← takes "else" then list fuel false else pure .skip
    expect "fi"
    return .choose condition body otherwise

/-- The condition and the body of a loop. -/
def loop (fuel : Nat) (whileTrue : Bool) : Reading Command := do
  match fuel with
  | 0 => unexpected none
  | fuel + 1 =>
    let condition ← list fuel false
    return .loop whileTrue condition (← body fuel)

def body (fuel : Nat) : Reading Command := do
  match fuel with
  | 0 => unexpected none
  | fuel + 1 =>
    expect "do"
    let body ← list fuel false
    expect "done"
    return body

/-- The variable, the words and the body of an iteration. -/
def forEach (fuel : Nat) : Reading Command := do
  match fuel with
  | 0 => unexpected none
  | fuel + 1 =>
    let line := (← get).head?.elim 1 lineOf
    match (← word?).bind name? with
    | none => throw ⟨line, "Syntax error: Bad for loop variable"⟩
    | some name =>
      skipNewlines
      if ← takes "in" then
        let items ← words (← get).length
        unless (← takes ";") || (← atNewline) do unexpected none
        skipNewlines
        return .forEach name (some items) (← body fuel)
      else
        discard (takes ";")
        skipNewlines
        return .forEach name none (← body fuel)

/-- The arms of a selection and its end. -/
def arms (fuel : Nat) : Reading (List (List Word × Command)) := do
  match fuel with
  | 0 => unexpected none
  | fuel + 1 =>
    skipNewlines
    if ← takes "esac" then return []
    discard (takes "(")
    let labels ← patterns (← get).length
    let body ← list fuel true
    if ← takes "esac" then return [(labels, body)]
    expect ";;"
    return (labels, body) :: (← arms fuel)

/-- A simple command, or the definition of a function. -/
def plain (fuel : Nat) : Reading Command := do
  match fuel with
  | 0 => unexpected none
  | fuel + 1 =>
    let ts ← get
    let line := ts.head?.elim 1 lineOf
    match ts with
    | .word _ w :: .operator _ "(" :: rest =>
      if (mark? (.word line w)).isSome then unexpected none
      set rest
      expect ")"
      match name? w with
      | none => throw ⟨line, "Syntax error: Bad function name"⟩
      | some name =>
        skipNewlines
        return .define name (← command fuel)
    | _ =>
      if (← mark).any fun m => !redirecting.contains m then unexpected none
      if (← atNewline) || (← atFinish) then unexpected none
      if ts.head?.any (· matches .broken ..) then unexpected none
      let s ← simple ts.length ⟨line, [], [], []⟩
      return s.command

end

/-- The commands of one line. -/
def lineRest (fuel : Nat) : Reading Command := do
  match fuel with
  | 0 => unexpected none
  | n + 1 =>
    let first ← conditional (8 * (← get).length + 8)
    let background ← takes "&"
    let first := if background then .background first else first
    let separated ← if background then pure true else takes ";"
    if ← atNewline then
      skip
      return first
    else if ← atFinish then return first
    else if separated then return .inOrder first (← lineRest n)
    else unexpected none

/-- The commands of every line that can be read, and what is wrong with the one after them. -/
def lines (fuel : Nat) (ts : List Token) : List Command × Option Complaint :=
  match fuel, ts.dropWhile (· matches .newline _) with
  | 0, _ | _, [] | _, .finish _ :: _ => ([], none)
  | fuel + 1, ts =>
    match lineRest ts.length ts with
    | .error complaint => ([], some complaint)
    | .ok (found, rest) =>
      let (l, complaint) := lines fuel rest
      (found :: l, complaint)

end Parser

/-- A source text as the commands on its lines, up to the first mistake. -/
def Command.ofSource (source : Octets) : List Command × Option Complaint :=
  let tokens := Token.ofSource source
  Parser.lines tokens.length tokens

end NicTuning.Shell
