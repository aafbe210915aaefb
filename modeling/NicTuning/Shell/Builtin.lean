import NicTuning.Shell.Condition
import NicTuning.Shell.State

/-!
# Commands of the shell itself

Commands that act on the process of the shell and need no program. A mistake in the use of a special
one ends the shell; any other gives a status.
-/
namespace NicTuning.Shell

/-- A command on its arguments, which gives a status. -/
abbrev Builtin := List Octets → ShellM Nat

namespace Builtin

open ShellM

/-- Says that a command was used wrongly. -/
def misuse (name : String) (text : Octets) : ShellM Nat := do
  complain ((name ++ ": ").toList ++ text)
  return 2

/-- A number of digits, as a status or a count is given. -/
def count (name : String) (arg : Octets) : ShellM Nat := do
  match Octets.toNat? arg with
  | some n => return n
  | none => fatal ((name ++ ": Illegal number: ").toList ++ arg)

def echo : Builtin := fun args => do
  print (Format.echo args)
  return 0

def printf : Builtin
  | [] => misuse "printf" "usage: printf format [arg ...]".toList
  | format :: args => do
    let format :: args := if format == ['-', '-'] then args else format :: args
      | misuse "printf" "usage: printf format [arg ...]".toList
    let p := Format.print format args
    print p.output
    for text in p.complaints do complain ("printf: ".toList ++ text)
    return p.status

def condition (name : String) (args : List Octets) : ShellM Nat := do
  match Condition.evaluate (← world) args with
  | .ok b => return if b then 0 else 1
  | .error text => misuse name text

/-- A condition in brackets. -/
def bracket : Builtin := fun args =>
  if args.getLast? == some [']'] then condition "[" args.dropLast
  else misuse "[" "missing ]".toList

def shift : Builtin := fun args => do
  let n ← match args with
    | [] => pure 1
    | arg :: _ => count "shift" arg
  if (← process).arguments.length < n then fatal "shift: can't shift that many".toList
  else
    changeProcess fun p => { p with arguments := p.arguments.drop n }
    return 0

/-- Sets the options that letters name, or takes them back. -/
def setOptions (arg : Octets) (options : List Char) : List Char :=
  let others := options.filter (!arg.tail.contains ·)
  if arg.head? == some '-' then others ++ arg.tail else others

/-- Changes options, and replaces the arguments unless only options are given. -/
def set : Builtin := fun args => do
  let isOption (a : Octets) : Bool := 1 < a.length && (a.head? == some '-' || a.head? == some '+')
  let options := args.takeWhile fun a => isOption a && a != ['-', '-']
  changeProcess fun p => { p with options := options.foldl (fun l a => setOptions a l) p.options }
  match args.drop options.length with
  | [] => return 0
  | first :: rest =>
    changeProcess fun p => { p with
      arguments := if first == ['-', '-'] then rest else first :: rest }
    return 0

/-- The name and the value of an argument with an equals sign. -/
def splitAssignment (arg : Octets) : Octets × Option Octets :=
  let value := arg.dropWhile (· != '=')
  (arg.takeWhile (· != '='), if value.isEmpty then none else some value.tail)

def assign (name : String) (exports : Bool) : Builtin := fun args => do
  for arg in args.filter (fun a => !("-".toList.isPrefixOf a)) do
    let (key, value) := splitAssignment arg
    if !Parser.isName key then
      fatal ((name ++ ": ").toList ++ arg ++ ": bad variable name".toList)
    if let some text := value then ShellM.assign (name ++ ": ") key text
    changeProcess fun p =>
      if exports then { p with exported := key :: p.exported }
      else { p with fixed := key :: p.fixed }
  return 0

/-- Makes variables local to the function under way. -/
def makeLocal : Builtin := fun args => do
  for arg in args do
    let (key, value) := splitAssignment arg
    changeProcess fun p =>
      let p := { p with saved := p.saved ++ [(key, p.value? key)] }
      value.elim p (p.setVariable key)
  return 0

def unset : Builtin := fun args => do
  let functions := args.head? == some ['-', 'f']
  for name in args.filter (fun a => !("-".toList.isPrefixOf a)) do
    if !functions && (← process).fixed.contains name then
      fatal ("unset: ".toList ++ name ++ ": is read only".toList)
    changeProcess fun p =>
      if functions then { p with functions := p.functions.filter (·.1 != name) } else p.unset name
  return 0

/-- Gives each variable one field of a line, and the last one what is left. -/
def assignFields (separators : Octets) (names : List Octets) (line : Octets) (p : Process) :
    Process :=
  let isBlank (c : Char) : Bool :=
    separators.contains c && (c == ' ' || c == '\t' || c == '\n')
  let line := line.dropWhile isBlank
  match names with
  | [] => p
  | [name] => p.setVariable name (line.reverse.dropWhile isBlank).reverse
  | name :: names =>
    let rest := (line.dropWhile (!separators.contains ·)).dropWhile isBlank
    let rest := if rest.head?.any fun c => separators.contains c && !isBlank c then rest.tail
      else rest
    assignFields separators names rest
      (p.setVariable name (line.takeWhile (!separators.contains ·)))

def read : Builtin := fun args => do
  let raw := args.contains ['-', 'r']
  let names := args.filter fun a => !("-".toList.isPrefixOf a)
  let (line, whole) ← readLine
  let line := if raw then line else line.filter (· != '\\')
  match names.find? (← process).fixed.contains with
  | some name => misuse "read" (name ++ ": is read only".toList)
  | none =>
    changeProcess fun p => assignFields p.blanks names line p
    return if whole then 0 else 1

def signals : List (String × Nat) :=
  [("HUP", 1), ("INT", 2), ("QUIT", 3), ("ABRT", 6), ("KILL", 9), ("USR1", 10), ("SEGV", 11),
    ("USR2", 12), ("PIPE", 13), ("ALRM", 14), ("TERM", 15)]

/-- The number of a signal. -/
def signal? (s : Octets) : Option Nat :=
  let name := String.ofList s
  Octets.toNat? s <|> (signals.find? fun e => e.1 == name || "SIG" ++ e.1 == name).map (·.2)

/-- Sends a signal. Only the process itself can be reached. -/
def kill : Builtin := fun args => do
  let (signal, targets) :=
    match args with
    | ['-', 's'] :: name :: rest => (signal? name, rest)
    | ('-' :: name) :: rest => (signal? name, rest)
    | rest => (some 15, rest)
  match signal, targets with
  | none, _ => misuse "kill" "invalid signal number or name".toList
  | _, [] => misuse "kill" ("Usage: kill [-s sigspec | -signum | -sigspec] [pid | job]... or\n" ++
      "kill -l [exitstatus]").toList
  | some n, targets =>
    let p ← process
    if targets.contains (Octets.ofNat p.id) then
      if n = 0 then return 0
      else match (p.traps.lookup n).filter fun _ => n != 9 with
        | none => throw (.killed n)
        | some action =>
          changeProcess fun p => { p with pending := p.pending ++ [action] }
          return 0
    else
      complain "kill: No such process\n".toList
      return 1

/-- The signal that a trap is for, or zero if it is for the end. -/
def occasion? (s : Octets) : Option Nat := if s == "EXIT".toList then some 0 else signal? s

/-- Sets what is done when signals come and at the end, takes it back, or shows it. -/
def trap : Builtin
  | [] => do
    for (n, action) in (← process).traps do
      let name := match signals.find? (·.2 == n) with
        | some (name, _) => name
        | none => "EXIT"
      print ("trap -- '".toList ++ action ++ "' ".toList ++ name.toList ++ ['\n'])
    return 0
  | first :: rest => do
    let (action, names) := if rest.isEmpty then (['-'], [first]) else (first, rest)
    for name in names do
      match occasion? name with
      | none =>
        write 2 ("trap: ".toList ++ name ++ ": bad trap\n".toList)
        return 1
      | some n => changeProcess fun p =>
          let others := p.traps.filter (·.1 != n)
          { p with traps := if action == ['-'] then others else others ++ [(n, action)] }
    return 0

def exit : Builtin := fun args => do
  match args with
  | [] => throw (.exit (← process).status)
  | arg :: _ => throw (.exit ((← count "exit" arg) % 256))

def back : Builtin := fun args => do
  match args with
  | [] => throw (.back (← process).status)
  | arg :: _ => throw (.back ((← count "return" arg) % 256))

/-- Leaves loops or begins one anew. -/
def jump (name : String) (stop : Nat → Stop) : Builtin := fun args => do
  let n ← match args with
    | [] => pure 1
    | arg :: _ => count name arg
  let loops := (← process).loops
  if n = 0 then fatal ((name ++ ": Illegal number: 0").toList)
  else if loops = 0 then return 0
  else throw (stop (min n loops))

/-- The directory that a path leads to, as a path from the top. -/
def resolve (directory path : Octets) : Octets :=
  let whole := if path.head? == some '/' then path else directory ++ ['/'] ++ path
  let names := (whole.splitOn '/').filter fun name => !name.isEmpty && name != ['.']
  let step (l : List Octets) (name : Octets) : List Octets :=
    if name == ['.', '.'] then l.tail else name :: l
  '/' :: Octets.join ['/'] (names.foldl step []).reverse

/-- The directory that a process is in; at first that is the top. -/
def directory (p : Process) : Octets := (p.value? "PWD".toList).getD ['/']

def pwd : Builtin := fun _ => do
  print (directory (← process) ++ ['\n'])
  return 0

def cd : Builtin
  | [] => return 0
  | path :: _ => do
    let p ← process
    let back := path == ['-']
    let goal := if back then (p.value? "OLDPWD".toList).getD (directory p)
      else resolve (directory p) path
    if World.isDirectory goal then
      changeProcess fun p =>
        (p.setVariable "OLDPWD".toList (directory p)).setVariable "PWD".toList goal
      if back then print (goal ++ ['\n'])
      return 0
    else misuse "cd" ("can't cd to ".toList ++ path)

/-- The mode that files are made without. -/
def umask : Builtin
  | [] => do
    print "0022\n".toList
    return 0
  | _ => return 0

/-- Commands of which a mistake ends the shell. -/
def special? (name : String) : Option Builtin :=
  match name with
  | ":" | "times" => some fun _ => return 0
  | "break" => some (jump name .leave)
  | "continue" => some (jump name .again)
  | "exit" => some exit
  | "export" => some (assign name true)
  | "readonly" => some (assign name false)
  | "return" => some back
  | "set" => some set
  | "shift" => some shift
  | "trap" => some trap
  | "unset" => some unset
  | _ => none

def regular? (name : String) : Option Builtin :=
  match name with
  | "true" | "wait" | "ulimit" | "hash" => some fun _ => return 0
  | "false" => some fun _ => return 1
  | "echo" => some echo
  | "printf" => some printf
  | "test" => some (condition name)
  | "[" => some bracket
  | "read" => some read
  | "local" => some makeLocal
  | "kill" => some kill
  | "cd" => some cd
  | "pwd" => some pwd
  | "umask" => some umask
  | _ => none

end Builtin

end NicTuning.Shell
