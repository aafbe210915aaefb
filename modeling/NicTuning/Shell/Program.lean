import NicTuning.Shell.Program.Files
import NicTuning.Shell.Program.Filter

/-!
# Programs

The small programs that are there on every machine. They act on the streams of a process and know
nothing of its variables.
-/
namespace NicTuning.Shell.Program

open ShellM

def cat : Builtin := fun args =>
  onFiles "cat" print (args.filter fun a => a != "-u".toList && a != ['-', '-'])

/-- Words with blanks between them. Escapes stay as they are unless they are asked for. -/
def echo (newline escapes : Bool) : Builtin
  | ['-', 'n'] :: rest => echo false escapes rest
  | ['-', 'e'] :: rest => echo newline true rest
  | ['-', 'E'] :: rest => echo newline false rest
  | words => do
    let source := Octets.join [' '] words
    let (text, ended) := if escapes then Format.unescape (source.length + 1) source
      else (source, false)
    print (if newline && !ended then text ++ ['\n'] else text)
    return 0

def printf : Builtin
  | [] => do
    complain "printf" "missing operand".toList
    return 1
  | format :: args => do
    let p := Format.print format args
    print p.output
    for text in p.complaints do complain "printf" text
    return min p.status 1

def condition : Builtin := fun args => do
  match Condition.evaluate (← world) args with
  | .ok b => return if b then 0 else 1
  | .error text =>
    complain "test" text
    return 2

/-- The numbers from the first to the last argument, each on a line. -/
def seq : Builtin := fun args => do
  match args.map Condition.number with
  | [.ok last] => numbers 1 1 last
  | [.ok first, .ok last] => numbers first 1 last
  | [.ok first, .ok step, .ok last] => numbers first step last
  | _ => do
    complain "seq" "missing or invalid operand".toList
    return 1
where
  numbers (first step last : Int) : ShellM Nat := do
    if step = 0 then return 1
    let count := ((last - first).fdiv step + 1).toNat
    print ((List.range count).flatMap fun (i : Nat) =>
      Octets.ofInt (first + step * (i : Int)) ++ ['\n'])
    return 0

/-- The same line without end. -/
def yes : Builtin := fun args => do
  let line := (if args.isEmpty then ['y'] else Octets.join [' '] args) ++ ['\n']
  print (List.replicate (World.plenty / line.length + 1) line).flatten
  return 0

def kill : Builtin := fun _ => do
  complain "kill" "No such process".toList
  return 1

/-- The program of a name. -/
def named? (name : String) : Option Builtin :=
  match name with
  | "true" | "sleep" | "sync" => some fun _ => return 0
  | "false" => some fun _ => return 1
  | "cat" => some cat
  | "echo" => some (echo true false)
  | "printf" => some printf
  | "test" => some condition
  | "[" => some fun args => condition args.dropLast
  | "seq" => some seq
  | "head" => some head
  | "tail" => some tail
  | "tr" => some tr
  | "wc" => some wc
  | "sort" => some sort
  | "ls" => some ls
  | "rm" => some rm
  | "touch" => some touch
  | "tee" => some tee
  | "basename" => some basename
  | "dirname" => some dirname
  | "yes" => some yes
  | "kill" => some kill
  | _ => none

/-- The directories that a program may be named with. -/
def base (path : Octets) : Octets :=
  if "/usr/bin/".toList.isPrefixOf path then path.drop 9
  else if "/bin/".toList.isPrefixOf path then path.drop 5
  else path

end NicTuning.Shell.Program
