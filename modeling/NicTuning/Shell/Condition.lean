import NicTuning.Shell.State
import NicTuning.Shell.Format

/-!
# Conditions

The conditions of the `test` command: on texts, on whole numbers and on files.
-/
namespace NicTuning.Shell.Condition

/-- The whole number that a text spells. -/
def number (s : Octets) : Except Octets Int :=
  let blank (c : Char) : Bool := c == ' ' || ('\t' ≤ c && c ≤ '\r')
  let body := s.dropWhile blank
  let (negative, digits) :=
    match body with
    | '-' :: rest => (true, rest)
    | '+' :: rest => (false, rest)
    | rest => (false, rest)
  let shown := digits.takeWhile Char.isDigit
  if shown.isEmpty || !((digits.dropWhile Char.isDigit).all blank) then
    .error ("Illegal number: ".toList ++ s)
  else
    let magnitude : Nat := Octets.value shown
    let n : Int := if negative then -magnitude else magnitude
    if Int64.minValue.toInt ≤ n ∧ n ≤ Int64.maxValue.toInt then .ok n
    else .error ("Illegal number: ".toList ++ s)

abbrev Comparison := Octets → Octets → Except Octets Bool

/-- A comparison of two texts. -/
def binary? (operator : String) : Option Comparison :=
  let texts (f : Octets → Octets → Bool) : Option Comparison := some fun a b => .ok (f a b)
  let numbers (f : Int → Int → Bool) : Option Comparison :=
    some fun a b => do return f (← number a) (← number b)
  match operator with
  | "=" => texts (· == ·)
  | "!=" => texts (· != ·)
  | "<" => texts fun a b => decide (a < b)
  | ">" => texts fun a b => decide (b < a)
  | "-eq" => numbers (· == ·)
  | "-ne" => numbers (· != ·)
  | "-lt" => numbers fun a b => decide (a < b)
  | "-le" => numbers fun a b => decide (a ≤ b)
  | "-gt" => numbers fun a b => decide (b < a)
  | "-ge" => numbers fun a b => decide (b ≤ a)
  | _ => none

/-- A property of one text. -/
def unary? (w : World) (operator : String) : Option (Octets → Bool) :=
  let isFile (path : Octets) : Bool := (w.files.lookup path).isSome
  let isDevice (path : Octets) : Bool := path == "/dev/null".toList || path == "/dev/zero".toList
  let exists? (path : Octets) : Bool :=
    isFile path || World.isDirectory path || isDevice path
  match operator with
  | "-n" => some fun s => !s.isEmpty
  | "-z" => some List.isEmpty
  | "-e" | "-r" | "-w" => some exists?
  | "-f" => some isFile
  | "-d" | "-x" => some World.isDirectory
  | "-s" => some fun path => ((w.files.lookup path).any fun n => !(w.stream n).isEmpty) ||
      World.isDirectory path
  | "-c" => some isDevice
  | "-b" | "-h" | "-L" | "-p" | "-S" | "-t" | "-u" | "-g" | "-k" => some fun _ => false
  | _ => none

abbrev Result := Except Octets (Bool × List Octets)

/-- A condition is followed by more than it can have; it ends with this argument. -/
def unexpected (arg : Octets) : Octets := arg ++ ": unexpected operator".toList

mutual

def disjunction (fuel : Nat) (w : World) (args : List Octets) : Result :=
  match fuel with
  | 0 => .error []
  | fuel + 1 => do
    let (first, rest) ← conjunction fuel w args
    match rest with
    | ['-', 'o'] :: rest =>
      let (second, rest) ← disjunction fuel w rest
      return (first || second, rest)
    | rest => return (first, rest)

def conjunction (fuel : Nat) (w : World) (args : List Octets) : Result :=
  match fuel with
  | 0 => .error []
  | fuel + 1 => do
    let (first, rest) ← primary fuel w args
    match rest with
    | ['-', 'a'] :: rest =>
      let (second, rest) ← conjunction fuel w rest
      return (first && second, rest)
    | rest => return (first, rest)

/-- One condition: a comparison goes before everything else. -/
def primary (fuel : Nat) (w : World) (args : List Octets) : Result :=
  match fuel with
  | 0 => .error []
  | fuel + 1 =>
    match args with
    | [] => .error "argument expected".toList
    | a :: o :: b :: rest =>
      match binary? (String.ofList o) with
      | some compare => do return (← compare a b, rest)
      | none => single fuel w args
    | [_, o] =>
      if (binary? (String.ofList o)).isSome then .error (o ++ ": argument expected".toList)
      else single fuel w args
    | args => single fuel w args

/-- A condition that is no comparison. -/
def single (fuel : Nat) (w : World) (args : List Octets) : Result :=
  match fuel with
  | 0 => .error []
  | fuel + 1 =>
    match args with
    | [] => .error "argument expected".toList
    | [a] => .ok (!a.isEmpty, [])
    | ['!'] :: rest => do
      let (b, rest) ← primary fuel w rest
      return (!b, rest)
    | ['('] :: rest => do
      let (b, rest) ← disjunction fuel w rest
      match rest with
      | [')'] :: rest => return (b, rest)
      | _ => .error "closing paren expected".toList
    | a :: b :: rest =>
      match unary? w (String.ofList a) with
      | some property => .ok (property b, rest)
      | none => .ok (!a.isEmpty, b :: rest)

end

/-- The value of a condition, or what is wrong with it. -/
def evaluate (w : World) (args : List Octets) : Except Octets Bool :=
  match args with
  | [] => .ok false
  | args => do
    let (value, rest) ← disjunction (4 * args.length + 4) w args
    if rest.isEmpty then return value
    else .error (unexpected (args.getD (args.length - rest.length - 1) []))

end NicTuning.Shell.Condition
