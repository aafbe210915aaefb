import NicTuning.Shell.Format

/-!
# Arithmetic of the shell

Expressions over numbers of 64 bits, with the operators of the usual precedence. A name stands for
the number in the variable, and for zero if there is none.
-/
namespace NicTuning.Shell.Arithmetic

/-- The operators of two operands from the loosest level to the tightest, longer ones first. -/
def levels : List (List String) :=
  [["||"], ["&&"], ["|"], ["^"], ["&"], ["==", "!="], ["<=", ">=", "<", ">"], ["<<", ">>"],
    ["+", "-"], ["*", "/", "%"]]

def ofBool (b : Bool) : Int := if b then 1 else 0

/-- A number as 64 bits hold it. -/
def wrap (n : Int) : Int := n.bmod UInt64.size

/-- The value of an operator, unless it divides by zero. -/
def result? (operator : String) (a b : Int) : Option Int :=
  match operator with
  | "||" => some (ofBool (a != 0 || b != 0))
  | "&&" => some (ofBool (a != 0 && b != 0))
  | "|" => some (BitVec.ofInt 64 a ||| BitVec.ofInt 64 b).toInt
  | "^" => some (BitVec.ofInt 64 a ^^^ BitVec.ofInt 64 b).toInt
  | "&" => some (BitVec.ofInt 64 a &&& BitVec.ofInt 64 b).toInt
  | "==" => some (ofBool (a == b))
  | "!=" => some (ofBool (a != b))
  | "<=" => some (ofBool (decide (a ≤ b)))
  | ">=" => some (ofBool (decide (b ≤ a)))
  | "<" => some (ofBool (decide (a < b)))
  | ">" => some (ofBool (decide (b < a)))
  | "<<" => some (wrap (a * Nat.pow 2 (b % 64).toNat))
  | ">>" => some (a.fdiv (Nat.pow 2 (b % 64).toNat))
  | "+" => some (wrap (a + b))
  | "-" => some (wrap (a - b))
  | "*" => some (wrap (a * b))
  | "/" => if b = 0 then none else some (wrap (a.tdiv b))
  | "%" => if b = 0 then none else some (a.tmod b)
  | _ => none

def skipBlanks (cs : Octets) : Octets := cs.dropWhile fun c => c == ' ' || c == '\t' || c == '\n'

abbrev Result := Except String (Int × Octets)

mutual

/-- A condition with a value for either case, or just a value. -/
def choice (fuel : Nat) (value : Octets → Octets) (cs : Octets) : Result :=
  match fuel with
  | 0 => .error "expecting primary"
  | fuel + 1 => do
    let (condition, rest) ← expression fuel value levels cs
    match skipBlanks rest with
    | '?' :: rest =>
      let (first, rest) ← choice fuel value rest
      match skipBlanks rest with
      | ':' :: rest =>
        let (second, rest) ← choice fuel value rest
        return (if condition != 0 then first else second, rest)
      | _ => throw "expecting ':'"
    | rest => return (condition, rest)

/-- A value with the operators of the given levels. -/
def expression (fuel : Nat) (value : Octets → Octets) (l : List (List String)) (cs : Octets) :
    Result :=
  match fuel with
  | 0 => .error "expecting primary"
  | fuel + 1 =>
    match l with
    | [] => primary fuel value (skipBlanks cs)
    | level :: tighter => do
      let (first, rest) ← expression fuel value tighter cs
      operands fuel value level tighter first (skipBlanks rest)

/-- Further operands of one level. -/
def operands (fuel : Nat) (value : Octets → Octets) (level : List String)
    (tighter : List (List String)) (first : Int) (cs : Octets) : Result :=
  match fuel with
  | 0 => .ok (first, cs)
  | fuel + 1 =>
    let begins (o : String) : Bool := o.toList.isPrefixOf cs
    match level.find? begins with
    | none => .ok (first, cs)
    | some o =>
      let longer := ["||", "&&", "<<", ">>"].any fun p => p != o && begins p
      if longer then .ok (first, cs)
      else do
        let (second, rest) ← expression fuel value tighter (cs.drop o.length)
        match result? o first second with
        | none => .error "division by zero"
        | some n => operands fuel value level tighter n (skipBlanks rest)

/-- A number, a name, a sign with its operand, or an expression in brackets. -/
def primary (fuel : Nat) (value : Octets → Octets) (cs : Octets) : Result :=
  match fuel with
  | 0 => .error "expecting primary"
  | fuel + 1 =>
    match cs with
    | '(' :: rest => do
      let (n, rest) ← choice fuel value rest
      match skipBlanks rest with
      | ')' :: rest => .ok (n, rest)
      | _ => .error "expecting ')'"
    | '-' :: rest => do
      let (n, rest) ← primary fuel value (skipBlanks rest)
      return (wrap (-n), rest)
    | '+' :: rest => primary fuel value (skipBlanks rest)
    | '!' :: rest => do
      let (n, rest) ← primary fuel value (skipBlanks rest)
      return (ofBool (n == 0), rest)
    | '~' :: rest => do
      let (n, rest) ← primary fuel value (skipBlanks rest)
      return (-n - 1, rest)
    | c :: _ =>
      if c.isDigit then .ok (Format.number cs)
      else if c.isAlpha || c == '_' then
        let isNameChar (c : Char) : Bool := c.isAlphanum || c == '_'
        .ok ((Format.number (value (cs.takeWhile isNameChar))).1, cs.dropWhile isNameChar)
      else .error "expecting primary"
    | [] => .error "expecting primary"

end

/-- The value of an expression over variables, or what is wrong with it. Blank text is zero. -/
def evaluate (value : Octets → Octets) (source : Octets) : Except String Int :=
  if (skipBlanks source).isEmpty then .ok 0
  else do
    let (n, rest) ← choice (16 * source.length + 16) value source
    if (skipBlanks rest).isEmpty then return n else .error "expecting EOF"

end NicTuning.Shell.Arithmetic
