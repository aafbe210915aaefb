import NicTuning.Document.Basic

/-!
# Numbers in JSON

A whole number of up to 64 bits is exact. Any other number is a floating-point number made in two
rounded steps: the digits that fit 64 bits are read as a whole number, the rest count as powers of
ten only, and the power is multiplied or divided in afterwards. A number too large to be finite is
refused, and so is a whole number with a leading zero.
-/
namespace NicTuning.Json

/-- Digits read so far: a whole number below `2 ^ 64` and the power of ten it stands for. -/
structure Significand where
  value : Nat
  exponent : Int
  full : Bool

namespace Significand

def limit : Nat := UInt64.size

/-- A digit before the point; once one does not fit, it and all later ones only add a power. -/
def pushWhole (s : Significand) (c : Char) : Significand :=
  let next := 10 * s.value + (c.toNat - 48)
  if !s.full && next < limit then { s with value := next }
  else { s with exponent := s.exponent + 1, full := true }

/-- A digit after the point; once one does not fit, it and all later ones are dropped. -/
def pushFraction (s : Significand) (c : Char) : Significand :=
  let next := 10 * s.value + (c.toNat - 48)
  if !s.full && next < limit then { s with value := next, exponent := s.exponent - 1 }
  else { s with full := true }

end Significand

def powerOfTen (k : Nat) : Nat × Int := Binary64.nearest (Nat.pow 10 k) 1

/-- The product of two numbers, rounded. -/
def mulRounded (a b : Nat × Int) : Nat × Int :=
  let (num, den) := Binary64.shifted (a.1 * b.1) 1 (-(a.2 + b.2))
  Binary64.nearest num den

/-- The quotient of two numbers, rounded. -/
def divRounded (a b : Nat × Int) : Nat × Int :=
  let (num, den) := Binary64.shifted a.1 b.1 (b.2 - a.2)
  Binary64.nearest num den

/-- Divides by a power of ten, at most 308 of its zeros at a time. -/
def divPower (x : Nat × Int) (k : Nat) : Nat × Int :=
  if x.1 = 0 then x
  else if h : k ≤ 308 then divRounded x (powerOfTen k)
  else divPower (divRounded x (powerOfTen 308)) (k - 308)
termination_by k
decreasing_by omega

/-- `value * 10 ^ exponent`, or nothing when it is too large. -/
def scale (negative : Bool) (value : Nat) (exponent : Int) : Option Binary64 :=
  let whole := Binary64.nearest value 1
  if value = 0 then some (.finite negative 0 (-1074))
  else if exponent < 0 then
    let (m, q) := divPower whole (-exponent).toNat
    some (.finite negative m q)
  else if 308 < exponent then none
  else
    let (m, q) := mulRounded whole (powerOfTen exponent.toNat)
    if 971 < q then none else some (.finite negative m q)

/-- The exponent after an `e`: an optional sign and at least one digit. -/
def exponent? (cs : List Char) : Option (Int × List Char) :=
  let (negative, cs) : Bool × List Char := match cs with
    | '+' :: rest => (false, rest)
    | '-' :: rest => (true, rest)
    | _ => (false, cs)
  let digits := cs.takeWhile Char.isDigit
  if digits.isEmpty then none
  else
    let n : Nat := digits.foldl (fun n c => min (10 * n + (c.toNat - 48)) (Nat.pow 2 31)) 0
    some (if negative then -(n : Int) else n, cs.dropWhile Char.isDigit)

def startsExponent : List Char → Bool
  | c :: _ => c == 'e' || c == 'E'
  | [] => false

/-- What follows the significand. -/
def finish (negative : Bool) (s : Significand) (cs : List Char) :
    Option (Document × List Char) := do
  if startsExponent cs then
    let (e, rest) ← exponent? cs.tail
    return (.float (← scale negative s.value (s.exponent + e)), rest)
  else
    return (.float (← scale negative s.value s.exponent), cs)

/-- A whole number that fits 64 bits, `-0` apart. -/
def wholeNumber (negative : Bool) (n : Nat) : Document :=
  if !negative then .integer n
  else if 0 < n ∧ n ≤ Nat.pow 2 63 then .integer (-(n : Int))
  else
    let (m, q) := Binary64.nearest n 1
    .float (.finite true m q)

/-- A number, after its minus sign if it has one. -/
def number? (negative : Bool) (cs : List Char) : Option (Document × List Char) :=
  let digits := cs.takeWhile Char.isDigit
  let rest := cs.dropWhile Char.isDigit
  if digits.isEmpty || (digits.head? == some '0' && 1 < digits.length) then none
  else
    let s := digits.foldl Significand.pushWhole ⟨0, 0, false⟩
    match rest with
    | '.' :: rest =>
      let fraction := rest.takeWhile Char.isDigit
      if fraction.isEmpty then none
      else
        let s := fraction.foldl Significand.pushFraction { s with full := false }
        finish negative s (rest.dropWhile Char.isDigit)
    | rest =>
      if s.full || startsExponent rest then finish negative s rest
      else some (wholeNumber negative s.value, rest)

/-- The text of a finite number in messages: positional from `1e-5` up to below `1e16`, with a
digit on both sides of the point, and else one digit, a fraction if there is one, and the exponent
with its sign. -/
def floatText : Binary64 → String
  | .nan => "NaN"
  | .infinite negative => if negative then "-inf" else "inf"
  | .finite negative m q =>
    let (digits, point) := Binary64.shortest m q
    let body :=
      if m = 0 then "0.0"
      else if 0 < point ∧ point ≤ 16 then
        let whole := digits.take point.toNat
        let fraction := digits.drop point.toNat
        String.ofList whole ++ "".pushn '0' (point.toNat - digits.length) ++ "." ++
          (if fraction.isEmpty then "0" else String.ofList fraction)
      else if -5 < point ∧ point ≤ 0 then
        "0." ++ "".pushn '0' (-point).toNat ++ String.ofList digits
      else
        let e := point - 1
        String.ofList (digits.take 1) ++
          (if digits.length = 1 then "" else "." ++ String.ofList (digits.drop 1)) ++
          "e" ++ (if 0 ≤ e then "+" else "-") ++ toString e.natAbs
    if negative then "-" ++ body else body

end NicTuning.Json
