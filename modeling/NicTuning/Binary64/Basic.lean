/-!
# Floating-point numbers of 64 bits

A finite number is a sign and `mantissa * 2 ^ exponent` with a mantissa below `2 ^ 53` and an
exponent from -1074 to 971. All arithmetic is exact until the result is rounded, to the nearest
number and to the even mantissa of two equally near ones.
-/
namespace NicTuning

inductive Binary64
  | finite (negative : Bool) (mantissa : Nat) (exponent : Int)
  | infinite (negative : Bool)
  | nan
  deriving DecidableEq

namespace Binary64

/-- `num / (den * 2 ^ q)` as a fraction. -/
def shifted (num den : Nat) (q : Int) : Nat × Nat :=
  if 0 ≤ q then (num, den * Nat.pow 2 q.toNat) else (num * Nat.pow 2 (-q).toNat, den)

/-- The nearest integer, the even one of two equally near. -/
def roundHalfEven (num den : Nat) : Nat :=
  let quotient := num / den
  let twice := 2 * (num % den)
  if twice < den then quotient
  else if den < twice then quotient + 1
  else quotient + quotient % 2

/-- Mantissa and exponent of the number nearest to `num / den`; the exponent may be too large. -/
def nearest (num den : Nat) : Nat × Int :=
  if num = 0 then (0, -1074)
  else
    let q₀ := max ((num.log2 : Int) - den.log2 - 53) (-1074)
    let (n, d) := shifted num den q₀
    let q := if n / d < Nat.pow 2 53 then q₀ else q₀ + 1
    let (n, d) := shifted num den q
    let m := roundHalfEven n d
    if m = Nat.pow 2 53 then (Nat.pow 2 52, q + 1) else (m, q)

/-- The number nearest to a fraction, infinite when no finite one is. -/
def ofFraction (negative : Bool) (num den : Nat) : Binary64 :=
  let (m, q) := nearest num den
  if 971 < q then .infinite negative else .finite negative m q

/-- The number nearest to `significand * 10 ^ exponent`. -/
def ofDecimal (negative : Bool) (significand : Nat) (exponent : Int) : Binary64 :=
  if significand = 0 then .finite negative 0 (-1074)
  else
    let size := (significand.log2 : Int) + 1
    if 400 < exponent then .infinite negative
    else if size + exponent * 3 < -1200 then .finite negative 0 (-1074)
    else if 0 ≤ exponent then ofFraction negative (significand * Nat.pow 10 exponent.toNat) 1
    else ofFraction negative significand (Nat.pow 10 (-exponent).toNat)

end Binary64

end NicTuning
