import NicTuning.Binary64.Basic

/-!
# The shortest decimal that reads back

A positive number `m * 2 ^ q` owns the decimals that are nearer to it than to its neighbours, and
the ones half way if `m` is even. Of these the shortest has the fewest digits and, of those with so
few, is the nearest. On each grid of decimals only the two next to the number have to be tried.
-/
namespace NicTuning.Binary64

/-- `num / (den * 10 ^ k)` as a fraction. -/
def scaled (num den : Nat) (k : Int) : Nat × Nat :=
  if 0 ≤ k then (num, den * Nat.pow 10 k.toNat) else (num * Nat.pow 10 (-k).toNat, den)

/-- The greatest `k` with `10 ^ k ≤ num / den`. -/
def log10 (num den : Nat) : Int :=
  if den ≤ num then ((Nat.toDigits 10 (num / den)).length : Int) - 1
  else -((Nat.toDigits 10 ((den - 1) / num)).length : Int)

/-- The decimals that `m * 2 ^ q` owns, in quarters of `2 ^ q`: both ends, and whether they
belong. -/
def owned (m : Nat) (q : Int) : Nat × Nat × Bool :=
  let low := if m = Nat.pow 2 52 ∧ -1074 < q then 4 * m - 1 else 4 * m - 2
  (low, 4 * m + 2, m % 2 == 0)

/-- Whether `n * 10 ^ k` is owned. -/
def owns (m : Nat) (q : Int) (n : Nat) (k : Int) : Bool :=
  let (low, high, ends) := owned m q
  let (a, b) := scaled n 1 (-k)
  let (a, b) := shifted a b (q - 2)
  let inside := low * b < a && a < high * b
  inside || (ends && (low * b == a || a == high * b))

/-- The nearer owned one of the two decimals with step `10 ^ k` around `m * 2 ^ q`. -/
def onGrid (m : Nat) (q k : Int) : Option Nat :=
  let (a, b) := shifted m 1 (-q)
  let (a, b) := scaled a b k
  let below := a / b
  match owns m q below k, owns m q (below + 1) k with
  | true, true => some (if 2 * (a % b) ≤ b then below else below + 1)
  | true, false => some below
  | false, true => some (below + 1)
  | false, false => none

/-- Digits and place of the point: the shortest decimal is `0.d₁d₂… * 10 ^ point`. Seventeen digits
always suffice. -/
def shortest (m : Nat) (q : Int) : List Char × Int :=
  let (a, b) := shifted m 1 (-q)
  let top := log10 a b
  let grids := (List.range 17).map fun (i : Nat) => top - i
  match grids.findSome? fun k => (onGrid m q k).map fun n => (n, k) with
  | some (n, k) =>
    let digits := Nat.toDigits 10 n
    ((digits.reverse.dropWhile (· == '0')).reverse, k + digits.length)
  | none => ([], 0)

end NicTuning.Binary64
