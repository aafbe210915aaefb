/-!
# Decimal numerals

Numbers are read from whole texts: one or more ASCII digits after an optional sign, and nothing
else. A plus sign is always allowed, a minus sign only where the number may be negative. A numeral
that does not fit its fixed width is no number.
-/
namespace NicTuning.Numeral

/-- The value of a list of decimal digits, most significant first. -/
def value (cs : List Char) : Nat := cs.foldl (fun n c => 10 * n + (c.toNat - 48)) 0

/-- One or more digits and nothing else. -/
def digits? (cs : List Char) : Option Nat :=
  if !cs.isEmpty && cs.all Char.isDigit then some (value cs) else none

/-- Digits after an optional plus sign. -/
def natural? : List Char → Option Nat
  | '+' :: cs => digits? cs
  | cs => digits? cs

/-- Digits after an optional sign. -/
def integer? : List Char → Option Int
  | '-' :: cs => (digits? cs).map fun n => -(n : Int)
  | cs => (natural? cs).map Int.ofNat

/-- A numeral below `2 ^ 32`. -/
def uint32? (s : String) : Option UInt32 :=
  (natural? s.toList).bind fun n => if h : n < UInt32.size then some (UInt32.ofNatLT n h) else none

/-- A numeral below `2 ^ 64`, the width of a count of processors. -/
def count? (s : String) : Option Nat :=
  (natural? s.toList).bind fun n => if n < UInt64.size then some n else none

/-- A numeral of a signed number of 64 bits. -/
def int64? (s : String) : Option Int64 :=
  (integer? s.toList).bind fun i =>
    if Int64.minValue.toInt ≤ i ∧ i ≤ Int64.maxValue.toInt then some (Int64.ofInt i) else none

end NicTuning.Numeral
