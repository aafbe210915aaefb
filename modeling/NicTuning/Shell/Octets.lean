import NicTuning.Text.Utf8

/-!
# Octets

A shell knows octets and not characters. Here an octet is the character with its number, so that
octets can be compared with the characters of ASCII.
-/
namespace NicTuning.Shell

abbrev Octets := List Char

namespace Octets

/-- The octets of a text. -/
def ofText (s : String) : Octets := (Text.encode s).map fun b => Char.ofNat b.toNat

/-- The text that octets spell, with a replacement character for what is not UTF-8. -/
def toText (o : Octets) : String := Text.decodeLossy (o.map fun c => UInt8.ofNat c.toNat)

/-- The digits of a number. -/
def ofNat (n : Nat) : Octets := Nat.toDigits 10 n

/-- The number that digits spell. -/
def value (digits : Octets) : Nat := digits.foldl (fun n c => 10 * n + (c.toNat - 48)) 0

/-- The number that octets spell if they are digits. -/
def toNat? (o : Octets) : Option Nat :=
  if o.isEmpty || o.any (!·.isDigit) then none else some (value o)

def ofInt : Int → Octets
  | .ofNat n => ofNat n
  | .negSucc n => '-' :: ofNat (n + 1)

/-- Several with one between any two. -/
def join (separator : Octets) (l : List Octets) : Octets := (l.intersperse separator).flatten

end Octets

end NicTuning.Shell
