/-!
# Octets as text

Octets are read as UTF-8. A sequence that cannot be continued is replaced as a whole by one
replacement character, and reading goes on with the octet that did not fit.
-/
namespace NicTuning.Text

namespace Utf8

/-- A character whose first octets have been read: the bits so far, the least and the greatest
octet that may follow, and how many more are due. -/
structure Partial where
  bits : Nat
  low : UInt8
  high : UInt8
  due : Nat

def replacement : Char := '\uFFFD'

/-- A first octet: a whole character, the beginning of one, or nothing that can begin one. -/
def start (b : UInt8) : List Char × Option Partial :=
  let n := b.toNat
  if n < 0x80 then ([Char.ofNat n], none)
  else if 0xC2 ≤ n && n ≤ 0xDF then ([], some ⟨n - 0xC0, 0x80, 0xBF, 1⟩)
  else if n == 0xE0 then ([], some ⟨0, 0xA0, 0xBF, 2⟩)
  else if n == 0xED then ([], some ⟨n - 0xE0, 0x80, 0x9F, 2⟩)
  else if 0xE1 ≤ n && n ≤ 0xEF then ([], some ⟨n - 0xE0, 0x80, 0xBF, 2⟩)
  else if n == 0xF0 then ([], some ⟨0, 0x90, 0xBF, 3⟩)
  else if n == 0xF4 then ([], some ⟨4, 0x80, 0x8F, 3⟩)
  else if 0xF1 ≤ n && n ≤ 0xF3 then ([], some ⟨n - 0xF0, 0x80, 0xBF, 3⟩)
  else ([replacement], none)

/-- One more octet. -/
def step (pending : Option Partial) (b : UInt8) : List Char × Option Partial :=
  match pending with
  | none => start b
  | some p =>
    if p.low ≤ b && b ≤ p.high then
      let bits := 64 * p.bits + (b.toNat - 0x80)
      if p.due ≤ 1 then ([Char.ofNat bits], none)
      else ([], some ⟨bits, 0x80, 0xBF, p.due - 1⟩)
    else
      let (chars, next) := start b
      (replacement :: chars, next)

def decodeFrom (pending : Option Partial) : List UInt8 → List Char
  | [] => if pending.isSome then [replacement] else []
  | b :: rest =>
    let (chars, next) := step pending b
    chars ++ decodeFrom next rest

end Utf8

/-- The text that the octets spell, with a replacement character for what is not UTF-8. -/
def decodeLossy (bytes : List UInt8) : String := String.ofList (Utf8.decodeFrom none bytes)

/-- The text that the octets spell, if they are UTF-8. -/
def decode? (bytes : List UInt8) : Option String :=
  if h : (ByteArray.mk bytes.toArray).validateUTF8 then
    some (String.fromUTF8 (ByteArray.mk bytes.toArray) (ByteArray.validateUTF8_eq_true_iff.1 h))
  else none

/-- The octets of a text. -/
def encode (s : String) : List UInt8 := s.toUTF8.toList

end NicTuning.Text
