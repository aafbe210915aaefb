import NicTuning.Text.Casing.Table

/-!
# Lower case

The full lower-case mapping of a text. A code point goes to its mapping in the table, the dotted
capital I to two code points, and a capital sigma to the final form where it ends a word: a cased
letter comes before it and none after it, ignorable characters apart.
-/
namespace NicTuning.Text

namespace Casing

def inRanges (ranges : List (Nat × Nat)) (c : Char) : Bool :=
  ranges.any fun (first, last) => first ≤ c.toNat && c.toNat ≤ last

def isCased (c : Char) : Bool := inRanges casedRanges c

def isIgnorable (c : Char) : Bool := inRanges ignorableRanges c

/-- The mapping of a character that does not depend on its neighbours. -/
def lowerChar (c : Char) : List Char :=
  if c.toNat = 0x130 then ['i', Char.ofNat 0x307]
  else
    match lowerRuns.find? fun (first, last, step, _) =>
        first ≤ c.toNat && c.toNat ≤ last && (c.toNat - first) % step == 0 with
    | some (_, _, _, shift) => [Char.ofNat (c.toNat + shift).toNat]
    | none => [c]

/-- The first character that is not ignorable is a cased one. -/
def reachesCased (cs : List Char) : Bool := (cs.dropWhile isIgnorable).head?.any isCased

/-- The lower case of what follows `before`, which is given backwards. -/
def lowerAfter (before : List Char) : List Char → List Char
  | [] => []
  | c :: rest =>
    let mapped :=
      if c = 'Σ' then
        if reachesCased before && !reachesCased rest then ['ς'] else ['σ']
      else lowerChar c
    mapped ++ lowerAfter (c :: before) rest

end Casing

/-- The text in lower case. -/
def lower (s : String) : String := String.ofList (Casing.lowerAfter [] s.toList)

end NicTuning.Text
