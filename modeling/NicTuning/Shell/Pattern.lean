import NicTuning.Shell.Octets

/-!
# Patterns

A pattern matches whole texts: a star any octets, a question mark any one, brackets one of a set,
and everything else itself. Quoted octets always stand for themselves.
-/
namespace NicTuning.Shell

/-- An octet of a pattern, and whether it is quoted. -/
abbrev Pattern := List (Char × Bool)

namespace Pattern

/-- The members of a set up to its closing bracket, which may come first as a member. -/
def setItems (first : Bool) : Pattern → Option (Pattern × Pattern)
  | [] => none
  | (']', false) :: rest =>
    if first then (setItems false rest).map fun (l, r) => ((']', true) :: l, r) else some ([], rest)
  | item :: rest => (setItems false rest).map fun (l, r) => (item :: l, r)

/-- The octet is a member of the set; a hyphen between two members makes a range. -/
def inSet (c : Char) : Pattern → Bool
  | (low, _) :: ('-', false) :: (high, _) :: rest => (low ≤ c && c ≤ high) || inSet c rest
  | (x, _) :: rest => x == c || inSet c rest
  | [] => false

/-- A set after its opening bracket: whether it is negated, its members, and what follows it. -/
def set? (p : Pattern) : Option (Bool × Pattern × Pattern) :=
  match p with
  | ('!', false) :: rest => (setItems true rest).map fun (l, r) => (true, l, r)
  | rest => (setItems true rest).map fun (l, r) => (false, l, r)

/-- The pattern matches the whole text; `fuel` bounds the steps. -/
def matchesWith (fuel : Nat) (p : Pattern) (s : Octets) : Bool :=
  match fuel with
  | 0 => false
  | fuel + 1 =>
    match p, s with
    | [], s => s.isEmpty
    | ('*', false) :: p, [] => matchesWith fuel p []
    | ('*', false) :: p, c :: s =>
      matchesWith fuel p (c :: s) || matchesWith fuel (('*', false) :: p) s
    | _ :: _, [] => false
    | ('?', false) :: p, _ :: s => matchesWith fuel p s
    | ('[', false) :: p, c :: s =>
      match set? p with
      | some (negated, members, rest) => inSet c members != negated && matchesWith fuel rest s
      | none => c == '[' && matchesWith fuel p s
    | (x, _) :: p, c :: s => x == c && matchesWith fuel p s

/-- The pattern matches the whole text. Every step takes an octet from one of the two. -/
def isMatch (p : Pattern) (s : Octets) : Bool := matchesWith (p.length + s.length + 1) p s

/-- The text without the longest or the shortest beginning that matches. -/
def dropStart (longest : Bool) (p : Pattern) (s : Octets) : Octets :=
  let lengths := List.range (s.length + 1)
  match (if longest then lengths.reverse else lengths).find? fun n => isMatch p (s.take n) with
  | some n => s.drop n
  | none => s

/-- The text without the longest or the shortest end that matches. -/
def dropEnd (longest : Bool) (p : Pattern) (s : Octets) : Octets :=
  let lengths := List.range (s.length + 1)
  match (if longest then lengths else lengths.reverse).find? fun n => isMatch p (s.drop n) with
  | some n => s.take n
  | none => s

end Pattern

end NicTuning.Shell
