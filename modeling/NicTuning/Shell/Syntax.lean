import NicTuning.Shell.Octets

/-!
# The shell's language

Words are made of pieces, commands of words and of other commands. What is substituted stays source
text until it is needed.
-/
namespace NicTuning.Shell

/-- What becomes of a parameter before it is put in. -/
inductive Change
  | value
  | length
  | orElse (emptyToo : Bool) (action : Char) (word : Octets)
  | strip (atEnd longest : Bool) (pattern : Octets)
  deriving DecidableEq

inductive Piece
  | octet (quoted : Bool) (c : Char)
  /-- Quotes with nothing in them, which make a word even if nothing else does. -/
  | nothing
  | parameter (quoted : Bool) (name : Octets) (change : Change)
  | output (quoted : Bool) (source : Octets)
  | arithmetic (quoted : Bool) (source : Octets)
  deriving DecidableEq

abbrev Word := List Piece

namespace Word

/-- The octets of a word without quotes and substitutions. -/
def plain? (w : Word) : Option Octets :=
  w.mapM fun
    | .octet false c => some c
    | _ => none

end Word

inductive Redirection
  | write (descriptor : Nat) (append : Bool) (target : Word)
  | read (descriptor : Nat) (target : Word)
  | duplicate (descriptor : Nat) (target : Word)
  /-- Text that stands in the source itself. -/
  | document (descriptor : Nat) (text : Word)

inductive Command
  | simple (line : Nat) (assignments : List (Octets × Word)) (words : List Word)
  | redirected (body : Command) (redirections : List Redirection)
  | pipeline (stages : List Command)
  | negated (body : Command)
  | both (first second : Command)
  | either (first second : Command)
  | inOrder (first second : Command)
  | background (body : Command)
  | subshell (body : Command)
  | choose (condition body otherwise : Command)
  | loop (whileTrue : Bool) (condition body : Command)
  | forEach (name : Octets) (words : Option (List Word)) (body : Command)
  | select (word : Word) (arms : List (List Word × Command))
  | define (name : Octets) (body : Command)
  | skip

end NicTuning.Shell
