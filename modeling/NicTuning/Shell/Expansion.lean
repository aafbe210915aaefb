import NicTuning.Shell.Arithmetic
import NicTuning.Shell.Pattern
import NicTuning.Shell.State

/-!
# Expansion of words

A word stands for any number of fields. Substitutions are carried out first, and then what came
from an unquoted one is split at blanks. The output of a command is given by a function, so that
this module does not depend on how commands run.
-/
namespace NicTuning.Shell

/-- A part of an expanded word. -/
inductive Atom
  | octet (quoted : Bool) (c : Char)
  /-- An octet that came from an unquoted substitution. -/
  | loose (c : Char)
  /-- Quotes with nothing in them. -/
  | nothing
  /-- The end of one argument and the beginning of the next. -/
  | boundary

namespace Expansion

/-- Fields are collected in reverse, and so are the octets of the field that has begun. With
`blankBefore` a blank ended the last field. -/
structure Splitting where
  done : List Octets
  field : Option Octets
  blankBefore : Bool

namespace Splitting

def finish (s : Splitting) (blankBefore : Bool) : Splitting :=
  match s.field with
  | some f => ⟨f.reverse :: s.done, none, blankBefore⟩
  | none => { s with blankBefore := s.blankBefore && blankBefore }

def add (s : Splitting) (c : Char) : Splitting := ⟨s.done, some (c :: s.field.getD []), false⟩

def step (separators : Octets) (s : Splitting) : Atom → Splitting
  | .octet _ c => s.add c
  | .nothing => ⟨s.done, some (s.field.getD []), false⟩
  | .boundary => s.finish false
  | .loose c =>
    if !separators.contains c then s.add c
    else if c == ' ' || c == '\t' || c == '\n' then s.finish true
    else if s.field.isNone && s.blankBefore then { s with blankBefore := false }
    else { s with field := some (s.field.getD []) }.finish false

end Splitting

/-- The fields of an expanded word. -/
def split (separators : Octets) (l : List Atom) : List Octets :=
  ((l.foldl (Splitting.step separators) ⟨[], none, false⟩).finish false).done.reverse

/-- The octets of an expanded word, which is not split. -/
def join (l : List Atom) : Octets :=
  l.flatMap fun
    | .octet _ c | .loose c => [c]
    | .nothing => []
    | .boundary => [' ']

def toPattern (l : List Atom) : Pattern :=
  l.flatMap fun
    | .octet quoted c => [(c, quoted)]
    | .loose c => [(c, false)]
    | .nothing => []
    | .boundary => [(' ', true)]

/-- Octets that take the place of a substitution. -/
def place (quoted : Bool) (s : Octets) : List Atom :=
  if quoted then .nothing :: s.map (.octet true ·) else s.map .loose

/-- The value of a parameter other than all arguments together. -/
def value? (p : Process) (name : Octets) : Option Octets :=
  match name with
  | ['#'] => some (Octets.ofNat p.arguments.length)
  | ['?'] => some (Octets.ofNat p.status)
  | ['$'] => some (Octets.ofNat p.id)
  | ['-'] => some p.options
  | ['!'] => none
  | ['0'] => some p.name
  | ['*'] | ['@'] => if p.arguments.isEmpty then none else some (Octets.join [' '] p.arguments)
  | c :: _ =>
    if c.isDigit then
      p.arguments[(Octets.value name) - 1]?
    else p.value? name
  | [] => none

/-- What a parameter without any change stands for. -/
def parameter (p : Process) (quoted : Bool) (name : Octets) : List Atom :=
  match name, quoted with
  | ['@'], true =>
    ((p.arguments.map (place true)).intersperse [.boundary]).flatten
  | ['*'], true =>
    let separator := match p.value? "IFS".toList with
      | some l => l.take 1
      | none => [' ']
    place true (Octets.join separator p.arguments)
  | ['@'], false | ['*'], false =>
    ((p.arguments.map (place false)).intersperse [.boundary]).flatten
  | name, quoted => place quoted ((value? p name).getD [])

/-- The word that source text inside of a substitution spells. -/
def wordOf (quoted : Bool) (source : Octets) : ShellM Word := do
  let fuel := source.length + 2
  let read := if quoted then Token.doubleQuoted false fuel (source ++ ['"'])
    else Token.pieces true fuel source
  match read with
  | .ok (w, _) => return w
  | .error complaint => ShellM.fatal complaint.toList

/-- What a word stands for before it is split. `output` gives what the commands of a source text
print; `fuel` bounds how deep substitutions may be inside of each other. -/
def expand (fuel : Nat) (output : Octets → ShellM Octets) (w : Word) : ShellM (List Atom) := do
  match fuel with
  | 0 => throw .exhausted
  | fuel + 1 =>
    let again (quoted : Bool) (source : Octets) : ShellM (List Atom) := do
      expand fuel output (← wordOf quoted source)
    let parts ← w.mapM fun piece => do
      let p ← ShellM.process
      match piece with
      | .octet quoted c => return [.octet quoted c]
      | .nothing => return [.nothing]
      | .output quoted source => return place quoted (← output source)
      | .arithmetic quoted source =>
        let text := join (← again true source)
        let value (name : Octets) : Octets := (p.value? name).getD []
        match Arithmetic.evaluate value text with
        | .ok n => return place quoted (Octets.ofInt n)
        | .error why =>
          ShellM.fatal (("arithmetic expression: " ++ why ++ ": \"").toList ++ text ++ ['"'])
      | .parameter quoted name .value =>
        if p.options.contains 'u' && (value? p name).isNone && name != ['@'] && name != ['*'] then
          ShellM.fatal (name ++ ": parameter not set".toList)
        return parameter p quoted name
      | .parameter quoted name .length =>
        return place quoted (Octets.ofNat ((value? p name).getD []).length)
      | .parameter quoted name (.strip atEnd longest source) =>
        let pattern := toPattern (← again false source)
        let whole := (value? p name).getD []
        return place quoted
          (if atEnd then Pattern.dropEnd longest pattern whole
            else Pattern.dropStart longest pattern whole)
      | .parameter quoted name (.orElse emptyToo action source) =>
        let present := (value? p name).any fun s => !(emptyToo && s.isEmpty)
        match action with
        | '+' => if present then again quoted source else return []
        | '=' =>
          if present then return parameter p quoted name
          let text := join (← again quoted source)
          ShellM.assign "" name text
          return place quoted text
        | '?' =>
          if present then return parameter p quoted name
          let text := join (← again quoted source)
          let usual := "parameter not set" ++ if emptyToo then " or null" else ""
          ShellM.fatal (name ++ ": ".toList ++ if text.isEmpty then usual.toList else text)
        | _ => if present then return parameter p quoted name else again quoted source
    return parts.flatten

/-- The fields of a word. -/
def fields (fuel : Nat) (output : Octets → ShellM Octets) (w : Word) : ShellM (List Octets) := do
  let l ← expand fuel output w
  return split (← ShellM.process).blanks l

/-- A word as one text. -/
def text (fuel : Nat) (output : Octets → ShellM Octets) (w : Word) : ShellM Octets := do
  return join (← expand fuel output w)

def pattern (fuel : Nat) (output : Octets → ShellM Octets) (w : Word) : ShellM Pattern := do
  return toPattern (← expand fuel output w)

end Expansion

end NicTuning.Shell
