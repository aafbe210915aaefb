import NicTuning.Yaml.Node
import NicTuning.Yaml.Plain

/-!
# Reading YAML

Aliases are tied to the anchors before them, and then the nodes become a document. Anchors are
numbered by how many names are known, so an anchor that takes a known name again may share its
number with a later one, and of these the last counts. The aliases followed may be a hundred times
as many as the parts of the text, and 128 collections may stand in one another.
-/
namespace NicTuning.Yaml

namespace Node

/-- Anchors so far: the number of each name, and the anchored nodes with their numbers. `started`
counts the anchors in the order in which their nodes begin. -/
structure Anchors where
  names : List (String × Nat) := []
  started : Nat := 0
  nodes : List (Nat × Nat × Node Nat) := []

namespace Anchors

/-- Takes note of an anchor where its node begins: its number and its place in that order. -/
def begin (a : Anchors) (anchor : Option String) : Option (Nat × Nat) × Anchors :=
  match anchor with
  | none => (none, a)
  | some name =>
    let number := a.names.length
    let names := (name, number) :: a.names.filter fun e => e.1 != name
    (some (number, a.started), { a with names, started := a.started + 1 })

/-- Takes note of the node of an anchor. -/
def finish (a : Anchors) (at? : Option (Nat × Nat)) (n : Node Nat) : Anchors :=
  match at? with
  | none => a
  | some (number, place) => { a with nodes := (number, place, n) :: a.nodes }

/-- The node with a number that began last. -/
def find? (a : Anchors) (number : Nat) : Option (Node Nat) :=
  let step (best : Option (Nat × Node Nat)) (e : Nat × Nat × Node Nat) :=
    if e.1 = number && best.all (fun b => b.1 ≤ e.2.1) then some e.2 else best
  (a.nodes.foldl step none).map Prod.snd

end Anchors

mutual

/-- Ties the aliases of a node to anchors. -/
def link? (a : Anchors) : Node String → Option (Node Nat × Anchors)
  | .alias name => (a.names.lookup name).map fun number => (.alias number, a)
  | .scalar anchor tag plain text =>
    let (place, a) := a.begin anchor
    let n : Node Nat := .scalar anchor tag plain text
    some (n, a.finish place n)
  | .sequence anchor tag items => do
    let (place, a) := a.begin anchor
    let (items, a) ← linkItems? a items
    let n : Node Nat := .sequence anchor tag items
    return (n, a.finish place n)
  | .mapping anchor tag entries => do
    let (place, a) := a.begin anchor
    let (entries, a) ← linkEntries? a entries
    let n : Node Nat := .mapping anchor tag entries
    return (n, a.finish place n)

def linkItems? (a : Anchors) : List (Node String) → Option (List (Node Nat) × Anchors)
  | [] => some ([], a)
  | n :: rest => do
    let (n, a) ← link? a n
    let (rest, a) ← linkItems? a rest
    return (n :: rest, a)

def linkEntries? (a : Anchors) :
    List (Node String × Node String) → Option (List (Node Nat × Node Nat) × Anchors)
  | [] => some ([], a)
  | (k, v) :: rest => do
    let (k, a) ← link? a k
    let (v, a) ← link? a v
    let (rest, a) ← linkEntries? a rest
    return ((k, v) :: rest, a)

end

mutual

/-- The parts of a text: each scalar and alias is one, each collection two and its items. -/
def parts : Node Nat → Nat
  | .alias _ | .scalar _ _ _ _ => 1
  | .sequence _ _ items => 2 + partsOfItems items
  | .mapping _ _ entries => 2 + partsOfEntries entries

def partsOfItems : List (Node Nat) → Nat
  | [] => 0
  | n :: rest => parts n + partsOfItems rest

def partsOfEntries : List (Node Nat × Node Nat) → Nat
  | [] => 0
  | (k, v) :: rest => parts k + parts v + partsOfEntries rest

end

/-- Counts down the aliases that may still be followed. -/
abbrev Following := StateT Nat Option

/-- The node that an alias stands for. -/
def follow (a : Anchors) : Node Nat → Following (Node Nat)
  | .alias number => do
    match ← get with
    | 0 => failure
    | n + 1 =>
      set n
      match a.find? number with
      | some (.alias _) | none => failure
      | some n => pure n
  | n => pure n

def untagged (tag : Option String) : Bool := tag.all fun t => !t.startsWith "!"

/-- The document of a node that is no alias, with at most `depth` collections in one another. -/
def document (a : Anchors) : Nat → Node Nat → Following Document
  | _, .scalar _ tag plain text => (Plain.tagged? tag plain text : Option Document)
  | depth + 1, .sequence _ tag items =>
    if untagged tag then do
      let items ← items.mapM fun n => do document a depth (← follow a n)
      return .list items
    else failure
  | depth + 1, .mapping _ tag entries =>
    if untagged tag then do
      let entries ← entries.mapM fun (k, v) => do
        let k ← document a depth (← follow a k)
        let v ← document a depth (← follow a v)
        return (k, v)
      return .map entries
    else failure
  | _, _ => failure

def maxDepth : Nat := 128

/-- The entries of a record: a mapping with scalars for keys, which count as texts whatever they
look like, or an empty plain scalar. -/
def recordEntries (a : Anchors) : Node Nat → Following (List (String × Document))
  | .mapping _ _ entries =>
    entries.mapM fun (k, v) => do
      match ← follow a k with
      | .scalar _ _ _ text =>
        let v ← document a (maxDepth - 1) (← follow a v)
        return (text, v)
      | _ => failure
  | .scalar _ _ true "" => pure []
  | _ => failure

end Node

/-- The entries of the record that a text holds. A text without a document holds an empty one. -/
def readRecord? (s : String) : Option (List (String × Document)) := do
  match ← Node.ofTokens? (← tokens? s) with
  | none => return []
  | some n =>
    let (n, anchors) ← Node.link? {} n
    let (entries, _) ← (Node.recordEntries anchors n).run (100 * Node.parts n)
    return entries

end NicTuning.Yaml
