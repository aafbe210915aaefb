import NicTuning.Yaml.Token

/-!
# Nodes of a YAML text

The tokens of a text with at most one document are put together into nodes. A node may carry an
anchor and a tag, and an alias stands for the node with its anchor. Where a node is missing an
empty plain scalar takes its place.
-/
namespace NicTuning.Yaml

/-- A node whose aliases are given as `α`. -/
inductive Node (α : Type)
  | alias (target : α)
  | scalar (anchor tag : Option String) (plain : Bool) (text : String)
  | sequence (anchor tag : Option String) (items : List (Node α))
  | mapping (anchor tag : Option String) (entries : List (Node α × Node α))

namespace Node

/-- The node that stands where none is given. -/
def missing : Node String := .scalar none none true ""

/-- Shorthands for tags: handle and expansion. -/
abbrev Shorthands := List (String × String)

def standardShorthands : Shorthands := [("!", "!"), ("!!", "tag:yaml.org,2002:")]

/-- The full tag of a handle and a suffix. Without a handle the suffix is the tag. -/
def fullTag? (tags : Shorthands) (handle suffix : String) : Option String :=
  if handle.isEmpty then some suffix else (tags.lookup handle).map (· ++ suffix)

/-- Anchor and tag in front of a node, in either order. -/
def properties? (tags : Shorthands) :
    List Token → Option (Option String × Option String × List Token)
  | .anchor a :: .tag h s :: ts => (fullTag? tags h s).map fun t => (some a, some t, ts)
  | .anchor a :: ts => some (some a, none, ts)
  | .tag h s :: .anchor a :: ts => (fullTag? tags h s).map fun t => (some a, some t, ts)
  | .tag h s :: ts => (fullTag? tags h s).map fun t => (none, some t, ts)
  | ts => some (none, none, ts)

def startsWith (ts : List Token) (among : List Token) : Bool := ts.head?.any among.contains

mutual

/-- The node in front. Block collections are read where `block` allows them, and entries without
indentation of their own where `indentless` does. -/
def node? (fuel : Nat) (tags : Shorthands) (block indentless : Bool) (ts : List Token) :
    Option (Node String × List Token) :=
  match fuel with
  | 0 => none
  | fuel + 1 =>
    match ts with
    | .alias name :: ts => some (.alias name, ts)
    | _ => do
      let (anchor, tag, ts) ← properties? tags ts
      let whenEmpty :=
        if anchor.isSome || tag.isSome then some (.scalar anchor tag true "", ts) else none
      match ts with
      | .scalar plain text :: ts =>
        some (.scalar anchor (if tag = some "!" then none else tag) plain text, ts)
      | .flowSequence :: ts =>
        (flowItems? fuel tags true ts).map fun (l, ts) => (.sequence anchor tag l, ts)
      | .flowMapping :: ts =>
        (flowEntries? fuel tags true ts).map fun (l, ts) => (.mapping anchor tag l, ts)
      | .blockSequence :: rest =>
        if block then
          (blockItems? fuel tags rest).map fun (l, ts) => (.sequence anchor tag l, ts)
        else whenEmpty
      | .blockMapping :: rest =>
        if block then
          (blockEntries? fuel tags rest).map fun (l, ts) => (.mapping anchor tag l, ts)
        else whenEmpty
      | .blockEntry :: _ =>
        if indentless then
          (indentlessItems? fuel tags ts).map fun (l, ts) => (.sequence anchor tag l, ts)
        else whenEmpty
      | _ => whenEmpty

/-- A node, or nothing in front of one of the tokens in `ends`. -/
def nodeBefore? (fuel : Nat) (tags : Shorthands) (block indentless : Bool) (ends ts : List Token) :
    Option (Node String × List Token) :=
  match fuel with
  | 0 => none
  | fuel + 1 =>
    if startsWith ts ends then some (missing, ts) else node? fuel tags block indentless ts

def blockItems? (fuel : Nat) (tags : Shorthands) (ts : List Token) :
    Option (List (Node String) × List Token) :=
  match fuel with
  | 0 => none
  | fuel + 1 =>
    match ts with
    | .blockEntry :: ts => do
      let (item, ts) ← nodeBefore? fuel tags true false [.blockEntry, .blockEnd] ts
      let (items, ts) ← blockItems? fuel tags ts
      return (item :: items, ts)
    | .blockEnd :: ts => some ([], ts)
    | _ => none

def indentlessItems? (fuel : Nat) (tags : Shorthands) (ts : List Token) :
    Option (List (Node String) × List Token) :=
  match fuel with
  | 0 => none
  | fuel + 1 =>
    match ts with
    | .blockEntry :: ts => do
      let (item, ts) ←
        nodeBefore? fuel tags true false [.blockEntry, .key, .value, .blockEnd] ts
      let (items, ts) ← indentlessItems? fuel tags ts
      return (item :: items, ts)
    | ts => some ([], ts)

def blockEntries? (fuel : Nat) (tags : Shorthands) (ts : List Token) :
    Option (List (Node String × Node String) × List Token) :=
  match fuel with
  | 0 => none
  | fuel + 1 =>
    match ts with
    | .key :: ts => do
      let (k, ts) ← nodeBefore? fuel tags true true [.key, .value, .blockEnd] ts
      let (v, ts) ←
        match ts with
        | .value :: ts => nodeBefore? fuel tags true true [.key, .value, .blockEnd] ts
        | ts => some (missing, ts)
      let (entries, ts) ← blockEntries? fuel tags ts
      return ((k, v) :: entries, ts)
    | .blockEnd :: ts => some ([], ts)
    | _ => none

/-- The items of a flow sequence; all but the first follow a comma. An item may be one key with its
value. After a key without a node the token in front of which it is missing is dropped. -/
def flowItems? (fuel : Nat) (tags : Shorthands) (first : Bool) (ts : List Token) :
    Option (List (Node String) × List Token) :=
  match fuel with
  | 0 => none
  | fuel + 1 =>
    match ts with
    | .flowSequenceEnd :: ts => some ([], ts)
    | ts => do
      let ts ←
        if first then some ts
        else match ts with
          | .flowEntry :: ts => some ts
          | _ => none
      match ts with
      | .flowSequenceEnd :: ts => return ([], ts)
      | .key :: ts =>
        let ends := [.flowEntry, .flowSequenceEnd]
        let (k, ts) ←
          if startsWith ts (.value :: ends) then some (missing, ts.tail)
          else node? fuel tags false false ts
        let (v, ts) ←
          match ts with
          | .value :: ts => nodeBefore? fuel tags false false ends ts
          | ts => some (missing, ts)
        let (items, ts) ← flowItems? fuel tags false ts
        return (.mapping none none [(k, v)] :: items, ts)
      | ts =>
        let (item, ts) ← node? fuel tags false false ts
        let (items, ts) ← flowItems? fuel tags false ts
        return (item :: items, ts)

/-- The entries of a flow mapping; all but the first follow a comma. -/
def flowEntries? (fuel : Nat) (tags : Shorthands) (first : Bool) (ts : List Token) :
    Option (List (Node String × Node String) × List Token) :=
  match fuel with
  | 0 => none
  | fuel + 1 =>
    match ts with
    | .flowMappingEnd :: ts => some ([], ts)
    | ts => do
      let ts ←
        if first then some ts
        else match ts with
          | .flowEntry :: ts => some ts
          | _ => none
      let ends := [.flowEntry, .flowMappingEnd]
      match ts with
      | .flowMappingEnd :: ts => return ([], ts)
      | .key :: ts =>
        let (k, ts) ← nodeBefore? fuel tags false false (.value :: ends) ts
        let (v, ts) ←
          match ts with
          | .value :: ts => nodeBefore? fuel tags false false ends ts
          | ts => some (missing, ts)
        let (entries, ts) ← flowEntries? fuel tags false ts
        return ((k, v) :: entries, ts)
      | ts =>
        let (k, ts) ← node? fuel tags false false ts
        let (entries, ts) ← flowEntries? fuel tags false ts
        return ((k, missing) :: entries, ts)

end

/-- The directives in front: a version at most once, and of each handle one expansion. -/
def directives? (seen : Bool) (tags : Shorthands) :
    List Token → Option (Shorthands × List Token)
  | .version major minor :: ts =>
    if seen || major != 1 || (minor != 1 && minor != 2) then none else directives? true tags ts
  | .shorthand handle expansion :: ts =>
    if (tags.lookup handle).isSome then none
    else directives? seen (tags ++ [(handle, expansion)]) ts
  | ts => some (tags ++ standardShorthands, ts)

/-- The end of the text, after any number of document ends. -/
def atTextEnd : List Token → Bool
  | .documentEnd :: ts => atTextEnd ts
  | [.textEnd] => true
  | _ => false

def isDirective : Token → Bool
  | .version _ _ | .shorthand _ _ => true
  | _ => false

/-- The node of a text with one document, or nothing for a text without any. More than one document
is refused. The nodes read one after another are no more than four times the tokens. -/
def ofTokens? (ts : List Token) : Option (Option (Node String)) := do
  let fuel := 4 * ts.length + 4
  match ts with
  | [.textEnd] => return none
  | t :: _ =>
    let (n, rest) ←
      if isDirective t || t == .documentStart then
        let (tags, ts) ← directives? false [] ts
        match ts with
        | .documentStart :: ts =>
          let noContent := ts.head?.any fun t =>
            isDirective t || [.documentStart, .documentEnd, .textEnd].contains t
          if noContent then some (missing, ts) else node? fuel tags true false ts
        | _ => none
      else node? fuel standardShorthands true false ts
    if atTextEnd rest then return some n else none
  | [] => none

end Node

end NicTuning.Yaml
