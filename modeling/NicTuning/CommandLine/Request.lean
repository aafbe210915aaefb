import NicTuning.Text.Affix

/-!
# Requests

The words of a command line as a request. Words are taken from left to right, so a call for help
is heard unless something is wrong with the words before it.
-/
namespace NicTuning.CommandLine

/-- Why words are not taken as a request with options. -/
inductive Refusal
  | usage
  | help
  deriving DecidableEq

/-- An option that takes a value. -/
structure Slot where
  letter : Option Char
  word : String
  repeatable : Bool
  accepts : String → Bool

/-- The values of options, in order, and the words after a double hyphen. -/
structure Given where
  values : List (String × String)
  rest : List String
  deriving DecidableEq

namespace Given

def none : Given := ⟨[], []⟩

/-- The values of an option. -/
def all (g : Given) (word : String) : List String :=
  (g.values.filter (·.1 == word)).map (·.2)

/-- The value of an option, if it is given. -/
def get? (g : Given) (word : String) : Option String := g.values.lookup word

/-- Adds a value, unless the option does not take it or has one already. -/
def add (g : Given) (slot : Slot) (value : String) : Except Refusal Given :=
  if slot.accepts value && (slot.repeatable || (g.get? slot.word).isNone) then
    .ok { g with values := g.values ++ [(slot.word, value)] }
  else .error .usage

end Given

/-- A word in the place of a value that stands apart from its option. -/
def isValue (word : String) : Bool := word == "-" || !Text.begins "-" word

/-- An option in front: what it is called, and the value that is attached to it. -/
inductive Front
  | long (word : String) (attached : Option String)
  | short (letter : Char) (attached : String)
  | other

namespace Front

/-- The word as an option. -/
def ofWord (word : String) : Front :=
  match word.toList with
  | '-' :: '-' :: cs =>
    let value := cs.dropWhile (· != '=')
    .long (String.ofList (cs.takeWhile (· != '=')))
      (if value.isEmpty then none else some (String.ofList value.tail))
  | ['-'] => .other
  | '-' :: c :: cs => .short c (String.ofList cs)
  | _ => .other

end Front

/-- Takes the words of a command whose options are known. Only some commands have words after a
double hyphen. -/
def readOptions (slots : List Slot) (hasRest : Bool) (g : Given) :
    List String → Except Refusal Given
  | [] => .ok g
  | "--" :: rest => if hasRest || rest.isEmpty then .ok { g with rest } else .error .usage
  | word :: rest =>
    match Front.ofWord word with
    | .other => .error .usage
    | .long name attached =>
      match slots.find? (·.word == name), attached, rest with
      | some slot, some value, rest => do readOptions slots hasRest (← g.add slot value) rest
      | some slot, none, value :: rest =>
        if isValue value then do readOptions slots hasRest (← g.add slot value) rest
        else .error .usage
      | some _, none, [] => .error .usage
      | none, attached, _ =>
        .error (if name == "help" && attached.isNone then .help else .usage)
    | .short letter attached =>
      match slots.find? (·.letter == some letter), attached, rest with
      | some slot, "", value :: rest =>
        if isValue value then do readOptions slots hasRest (← g.add slot value) rest
        else .error .usage
      | some _, "", [] => .error .usage
      | some slot, value, rest => do
        readOptions slots hasRest (← g.add slot ((Text.after? "=" value).getD value)) rest
      | none, _, _ => .error (if letter == 'h' then .help else .usage)

/-- Where parameters come from, and the devices they are for. -/
structure Selection where
  params : String
  devices : List String
  /-- The physical functions of the devices, if these are virtual functions. -/
  physical : List String
  netns? : Option String
  hostId : String
  deriving DecidableEq

namespace Selection

def slots : List Slot :=
  [⟨some 'p', "params", false, fun s => !s.isEmpty⟩, ⟨some 'd', "dev", true, fun _ => true⟩,
    ⟨none, "pf", true, fun _ => true⟩, ⟨some 'n', "netns", false, fun _ => true⟩,
    ⟨none, "host-id", false, fun _ => true⟩]

/-- The parameters and at least one device have to be given. -/
def ofGiven (g : Given) : Except Refusal Selection :=
  match g.get? "params", g.all "dev" with
  | none, _ | _, [] => .error .usage
  | some params, devices =>
    .ok ⟨params, devices, g.all "pf", g.get? "netns", (g.get? "host-id").getD "localhost"⟩

end Selection

inductive Request
  | help
  | version
  | describe (selection : Selection)
  | apply (selection : Selection) (command : List String)
  | sample (yaml : Bool)
  deriving DecidableEq

namespace Request

/-- The selection of a request that is about devices. -/
def selection? : Request → Option Selection
  | .describe sel | .apply sel _ => some sel
  | _ => none

def commands : List String := ["describe", "apply", "example", "help"]

/-- The option for the format of an example. -/
def formatSlot : Slot := ⟨some 'f', "format", false, fun s => s == "yaml" || s == "json"⟩

/-- The request of one command. -/
def ofCommand (name : String) (words : List String) : Except Refusal Request := do
  match name with
  | "describe" =>
    return .describe (← Selection.ofGiven (← readOptions Selection.slots false .none words))
  | "apply" =>
    let g ← readOptions Selection.slots true .none words
    return .apply (← Selection.ofGiven g) g.rest
  | "example" =>
    let g ← readOptions [formatSlot] false .none words
    return .sample (g.get? "format" != some "json")
  | "help" =>
    match words with
    | [] => throw .help
    | [word] => throw (if commands.contains word then .help else .usage)
    | _ => throw .usage
  | _ => throw .usage

/-- The request that words make, unless they are used wrongly. -/
def ofWords? (words : List String) : Option Request :=
  match words with
  | [] => none
  | first :: rest =>
    match Front.ofWord first with
    | .long "help" none | .short 'h' _ => some .help
    | .long "version" none | .short 'V' _ => some .version
    | _ =>
      match ofCommand first rest with
      | .ok request => some request
      | .error .help => some .help
      | .error .usage => none

end Request

end NicTuning.CommandLine
