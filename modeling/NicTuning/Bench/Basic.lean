import NicTuning.Bench.Output
import NicTuning.Setting
import NicTuning.Text.Affix

/-!
# Benches

A bench is the surroundings in which devices are tuned: hosts that run commands and devices that
keep their attributes in memory. How hosts answer is any function of what has happened so far, so a
host may have any state of its own. Everything that happens is written into the journal, the newest
first, and `BenchM` is an action on a bench that may end with a fault.
-/
namespace NicTuning

/-- A machine, or a network namespace of one. The address tells which machine answers, and the
identifier how it is called in descriptions. -/
structure Host where
  address : String
  id : String
  deriving DecidableEq, Inhabited

/-- What can happen on a bench. -/
inductive Event
  | ran (address command : String)
  | started (words : List String) (input : String)
  | read (address name : String)
  | wrote (address name : String) (value : Setting) (done : Bool)
  | linked (address : String) (up : Bool)
  | forgot (address : String)
  deriving DecidableEq

/-- A device that keeps its attributes in memory. -/
structure Memory where
  values : String → Option Setting
  up : Bool
  readOnly : Bool

instance : Inhabited Memory := ⟨⟨fun _ => none, true, false⟩⟩

structure Bench where
  answer : List Event → String → String → Except Fault Output
  memory : String → Memory
  journal : List Event

/-- An action on a bench. What happened before a fault has happened. -/
abbrev BenchM := ExceptT Fault (StateM Bench)

namespace Bench

/-- A bench on which every command succeeds and prints nothing. -/
def quiet : Bench := ⟨fun _ _ _ => .ok (.ok ""), fun _ => default, []⟩

instance : Inhabited Bench := ⟨quiet⟩

def note (b : Bench) (e : Event) : Bench := { b with journal := e :: b.journal }

def setMemory (b : Bench) (address : String) (m : Memory) : Bench :=
  { b with memory := fun a => if a = address then m else b.memory a }

/-- The commands that a host ran since they were last forgotten, in order. -/
def commands (b : Bench) (address : String) : List String :=
  let recent := b.journal.takeWhile (· ≠ .forgot address)
  (recent.filterMap fun
    | .ran a command => if a = address then some command else none
    | _ => none).reverse

/-- The commands of a list that begin with the given text. -/
def commandsMatching (b : Bench) (address beginning : String) : List String :=
  (b.commands address).filter (Text.begins beginning)

/-- The changes of a device's link that were asked for, in order. -/
def linkChanges (b : Bench) (address : String) : List Bool :=
  (b.journal.filterMap fun
    | .linked a up => if a = address then some up else none
    | _ => none).reverse

end Bench

namespace Host

/-- Runs a command, whatever becomes of it. -/
def exec (h : Host) (command : String) : BenchM Output := fun b =>
  (b.answer b.journal h.address command, b.note (.ran h.address command))

/-- Runs a command that has to succeed. -/
def run (h : Host) (command : String) : BenchM Output := do
  let output ← h.exec command
  output.check h.id command

/-- What a command prints that has to succeed. -/
def query (h : Host) (command : String) : BenchM String := do
  return (← h.run command).stdout

/-- Runs a command that has to succeed and whose output does not matter. -/
def command (h : Host) (command : String) : BenchM Unit := do
  discard (h.run command)

end Host

/-- Carries out an action and gives its fault as a result. -/
def attempt {α : Type} (act : BenchM α) : BenchM (Except Fault α) := fun b =>
  let (result, b) := act b
  (.ok result, b)

/-- Carries out an action for each item, whatever becomes of the others. The first fault is the
fault of all. -/
def tryEach {α : Type} (act : α → BenchM Unit) : List α → BenchM Unit
  | [] => pure ()
  | x :: rest => fun b =>
    match act x b with
    | (.ok (), b) => tryEach act rest b
    | (.error fault, b) => (.error fault, (tryEach act rest b).2)

end NicTuning
