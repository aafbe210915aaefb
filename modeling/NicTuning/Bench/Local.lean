import NicTuning.Bench.Basic
import NicTuning.Shell.Machine

/-!
# The local machine

Commands on the local machine go to its shell, in a network namespace through the tool that enters
it. Commands read no input.
-/
namespace NicTuning

/-- The local machine, or a network namespace of it. -/
structure LocalHost where
  id : String
  netns? : Option String
  deriving DecidableEq

namespace LocalHost

/-- The machine itself. -/
def root (id : String) : LocalHost := ⟨id, none⟩

/-- The same machine in a network namespace. -/
def inNamespace (h : LocalHost) (name : String) : LocalHost := ⟨h.id ++ "." ++ name, some name⟩

/-- The program that runs a command, and its arguments. -/
def words (netns? : Option String) (command : String) : List String :=
  match netns? with
  | none => ["sh", "-c", command]
  | some name => ["ip", "netns", "exec", name, "sh", "-c", command]

/-- The address of a namespace on a bench, or of the machine itself. -/
def address : Option String → String
  | none => ""
  | some name => "/" ++ name

/-- The namespace at an address. -/
def namespaceAt (address : String) : Option String := Text.after? "/" address

theorem namespaceAt_address (netns? : Option String) :
    namespaceAt (address netns?) = netns? := by
  cases netns? with
  | none => rfl
  | some name => exact Text.after?_append "/" name

/-- The host on a bench. -/
def host (h : LocalHost) : Host := ⟨address h.netns?, h.id⟩

end LocalHost

namespace Shell.Finished

/-- What a command printed and its code. -/
def output (f : Finished) : Output := ⟨f.stdout, f.stderr, f.ending.code⟩

end Shell.Finished

namespace Shell.Machine

/-- Runs a command of a host. -/
def exec (m : Machine) (address command : String) : Except String Finished :=
  m.start (LocalHost.words (LocalHost.namespaceAt address) command) ""

/-- The calls of tools that an event on a bench of this machine brought about. -/
def callsOf (m : Machine) : Event → List String
  | .ran address command => (m.exec address command).toOption.elim [] Finished.calls
  | .started words input => (m.start words input).toOption.elim [] Finished.calls
  | _ => []

end Shell.Machine

namespace Bench

/-- The bench on which every command runs on a machine, in the namespace at the address. -/
def onMachine (m : Shell.Machine) : Bench :=
  { quiet with
    answer := fun _ address command =>
      ((m.exec address command).map Shell.Finished.output).mapError Fault.io }

end Bench

end NicTuning
