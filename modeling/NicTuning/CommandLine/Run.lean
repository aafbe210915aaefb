import NicTuning.Bench.Local
import NicTuning.CommandLine.Failure
import NicTuning.CommandLine.Request
import NicTuning.Stack
import NicTuning.Text.Lines
import NicTuning.Tuning.Example
import NicTuning.Tuning.Source

/-!
# Carrying out requests

A request is answered with what is printed and the code to end with. To apply parameters means to
configure the devices, to run a program if that succeeded, and to restore the devices in any case.
-/
namespace NicTuning.CommandLine

/-- What a request is carried out in. `start` runs a program with an input, after some events. -/
structure Surroundings where
  input : String
  file : String → Except String (List UInt8)
  bench : Bench
  start : List Event → List String → String → Except String Output

namespace Surroundings

/-- Hosts and programs of one machine. -/
def onMachine (m : Shell.Machine) (input : String)
    (file : String → Except String (List UInt8)) : Surroundings :=
  ⟨input, file, .onMachine m, fun _ words input => (m.start words input).map (·.output)⟩

end Surroundings

namespace Selection

/-- The name of the input in place of a file. -/
def inputName : String := "-"

/-- The parameters. What comes from the input is YAML, of which JSON is a part. -/
def tuning (sel : Selection) (s : Surroundings) : Except Failure Tuning :=
  if sel.params = inputName then
    (Tuning.ofYaml s.input).mapError (.during "parsing parameters from stdin")
  else
    (Tuning.ofFile sel.params (s.file sel.params)).mapError (.during ("loading " ++ sel.params))

/-- What is left of the input for a program. -/
def remainingInput (sel : Selection) (s : Surroundings) : String :=
  if sel.params = inputName then "" else s.input

/-- A device of the local machine. -/
def device (sel : Selection) (name : String) : Device :=
  let root := LocalHost.root sel.hostId
  ⟨name, root.host, (sel.netns?.elim root root.inNamespace).host, none, .commands⟩

/-- Every name has to be one of an interface. -/
def checkNames : List String → Except Fault Unit
  | [] => .ok ()
  | name :: rest => do
    (Findings.interfaceName "dev" name).check
    checkNames rest

/-- The devices for each layer. There are no physical functions or as many as devices. -/
def roster (sel : Selection) : Except Failure Roster := do
  (checkNames (sel.devices ++ sel.physical)).mapError .ofFault
  let devices := sel.devices.map sel.device
  if sel.physical.isEmpty then return .uniform devices
  else if sel.physical.length = sel.devices.length then
    return .virtualFunctions devices (sel.physical.map sel.device)
  else
    throw ⟨toString sel.physical.length ++ " --pf given for " ++ toString sel.devices.length ++
      " --dev, expected one per device", []⟩

/-- The layers with their devices and parameters. -/
def stack (sel : Selection) (s : Surroundings) : Except Failure Stack := do
  let t ← sel.tuning s
  let r ← sel.roster
  (Stack.standard t r).mapError .ofFault

end Selection

/-- The answer of a program that gives up. -/
def giveUp (f : Failure) : Output := .failed 1 f.text

/-- What would be done, in words. -/
def describe (s : Stack) : Output :=
  .ok (Text.ofLines (if s.plan.isEmpty then ["nothing to configure"] else s.plan))

/-- The outcome of applying parameters: of the configuration, of the program if it was to be
started, and of the restoring. -/
structure Applied where
  configured : Except Fault Unit
  program : Option (Except String Output)
  undoing : Undoing

namespace Applied

/-- What the program printed. -/
def printed (a : Applied) : String × String :=
  match a.program with
  | some (.ok o) => (o.stdout, o.stderr)
  | _ => ("", "")

/-- A line for each layer that could not be restored. -/
def warnings (a : Applied) : String :=
  Text.ofLines (a.undoing.failures.map fun f =>
    "warning: failed to restore " ++ Undoing.describeFailure f)

/-- How it ends: a fault of the configuration comes first, then a program that could not be
started, the code of the program, and at last a fault of the restoring. -/
def verdict (a : Applied) (command : List String) : Int × Option Failure :=
  match a.configured, a.program with
  | .error f, _ => (1, some (.during "configuring devices" f))
  | .ok (), some (.error cause) => (1, some ⟨"running " ++ command.headD "", [cause]⟩)
  | .ok (), program =>
    let code := match program with
      | some (.ok o) => o.exitCode
      | _ => 0
    if code ≠ 0 then (code % 256, none)
    else match a.undoing.check with
      | .error f => (1, some (.during "restoring devices" f))
      | .ok () => (0, none)

end Applied

/-- The program between configuring and restoring. Without one there is nothing to wait for. -/
def runProgram (s : Surroundings) (command : List String) (input : String) (b : Bench) :
    Except String Output × Bench :=
  match command with
  | [] => (.ok (.ok ""), b)
  | command => (s.start b.journal command input, b.note (.started command input))

/-- Configures, runs a program and restores. The lines say what was configured. -/
def apply (s : Surroundings) (stack : Stack) (command : List String) (input : String) :
    Applied × List String × Bench :=
  let (configured, b, ledger) := stack.configure (s.bench, .empty)
  let (program, b) :=
    match configured with
    | .ok () => let (r, b) := runProgram s command input b; (some r, b)
    | .error _ => (none, b)
  let lines := if configured.isOk then stack.describe ledger else []
  let (undoing, b, _) := stack.restore (b, ledger)
  (⟨configured, program, undoing⟩, lines, b)

/-- What is printed of the outcome, and the code to end with. -/
def Applied.output (a : Applied) (lines command : List String) : Output :=
  let (code, failure) := a.verdict command
  ⟨Text.ofLines lines ++ a.printed.1, a.printed.2 ++ a.warnings ++ failure.elim "" Failure.text,
    code⟩

/-- How the program is called. -/
def usage : String :=
  "Usage: hwconf describe|apply --params FILE --dev NAME... [OPTIONS] [-- COMMAND...]\n" ++
    "       hwconf example [--format yaml|json]\n"

/-- An example of parameters. -/
def sample (yaml : Bool) : Output :=
  .ok (if yaml then
    "# Two target devices, e.g. --dev eth0 --dev eth1\n" ++ Tuning.sample.toYaml
  else Tuning.sample.toJson ++ "\n")

/-- The answer to the words of a command line, and the bench afterwards. -/
def run (s : Surroundings) (words : List String) : Output × Bench :=
  match Request.ofWords? words with
  | none => (.failed 2 usage, s.bench)
  | some .help => (.ok usage, s.bench)
  | some .version => (.ok "hwconf 0.1.0\n", s.bench)
  | some (.sample yaml) => (sample yaml, s.bench)
  | some (.describe sel) =>
    match sel.stack s with
    | .error f => (giveUp f, s.bench)
    | .ok stack => (describe stack, s.bench)
  | some (.apply sel command) =>
    match sel.stack s with
    | .error f => (giveUp f, s.bench)
    | .ok stack =>
      let (applied, lines, b) := apply s stack command (sel.remainingInput s)
      (applied.output lines command, b)

end NicTuning.CommandLine
