import NicTuning.Shell.Run

/-!
# Machines

A machine starts programs and waits for their end. Besides the small programs of every machine it
has tools, which are shell scripts and whose calls are counted. Files do not outlive the program
that made them.
-/
namespace NicTuning.Shell

structure Machine where
  /-- A name and a script for each tool. -/
  tools : List (String × String)

/-- What a program printed, how it ended, and which tools were called on the way. -/
structure Finished where
  stdout : String
  stderr : String
  ending : Ending
  calls : List String
  deriving DecidableEq

namespace Ending

/-- The code of an ending: the status, or minus one after a signal. -/
def code : Ending → Int
  | .exited status => status
  | .killed _ => -1

end Ending

namespace Machine

/-- A machine with nothing but the small programs. -/
def bare : Machine := ⟨[]⟩

/-- How many steps a program may take. -/
def patience : Nat := 100000

/-- The state in which a program starts: its input is stream 0, and it prints to streams 1 and 2. -/
def initial (input : Octets) : State :=
  ⟨.start [input, [], []],
    .fresh 0 "sh".toList [] [(0, some 0), (1, some 1), (2, some 2)]⟩

/-- Runs a program with its arguments to its end, or says why it cannot be started. -/
def start (m : Machine) (words : List String) (input : String) : Except String Finished :=
  if words.any (·.toList.contains '\x00') then .error "nul byte found in provided data"
  else
    let tools := m.tools.map fun (name, script) => (Octets.ofText name, Octets.ofText script)
    let (result, s) :=
      Run.launch patience tools (words.map Octets.ofText) (initial (Octets.ofText input))
    let finished (ending : Ending) : Finished :=
      ⟨(s.world.stream 1).toText, (s.world.stream 2).toText, ending,
        s.world.calls.reverse.map Octets.toText⟩
    match result with
    | .ok (.ok ending) => .ok (finished ending)
    | .ok (.error (126, _)) => .error "Permission denied (os error 13)"
    | .ok (.error _) => .error "No such file or directory (os error 2)"
    | .error _ => .ok (finished (.killed 9))

end Machine

end NicTuning.Shell
