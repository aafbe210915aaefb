import NicTuning.Shell.Parser

/-!
# Processes

A world holds numbered streams of octets, the files and the calls of tools. A process in it runs a
shell: it has variables, functions, arguments, and descriptors that lead to streams or to nothing.
-/
namespace NicTuning.Shell

/-- Why a command stops before its end. -/
inductive Stop
  | exit (status : Nat)
  | killed (signal : Nat)
  | leave (levels : Nat)
  | again (levels : Nat)
  | back (status : Nat)
  | exhausted

/-- How a program ended. -/
inductive Ending
  | exited (status : Nat)
  | killed (signal : Nat)
  deriving DecidableEq

structure World where
  /-- What waits in each stream. -/
  streams : List Octets
  /-- The files that were made, with the streams that hold their contents. -/
  files : List (Octets × Nat)
  /-- The calls of tools, the newest first. -/
  calls : List Octets
  /-- How many processes there have been. -/
  processes : Nat

structure Process where
  id : Nat
  name : Octets
  arguments : List Octets
  bindings : List (Octets × Octets)
  exported : List Octets
  functions : List (Octets × Command)
  descriptors : List (Nat × Option Nat)
  status : Nat
  line : Nat
  /-- How many loops are under way. -/
  loops : Nat
  /-- The letters of the options that are set. -/
  options : List Char
  /-- What the local variables of the function under way were before. -/
  saved : List (Octets × Option Octets)
  /-- The variables that keep their value. -/
  fixed : List Octets
  /-- What is done when a signal comes, or at the end, which counts as signal zero. -/
  traps : List (Nat × Octets)
  /-- What signals that came have yet to bring about. -/
  pending : List Octets

structure State where
  world : World
  process : Process

/-- An action of a process. What it did before it stopped is done. -/
abbrev ShellM := ExceptT Stop (StateM State)

namespace World

/-- A world in which nothing has happened, with one stream for each given text. -/
def start (streams : List Octets) : World := ⟨streams, [], [], 0⟩

def stream (w : World) (n : Nat) : Octets := w.streams.getD n []

def setStream (w : World) (n : Nat) (text : Octets) : World :=
  { w with streams := w.streams.set n text }

/-- One more stream, and its number. -/
def addStream (w : World) (text : Octets) : Nat × World :=
  (w.streams.length, { w with streams := w.streams ++ [text] })

/-- The directories that are there. -/
def directories : List String :=
  ["/", ".", "/bin", "/dev", "/etc", "/home", "/proc", "/root", "/sys", "/tmp", "/usr",
    "/usr/bin", "/var", "/var/tmp"]

def isDirectory (path : Octets) : Bool :=
  let trimmed := (path.reverse.dropWhile (· == '/')).reverse
  !path.isEmpty && directories.contains (String.ofList (if trimmed.isEmpty then ['/'] else trimmed))

/-- How much of what never ends there is to read. -/
def plenty : Nat := Nat.pow 2 18

/-- The directory that a path is in. -/
def directoryOf (path : Octets) : Octets :=
  let beginning := path.reverse.dropWhile (· != '/')
  if beginning.isEmpty then ['.'] else beginning.reverse

end World

namespace Process

/-- A process that has done nothing yet. -/
def fresh (id : Nat) (name : Octets) (arguments : List Octets)
    (descriptors : List (Nat × Option Nat)) : Process where
  id := id
  name := name
  arguments := arguments
  bindings := []
  exported := []
  functions := []
  descriptors := descriptors
  status := 0
  line := 1
  loops := 0
  options := []
  saved := []
  fixed := []
  traps := []
  pending := []

/-- The blanks at which unquoted values are split. -/
def blanks (p : Process) : Octets := (p.bindings.lookup "IFS".toList).getD [' ', '\t', '\n']

def value? (p : Process) (name : Octets) : Option Octets := p.bindings.lookup name

def setVariable (p : Process) (name value : Octets) : Process :=
  { p with bindings := (name, value) :: p.bindings.filter (·.1 != name) }

def unset (p : Process) (name : Octets) : Process :=
  { p with
    bindings := p.bindings.filter (·.1 != name)
    exported := p.exported.filter (· != name) }

/-- Where a descriptor leads. -/
def channel? (p : Process) (descriptor : Nat) : Option (Option Nat) :=
  p.descriptors.lookup descriptor

def setChannel (p : Process) (descriptor : Nat) (channel : Option Nat) : Process :=
  { p with descriptors := (descriptor, channel) :: p.descriptors.filter (·.1 != descriptor) }

def close (p : Process) (descriptor : Nat) : Process :=
  { p with descriptors := p.descriptors.filter (·.1 != descriptor) }

end Process

namespace ShellM

def process : ShellM Process := do return (← get).process

def world : ShellM World := do return (← get).world

def changeProcess (f : Process → Process) : ShellM Unit :=
  modify fun s => { s with process := f s.process }

def changeWorld (f : World → World) : ShellM Unit := modify fun s => { s with world := f s.world }

/-- One more stream. -/
def addStream (text : Octets) : ShellM Nat := do
  let (n, w) := (← world).addStream text
  changeWorld fun _ => w
  return n

/-- Writes to a descriptor. -/
def write (descriptor : Nat) (text : Octets) : ShellM Unit := do
  match (← process).channel? descriptor with
  | some (some n) => changeWorld fun w => w.setStream n (w.stream n ++ text)
  | _ => return ()

def print (text : Octets) : ShellM Unit := write 1 text

/-- Everything that is left of the input. -/
def readAll : ShellM Octets := do
  match (← process).channel? 0 with
  | some (some n) =>
    let text := (← world).stream n
    changeWorld fun w => w.setStream n []
    return text
  | _ => return []

/-- The next line of the input, and whether a line feed ended it. -/
def readLine : ShellM (Octets × Bool) := do
  match (← process).channel? 0 with
  | some (some n) =>
    let text := (← world).stream n
    let rest := text.dropWhile (· != '\n')
    changeWorld fun w => w.setStream n rest.tail
    return (text.takeWhile (· != '\n'), !rest.isEmpty)
  | _ => return ([], false)

/-- Says that something is wrong, after the names of the shell and of the line. -/
def complain (text : Octets) : ShellM Unit := do
  let p ← process
  write 2 (p.name ++ ": ".toList ++ Octets.ofNat p.line ++ ": ".toList ++ text ++ ['\n'])

/-- Says that something is wrong and ends the process. -/
def fatal {α : Type} (text : Octets) : ShellM α := do
  complain text
  throw (.exit 2)

/-- Gives a variable a value, unless it keeps its own. A complaint names the command. -/
def assign (command : String) (name value : Octets) : ShellM Unit := do
  if (← process).fixed.contains name then
    fatal (command.toList ++ name ++ ": is read only".toList)
  else changeProcess (·.setVariable name value)

/-- Opens a file to be written, and empties it unless text is to be added. -/
def openToWrite (append : Bool) (path : Octets) : ShellM (Except Octets (Option Nat)) := do
  let w ← world
  let p ← process
  let refuse (why : String) : ShellM (Except Octets (Option Nat)) :=
    return .error ("cannot create ".toList ++ path ++ ": ".toList ++ why.toList)
  if path == "/dev/null".toList then return .ok none
  else if path == "/dev/stdout".toList then return .ok (p.channel? 1).join
  else if path == "/dev/stderr".toList then return .ok (p.channel? 2).join
  else match w.files.lookup path with
    | some n =>
      unless append do changeWorld fun w => w.setStream n []
      return .ok (some n)
    | none =>
      if path.isEmpty then refuse "Directory nonexistent"
      else if World.isDirectory path then refuse "Is a directory"
      else if World.isDirectory (World.directoryOf path) then
        let n ← addStream []
        changeWorld fun w => { w with files := (path, n) :: w.files }
        return .ok (some n)
      else refuse "Directory nonexistent"

/-- The contents of a file, or why it cannot be read. -/
def contents (path : Octets) : ShellM (Except String Octets) := do
  let w ← world
  if path == "/dev/null".toList then return .ok []
  else if path == "/dev/zero".toList then return .ok (List.replicate World.plenty '\x00')
  else match w.files.lookup path with
    | some n => return .ok (w.stream n)
    | none => return .error (if World.isDirectory path then "Is a directory"
        else "No such file or directory")

/-- How an action ended, with all that it did. -/
def outcome (act : ShellM Nat) : ShellM (Except Stop Nat) := fun s =>
  let (r, s') := act s
  (.ok r, s')

/-- Carries out an action in a process of its own, of which only the doings in the world remain,
and gives its status. -/
def aside (act : ShellM Nat) : ShellM Nat := fun s =>
  let (r, s') := act s
  let s' := { s' with process := s.process }
  match r with
  | .ok status | .error (.exit status) | .error (.back status) => (.ok status, s')
  | .error (.leave _) | .error (.again _) => (.ok 0, s')
  | .error stop => (.error stop, s')

/-- Starts a program in a process of its own, with the exported variables and the descriptors of
this one. -/
def start (name : Octets) (arguments : List Octets) (act : ShellM Nat) : ShellM Ending := fun s =>
  let id := s.world.processes + 1
  let p := s.process
  let process : Process :=
    { Process.fresh id name arguments p.descriptors with
      bindings := p.bindings.filter fun e => p.exported.contains e.1
      exported := p.exported }
  let (r, s') := act ⟨{ s.world with processes := id }, process⟩
  let s' := { s' with process := p }
  match r with
  | .ok status | .error (.exit status) | .error (.back status) => (.ok (.exited status), s')
  | .error (.leave _) | .error (.again _) => (.ok (.exited 0), s')
  | .error (.killed signal) => (.ok (.killed signal), s')
  | .error .exhausted => (.error .exhausted, s')

/-- Carries out an action with other descriptors. -/
def within (change : Process → Process) (act : ShellM Nat) : ShellM Nat := fun s =>
  let (r, s') := act { s with process := change s.process }
  (r, { s' with process := { s'.process with descriptors := s.process.descriptors } })

end ShellM

end NicTuning.Shell
