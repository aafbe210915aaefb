import NicTuning.Shell.Expansion
import NicTuning.Shell.Program

/-!
# Running commands

Commands are carried out one after another, the stages of a pipeline too. Programs are the tools,
which are shell scripts, and the small programs of every machine, of which the tools come first.
All functions here are bounded by fuel.
-/
namespace NicTuning.Shell.Run

open ShellM

/-- A name and a script for each tool. -/
abbrev Tools := List (Octets × Octets)

/-- What a shell says of a program that a signal ended. -/
def obituary (signal : Nat) : String :=
  match signal with
  | 1 => "Hangup\n"
  | 2 => ""
  | 3 => "Quit\n"
  | 6 => "Aborted\n"
  | 9 => "Killed\n"
  | 10 => "User defined signal 1\n"
  | 11 => "Segmentation fault\n"
  | 12 => "User defined signal 2\n"
  | 13 => ""
  | 14 => "Alarm clock\n"
  | 15 => "Terminated\n"
  | _ => "Unknown signal\n"

/-- Octets without the line feeds at their end. -/
def trimEnd (s : Octets) : Octets := (s.reverse.dropWhile (· == '\n')).reverse

/-- A name and a value in each argument up to the first that has none, and the other arguments. -/
def assignments (args : List Octets) : List (Octets × Octets) × List Octets :=
  let isAssignment (a : Octets) : Bool := a.contains '='
  ((args.takeWhile isAssignment).map fun a =>
    (a.takeWhile (· != '='), (a.dropWhile (· != '=')).tail), args.dropWhile isAssignment)

/-- Special commands that run other commands. -/
def specials : List String := [".", "eval", "exec"]

/-- A simple command that begins with a special command of the shell. -/
def isSpecial : Command → Bool
  | .simple _ _ (w :: _) =>
    (Word.plain? w).any fun name =>
      specials.contains (String.ofList name) || (Builtin.special? (String.ofList name)).isSome
  | _ => false

/-- A command whose failure ends the shell, if that is wanted. -/
def isChecked : Command → Bool
  | .simple .. | .redirected .. | .pipeline _ | .subshell _ => true
  | _ => false

/-- The command that only replaces descriptors. -/
def isBareExec : Command → Bool
  | .simple _ _ [w] => Word.plain? w == some "exec".toList
  | _ => false

/-- Gives a variable the value back that it had in an earlier process. -/
def restore (before p : Process) (assigned : Octets × Word) : Process :=
  match before.value? assigned.1 with
  | some value =>
    { p.setVariable assigned.1 value with
      exported := if before.exported.contains assigned.1 then p.exported
        else p.exported.filter (· != assigned.1) }
  | none => p.unset assigned.1

/-- Carries out an action in a loop: whether the loop goes on, and the status. -/
def inLoop (act : ShellM Nat) : ShellM (Bool × Nat) := fun s =>
  let loops := s.process.loops
  let (r, s') := act { s with process := { s.process with loops := loops + 1 } }
  let s' := { s' with process := { s'.process with loops } }
  match r with
  | .ok status => (.ok (true, status), s')
  | .error (.leave n) => (if n ≤ 1 then .ok (false, 0) else .error (.leave (n - 1)), s')
  | .error (.again n) => (if n ≤ 1 then .ok (true, 0) else .error (.again (n - 1)), s')
  | .error stop => (.error stop, s')

/-- Carries out the body of a function, whose arguments are its own. -/
def inFunction (arguments : List Octets) (act : ShellM Nat) : ShellM Nat := fun s =>
  let p := s.process
  let (r, s') := act { s with process := { p with arguments, loops := 0, saved := [] } }
  let giveBack (q : Process) (e : Octets × Option Octets) : Process :=
    e.2.elim (q.unset e.1) (q.setVariable e.1)
  let q := s'.process.saved.reverse.foldl giveBack s'.process
  let s' := { s' with process := { q with
    arguments := p.arguments, loops := p.loops, saved := p.saved } }
  match r with
  | .error (.back status) => (.ok status, s')
  | r => (r, s')

/-- What a name stands for as a command: its short form, and what it is in words. -/
def meaning? (tools : Tools) (p : Process) (name : Octets) : Option (Octets × Octets) :=
  let key := String.ofList name
  let found (kind : String) : Option (Octets × Octets) := some (name, kind.toList)
  if Parser.reserved.contains key then found "a shell keyword"
  else if specials.contains key || (Builtin.special? key).isSome then
    found "a special shell builtin"
  else if (p.functions.lookup name).isSome then found "a shell function"
  else if ["command", "type"].contains key || (Builtin.regular? key).isSome then
    found "a shell builtin"
  else if (tools.lookup name).isSome || ["sh", "dash", "env"].contains key ||
      (Program.named? key).isSome then
    some ("/usr/bin/".toList ++ name, "/usr/bin/".toList ++ name)
  else none

def setStatus (status : Nat) : ShellM Nat := do
  changeProcess fun p => { p with status }
  return status

mutual

/-- Carries out a command. With `tested` its status decides what comes next, so that a failure of it
never ends the shell. -/
def run (fuel : Nat) (tools : Tools) (tested : Bool) (c : Command) : ShellM Nat := do
  match fuel with
  | 0 => throw .exhausted
  | fuel + 1 =>
    let status ← match c with
      | .skip => pure (← process).status
      | .simple line assigned words =>
        changeProcess fun p => { p with line }
        attend fuel tools (← simple fuel tools tested assigned words)
      | .redirected body l =>
        let p ← process
        match ← redirect fuel tools l with
        | some why =>
          if isSpecial body then fatal why
          complain why
          changeProcess fun q => { q with descriptors := p.descriptors }
          pure 2
        | none =>
          let status ← run fuel tools tested body
          unless isBareExec body do
            changeProcess fun q => { q with descriptors := p.descriptors }
          pure status
      | .pipeline stages => pipeline fuel tools tested stages
      | .negated body => pure (if (← run fuel tools true body) = 0 then 1 else 0)
      | .both first second =>
        let status ← run fuel tools true first
        if status = 0 then run fuel tools tested second else pure status
      | .either first second =>
        let status ← run fuel tools true first
        if status = 0 then pure status else run fuel tools tested second
      | .inOrder first second =>
        let status ← run fuel tools tested first
        match second with
        | .skip => pure status
        | second => run fuel tools tested second
      | .background body =>
        discard (aside (within (·.setChannel 0 none)
          (entire fuel tools (run fuel tools false body))))
        pure 0
      | .subshell body => aside (entire fuel tools (run fuel tools tested body))
      | .choose condition body otherwise =>
        if (← run fuel tools true condition) = 0 then run fuel tools tested body
        else match otherwise with
          | .skip => pure 0
          | otherwise => run fuel tools tested otherwise
      | .loop whileTrue condition body => loop fuel tools tested whileTrue condition body 0
      | .forEach name words body =>
        let items ← match words with
          | none => pure (← process).arguments
          | some words => fields fuel tools words
        forEach fuel tools tested name body items 0
      | .select word arms =>
        select fuel tools tested (← Expansion.text fuel (output fuel tools) word) arms
      | .define name body =>
        changeProcess fun p => { p with functions := (name, body) :: p.functions }
        pure 0
    if status != 0 && !tested && isChecked c && (← process).options.contains 'e' then
      throw (.exit status)
    setStatus status

/-- Does what signals that came have to bring about. The status stays as it is. -/
def attend (fuel : Nat) (tools : Tools) (status : Nat) : ShellM Nat := do
  match fuel with
  | 0 => throw .exhausted
  | fuel + 1 =>
    match (← process).pending with
    | [] => return status
    | action :: rest =>
      changeProcess fun p => { p with pending := rest, status }
      discard (source fuel tools false action)
      attend fuel tools status

/-- Carries out all that a process does, and what there is to do at its end. -/
def entire (fuel : Nat) (tools : Tools) (act : ShellM Nat) : ShellM Nat := do
  match fuel with
  | 0 => throw .exhausted
  | fuel + 1 =>
    changeProcess fun p => { p with traps := p.traps.filter (·.2.isEmpty) }
    let ended (status : Nat) : ShellM Nat := do
      match (← process).traps.lookup 0 with
      | none => return status
      | some action =>
        changeProcess fun p => { p with traps := [], status }
        discard (source fuel tools false action)
        return status
    match ← outcome act with
    | .ok status | .error (.exit status) | .error (.back status) => ended status
    | .error (.leave _) | .error (.again _) => ended 0
    | .error stop => throw stop

/-- The fields of words. -/
def fields (fuel : Nat) (tools : Tools) (words : List Word) : ShellM (List Octets) := do
  match fuel with
  | 0 => throw .exhausted
  | fuel + 1 => return (← words.mapM (Expansion.fields fuel (output fuel tools))).flatten

/-- What the commands of a source text print. -/
def output (fuel : Nat) (tools : Tools) (text : Octets) : ShellM Octets := do
  match fuel with
  | 0 => throw .exhausted
  | fuel + 1 =>
    let n ← addStream []
    let status ← aside
      (within (·.setChannel 1 (some n)) (entire fuel tools (source fuel tools false text)))
    discard (setStatus status)
    return trimEnd ((← world).stream n)

/-- Carries out the commands of a source text. -/
def source (fuel : Nat) (tools : Tools) (tested : Bool) (text : Octets) : ShellM Nat := do
  match fuel with
  | 0 => throw .exhausted
  | fuel + 1 =>
    let (l, complaint) := Command.ofSource text
    let status ← sequence fuel tools tested l 0
    match complaint with
    | none => return status
    | some why =>
      changeProcess fun p => { p with line := why.line }
      fatal why.text.toList

def sequence (fuel : Nat) (tools : Tools) (tested : Bool) (l : List Command) (status : Nat) :
    ShellM Nat := do
  match fuel with
  | 0 => throw .exhausted
  | fuel + 1 =>
    match l with
    | [] => return status
    | c :: rest => sequence fuel tools tested rest (← run fuel tools tested c)

/-- Opens what redirections name, or says why that is not possible. -/
def redirect (fuel : Nat) (tools : Tools) (l : List Redirection) : ShellM (Option Octets) := do
  match fuel with
  | 0 => throw .exhausted
  | fuel + 1 =>
    match l with
    | [] => return none
    | .write n append target :: rest =>
      match ← openToWrite append (← Expansion.text fuel (output fuel tools) target) with
      | .error why => return some why
      | .ok channel =>
        changeProcess (·.setChannel n channel)
        redirect fuel tools rest
    | .read n target :: rest =>
      let path ← Expansion.text fuel (output fuel tools) target
      match ← contents path with
      | .error why =>
        return some ("cannot open ".toList ++ path ++ ": ".toList ++
          if why.startsWith "No such" then "No such file".toList else why.toList)
      | .ok text =>
        let stream ← addStream text
        changeProcess (·.setChannel n (some stream))
        redirect fuel tools rest
    | .document n text :: rest =>
      let stream ← addStream (← Expansion.text fuel (output fuel tools) text)
      changeProcess (·.setChannel n (some stream))
      redirect fuel tools rest
    | .duplicate n target :: rest =>
      let name ← Expansion.text fuel (output fuel tools) target
      if name == ['-'] then
        changeProcess (·.close n)
        redirect fuel tools rest
      else
        let p ← process
        match (Octets.toNat? name).bind p.channel? with
        | none => return some (name ++ ": Bad file descriptor".toList)
        | some channel =>
          changeProcess (·.setChannel n channel)
          redirect fuel tools rest

/-- A command of words, before which variables may be assigned. -/
def simple (fuel : Nat) (tools : Tools) (tested : Bool) (assigned : List (Octets × Word))
    (words : List Word) : ShellM Nat := do
  match fuel with
  | 0 => throw .exhausted
  | fuel + 1 =>
    let args ← fields fuel tools words
    let before ← process
    for (name, w) in assigned do
      ShellM.assign "" name (← Expansion.text fuel (output fuel tools) w)
    if args.isEmpty then
      let substituted := (assigned.flatMap (·.2) ++ words.flatten).any (· matches .output ..)
      let p ← process
      return if substituted then p.status else 0
    changeProcess fun p => { p with exported := assigned.map (·.1) ++ p.exported }
    let status ← invoke fuel tools tested args
    changeProcess (assigned.foldl (restore before))
    return status

/-- Invokes a command of the shell, a function, or a program. -/
def invoke (fuel : Nat) (tools : Tools) (tested : Bool) (args : List Octets) : ShellM Nat := do
  match fuel with
  | 0 => throw .exhausted
  | fuel + 1 =>
    let name := args.headD []
    let rest := args.tail
    let key := String.ofList name
    match Builtin.special? key with
    | some act => act rest
    | none =>
      match key with
      | "eval" => source fuel tools tested (Octets.join [' '] rest)
      | "." =>
        match rest with
        | [] => return 0
        | path :: _ =>
          if !path.contains '/' then fatal (".: ".toList ++ path ++ ": not found".toList)
          match ← contents path with
          | .error _ => fatal (".: cannot open ".toList ++ path ++ ": No such file".toList)
          | .ok text =>
            match ← outcome (source fuel tools tested text) with
            | .ok status | .error (.back status) => return status
            | .error stop => throw stop
      | "exec" =>
        if rest.isEmpty then return 0
        match ← launch fuel tools rest with
        | .ok (.exited status) =>
          changeProcess fun p => { p with traps := [] }
          throw (.exit status)
        | .ok (.killed signal) => throw (.killed signal)
        | .error (status, why) =>
          complain ("exec: ".toList ++ rest.headD [] ++ ": ".toList ++ why.toList)
          throw (.exit status)
      | key =>
        match (← process).functions.lookup name with
        | some body => inFunction rest (run fuel tools tested body)
        | none =>
          match key, Builtin.regular? key with
          | _, some act => act rest
          | "command", none =>
            match rest with
            | ['-', 'v'] :: wanted :: _ =>
              match meaning? tools (← process) wanted with
              | some (short, _) =>
                print (short ++ ['\n'])
                return 0
              | none => return 127
            | rest => if rest.isEmpty then return 0 else invoke fuel tools tested rest
          | "type", none =>
            let p ← process
            for wanted in rest do
              match meaning? tools p wanted with
              | some (_, text) => print (wanted ++ " is ".toList ++ text ++ ['\n'])
              | none => print (wanted ++ ": not found\n".toList)
            return if rest.all fun w => (meaning? tools p w).isSome then 0 else 127
          | _, none =>
            match ← launch fuel tools args with
            | .ok (.exited status) => return status
            | .ok (.killed signal) =>
              write 2 (obituary signal).toList
              return 128 + signal
            | .error (status, why) =>
              let why := if name.isEmpty then "Permission denied" else why
              complain (name ++ ": ".toList ++ why.toList)
              return status

/-- Runs a program to its end, or gives a status and a reason why there is none. -/
def launch (fuel : Nat) (tools : Tools) (args : List Octets) :
    ShellM (Except (Nat × String) Ending) := do
  match fuel with
  | 0 => throw .exhausted
  | fuel + 1 =>
    let name := args.headD []
    let rest := args.tail
    match tools.lookup name with
    | some script =>
      changeWorld fun w =>
        { w with calls := (name ++ [' '] ++ Octets.join [' '] rest) :: w.calls }
      return .ok (← start name rest (entire fuel tools (source fuel tools false script)))
    | none =>
      match String.ofList (Program.base name) with
      | "sh" | "dash" => return .ok (← shell fuel tools name [] rest)
      | "env" =>
        let (given, rest) := assignments rest
        if rest.isEmpty then return .ok (.exited 0)
        let p ← process
        changeProcess fun p => given.foldl (fun p e =>
          { p.setVariable e.1 e.2 with exported := e.1 :: p.exported }) p
        let result ← launch fuel tools rest
        changeProcess fun _ => p
        match result with
        | .ok ending => return .ok ending
        | .error (status, why) =>
          Program.complain "env" (rest.headD [] ++ ": ".toList ++ why.toList)
          return .ok (.exited status)
      | key =>
        match Program.named? key with
        | some act => return .ok (← start name rest (act rest))
        | none =>
          if name.contains '/' && World.isDirectory name then
            return .error (126, "Permission denied")
          else return .error (127, "not found")

/-- A shell: its arguments name a source text, or it reads one from its input. -/
def shell (fuel : Nat) (tools : Tools) (name : Octets) (options : List Char)
    (args : List Octets) : ShellM Ending := do
  match fuel with
  | 0 => throw .exhausted
  | fuel + 1 =>
    let begins (zero : Octets) (rest : List Octets) (body : ShellM Nat) : ShellM Ending :=
      start zero rest (do
        changeProcess fun p => { p with options := options.filter (· != 'c') }
        entire fuel tools body)
    match options.contains 'c', args with
    | _, ('-' :: c :: letters) :: rest => shell fuel tools name (options ++ c :: letters) rest
    | true, script :: zero :: rest => begins zero rest (source fuel tools false script)
    | true, [script] => begins name [] (source fuel tools false script)
    | true, [] => begins name [] (do
        changeProcess fun p => { p with line := 0 }
        fatal "-c requires an argument".toList)
    | false, path :: rest => begins path rest (do
        match ← contents path with
        | .ok found => source fuel tools false found
        | .error _ =>
          complain ("cannot open ".toList ++ path ++ ": No such file".toList)
          return 2)
    | false, [] => begins name [] (do source fuel tools false (← readAll))

def pipeline (fuel : Nat) (tools : Tools) (tested : Bool) (stages : List Command) : ShellM Nat := do
  match fuel with
  | 0 => throw .exhausted
  | fuel + 1 =>
    match stages with
    | [] => return 0
    | [last] => aside (entire fuel tools (run fuel tools tested last))
    | first :: rest =>
      let n ← addStream []
      discard (aside (within (·.setChannel 1 (some n))
        (entire fuel tools (run fuel tools tested first))))
      within (·.setChannel 0 (some n)) (pipeline fuel tools tested rest)

def loop (fuel : Nat) (tools : Tools) (tested whileTrue : Bool) (condition body : Command)
    (status : Nat) : ShellM Nat := do
  match fuel with
  | 0 => throw .exhausted
  | fuel + 1 =>
    let (goesOn, outcome) ← inLoop (run fuel tools true condition)
    if goesOn && (outcome == 0) == whileTrue then
      let (goesOn, status) ← inLoop (run fuel tools tested body)
      if goesOn then loop fuel tools tested whileTrue condition body status else return status
    else return status

def forEach (fuel : Nat) (tools : Tools) (tested : Bool) (name : Octets) (body : Command)
    (items : List Octets) (status : Nat) : ShellM Nat := do
  match fuel with
  | 0 => throw .exhausted
  | fuel + 1 =>
    match items with
    | [] => return status
    | item :: rest =>
      ShellM.assign "" name item
      let (goesOn, status) ← inLoop (run fuel tools tested body)
      if goesOn then forEach fuel tools tested name body rest status else return status

/-- Carries out the first arm with a pattern that matches. -/
def select (fuel : Nat) (tools : Tools) (tested : Bool) (text : Octets)
    (arms : List (List Word × Command)) : ShellM Nat := do
  match fuel with
  | 0 => throw .exhausted
  | fuel + 1 =>
    match arms with
    | [] => return 0
    | (labels, body) :: rest =>
      let patterns ← labels.mapM (Expansion.pattern fuel (output fuel tools))
      if patterns.any fun p => Pattern.isMatch p text then
        match body with
        | .skip => return 0
        | body => run fuel tools tested body
      else select fuel tools tested text rest

end

end NicTuning.Shell.Run
