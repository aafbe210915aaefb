import NicTuning.Shell.Builtin

/-!
# Arguments of programs

What the small programs have in common: options, files to read, and complaints.
-/
namespace NicTuning.Shell.Program

open ShellM

/-- Says that something is wrong, after the name of the program. -/
def complain (name : String) (text : Octets) : ShellM Unit :=
  write 2 ((name ++ ": ").toList ++ text ++ ['\n'])

/-- The contents of the files, or of the input if there are none, each given to an action. -/
def onFiles (name : String) (act : Octets → ShellM Unit) (files : List Octets) : ShellM Nat := do
  let mut status := 0
  for path in if files.isEmpty then [['-']] else files do
    if path == ['-'] then act (← readAll)
    else match ← contents path with
      | .ok text => act text
      | .error why =>
        complain name (path ++ ": ".toList ++ why.toList)
        status := 1
  return status

/-- The arguments that are options, as letters, and the other ones. -/
def letters (args : List Octets) : Octets × List Octets :=
  let isOption (a : Octets) : Bool := a.head? == some '-' && 1 < a.length
  ((args.filter isOption).flatMap List.tail, args.filter (!isOption ·))

/-- Complains that a program has not been told what to work on. -/
def withoutOperand (name : String) : ShellM Nat := do
  complain name ("missing operand\nTry '" ++ name ++ " --help' for more information.").toList
  return 1

end NicTuning.Shell.Program
