import NicTuning.Shell.Program.Basic

/-!
# Programs that work on files

Files are shown, made and removed by their paths, and paths are taken apart.
-/
namespace NicTuning.Shell.Program

open ShellM

/-- Says why something cannot be done to a path. -/
def refuse (name verb : String) (path : Octets) (why : String) : ShellM Unit :=
  complain name (("cannot " ++ verb ++ " '").toList ++ path ++ ("': " ++ why).toList)

/-- Shows the files that are named, or that are in a directory that is named. -/
def ls : Builtin := fun args => do
  let (_, paths) := letters args
  let mut shown : List Octets := []
  let mut status := 0
  for path in if paths.isEmpty then [['.']] else paths do
    let files := (← world).files.map Prod.fst
    if files.contains path then shown := shown ++ [path]
    else if World.isDirectory path then
      shown := shown ++ (files.filter fun f => World.directoryOf f == path).map base
    else
      refuse "ls" "access" path "No such file or directory"
      status := 2
  print ((shown.mergeSort fun a b => !decide (b < a)).flatMap (· ++ ['\n']))
  return status
where
  base (path : Octets) : Octets := (path.reverse.takeWhile (· != '/')).reverse

def rm : Builtin := fun args => do
  let (options, paths) := letters args
  let force := options.contains 'f'
  if paths.isEmpty && !force then return ← withoutOperand "rm"
  let mut status := 0
  for path in paths do
    let w ← world
    if (w.files.lookup path).isSome then
      changeWorld fun w => { w with files := w.files.filter (·.1 != path) }
    else if World.isDirectory path then
      refuse "rm" "remove" path "Is a directory"
      status := 1
    else if !force then
      refuse "rm" "remove" path "No such file or directory"
      status := 1
  return status

def touch : Builtin := fun args => do
  let (_, paths) := letters args
  if paths.isEmpty then return ← withoutOperand "touch"
  let mut status := 0
  for path in paths do
    unless World.isDirectory path do
      if (← openToWrite true path) matches .error _ then
        refuse "touch" "touch" path "No such file or directory"
        status := 1
  return status

/-- Passes the input on, and into files as well. -/
def tee : Builtin := fun args => do
  let (options, paths) := letters args
  let text ← readAll
  let mut status := 0
  for path in paths do
    match ← openToWrite (options.contains 'a') path with
    | .ok (some n) => changeWorld fun w => w.setStream n (w.stream n ++ text)
    | .ok none => pure ()
    | .error _ =>
      let why := if World.isDirectory path then "Is a directory" else "No such file or directory"
      complain "tee" (path ++ ": ".toList ++ why.toList)
      status := 1
  print text
  return status

/-- A path without the slashes at its end. -/
def trimSlashes (path : Octets) : Octets :=
  let trimmed := (path.reverse.dropWhile (· == '/')).reverse
  if trimmed.isEmpty then path.take 1 else trimmed

/-- The last name of a path, without an ending that is given. -/
def basename : Builtin
  | [] => withoutOperand "basename"
  | path :: rest => do
    let trimmed := trimSlashes path
    let name := if trimmed == ['/'] then trimmed
      else (trimmed.reverse.takeWhile (· != '/')).reverse
    let ending := rest.headD []
    let isShorter := ending.isSuffixOf name && ending != name
    print ((if isShorter then name.take (name.length - ending.length) else name) ++ ['\n'])
    return 0

/-- Each path without its last name. -/
def dirname : Builtin := fun args => do
  if args.isEmpty then return ← withoutOperand "dirname"
  for path in args do
    let trimmed := trimSlashes path
    let above := trimmed.reverse.dropWhile (· != '/')
    print ((if above.isEmpty then ['.'] else trimSlashes above.reverse) ++ ['\n'])
  return 0

end NicTuning.Shell.Program
