import NicTuning.Shell.Program.Basic

/-!
# Filters

Programs that print some of the lines or octets they read, in another order or form, or how many
there are.
-/
namespace NicTuning.Shell.Program

open ShellM

/-- The lines of a text with their line feeds. -/
def linesOf (s : Octets) : List Octets :=
  s.foldr (fun c l =>
    if c == '\n' then ['\n'] :: l
    else match l with
      | [] => [[c]]
      | line :: rest => (c :: line) :: rest) []

/-- How much is wanted, of what unit, and of which files. -/
def quantity : List Octets → Octets × Char × List Octets
  | ('-' :: c :: n) :: files =>
    if c.isDigit then (c :: n, 'n', files)
    else if n.isEmpty then (files.headD [], c, files.tail)
    else (n, c, files)
  | files => ("10".toList, 'n', files)

/-- Some of the lines or octets of each file. A beginning that `sign` marks is given to `marked`. -/
def portion (name : String) (sign : Char) (choose marked : Nat → List Octets → List Octets)
    (args : List Octets) : ShellM Nat := do
  let (n, unit, files) := quantity args
  let isMarked := n.head? == some sign
  match Octets.toNat? (if isMarked then n.tail else n) with
  | none =>
    let units := if unit == 'c' then "bytes" else "lines"
    complain name (("invalid number of " ++ units ++ ": '").toList ++ n ++ ['\''])
    return 1
  | some k =>
    onFiles name (fun text =>
      let parts := if unit == 'c' then text.map ([·]) else linesOf text
      print ((if isMarked then marked else choose) k parts).flatten) files

def head : Builtin :=
  portion "head" '-' (fun n l => l.take n) (fun n l => l.take (l.length - n))

def tail : Builtin :=
  portion "tail" '+' (fun n l => l.drop (l.length - n)) (fun n l => l.drop (n - 1))

/-- The digits that a line begins with, as a number. -/
def leadingNumber (line : Octets) : Int :=
  match line.dropWhile Token.isBlank with
  | '-' :: rest => -(Octets.value (rest.takeWhile Char.isDigit) : Int)
  | rest => Octets.value (rest.takeWhile Char.isDigit)

/-- The lines of all files in order: as numbers, in reverse, each one once. -/
def sort : Builtin := fun args => do
  let (options, files) := letters args
  let mut lines : List Octets := []
  for path in if files.isEmpty then [['-']] else files do
    match ← if path == ['-'] then .ok <$> readAll else contents path with
    | .ok text => lines := lines ++ linesOf text
    | .error why =>
      complain "sort" ("cannot read: ".toList ++ path ++ ": ".toList ++ why.toList)
      return 2
  let numbers := options.contains 'n'
  let once := options.contains 'u'
  let same (a b : Octets) : Bool := if numbers then leadingNumber a == leadingNumber b else a == b
  let le (a b : Octets) : Bool :=
    if numbers && !same a b then decide (leadingNumber a < leadingNumber b)
    else numbers && once || !decide (b < a)
  let sorted := (lines.map fun l => l.filter (· != '\n')).mergeSort
    fun a b => if options.contains 'r' then le b a else le a b
  let kept := if once then sorted.foldr (fun a l =>
      match l with
      | b :: rest => if same a b then a :: rest else a :: l
      | [] => [a]) []
    else sorted
  print (kept.flatMap (· ++ ['\n']))
  return 0

/-- The members of a set of octets, in which a hyphen makes a range. -/
def members (fuel : Nat) (cs : Octets) : Octets :=
  match fuel, cs with
  | 0, _ | _, [] => []
  | fuel + 1, '\\' :: rest =>
    let (c, rest) := Format.escape rest
    c :: members fuel rest
  | fuel + 1, a :: '-' :: b :: rest =>
    (List.range (b.toNat + 1 - a.toNat)).map (fun i => Char.ofNat (a.toNat + i)) ++
      members fuel rest
  | fuel + 1, c :: rest => c :: members fuel rest

/-- Replaces or deletes octets of the input. -/
def tr : Builtin
  | [['-', 'd'], set] => do
    let set := members (set.length + 1) set
    print ((← readAll).filter (!set.contains ·))
    return 0
  | [old, new] => do
    let old := members (old.length + 1) old
    let new := members (new.length + 1) new
    let replace (c : Char) : Char :=
      (old.idxOf? c).elim c fun i => new.getD i (new.getLastD c)
    print ((← readAll).map replace)
    return 0
  | _ => do
    complain "tr" "missing operand".toList
    return 1

/-- A number with blanks before it. -/
def padded (width n : Nat) : Octets :=
  let digits := Octets.ofNat n
  List.replicate (width - digits.length) ' ' ++ digits

/-- The numbers of lines, words and octets of a text, as far as they are wanted. -/
def counts (wanted : Octets) (text : Octets) : List Nat :=
  let words := (text.splitOnP fun c => c == ' ' || ('\t' ≤ c && c ≤ '\r')).filter (!·.isEmpty)
  [('l', text.count '\n'), ('w', words.length), ('c', text.length)].filterMap fun (letter, n) =>
    if wanted.isEmpty || wanted.contains letter then some n else none

/-- Counts what is in files or in the input. -/
def wc : Builtin := fun args => do
  let (wanted, files) := letters args
  let mut found : List (Octets × Except String Octets) := []
  for path in if files.isEmpty then [['-']] else files do
    let text ← if path == ['-'] then .ok <$> readAll else contents path
    found := found ++ [(path, text)]
  let texts := found.filterMap (·.2.toOption)
  let isOne := (counts wanted []).length = 1 && files.length ≤ 1
  let width :=
    if isOne then 1
    else if files.isEmpty || files.contains ['-'] then 7
    else (Octets.ofNat texts.flatten.length).length
  let row (numbers : List Nat) (name : Octets) : Octets :=
    Octets.join [' '] (numbers.map (padded width)) ++
      (if files.isEmpty then [] else ' ' :: name) ++ ['\n']
  for (path, text) in found do
    match text with
    | .ok text => print (row (counts wanted text) path)
    | .error why => complain "wc" (path ++ ": ".toList ++ why.toList)
  if 1 < files.length then
    let total := texts.foldl (fun sums text => sums.zipWith (· + ·) (counts wanted text))
      (counts wanted [])
    print (row total "total".toList)
  return if texts.length = found.length then 0 else 1

end NicTuning.Shell.Program
