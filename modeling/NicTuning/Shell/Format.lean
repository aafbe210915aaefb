import NicTuning.Shell.Octets

/-!
# Formatted output

A format is a list of literal octets and of conversions that take an argument each. It is gone
through again as long as arguments remain. A missing argument is the empty text or zero.
-/
namespace NicTuning.Shell

/-- How a converted argument is laid out. A width or a precision may be an argument itself. -/
structure Layout where
  flags : List Char
  width : Option (Option Nat)
  precision : Option (Option Nat)

inductive Directive
  | literal (c : Char)
  | convert (layout : Layout) (kind : Char)
  | broken (complaint : Octets)

namespace Format

def octalDigit? (c : Char) : Option Nat :=
  if '0' ≤ c && c ≤ '7' then some (c.toNat - 48) else none

/-- The octet with the number that at most `count` octal digits give. -/
def octal (count acc : Nat) (cs : Octets) : Char × Octets :=
  match count, cs with
  | count + 1, c :: rest =>
    match octalDigit? c with
    | some d => octal count (8 * acc + d) rest
    | none => (Char.ofNat (acc % 256), cs)
  | _, cs => (Char.ofNat (acc % 256), cs)

/-- The octet that an escape after its backslash stands for. A backslash that begins no escape
stands for itself. -/
def escape (cs : Octets) : Char × Octets :=
  match cs with
  | '\\' :: rest => ('\\', rest)
  | 'a' :: rest => ('\x07', rest)
  | 'b' :: rest => ('\x08', rest)
  | 'e' :: rest => ('\x1b', rest)
  | 'f' :: rest => ('\x0c', rest)
  | 'n' :: rest => ('\n', rest)
  | 'r' :: rest => ('\r', rest)
  | 't' :: rest => ('\t', rest)
  | 'v' :: rest => ('\x0b', rest)
  | c :: rest => if (octalDigit? c).isSome then octal 3 0 (c :: rest) else ('\\', cs)
  | [] => ('\\', [])

/-- The octets with their escapes resolved, and whether one of them ends all output. Here the
digits of an octal escape follow a zero. -/
def unescape (fuel : Nat) (cs : Octets) : Octets × Bool :=
  match fuel, cs with
  | 0, _ | _, [] => ([], false)
  | _ + 1, '\\' :: 'c' :: _ => ([], true)
  | fuel + 1, '\\' :: rest =>
    let (c, rest) :=
      match rest with
      | '0' :: digits => octal 3 0 digits
      | rest => escape rest
    let (more, ended) := unescape fuel rest
    (c :: more, ended)
  | fuel + 1, c :: rest =>
    let (more, ended) := unescape fuel rest
    (c :: more, ended)

/-- Words with a blank between any two, escapes resolved, and a line feed unless it is not wanted
or all output has ended. -/
def echo (args : List Octets) : Octets :=
  let (args, newline) :=
    match args with
    | ['-', 'n'] :: rest => (rest, false)
    | args => (args, true)
  let source := Octets.join [' '] args
  let (text, ended) := unescape (source.length + 1) source
  if newline && !ended then text ++ ['\n'] else text

/-! ## Reading a format -/

/-- A number written in digits, or the star that takes it from an argument. -/
def size? (cs : Octets) : Option (Option Nat) × Octets :=
  match cs with
  | '*' :: rest => (some none, rest)
  | cs =>
    let digits := cs.takeWhile Char.isDigit
    (if digits.isEmpty then none
      else some (some (Octets.value digits)),
      cs.dropWhile Char.isDigit)

/-- The kinds of conversion. -/
def kinds : List Char := "bcdiosuxX".toList

/-- A conversion after its percent sign. -/
def conversion (cs : Octets) : Directive × Octets :=
  let isFlag (c : Char) : Bool := "#-+ 0".toList.contains c
  let (width, afterWidth) := size? (cs.dropWhile isFlag)
  let (precision, rest) :=
    match afterWidth with
    | '.' :: rest =>
      let (n, rest) := size? rest
      (some (n.getD (some 0)), rest)
    | rest => (none, rest)
  match rest with
  | [] => (.broken "missing format character".toList, [])
  | c :: after =>
    if kinds.contains c then (.convert ⟨cs.takeWhile isFlag, width, precision⟩ c, after)
    else
      (.broken ('%' :: cs.take (cs.length - after.length) ++ ": invalid directive".toList), [])

def directives (fuel : Nat) (cs : Octets) : List Directive :=
  match fuel, cs with
  | 0, _ | _, [] => []
  | fuel + 1, '\\' :: rest => let (c, rest) := escape rest; .literal c :: directives fuel rest
  | fuel + 1, '%' :: '%' :: rest => .literal '%' :: directives fuel rest
  | fuel + 1, '%' :: rest =>
    match conversion rest with
    | (.broken complaint, _) => [.broken complaint]
    | (d, rest) => d :: directives fuel rest
  | fuel + 1, c :: rest => .literal c :: directives fuel rest

/-! ## Arguments -/

def digitValue? (base : Nat) (c : Char) : Option Nat :=
  let v := if c.isDigit then c.toNat - 48
    else if 'a' ≤ c && c ≤ 'z' then c.toNat - 87
    else if 'A' ≤ c && c ≤ 'Z' then c.toNat - 55
    else base
  if v < base then some v else none

/-- The number in front, in octal after a zero and in hexadecimal after `0x`, with what follows. -/
def number (cs : Octets) : Int × Octets :=
  let cs := cs.dropWhile fun c => c == ' ' || ('\t' ≤ c && c ≤ '\r')
  let (negative, cs) :=
    match cs with
    | '-' :: rest => (true, rest)
    | '+' :: rest => (false, rest)
    | cs => (false, cs)
  let (base, digits) :=
    match cs with
    | '0' :: x :: d :: rest =>
      if (x == 'x' || x == 'X') && (digitValue? 16 d).isSome then (16, d :: rest) else (8, cs)
    | '0' :: _ => (8, cs)
    | cs => (10, cs)
  let isDigit (c : Char) : Bool := (digitValue? base c).isSome
  let n : Nat := (digits.takeWhile isDigit).foldl
    (fun n c => base * n + (digitValue? base c).getD 0) 0
  (if negative then -n else n, digits.dropWhile isDigit)

/-- The number that an argument gives and what is wrong with it. A quote gives the number of the
octet after it. -/
def numeric (signed : Bool) (arg : Octets) : Int × List Octets :=
  match arg with
  | '"' :: rest | '\'' :: rest => (rest.head?.elim 0 fun c => (c.toNat : Int), [])
  | arg =>
    let (n, rest) := number arg
    let least : Int := if signed then Int64.minValue.toInt else -(UInt64.size - 1)
    let greatest : Int := if signed then Int64.maxValue.toInt else UInt64.size - 1
    let started := rest.length < arg.length && arg.any Char.isDigit
    if arg.isEmpty then (0, [])
    else if !started then (0, [arg ++ ": expected numeric value".toList])
    else if !rest.isEmpty then (n, [arg ++ ": not completely converted".toList])
    else if n < least || greatest < n then
      (if n < 0 && signed then least else greatest,
        [arg ++ ": Numerical result out of range".toList])
    else (n, [])

/-! ## Conversions -/

def pad (left : Bool) (fill : Char) (width : Nat) (text : Octets) : Octets :=
  let filling := List.replicate (width - text.length) fill
  if left then text ++ filling else filling ++ text

/-- A number with its sign or mark, as many digits as the precision asks for, and padding. -/
def layOutNumber (flags : List Char) (width : Nat) (precision : Option Nat)
    (mark digits : Octets) : Octets :=
  let digits := if precision == some 0 && digits == ['0'] then [] else digits
  let digits := pad false '0' (precision.getD 1) digits
  let left := flags.contains '-'
  if flags.contains '0' && !left && precision.isNone then
    mark ++ pad false '0' (width - mark.length) digits
  else pad left ' ' width (mark ++ digits)

/-- The text of a converted argument. -/
def convert (flags : List Char) (width : Nat) (precision : Option Nat) (kind : Char)
    (arg : Octets) : Octets × List Octets :=
  let text (s : Octets) : Octets :=
    pad (flags.contains '-') ' ' width (precision.elim s fun n => s.take n)
  if kind == 's' then (text arg, [])
  else if kind == 'c' then (pad (flags.contains '-') ' ' width (arg.take 1), [])
  else if kind == 'd' || kind == 'i' then
    let (n, complaints) := numeric true arg
    let sign := if n < 0 then ['-'] else if flags.contains '+' then ['+']
      else if flags.contains ' ' then [' '] else []
    (layOutNumber flags width precision sign (Octets.ofNat n.natAbs), complaints)
  else
    let (n, complaints) := numeric false arg
    let n := (n % UInt64.size).toNat
    let base := if kind == 'o' then 8 else if kind == 'u' then 10 else 16
    let digits := Nat.toDigits base n
    let digits := if kind == 'X' then digits.map Char.toUpper else digits
    let alternate := flags.contains '#' && n != 0
    let mark := if alternate && kind == 'x' then ['0', 'x']
      else if alternate && kind == 'X' then ['0', 'X'] else []
    let digits := if alternate && kind == 'o' then '0' :: digits else digits
    (layOutNumber flags width precision mark digits, complaints)

/-- What has been printed so far, and the status to end with. -/
structure Printing where
  output : Octets
  complaints : List Octets
  arguments : List Octets
  status : Nat
  ended : Bool

namespace Printing

/-- The next argument. -/
def next (p : Printing) : Octets × Printing :=
  (p.arguments.headD [], { p with arguments := p.arguments.tail })

def print (p : Printing) (text : Octets) : Printing := { p with output := p.output ++ text }

/-- Adds what is wrong with an argument. -/
def complain (p : Printing) (complaints : List Octets) : Printing :=
  { p with
    complaints := p.complaints ++ complaints
    status := if complaints.isEmpty then p.status else 1 }

/-- A width or a precision, which may be the next argument. -/
def size (p : Printing) : Option (Option Nat) → Option Int × Printing
  | none => (none, p)
  | some (some n) => (some n, p)
  | some none =>
    let (arg, p) := p.next
    let (n, complaints) := numeric true arg
    (some n, p.complain complaints)

def directive (p : Printing) : Directive → Printing
  | .literal c => p.print [c]
  | .broken complaint => { p.complain [complaint] with status := 2, ended := true }
  | .convert layout kind =>
    let (width, p) := p.size layout.width
    let (precision, p) := p.size layout.precision
    let width := width.getD 0
    let flags := if width < 0 then '-' :: layout.flags else layout.flags
    let precision := (precision.filter (0 ≤ ·)).map Int.toNat
    let (arg, p) := p.next
    if kind == 'b' then
      let (text, ended) := unescape (arg.length + 1) arg
      { p.print (convert flags width.natAbs precision 's' text).1 with ended }
    else
      let (text, complaints) := convert flags width.natAbs precision kind arg
      (p.print text).complain complaints

def directives (p : Printing) : List Directive → Printing
  | [] => p
  | d :: rest => if p.ended then p else directives (p.directive d) rest

/-- Goes through a format as long as arguments remain and it takes some. -/
def repeatedly (fuel : Nat) (p : Printing) (l : List Directive) : Printing :=
  match fuel with
  | 0 => p
  | fuel + 1 =>
    let after := p.directives l
    if after.ended || after.arguments.isEmpty ||
        after.arguments.length == p.arguments.length then after
    else repeatedly fuel after l

end Printing

/-- The arguments in a format. -/
def print (format : Octets) (args : List Octets) : Printing :=
  Printing.repeatedly (args.length + 1) ⟨[], [], args, 0, false⟩
    (directives (format.length + 1) format)

end Format

end NicTuning.Shell
