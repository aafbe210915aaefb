import NicTuning.Fault
import NicTuning.Numeral
import NicTuning.Report.KeyValue

/-!
# Processors and interrupts of a machine

How many processors a machine has, and which rows of its interrupt table belong to a device. A row
belongs to a device if it mentions its name or its bus address as a whole word.
-/
namespace NicTuning.Report

/-- The number on the first line about processors. -/
def processorCount (output : String) : Except Fault Nat :=
  let entries := (Text.lines output).filterMap KeyValue.ofLine?
  match (entries.find? fun e => e.key = "CPU(s)").bind fun e => Numeral.count? e.value with
  | some n => .ok n
  | none => .error (.parse "no CPU(s) line in lscpu output")

namespace Interrupts

/-- What may follow a word: a blank, a hyphen or an at sign. -/
def endsWord (c : Char) : Bool := Text.isBlank c || c == '-' || c == '@'

/-- `word` occurs in the text between a boundary on its left, the text's start or a character that
`lead` allows, and one on its right. Occurrences are sought from left to right and do not overlap:
the search goes on behind an occurrence without its boundaries. `before` precedes the text, and the
first `skip` characters belong to an occurrence already seen. -/
def mentionsFrom (lead : Char → Bool) (word : List Char) (before : Option Char) (skip : Nat) :
    List Char → Bool
  | [] => false
  | c :: cs =>
    match skip with
    | skip + 1 => mentionsFrom lead word (some c) skip cs
    | 0 =>
      if word.isPrefixOf (c :: cs) then
        (before.all lead && ((c :: cs).drop word.length).head?.all endsWord) ||
          mentionsFrom lead word (some c) (word.length - 1) cs
      else mentionsFrom lead word (some c) 0 cs

/-- The line mentions the word, which is not empty. -/
def mentions (lead : Char → Bool) (word line : String) : Bool :=
  !word.isEmpty && mentionsFrom lead word.toList none 0 line.toList

/-- A row of the interrupt table belongs to the device. -/
def belongs (name : String) (bus : Option String) (line : String) : Bool :=
  mentions Text.isBlank name line ||
    bus.any fun bus => mentions (fun c => Text.isBlank c || c == ':') bus line

/-- The number before the first colon of a row. -/
def number? (line : String) : Option UInt32 :=
  let cs := line.toList
  if cs.contains ':' then
    Numeral.uint32? (String.ofList (Text.trimChars (cs.takeWhile (· != ':'))))
  else none

/-- The numbers of the device's interrupts, in the order of the table. -/
def ofDevice (table name : String) (bus : Option String) : List UInt32 :=
  ((Text.lines table).filter (belongs name bus)).filterMap number?

end Interrupts

end NicTuning.Report
