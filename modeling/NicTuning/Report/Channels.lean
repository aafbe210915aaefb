import NicTuning.Fault
import NicTuning.Numeral
import NicTuning.Report.KeyValue

/-!
# Channel counts

How many queues of each type a device has and could have. After a title the report has two
sections of counts by type, in which `n/a` stands for a type that the device lacks.
-/
namespace NicTuning.Report

/-- Counts by queue type, in lower case. -/
abbrev Counts := Dict (Option UInt32)

structure Channels where
  maximums : Counts
  current : Counts
  deriving DecidableEq

namespace Channels

inductive Section
  | maximums
  | current

def none : Channels := ⟨.empty, .empty⟩

/-- The section that a line opens. -/
def heading? (line : String) : Option Section :=
  if line = "Pre-set maximums:" then some .maximums
  else if line = "Current hardware settings:" then some .current
  else .none

def insert (c : Channels) (type : String) (count : Option UInt32) : Section → Channels
  | .maximums => { c with maximums := c.maximums.insert type count }
  | .current => { c with current := c.current.insert type count }

/-- A count, or none for `n/a`. -/
def count? (value : String) : Option (Option UInt32) :=
  if value = "n/a" then some .none else (Numeral.uint32? value).map some

/-- The counts on the given lines, added to those known when `open?` is the section at hand. -/
def readLines (known : Channels) (open? : Option Section) : List String → Except Fault Channels
  | [] => .ok known
  | line :: rest =>
    if (Text.trim line).isEmpty then readLines known open? rest
    else
      match heading? (Text.trim line) with
      | some opened => readLines known (some opened) rest
      | .none =>
        match KeyValue.ofLine? line with
        | .none => .error (.parse ("bad channel line '" ++ line ++ "'"))
        | some entry =>
          match count? entry.value, open? with
          | .none, _ =>
            .error (.parse ("bad channel count '" ++ entry.value ++ "' for " ++ entry.key))
          | _, .none => .error (.parse ("channel line '" ++ line ++ "' outside of a section"))
          | some count, some opened =>
            readLines (known.insert (Text.lower entry.key) count opened) open? rest

/-- The counts in a report, whose first line is a title. -/
def read (output : String) : Except Fault Channels :=
  readLines none .none ((Text.lines output).drop 1)

end Channels

end NicTuning.Report
