import NicTuning.Report.KeyValue

/-!
# Interrupt coalescing

How a device merges interrupts. After a title the report has a line with the two adaptive modes
and a line for each other parameter, in which `n/a` stands for one that the device lacks.
-/
namespace NicTuning.Report

structure Coalescing where
  adaptiveRx : Option Bool
  adaptiveTx : Option Bool
  settings : Dict (Option String)
  deriving DecidableEq

namespace Coalescing

def none : Coalescing := ⟨.none, .none, .empty⟩

/-- Adds what one line says. The receiving mode is always replaced, the sending mode only by a line
that has one. -/
def addLine (known : Coalescing) (line : String) : Coalescing :=
  match KeyValue.ofLine? line with
  | .none => known
  | some ⟨key, value⟩ =>
    if key = "Adaptive RX" then
      let words := Text.words value
      let known := { known with adaptiveRx := words.head?.bind flag? }
      match words.drop 1 with
      | "TX:" :: sending => { known with adaptiveTx := sending.head?.bind flag? }
      | _ => known
    else if value.isEmpty then known
    else
      let setting := if value = "n/a" then .none else some value
      { known with settings := known.settings.insert key setting }

/-- The parameters in a report, whose first line is a title. -/
def read (output : String) : Coalescing := ((Text.lines output).drop 1).foldl addLine none

end Coalescing

end NicTuning.Report
