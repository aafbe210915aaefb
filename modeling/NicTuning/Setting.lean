import NicTuning.Numeral
import NicTuning.Text.Blank

/-!
# Settings

The value that an attribute of a network device has or is to have: a flag, a number of 64 bits, or
a word. `arg` writes it for a command line and `ofOutput` reads it from what a command prints.
-/
namespace NicTuning

inductive Setting
  | flag (b : Bool)
  | number (n : Int64)
  | word (s : String)
  deriving DecidableEq, Inhabited

namespace Setting

/-- The word for a flag on a command line. -/
def onOff (b : Bool) : String := if b then "on" else "off"

/-- The setting as an argument of a command. -/
def arg : Setting → String
  | flag b => onOff b
  | number n => toString n.toInt
  | word s => s

/-- The setting as shown to a reader. -/
def text : Setting → String
  | flag b => toString b
  | number n => toString n.toInt
  | word s => s

/-- The flag that a setting stands for, if it stands for one. -/
def asFlag? : Setting → Option Bool
  | flag b => some b
  | number n => if n = 0 then some false else if n = 1 then some true else none
  | word s =>
    if s = "on" ∨ s = "true" then some true
    else if s = "off" ∨ s = "false" then some false
    else none

/-- The setting that a command printed: a number if the trimmed output is one, else a word. -/
def ofOutput (output : String) : Setting :=
  let s := Text.trim output
  match Numeral.int64? s with
  | some n => number n
  | none => word s

end Setting

end NicTuning
