import NicTuning.Fault
import NicTuning.Text.Blank
import NicTuning.Text.Lines

/-!
# Link and queueing discipline

Whether a device is up, by the flags between the first pair of angle brackets, and which
queueing discipline stands at its root.
-/
namespace NicTuning.Report

/-- The texts between the first opening angle bracket, the next closing one and the commas. -/
def linkFlags (output : String) : Except Fault (List String) :=
  match output.toList.dropWhile (· != '<') with
  | [] => .error (.parse ("no link flags in '" ++ Text.trim output ++ "'"))
  | _ :: inside =>
    if inside.contains '>' then
      .ok (((inside.takeWhile (· != '>')).splitOn ',').map String.ofList)
    else .error (.parse ("unterminated link flags in '" ++ Text.trim output ++ "'"))

/-- The device is administratively up. -/
def linkIsUp (output : String) : Except Fault Bool :=
  (linkFlags output).map fun flags => flags.contains "UP"

/-- The kind of the queueing discipline on the first line. -/
def rootQdisc? (output : String) : Option String :=
  match ((Text.lines output).head?.map Text.words) with
  | some ("qdisc" :: kind :: _) => some kind
  | _ => none

end NicTuning.Report
