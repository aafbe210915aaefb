import NicTuning.Fault
import NicTuning.Text.Blank

/-!
# Output of commands

What a command printed and how it ended.
-/
namespace NicTuning

structure Output where
  stdout : String
  stderr : String
  exitCode : Int
  deriving DecidableEq, Inhabited

namespace Output

def ok (stdout : String) : Output := ⟨stdout, "", 0⟩

def failed (exitCode : Int) (stderr : String) : Output := ⟨"", stderr, exitCode⟩

def success (o : Output) : Bool := o.exitCode == 0

/-- Refuses an output whose code is not zero. -/
def check (o : Output) (host command : String) : Except Fault Output :=
  if o.success then .ok o
  else .error (.remoteCommand host command o.exitCode (Text.trim o.stderr))

theorem check_eq_ok_iff {o o' : Output} {host command : String} :
    o.check host command = .ok o' ↔ o.exitCode = 0 ∧ o = o' := by
  by_cases h : o.exitCode = 0 <;> simp [check, success, h]

end Output

end NicTuning
