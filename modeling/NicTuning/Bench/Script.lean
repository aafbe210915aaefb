import NicTuning.Bench.Basic

/-!
# Scripted answers

A rule tells a host what to answer to the commands that begin with a text. A rule given later goes
before the earlier ones.
-/
namespace NicTuning

structure Rule where
  beginning : String
  output : Output
  deriving DecidableEq

namespace Bench

/-- The bench on which the host at an address follows one more rule. -/
def addRule (b : Bench) (address : String) (rule : Rule) : Bench :=
  { b with answer := fun history a command =>
      if a = address ∧ Text.begins rule.beginning command then .ok rule.output
      else b.answer history a command }

end Bench

end NicTuning
