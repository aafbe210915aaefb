import NicTuning.Fault

/-!
# Failures

Why the program gives up, as it is shown: what it was doing, and below that the causes. Several
causes are numbered, and the further lines of a cause are indented like its first.
-/
namespace NicTuning

namespace Fault

/-- A fault in words, and the cause of it if that has words of its own. -/
def causes (f : Fault) : List String :=
  match f with
  | .io cause => [f.message, cause]
  | .jsonSyntax | .yaml => [f.message, ""]
  | .jsonShape cause => [f.message, cause]
  | f => [f.message]

end Fault

namespace CommandLine

structure Failure where
  summary : String
  /-- The nearest cause comes first. -/
  causes : List String
  deriving DecidableEq

namespace Failure

/-- A fault that speaks for itself. -/
def ofFault (f : Fault) : Failure := ⟨f.message, f.causes.tail⟩

/-- A fault that came up while something was done. -/
def during (doing : String) (f : Fault) : Failure := ⟨doing, f.causes⟩

/-- The text with something before its first line and something else before the others. -/
def indent (first others text : String) : String :=
  first ++ ("\n" ++ others).intercalate (text.splitOn "\n")

/-- A number in a column of five. -/
def column (n : Nat) : String :=
  "".pushn ' ' (5 - (toString n).length) ++ toString n ++ ": "

def causeLines (causes : List String) : List String :=
  match causes with
  | [cause] => [indent "    " "    " cause]
  | causes => causes.zipIdx.map fun (cause, n) => indent (column n) "       " cause

def text (f : Failure) : String :=
  "Error: " ++ f.summary ++ "\n" ++
    if f.causes.isEmpty then ""
    else "\nCaused by:\n" ++ String.join ((causeLines f.causes).map (· ++ "\n"))

end Failure

end CommandLine

end NicTuning
