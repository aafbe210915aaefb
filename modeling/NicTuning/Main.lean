import NicTuning.CommandLine.Run

/-!
# The command line

Answers the words of the command line on a machine that has no tools of its own.
-/
open NicTuning

def main (words : List String) : IO UInt32 := do
  let selection? := (CommandLine.Request.ofWords? words).bind CommandLine.Request.selection?
  let path? := selection?.map CommandLine.Selection.params
  let input ←
    if path? = some CommandLine.Selection.inputName then (← IO.getStdin).readToEnd
    else pure ""
  let content : Except String (List UInt8) ←
    match path?.filter (· != CommandLine.Selection.inputName) with
    | none => pure (.error "")
    | some path =>
      try
        let bytes ← IO.FS.readBinFile path
        pure (.ok bytes.toList)
      catch e => pure (.error (toString e))
  let surroundings := CommandLine.Surroundings.onMachine .bare input fun _ => content
  let (answer, _) := CommandLine.run surroundings words
  IO.print answer.stdout
  IO.eprint answer.stderr
  return UInt32.ofNat answer.exitCode.toNat
