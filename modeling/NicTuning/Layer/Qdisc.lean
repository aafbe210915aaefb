import NicTuning.Layer.Settings

/-!
# Root queueing disciplines

With several streams, the root queueing discipline of each device is replaced by one with a queue
for each stream. It is removed again when the layer is undone, which leaves the system's default,
unless it was in place before.
-/
namespace NicTuning.Layer.Qdisc

def key : String := "parallel_stream_qdisc"

/-- More than one stream is asked for. -/
def isWanted (streams : Option UInt32) : Bool := streams.any (1 < ·)

def replaceCommand (d : Device) : String := "tc qdisc replace dev " ++ d.name ++ " root mq"

def deleteCommand (d : Device) : String := "tc qdisc del dev " ++ d.name ++ " root"

/-- Replaces the root discipline of a device. -/
def change (d : Device) : NotingM (List QdiscChange) Unit := do
  let output ← d.query ("tc qdisc show dev " ++ d.name ++ " root")
  d.netns.command (replaceCommand d)
  NotingM.note (· ++ [⟨d, Report.rootQdisc? output⟩])

def configure (devices : List Device) (streams : Option UInt32) : SessionM Unit :=
  if isWanted streams then do
    let (result, changes) ← NotingM.aside [] (NotingM.forEach change devices)
    if changes.isEmpty then pure () else NotingM.amend (·.add key (.qdiscs changes))
    result
  else pure ()

/-- Removes the root discipline of a device unless it was there before. -/
def undo (c : QdiscChange) : BenchM Unit :=
  if c.previousKind = some "mq" then pure () else c.device.netns.command (deleteCommand c.device)

def restore : SessionM Unit := do
  match ← NotingM.takeNote (·.takeIf Ledger.qdiscs? key) with
  | none => pure ()
  | some changes => tryEach undo changes.reverse

def describe (l : Ledger) : List String :=
  orSkipped "Parallel stream qdisc configuration skipped."
    (((l.qdiscs? key).getD []).map fun c => c.device.id ++ " root qdisc replaced with mq")

def plan (devices : List Device) (streams : Option UInt32) : List String :=
  if isWanted streams then devices.map fun d => d.id ++ " root qdisc -> mq" else []

end NicTuning.Layer.Qdisc
