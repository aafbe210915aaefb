import NicTuning.Layer.Settings

/-!
# Numbers of queues

Sets how many queues of each type a device has. When the layer is undone, the types that were set
and were numbers before get these numbers again.
-/
namespace NicTuning.Layer.Queues

def key : String := "dev_queues"

/-- The devices to change: those at whose place there are numbers. -/
def targets (devices : List Device) (queues : Option (List (Dict UInt32))) :
    List (Device × Dict UInt32) :=
  (devices.zip (queues.getD [])).filter fun (_, counts) => !counts.isEmpty

/-- Numbers by type as arguments of a command. -/
def countWords (counts : Dict UInt32) : String :=
  " ".intercalate (counts.entries.map fun (type, n) => type ++ " " ++ toString n)

/-- The command that sets numbers of queues. -/
def setCommand (d : Device) (counts : Dict UInt32) : String :=
  "ethtool -L " ++ d.name ++ " " ++ countWords counts

/-- Sets the numbers of a device. -/
def change (target : Device × Dict UInt32) : NotingM (List QueueChange) Unit := do
  let (d, counts) := target
  let channels ← Report.Channels.read (← d.query ("ethtool -l " ++ d.name))
  d.netns.command (setCommand d counts)
  NotingM.note (· ++ [⟨d, channels.current, counts⟩])

def configure (devices : List Device) (queues : Option (List (Dict UInt32))) : SessionM Unit := do
  let (result, changes) ← NotingM.aside [] (NotingM.forEach change (targets devices queues))
  if changes.isEmpty then pure () else NotingM.amend (·.add key (.queues changes))
  result

/-- Sets the numbers of a device back, if there are any to go back to. -/
def undo (c : QueueChange) : BenchM Unit :=
  if c.restoreCounts.isEmpty then pure ()
  else c.device.netns.command (setCommand c.device c.restoreCounts)

def restore : SessionM Unit := do
  match ← NotingM.takeNote (·.takeIf Ledger.queues? key) with
  | none => pure ()
  | some changes => tryEach undo changes.reverse

def describeChange (c : QueueChange) : String :=
  c.device.host.id ++ " device " ++ c.device.name ++ " queues configured: " ++
    countWords c.configured

def describe (l : Ledger) : List String :=
  orSkipped "device queues configuration skipped"
    (((l.queues? key).getD []).map describeChange)

def plan (devices : List Device) (queues : Option (List (Dict UInt32))) : List String :=
  (targets devices queues).map fun (d, counts) => d.id ++ " queues -> " ++ countWords counts

end NicTuning.Layer.Queues
