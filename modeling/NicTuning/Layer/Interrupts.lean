import NicTuning.Layer.Settings
import NicTuning.Report.Machine
import NicTuning.Tuning.Basic

/-!
# Pinning interrupts

Pins the interrupts of devices to processors. The interrupt balancer of a machine would undo that,
so it is stopped once for each machine and started again when the layer is undone; the interrupts
stay where they are. All lists of processors are checked before anything is changed.
-/
namespace NicTuning.Layer.Interrupts

def key : String := "dev_intr_cpu_configuration"

/-- A device with its list of processors, which is not empty, and its spreading. -/
structure Target where
  device : Device
  processors : List Int64
  spreading : Spreading
  deriving DecidableEq

def spreadingFor (i : Tuning.Interrupts) (place : Nat) : Spreading :=
  ((i.spreadings.getD [])[place]?).getD .roundRobin

/-- The devices to pin: those at whose place there is a list that is not empty. -/
def targets (devices : List Device) (i : Tuning.Interrupts) : List Target :=
  let listed := (devices.zip (i.processors.getD [])).zipIdx
  (listed.filter fun ((_, processors), _) => !processors.isEmpty).map
    fun ((d, processors), place) => ⟨d, processors, spreadingFor i place⟩

/-- Checks the processors of a device against those of its machine. -/
def check (t : Target) : BenchM Pinning := do
  let count ← Report.processorCount (← t.device.query "lscpu")
  let processors ← Affinity.checkProcessors t.processors count
  return ⟨t.device, processors, t.spreading⟩

/-- Stops the balancer of a host unless it is stopped already. -/
def stopBalancer (h : Host) : NotingM InterruptChanges Unit := do
  if (← NotingM.notes).hasStopped h then pure ()
  else
    h.command "service irqbalance stop"
    NotingM.note fun c => { c with stopped := c.stopped ++ [h] }

/-- The interrupts of a device. Some devices show them only while they are up, so a device that is
down is up meanwhile. If both the reading and taking it down fail, the reading is to blame. -/
def interruptsOf (d : Device) : BenchM (List UInt32) := do
  let isUp ← d.isUp
  if isUp then
    return Report.Interrupts.ofDevice (← d.query "cat /proc/interrupts") d.name d.busInfo
  else
    d.setLink true
    let table ← attempt (d.query "cat /proc/interrupts")
    let taken ← attempt (d.setLink false)
    let table ← table
    taken
    return Report.Interrupts.ofDevice table d.name d.busInfo

/-- The command that gives an interrupt its processors. -/
def assignCommand (assignment : UInt32 × String) : String :=
  "echo -n " ++ assignment.2 ++ " > /proc/irq/" ++ toString assignment.1 ++ "/smp_affinity_list"

/-- Pins the interrupts of a device. -/
def pin (p : Pinning) : NotingM InterruptChanges Unit := do
  stopBalancer p.device.host
  let interrupts ← interruptsOf p.device
  let assignments := Affinity.assign interrupts p.processors p.spreading
  NotingM.forEach (fun a => p.device.netns.command (assignCommand a)) assignments
  NotingM.note fun c => { c with pinned := c.pinned ++ [{ p with assignments }] }

def configure (devices : List Device) (i : Tuning.Interrupts) : SessionM Unit := do
  let pinnings ← (targets devices i).mapM fun t => (check t : SessionM Pinning)
  let (result, changes) ← NotingM.aside .none (NotingM.forEach pin pinnings)
  if changes.isEmpty then pure () else NotingM.amend (·.add key (.interrupts changes))
  result

def restore : SessionM Unit := do
  match ← NotingM.takeNote (·.takeIf Ledger.interrupts? key) with
  | none => pure ()
  | some changes => tryEach (fun h => h.command "service irqbalance start") changes.stopped.reverse

def describeStop (h : Host) : String := h.id ++ " irqbalance stopped"

def describePinned (p : PinnedDevice) : String :=
  p.device.id ++ " irqs bound to cpu [" ++ ", ".intercalate (p.processors.map toString) ++
    "] with policy:" ++ p.spreading.text

def describe (l : Ledger) : List String :=
  let changes := (l.interrupts? key).getD .none
  orSkipped "Device irq configuration skipped."
    (changes.stopped.map describeStop ++ changes.pinned.map describePinned)

def planTarget (t : Target) : String :=
  t.device.id ++ " irqs -> cpu [" ++
    ", ".intercalate (t.processors.map fun n => toString n.toInt) ++ "] policy:" ++
    t.spreading.text

def plan (devices : List Device) (i : Tuning.Interrupts) : List String :=
  (targets devices i).map planTarget

end NicTuning.Layer.Interrupts
