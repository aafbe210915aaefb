import NicTuning.Bench.Basic
import NicTuning.Device.Attribute
import NicTuning.Report.Coalescing
import NicTuning.Report.Features
import NicTuning.Report.Hashing
import NicTuning.Report.Link

/-!
# Devices

A network device and what can be done with it: reading and writing an attribute by its name, and
asking for and changing the state of its link. A device is controlled by commands on the host of
its namespace, or it keeps its attributes in memory.
-/
namespace NicTuning

/-- How a device is controlled. -/
inductive Control
  | commands
  | memory (address : String)
  deriving DecidableEq

structure Device where
  name : String
  host : Host
  netns : Host
  busInfo : Option String
  control : Control
  deriving DecidableEq

namespace Device

/-- The device as it is called in descriptions. -/
def id (d : Device) : String := d.host.id ++ "." ++ d.name

def unsupported (d : Device) (name : String) : Fault := .unsupportedAttribute d.id name

/-- What a command about the device prints. -/
def query (d : Device) (command : String) : BenchM String := d.netns.query command

/-- The value of an attribute according to the tool that knows it, if the tool does. -/
def readAttribute (d : Device) : Attribute → BenchM (Option Setting)
  | .mtu => do
    return some (.ofOutput (← d.query ("cat /sys/class/net/" ++ d.name ++ "/mtu")))
  | .adaptiveCoalescing direction => do
    let report := Report.Coalescing.read (← d.query ("ethtool -c " ++ d.name))
    return (match direction with
      | .rx => report.adaptiveRx
      | .tx => report.adaptiveTx).map .flag
  | .coalescing key => do
    let report := Report.Coalescing.read (← d.query ("ethtool -c " ++ d.name))
    return (report.settings.get? key).join.map .ofOutput
  | .pauseFrames direction => do
    let table := Report.KeyValue.table (← d.query ("ethtool -a " ++ d.name))
    return ((table.get? direction.text).bind Report.flag?).map .flag
  | .offload feature => do
    let features := Report.Features.read (← d.query ("ethtool -k " ++ d.name))
    return (features.get? (Report.Features.longName feature)).map .flag
  | .hashFunction => do
    return (Report.Hashing.function? (← d.query ("ethtool -x " ++ d.name))).map .word
  | .flowHash type => do
    let output ← d.query ("ethtool -n " ++ d.name ++ " rx-flow-hash " ++ type)
    return some (.word (Report.Hashing.flowFields output))

/-- The command that gives an attribute a value. -/
def writeCommand (d : Device) (arg : String) : Attribute → String
  | .mtu => "ip link set dev " ++ d.name ++ " mtu " ++ arg
  | .adaptiveCoalescing direction =>
    "ethtool -C " ++ d.name ++ " adaptive-" ++ direction.text ++ " " ++ arg
  | .coalescing key => "ethtool -C " ++ d.name ++ " " ++ key ++ " " ++ arg
  | .pauseFrames direction => "ethtool -A " ++ d.name ++ " " ++ direction.text ++ " " ++ arg
  | .offload feature => "ethtool -K " ++ d.name ++ " " ++ feature ++ " " ++ arg
  | .hashFunction => "ethtool -X " ++ d.name ++ " hfunc " ++ arg
  | .flowHash type => "ethtool -N " ++ d.name ++ " rx-flow-hash " ++ type ++ " " ++ arg

/-- The value of the attribute with a name. -/
def get (d : Device) (name : String) : BenchM Setting :=
  match d.control with
  | .commands =>
    match Attribute.ofName? name with
    | none => throw (d.unsupported name)
    | some a => do
      match ← d.readAttribute a with
      | none => throw (d.unsupported name)
      | some value => return value
  | .memory address => fun b =>
    (match (b.memory address).values name with
      | none => .error (d.unsupported name)
      | some value => .ok value, b.note (.read address name))

/-- What is wrong with a write to a device in memory that takes none. -/
def refusal (d : Device) (name : String) (value : Setting) : Fault :=
  .remoteCommand d.host.id ("set " ++ d.name ++ " " ++ name ++ " " ++ value.text) 1
    "Operation not supported"

/-- Gives the attribute with a name a value. -/
def set (d : Device) (name : String) (value : Setting) : BenchM Unit :=
  match d.control with
  | .commands =>
    match Attribute.ofName? name with
    | none => throw (d.unsupported name)
    | some a => d.netns.command (d.writeCommand value.arg a)
  | .memory address => fun b =>
    let m := b.memory address
    if m.readOnly then (.error (d.refusal name value), b.note (.wrote address name value false))
    else
      let values := fun n => if n = name then some value else m.values n
      (.ok (), (b.setMemory address { m with values }).note (.wrote address name value true))

/-- The device is administratively up. -/
def isUp (d : Device) : BenchM Bool :=
  match d.control with
  | .commands => do
    let output ← d.query ("ip -o link show dev " ++ d.name)
    Report.linkIsUp output
  | .memory address => fun b => (.ok (b.memory address).up, b)

/-- Brings the device up or takes it down. -/
def setLink (d : Device) (up : Bool) : BenchM Unit :=
  match d.control with
  | .commands =>
    d.netns.command ("ip link set dev " ++ d.name ++ if up then " up" else " down")
  | .memory address => fun b =>
    (.ok (), (b.setMemory address { b.memory address with up }).note (.linked address up))

end Device

end NicTuning
