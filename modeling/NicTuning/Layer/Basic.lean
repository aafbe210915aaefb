import NicTuning.Layer.Coalescing
import NicTuning.Layer.FlowHash
import NicTuning.Layer.HashFunction
import NicTuning.Layer.Interrupts
import NicTuning.Layer.Mtu
import NicTuning.Layer.Offload
import NicTuning.Layer.PauseFrames
import NicTuning.Layer.Qdisc
import NicTuning.Layer.Queues

/-!
# Layers

A layer tunes one thing on a list of devices. It is configured, which enters its changes into the
ledger under its key, and restored, which takes them out again. It describes what was changed and
plans what would be. An inert layer has a key and does nothing.
-/
namespace NicTuning

inductive Layer
  | offload (devices : List Device) (settings : Option Tuning.Settings)
  | mtu (devices : List Device) (size : Option UInt32)
  | coalescing (devices : List Device) (parameters : Tuning.Coalescing)
  | interrupts (devices : List Device) (parameters : Tuning.Interrupts)
  | qdisc (devices : List Device) (streams : Option UInt32)
  | pauseFrames (devices : List Device) (parameters : Tuning.PauseFrames)
  | queues (devices : List Device) (counts : Option (List (Dict UInt32)))
  | flowHash (devices : List Device) (parameters : Tuning.FlowHash)
  | hashFunction (devices : List Device) (function : Option String)
  | inert (key : String)
  deriving DecidableEq

namespace Layer

/-- The key under which the layer's changes are entered. -/
def key : Layer → String
  | offload .. => Offload.key
  | mtu .. => Mtu.key
  | coalescing .. => Coalescing.key
  | interrupts .. => Interrupts.key
  | qdisc .. => Qdisc.key
  | pauseFrames .. => PauseFrames.key
  | queues .. => Queues.key
  | flowHash .. => FlowHash.key
  | hashFunction .. => HashFunction.key
  | inert key => key

/-- Changes what the parameters of the layer ask for. -/
def configure : Layer → SessionM Unit
  | offload devices settings => Offload.configure devices settings
  | mtu devices size => Mtu.configure devices size
  | coalescing devices c => Coalescing.configure devices c
  | interrupts devices i => Interrupts.configure devices i
  | qdisc devices streams => Qdisc.configure devices streams
  | pauseFrames devices p => PauseFrames.configure devices p
  | queues devices counts => Queues.configure devices counts
  | flowHash devices f => FlowHash.configure devices f
  | hashFunction devices function => HashFunction.configure devices function
  | inert _ => pure ()

/-- Undoes what the ledger says the layer changed. -/
def restore : Layer → SessionM Unit
  | interrupts .. => Interrupts.restore
  | qdisc .. => Qdisc.restore
  | queues .. => Queues.restore
  | inert _ => pure ()
  | layer => restoreSettings layer.key

/-- What the ledger says the layer changed, in words. -/
def describe : Layer → Ledger → List String
  | offload _ settings => Offload.describe settings
  | mtu .. => Mtu.describe
  | coalescing .. => Coalescing.describe
  | interrupts .. => Interrupts.describe
  | qdisc .. => Qdisc.describe
  | pauseFrames _ p => PauseFrames.describe p
  | queues .. => Queues.describe
  | flowHash _ f => FlowHash.describe f
  | hashFunction .. => HashFunction.describe
  | inert _ => fun _ => []

/-- What the layer would change, in words. -/
def plan : Layer → List String
  | offload devices settings => Offload.plan devices settings
  | mtu devices size => Mtu.plan devices size
  | coalescing devices c => Coalescing.plan devices c
  | interrupts devices i => Interrupts.plan devices i
  | qdisc devices streams => Qdisc.plan devices streams
  | pauseFrames devices p => PauseFrames.plan devices p
  | queues devices counts => Queues.plan devices counts
  | flowHash devices f => FlowHash.plan devices f
  | hashFunction devices function => HashFunction.plan devices function
  | inert _ => []

end Layer

end NicTuning
