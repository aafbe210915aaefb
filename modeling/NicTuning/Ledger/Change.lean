import NicTuning.Affinity
import NicTuning.Device.Basic
import NicTuning.Register
import NicTuning.Report.Channels

/-!
# Changes

What was changed on a device and what has to be known to undo it.
-/
namespace NicTuning

/-- An attribute got a new value. -/
structure SettingChange where
  device : Device
  previous : Setting
  configured : Setting
  deriving DecidableEq

/-- Changes of attributes by the name of the attribute. -/
abbrev SettingChanges := Register (List SettingChange)

namespace SettingChanges

/-- One more change, after those of the same attribute. -/
def push (c : SettingChanges) (name : String) (change : SettingChange) : SettingChanges :=
  c.insert name ((c.get? name).getD [] ++ [change])

end SettingChanges

/-- The numbers of queues of a device were set. -/
structure QueueChange where
  device : Device
  previous : Report.Counts
  configured : Dict UInt32
  deriving DecidableEq

/-- The pairs with a value. -/
def Dict.filterMap {α β : Type} (f : String → α → Option β) (d : Dict α) : Dict β where
  entries := d.entries.filterMap fun e => (f e.1 e.2).map fun y => (e.1, y)
  increasing := by
    refine d.increasing.filterMap _ fun a b lt x hx y hy => ?_
    obtain ⟨_, _, rfl⟩ := Option.map_eq_some_iff.1 hx
    obtain ⟨_, _, rfl⟩ := Option.map_eq_some_iff.1 hy
    exact lt

namespace QueueChange

/-- The numbers to go back to: of the types that were set, those that were numbers before. -/
def restoreCounts (c : QueueChange) : Dict UInt32 :=
  c.configured.filterMap fun type _ => (c.previous.get? type).join

end QueueChange

/-- The interrupts of a device are to be pinned to processors that its machine has. -/
structure Pinning where
  device : Device
  processors : List UInt32
  spreading : Spreading
  deriving DecidableEq

/-- The interrupts of a device were pinned: the processors written for each. -/
structure PinnedDevice extends Pinning where
  assignments : List (UInt32 × String)
  deriving DecidableEq

/-- The hosts whose interrupt balancer was stopped, and the devices that were pinned. -/
structure InterruptChanges where
  stopped : List Host
  pinned : List PinnedDevice
  deriving DecidableEq

namespace InterruptChanges

def none : InterruptChanges := ⟨[], []⟩

def isEmpty (c : InterruptChanges) : Bool := c.stopped.isEmpty && c.pinned.isEmpty

/-- The balancer of a host was stopped. Hosts are told apart by their identifiers. -/
def hasStopped (c : InterruptChanges) (h : Host) : Bool := c.stopped.any (·.id == h.id)

end InterruptChanges

/-- The root queueing discipline of a device was replaced. -/
structure QdiscChange where
  device : Device
  previousKind : Option String
  deriving DecidableEq

end NicTuning
