import NicTuning.Device.Basic
import NicTuning.Tuning.Validation

/-!
# Rosters

A roster says which devices each layer acts on. The order of a list matters: a parameter that is
given device by device belongs to the device at its place.
-/
namespace NicTuning

structure Roster where
  offload : List Device := []
  mtu : List Device := []
  coalescing : List Device := []
  interrupts : List Device := []
  qdisc : List Device := []
  pauseFrames : List Device := []
  queues : List Device := []
  flowHash : List Device := []
  hashFunction : List Device := []

namespace Roster

/-- The same devices for every layer. -/
def uniform (devices : List Device) : Roster :=
  ⟨devices, devices, devices, devices, devices, devices, devices, devices, devices⟩

/-- Virtual functions for every layer but the pause frames, which belong to the physical ones. -/
def virtualFunctions (functions physical : List Device) : Roster :=
  { uniform functions with pauseFrames := physical }

/-- The lengths of the lists to which parameters are matched by place. -/
def counts (r : Roster) : DeviceCounts :=
  ⟨r.coalescing.length, r.interrupts.length, r.queues.length⟩

end Roster

end NicTuning
