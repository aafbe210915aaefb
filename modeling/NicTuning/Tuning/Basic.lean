import NicTuning.Dict
import NicTuning.Setting

/-!
# Tunings

What may be tuned on the network devices of a run. Every parameter is optional. Some are given once
for all devices, some once for each device in the order of the devices, and an `Allotment` is given
either way.
-/
namespace NicTuning

/-- A value for all devices, or one for each, where `none` leaves a device alone. -/
inductive Allotment (α : Type)
  | shared (value : α)
  | each (values : List (Option α))
  deriving DecidableEq

namespace Allotment

variable {α : Type}

/-- The value for the device at a place in the list of devices. -/
def forDevice? : Allotment α → Nat → Option α
  | shared value, _ => some value
  | each values, i => values[i]?.join

/-- Every value given. -/
def values : Allotment α → List α
  | shared value => [value]
  | each values => values.filterMap id

theorem mem_values_of_forDevice? {a : Allotment α} {i : Nat} {x : α}
    (h : a.forDevice? i = some x) : x ∈ a.values := by
  cases a with
  | shared value => simp_all [forDevice?, values]
  | each l =>
    obtain ⟨hi, hx⟩ := List.getElem?_eq_some_iff.1 (Option.join_eq_some_iff.1 h)
    exact List.mem_filterMap.2 ⟨some x, hx ▸ List.getElem_mem hi, rfl⟩

end Allotment

/-- How the interrupts of a device are spread over processors. -/
inductive Spreading
  | roundRobin
  | all
  deriving DecidableEq, Inhabited

def Spreading.text : Spreading → String
  | roundRobin => "round-robin"
  | all => "all"

namespace Tuning

/-- Settings by the key that the tool knows. -/
abbrev Settings := Dict Setting

/-- How devices merge interrupts: the adaptive modes, and other settings. -/
structure Coalescing where
  adaptiveRx : Option Bool := none
  adaptiveTx : Option Bool := none
  settings : Option (Allotment Settings) := none
  deriving DecidableEq, Inhabited

/-- The processors for the interrupts of each device, and how to spread the interrupts. -/
structure Interrupts where
  processors : Option (List (List Int64)) := none
  spreadings : Option (List Spreading) := none
  deriving DecidableEq, Inhabited

/-- Whether devices send pause frames and heed them. -/
structure PauseFrames where
  rx : Option Bool := none
  tx : Option Bool := none
  deriving DecidableEq, Inhabited

/-- The fields of a packet that are hashed for one type of flow. -/
structure FlowHash where
  type : Option String := none
  fields : Option String := none
  deriving DecidableEq, Inhabited

end Tuning

/-- All parameters of a run. -/
structure Tuning where
  offload : Option Tuning.Settings := none
  mtu : Option UInt32 := none
  coalescing : Tuning.Coalescing := {}
  interrupts : Tuning.Interrupts := {}
  streams : Option UInt32 := none
  pauseFrames : Tuning.PauseFrames := {}
  queues : Option (List (Dict UInt32)) := none
  flowHash : Tuning.FlowHash := {}
  hashFunction : Option String := none
  deriving DecidableEq, Inhabited

end NicTuning
