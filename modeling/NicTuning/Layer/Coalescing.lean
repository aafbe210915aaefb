import NicTuning.Layer.Settings
import NicTuning.Tuning.Validation

/-!
# Interrupt coalescing

Sets how devices merge interrupts: the adaptive modes first and then the other settings by key, so
that the modes are restored last.
-/
namespace NicTuning.Layer.Coalescing

open Tuning (Settings)
open Tuning.Coalescing (Toggle)

def key : String := "coalescing"

/-- The settings for the device at a place. -/
def settingsFor (c : Tuning.Coalescing) (i : Nat) : Option Settings :=
  c.settings.bind (·.forDevice? i)

/-- The value of an adaptive mode for a device with the given settings. -/
def toggleValue (t : Toggle) (settings : Option Settings) : Except Fault (Option Setting) :=
  match t.explicit, settings.bind (·.get? t.key) with
  | some _, some _ => .error (.invalidParameter Tuning.Coalescing.settingsField t.conflict)
  | some on, none => .ok (some (.flag on))
  | none, some value =>
    match value.asFlag? with
    | some on => .ok (some (.flag on))
    | none => .error (.invalidParameter Tuning.Coalescing.settingsField
        (t.key ++ " must be on or off, got " ++ value.text))
  | none, none => .ok none

/-- An adaptive mode and its values, device by device. -/
def toggleRequest (devices : List Device) (c : Tuning.Coalescing) (t : Toggle) :
    Except Fault (String × List Target) := do
  let targets ← devices.zipIdx.mapM fun (d, i) => do
    let value ← toggleValue t (settingsFor c i)
    return (d, value)
  return (t.name, targets)

/-- The keys of all settings that are no adaptive mode, each once and in order. -/
def settingKeys (c : Tuning.Coalescing) : List String :=
  let given := (c.settings.map Allotment.values).getD []
  let keys := (given.flatMap Dict.keys).filter fun k => !Tuning.Coalescing.isToggleKey k
  (Dict.ofList (keys.map fun k => (k, ()))).keys

/-- A setting and its values, device by device. -/
def settingRequest (devices : List Device) (c : Tuning.Coalescing) (k : String) :
    String × List Target :=
  (Attribute.coalescingName k,
    devices.zipIdx.map fun (d, i) => (d, (settingsFor c i).bind (·.get? k)))

/-- The attributes to change and their values. -/
def requests (devices : List Device) (c : Tuning.Coalescing) :
    Except Fault (List (String × List Target)) := do
  let toggles ← c.toggles.mapM (toggleRequest devices c)
  return toggles ++ (settingKeys c).map (settingRequest devices c)

def configure (devices : List Device) (c : Tuning.Coalescing) : SessionM Unit := do
  let requests ← requests devices c
  NotingM.forEach (fun (name, targets) => changeSettings key name targets) requests

def describe (l : Ledger) : List String :=
  orSkipped "Coalescing configuration skipped." (describeSettings key l)

/-- Nothing is planned when the parameters are at odds. -/
def plan (devices : List Device) (c : Tuning.Coalescing) : List String :=
  match requests devices c with
  | .error _ => []
  | .ok requests => requests.flatMap fun (name, targets) => planSettings name targets

end NicTuning.Layer.Coalescing
