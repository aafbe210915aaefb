import NicTuning.Layer.Settings
import NicTuning.Tuning.Basic

/-!
# Offload features

Switches features of devices on or off. A setting that is no switch is passed over.
-/
namespace NicTuning.Layer.Offload

def key : String := "offloads"

/-- The attributes to change and their values, in the order of the features. -/
def requests (settings : Option Tuning.Settings) : List (String × Option Setting) :=
  ((settings.map Dict.entries).getD []).map fun (feature, value) =>
    (Attribute.offloadName feature, value.asFlag?.map .flag)

def configure (devices : List Device) (settings : Option Tuning.Settings) : SessionM Unit :=
  NotingM.forEach (fun (name, value) => changeSettings key name (sharedTargets devices value))
    (requests settings)

def describe (settings : Option Tuning.Settings) (l : Ledger) : List String :=
  orSkipped "Offload configuration skipped."
    ((requests settings).flatMap fun (name, _) => describeSetting key name l)

def plan (devices : List Device) (settings : Option Tuning.Settings) : List String :=
  (requests settings).flatMap fun (name, value) => planSettings name (sharedTargets devices value)

end NicTuning.Layer.Offload
