import NicTuning.Layer.Settings
import NicTuning.Tuning.Basic

/-!
# Hashed fields

Selects the fields of a packet that are hashed for one type of flow.
-/
namespace NicTuning.Layer.FlowHash

def key : String := "dev_nfc_rx_flow_hash"

/-- The attribute to change and its value, if both the type and the fields are given. -/
def request? (f : Tuning.FlowHash) : Option (String × Setting) :=
  match f.type, f.fields with
  | some type, some fields => some (Attribute.flowHashName type, .word fields)
  | _, _ => none

def configure (devices : List Device) (f : Tuning.FlowHash) : SessionM Unit :=
  match request? f with
  | none => pure ()
  | some (name, value) => changeSettings key name (sharedTargets devices (some value))

def describe (f : Tuning.FlowHash) (l : Ledger) : List String :=
  orSkipped "NFC RX flow hash configuration skipped."
    ((request? f).elim [] fun (name, _) => describeSetting key name l)

def plan (devices : List Device) (f : Tuning.FlowHash) : List String :=
  (request? f).elim [] fun (name, value) => planSettings name (sharedTargets devices (some value))

end NicTuning.Layer.FlowHash
