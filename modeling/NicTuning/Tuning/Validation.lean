import NicTuning.Findings
import NicTuning.Text.Quoted
import NicTuning.Tuning.Basic

/-!
# Validation of tunings

A tuning is examined before anything is changed: by itself in `findings`, and against the numbers
of devices in `lengthFindings`.
-/
namespace NicTuning

/-- The numbers of devices for the parameters that are given device by device. -/
structure DeviceCounts where
  coalescing : Nat
  interrupts : Nat
  queues : Nat
  deriving DecidableEq

namespace Tuning

/-- A switch is on or off. -/
def switchFindings (field key : String) (value : Setting) : Findings :=
  if value.asFlag?.isSome then .none
  else .error field (key ++ " must be on or off, got " ++ value.text)

def offloadFindings (offload : Option Settings) : Findings :=
  match offload with
  | none => .none
  | some settings =>
    .join (settings.entries.map fun (feature, value) =>
      .toolKey "offload_settings" feature ++ switchFindings "offload_settings" feature value)

def mtuFindings (mtu : Option UInt32) : Findings := mtu.elim .none (.mtu "mtu")

namespace Coalescing

/-- The name of the parameter with all settings but the adaptive modes. -/
def settingsField : String := "coalescing_settings"

/-- An adaptive mode: its key among the settings, its attribute, and the mode if it is given by a
parameter of its own. -/
structure Toggle where
  key : String
  name : String
  explicit : Option Bool

def toggles (c : Coalescing) : List Toggle :=
  [⟨"adaptive-rx", "adaptive_rx_coalescing", c.adaptiveRx⟩,
    ⟨"adaptive-tx", "adaptive_tx_coalescing", c.adaptiveTx⟩]

def isToggleKey (key : String) : Bool := key == "adaptive-rx" || key == "adaptive-tx"

def Toggle.conflict (t : Toggle) : String := t.key ++ " conflicts with " ++ t.name

/-- What is wrong with one setting. -/
def settingFindings (key : String) (value : Setting) : Findings :=
  .toolKey settingsField key ++
    if isToggleKey key then switchFindings settingsField key value else .none

/-- An adaptive mode is given by its parameter or among the settings, not both. -/
def toggleFindings (given : List Settings) (t : Toggle) : Findings :=
  if t.explicit.isSome && given.any (·.contains t.key) then .error settingsField t.conflict
  else .none

def findings (c : Coalescing) : Findings :=
  match c.settings with
  | none => .none
  | some settings =>
    .join (settings.values.map fun d =>
        .join (d.entries.map fun (key, value) => settingFindings key value)) ++
      .join (c.toggles.map (toggleFindings settings.values))

def lengthFindings (c : Coalescing) (devices : Nat) : Findings :=
  match c.settings with
  | some (.each list) => .positional settingsField list.length devices
  | _ => .none

end Coalescing

namespace Interrupts

def processorsField : String := "dev_intr_cpu_lists"

def spreadingsField : String := "dev_intr_cpu_policies"

def findings (i : Interrupts) : Findings :=
  if i.spreadings.isSome && i.processors.isNone then
    .warning spreadingsField ("ignored without " ++ processorsField)
  else .none

def lengthFindings (i : Interrupts) (devices : Nat) : Findings :=
  i.processors.elim .none (fun lists => .positional processorsField lists.length devices) ++
    match i.spreadings with
    | none | some [] => .none
    | some list => .positional spreadingsField list.length devices

end Interrupts

def streamFindings (streams : Option UInt32) : Findings :=
  if streams = some 0 then .error "perf_parallel_streams" "must be at least 1" else .none

/-- The types of queues whose number can be set. -/
def queueTypes : List String := ["rx", "tx", "other", "combined"]

def queueFindings (queues : Option (List (Dict UInt32))) : Findings :=
  .join ((queues.getD []).map fun counts => .join (counts.keys.map fun type =>
    if queueTypes.contains type then .none
    else .error "dev_queues" ("unknown queue type '" ++ type ++ "', expected one of " ++
      Text.quotedList queueTypes)))

def queueLengthFindings (queues : Option (List (Dict UInt32))) (devices : Nat) : Findings :=
  queues.elim .none fun list => .positional "dev_queues" list.length devices

namespace FlowHash

/-- The types of flow that can be hashed. -/
def types : List String :=
  ["tcp4", "udp4", "sctp4", "ah4", "esp4", "ip4", "tcp6", "udp6", "sctp6", "ah6", "esp6", "ip6",
    "ether", "gtpu4"]

/-- The letters of the fields that can be hashed. -/
def letters : String := "mvtsdfnr"

def findings (f : FlowHash) : Findings :=
  match f.type, f.fields with
  | none, none => .none
  | some type, some fields =>
    (if types.contains type then .none
      else .error "nfc_rx_flow_hash_type" ("unknown flow type '" ++ type ++ "'")) ++
    (if fields.isEmpty || !fields.toList.all letters.toList.contains then
        .error "nfc_rx_flow_hash_value" ("'" ++ fields ++ "' must be made of [" ++ letters ++ "]")
      else .none)
  | some _, none => .error "nfc_rx_flow_hash_value" "required with nfc_rx_flow_hash_type"
  | none, some _ => .error "nfc_rx_flow_hash_type" "required with nfc_rx_flow_hash_value"

end FlowHash

/-- The hash functions in common use. -/
def hashFunctions : List String := ["toeplitz", "xor", "crc32"]

def hashFunctionFindings : Option String → Findings
  | none => .none
  | some function =>
    if function.isEmpty || function.toList.any Text.isBlank then
      .error "rx_hash_function" ("invalid hash function '" ++ function ++ "'")
    else if hashFunctions.contains function then .none
    else .warning "rx_hash_function" ("'" ++ function ++ "' is not one of " ++
      Text.quotedList hashFunctions)

/-- What an examination of the tuning alone brings to light. -/
def findings (t : Tuning) : Findings :=
  .join [offloadFindings t.offload, mtuFindings t.mtu, t.coalescing.findings,
    t.interrupts.findings, streamFindings t.streams, queueFindings t.queues, t.flowHash.findings,
    hashFunctionFindings t.hashFunction]

/-- Whether the lists with an entry for each device are as long as the lists of devices. -/
def lengthFindings (t : Tuning) (counts : DeviceCounts) : Findings :=
  t.coalescing.lengthFindings counts.coalescing ++ t.interrupts.lengthFindings counts.interrupts ++
    queueLengthFindings t.queues counts.queues

end Tuning

end NicTuning
