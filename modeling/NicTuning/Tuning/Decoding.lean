import NicTuning.Document.Shape
import NicTuning.Tuning.Basic

/-!
# Tunings from documents

A tuning is a record whose fields are the parameters. The fields are read in groups, one group for
each thing that is tuned, so of several faults the first group's is reported, and within a group
the first in the text.
-/
namespace NicTuning

open Document (Shaped Fields)

/-- A flag, a number of 64 bits or a word. -/
def Setting.ofDocument? : Document → Option Setting
  | .flag b => some (.flag b)
  | .integer n =>
    if Int64.minValue.toInt ≤ n ∧ n ≤ Int64.maxValue.toInt then some (.number (Int64.ofInt n))
    else none
  | .text s => some (.word s)
  | _ => none

def Setting.ofDocument (d : Document) : Shaped Setting :=
  match Setting.ofDocument? d with
  | some s => .ok s
  | none => .error "data did not match any variant of untagged enum AttrValue"

/-- The spreading with a name. -/
def Spreading.ofText (s : String) : Shaped Spreading :=
  if s = Spreading.roundRobin.text then .ok .roundRobin
  else if s = Spreading.all.text then .ok .all
  else .error ("unknown variant `" ++ s ++ "`, expected `round-robin` or `all`")

/-- A spreading is given by its name or, as a key only, by its number. -/
def Spreading.ofKey : Document → Shaped Spreading
  | .text s => Spreading.ofText s
  | .integer 0 => .ok .roundRobin
  | .integer 1 => .ok .all
  | .integer n => (Document.integer n).wrongValue "variant index 0 <= i < 2"
  | d => d.wrongType "variant identifier"

/-- A spreading, or a map whose only key is one and whose value is empty. -/
def Spreading.ofDocument : Document → Shaped Spreading
  | .text s => Spreading.ofText s
  | .map [(k, v)] => do
    let spreading ← Spreading.ofKey k
    match v with
    | .null | .map [] => return spreading
    | v => v.wrongType "unit"
  | .map entries => (Document.map entries).wrongValue "map with a single key"
  | d => d.wrongType "string or map"

namespace Tuning

def settingsOf : Document → Shaped Settings := Document.asDictOf Setting.ofDocument

/-- Settings for all devices, or a list of settings for each. -/
def allotmentOf (d : Document) : Shaped (Allotment Settings) :=
  match settingsOf d with
  | .ok settings => .ok (.shared settings)
  | .error _ =>
    match Document.asListOf (Document.optionally settingsOf) d with
    | .ok list => .ok (.each list)
    | .error _ => .error "data did not match any variant of untagged enum PerDevice"

def offloadFields : Fields Tuning :=
  [("offload_settings", fun t d => do
    return { t with offload := ← Document.optionally settingsOf d })]

def mtuFields : Fields Tuning :=
  [("mtu", fun t d => do return { t with mtu := ← Document.optionally Document.asUInt32 d })]

def coalescingFields : Fields Tuning :=
  [("adaptive_rx_coalescing", fun t d => do
      return { t with coalescing.adaptiveRx := ← Document.optionally Document.asFlag d }),
    ("adaptive_tx_coalescing", fun t d => do
      return { t with coalescing.adaptiveTx := ← Document.optionally Document.asFlag d }),
    ("coalescing_settings", fun t d => do
      return { t with coalescing.settings := ← Document.optionally allotmentOf d })]

def interruptFields : Fields Tuning :=
  [("dev_intr_cpu_lists", fun t d => do
      let lists ← Document.optionally (Document.asListOf (Document.asListOf Document.asInt64)) d
      return { t with interrupts.processors := lists }),
    ("dev_intr_cpu_policies", fun t d => do
      let spreadings ← Document.optionally (Document.asListOf Spreading.ofDocument) d
      return { t with interrupts.spreadings := spreadings })]

def streamFields : Fields Tuning :=
  [("perf_parallel_streams", fun t d => do
    return { t with streams := ← Document.optionally Document.asUInt32 d })]

def pauseFrameFields : Fields Tuning :=
  [("rx_pause_frames", fun t d => do
      return { t with pauseFrames.rx := ← Document.optionally Document.asFlag d }),
    ("tx_pause_frames", fun t d => do
      return { t with pauseFrames.tx := ← Document.optionally Document.asFlag d })]

def queueFields : Fields Tuning :=
  [("dev_queues", fun t d => do
    let queues ← Document.optionally (Document.asListOf (Document.asDictOf Document.asUInt32)) d
    return { t with queues })]

def flowHashFields : Fields Tuning :=
  [("nfc_rx_flow_hash_type", fun t d => do
      return { t with flowHash.type := ← Document.optionally Document.asText d }),
    ("nfc_rx_flow_hash_value", fun t d => do
      return { t with flowHash.fields := ← Document.optionally Document.asText d })]

def hashFunctionFields : Fields Tuning :=
  [("rx_hash_function", fun t d => do
    return { t with hashFunction := ← Document.optionally Document.asText d })]

/-- The groups of fields, in the order in which they are read. -/
def fieldGroups : List (Fields Tuning) :=
  [offloadFields, mtuFields, coalescingFields, interruptFields, streamFields, pauseFrameFields,
    queueFields, flowHashFields, hashFunctionFields]

/-- The tuning of a record with the given entries. -/
def ofEntries (entries : List (String × Document)) : Shaped Tuning :=
  fieldGroups.foldlM (fun t fields => Document.readFields fields [] t entries) {}

end Tuning

end NicTuning
