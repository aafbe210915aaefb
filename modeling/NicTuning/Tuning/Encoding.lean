import NicTuning.Document.Basic
import NicTuning.Tuning.Basic

/-!
# Documents from tunings

A tuning is written as a record of those parameters that are given.
-/
namespace NicTuning

def Setting.document : Setting → Document
  | flag b => .flag b
  | number n => .integer n.toInt
  | word s => .text s

def Spreading.document (s : Spreading) : Document := .text s.text

namespace Tuning

def dictDocument {α : Type} (value : α → Document) (d : Dict α) : Document :=
  .record (d.entries.map fun e => (e.1, value e.2))

def settingsDocument : Settings → Document := dictDocument Setting.document

def allotmentDocument : Allotment Settings → Document
  | .shared settings => settingsDocument settings
  | .each list => .list (list.map fun o => o.elim .null settingsDocument)

/-- The parameters of a tuning in their written order. -/
def entries (t : Tuning) : List (String × Document) :=
  let fields : List (String × Option Document) :=
    [("offload_settings", t.offload.map settingsDocument),
      ("mtu", t.mtu.map fun n => .integer n.toNat),
      ("adaptive_rx_coalescing", t.coalescing.adaptiveRx.map .flag),
      ("adaptive_tx_coalescing", t.coalescing.adaptiveTx.map .flag),
      ("coalescing_settings", t.coalescing.settings.map allotmentDocument),
      ("dev_intr_cpu_lists", t.interrupts.processors.map fun lists =>
        .list (lists.map fun l => .list (l.map fun n => .integer n.toInt))),
      ("dev_intr_cpu_policies", t.interrupts.spreadings.map fun l =>
        .list (l.map Spreading.document)),
      ("perf_parallel_streams", t.streams.map fun n => .integer n.toNat),
      ("rx_pause_frames", t.pauseFrames.rx.map .flag),
      ("tx_pause_frames", t.pauseFrames.tx.map .flag),
      ("dev_queues", t.queues.map fun l =>
        .list (l.map (dictDocument fun n => .integer n.toNat))),
      ("nfc_rx_flow_hash_type", t.flowHash.type.map .text),
      ("nfc_rx_flow_hash_value", t.flowHash.fields.map .text),
      ("rx_hash_function", t.hashFunction.map .text)]
  fields.filterMap fun (name, value) => value.map fun d => (name, d)

def document (t : Tuning) : Document := .record t.entries

end Tuning

end NicTuning
