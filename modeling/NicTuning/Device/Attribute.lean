import NicTuning.Text.Affix

/-!
# Attributes

The attributes of a device that the network tools can read and write, and their names. A name
spells a key of a tool with underscores in place of hyphens.
-/
namespace NicTuning

inductive Direction
  | rx
  | tx
  deriving DecidableEq

def Direction.text : Direction → String
  | rx => "rx"
  | tx => "tx"

inductive Attribute
  | mtu
  | adaptiveCoalescing (direction : Direction)
  | coalescing (key : String)
  | pauseFrames (direction : Direction)
  | offload (feature : String)
  | hashFunction
  | flowHash (type : String)
  deriving DecidableEq

namespace Attribute

/-- The name of the attribute for a coalescing key. -/
def coalescingName (key : String) : String := "coalescing_" ++ Text.replaceChar '-' '_' key

/-- The name of the attribute for an offload feature. -/
def offloadName (feature : String) : String := "offload_" ++ Text.replaceChar '-' '_' feature

/-- The name of the attribute for a type of flow. -/
def flowHashName (type : String) : String := "nfc_rx_flow_hash_" ++ type

/-- The attribute whose name begins with the name of its kind. -/
def ofLongName? (name : String) : Option Attribute :=
  match Text.after? "coalescing_" name with
  | some key => some (coalescing (Text.replaceChar '_' '-' key))
  | none =>
    match Text.after? "nfc_rx_flow_hash_" name with
    | some type => some (flowHash type)
    | none =>
      (Text.after? "offload_" name).map fun feature =>
        offload (Text.replaceChar '_' '-' feature)

/-- The attribute with a name. -/
def ofName? (name : String) : Option Attribute :=
  match name with
  | "mtu" => some mtu
  | "adaptive_rx_coalescing" => some (adaptiveCoalescing .rx)
  | "adaptive_tx_coalescing" => some (adaptiveCoalescing .tx)
  | "rx_pause_frames" => some (pauseFrames .rx)
  | "tx_pause_frames" => some (pauseFrames .tx)
  | "rx_hash_function" => some hashFunction
  | name => ofLongName? name

end Attribute

end NicTuning
