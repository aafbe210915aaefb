import NicTuning.Layer.Settings

/-!
# Hash functions

Selects the function that spreads received packets over queues.
-/
namespace NicTuning.Layer.HashFunction

def key : String := "dev_rx_hash_function"

def name : String := "rx_hash_function"

def targets (devices : List Device) (function : Option String) : List Target :=
  sharedTargets devices (function.map .word)

def configure (devices : List Device) (function : Option String) : SessionM Unit :=
  changeSettings key name (targets devices function)

def describe (l : Ledger) : List String :=
  orSkipped "RX hash function configuration skipped." (describeSetting key name l)

def plan (devices : List Device) (function : Option String) : List String :=
  planSettings name (targets devices function)

end NicTuning.Layer.HashFunction
