import NicTuning.Layer.Settings

/-!
# Transfer units

Sets the largest size of a packet.
-/
namespace NicTuning.Layer.Mtu

def key : String := "mtu"

def name : String := "mtu"

def targets (devices : List Device) (mtu : Option UInt32) : List Target :=
  sharedTargets devices (mtu.map fun n => .number (Int64.ofNat n.toNat))

def configure (devices : List Device) (mtu : Option UInt32) : SessionM Unit :=
  changeSettings key name (targets devices mtu)

def describe (l : Ledger) : List String :=
  orSkipped "MTU configuration skipped." (describeSetting key name l)

def plan (devices : List Device) (mtu : Option UInt32) : List String :=
  planSettings name (targets devices mtu)

end NicTuning.Layer.Mtu
