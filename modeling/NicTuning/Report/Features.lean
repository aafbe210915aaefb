import NicTuning.Report.KeyValue

/-!
# Offload features

Which work a device takes off its machine. Features are reported by their long names and may be
set by short ones.
-/
namespace NicTuning.Report.Features

/-- Features with a short name of their own, and the name under which they are reported. -/
def longNames : List (String × String) :=
  [("rx", "rx-checksumming"), ("tx", "tx-checksumming"), ("sg", "scatter-gather"),
    ("tso", "tcp-segmentation-offload"), ("ufo", "udp-fragmentation-offload"),
    ("gso", "generic-segmentation-offload"), ("gro", "generic-receive-offload"),
    ("lro", "large-receive-offload"), ("rxvlan", "rx-vlan-offload"),
    ("txvlan", "tx-vlan-offload"), ("ntuple", "ntuple-filters"), ("rxhash", "receive-hashing")]

/-- The name under which a feature is reported. -/
def longName (feature : String) : String := (longNames.lookup feature).getD feature

/-- The features in a report, whose first line is a title. Remarks after the flag do not count. -/
def read (output : String) : Dict Bool :=
  let entries := ((Text.lines output).drop 1).filterMap KeyValue.ofLine?
  Dict.ofList (entries.filterMap fun e => (flag? e.value).map fun on => (e.key, on))

end NicTuning.Report.Features
