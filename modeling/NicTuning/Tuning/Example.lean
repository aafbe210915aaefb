import NicTuning.Tuning.Basic

/-!
# An example of a tuning

A tuning of two devices in which every layer has something to do.
-/
namespace NicTuning.Tuning

def sample : Tuning where
  offload := some (.ofList [("gro", .flag false), ("tso", .flag true)])
  mtu := some 9000
  coalescing.adaptiveRx := some false
  coalescing.settings :=
    some (.shared (.ofList [("rx-usecs", .number 64), ("tx-usecs", .number 64)]))
  interrupts.processors := some [[2, 4], [2, 4]]
  interrupts.spreadings := some [.roundRobin, .all]
  streams := some 4
  pauseFrames.rx := some false
  pauseFrames.tx := some false
  queues := some [.ofList [("combined", 4)], .ofList [("combined", 4)]]
  flowHash.type := some "udp4"
  flowHash.fields := some "sdfn"
  hashFunction := some "toeplitz"

end NicTuning.Tuning
