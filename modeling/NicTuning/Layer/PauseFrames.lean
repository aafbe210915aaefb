import NicTuning.Layer.Settings
import NicTuning.Tuning.Basic

/-!
# Pause frames

Switches the heeding and the sending of pause frames on or off.
-/
namespace NicTuning.Layer.PauseFrames

def key : String := "pause_frames"

/-- The attributes to change and their values. -/
def requests (p : Tuning.PauseFrames) : List (String × Option Setting) :=
  [("rx_pause_frames", p.rx.map .flag), ("tx_pause_frames", p.tx.map .flag)]

def configure (devices : List Device) (p : Tuning.PauseFrames) : SessionM Unit :=
  NotingM.forEach (fun (name, value) => changeSettings key name (sharedTargets devices value))
    (requests p)

def describe (p : Tuning.PauseFrames) (l : Ledger) : List String :=
  orSkipped "Pause frames configuration skipped."
    ((requests p).flatMap fun (name, _) => describeSetting key name l)

def plan (devices : List Device) (p : Tuning.PauseFrames) : List String :=
  (requests p).flatMap fun (name, value) => planSettings name (sharedTargets devices value)

end NicTuning.Layer.PauseFrames
