import NicTuning.Layer.Basic
import NicTuning.Roster

/-!
# Stacks

A stack is a list of layers. They are configured from the first to the last, up to the first fault,
and restored from the last to the first, whatever happens on the way. `run` configures, does
something with the tuned devices and always restores.
-/
namespace NicTuning

abbrev Stack := List Layer

/-- How the restoring of a stack went: the keys of the layers that were restored, and those that
were not with their faults, both in the order in which it was tried. -/
structure Undoing where
  restored : List String
  failures : List (String × Fault)
  deriving DecidableEq

namespace Undoing

def none : Undoing := ⟨[], []⟩

def success (u : Undoing) : Bool := u.failures.isEmpty

/-- A failure in words. -/
def describeFailure (failure : String × Fault) : String :=
  failure.1 ++ ": " ++ failure.2.message

/-- The first failure, if there is one. -/
def check (u : Undoing) : Except Fault Unit :=
  match u.failures with
  | [] => .ok ()
  | (_, fault) :: _ => .error fault

end Undoing

/-- What came of a run, and of the restoring after it. -/
structure Outcome (α : Type) where
  result : Except Fault α
  undoing : Undoing

namespace Outcome

/-- The result of the run, or the first failure to restore if the run succeeded. -/
def check {α : Type} (o : Outcome α) : Except Fault α := do
  let value ← o.result
  o.undoing.check
  return value

end Outcome

namespace Stack

/-- The layers for a tuning, each with its devices and its parameters, in the order in which they
have to be configured. -/
def unchecked (t : Tuning) (r : Roster) : Stack :=
  [.offload r.offload t.offload, .mtu r.mtu t.mtu, .coalescing r.coalescing t.coalescing,
    .interrupts r.interrupts t.interrupts, .qdisc r.qdisc t.streams,
    .pauseFrames r.pauseFrames t.pauseFrames, .queues r.queues t.queues,
    .flowHash r.flowHash t.flowHash, .hashFunction r.hashFunction t.hashFunction]

/-- The layers for a tuning that passes every examination. -/
def standard (t : Tuning) (r : Roster) : Except Fault Stack := do
  (t.findings ++ t.lengthFindings r.counts).check
  return unchecked t r

def keys (s : Stack) : List String := s.map Layer.key

/-- Configures one layer, unless the ledger has an entry of it. -/
def configureLayer (layer : Layer) : SessionM Unit := do
  if (← NotingM.notes).contains layer.key then throw (.alreadyConfigured layer.key)
  else layer.configure

/-- Configures the layers, up to the first fault. -/
def configure (s : Stack) : SessionM Unit := NotingM.forEach configureLayer s

/-- Restores one layer and adds how it went. -/
def restoreLayer (layer : Layer) (u : Undoing) : StateM (Bench × Ledger) Undoing := fun session =>
  let known := session.2.contains layer.key
  match layer.restore session with
  | (.ok (), session) =>
    (if known then { u with restored := u.restored ++ [layer.key] } else u, session)
  | (.error fault, session) =>
    ({ u with failures := u.failures ++ [(layer.key, fault)] }, session)

/-- Restores layers in the given order and adds how it went. -/
def restoreAll (u : Undoing) : List Layer → StateM (Bench × Ledger) Undoing
  | [] => pure u
  | layer :: rest => do restoreAll (← restoreLayer layer u) rest

/-- Restores the layers, the last first. -/
def restore (s : Stack) : StateM (Bench × Ledger) Undoing := restoreAll .none s.reverse

def describe (s : Stack) (l : Ledger) : List String := s.flatMap fun layer => layer.describe l

def plan (s : Stack) : List String := s.flatMap Layer.plan

/-- Configures the layers, does something with the bench if that succeeded, and restores. -/
def run {α : Type} (s : Stack) (body : BenchM α) : StateM (Bench × Ledger) (Outcome α) :=
  fun session =>
    let configured := do
      configure s
      (body : SessionM α)
    let (result, session) := configured session
    let (undoing, session) := restore s session
    (⟨result, undoing⟩, session)

end Stack

end NicTuning
