import NicTuning.Ledger.Basic

/-!
# Sessions

An action on a bench that takes notes on the way. The notes that were taken before a fault remain,
so that what was changed can be undone. A session is such an action whose notes are the ledger.
-/
namespace NicTuning

/-- An action on a bench with notes of a kind. -/
abbrev NotingM (σ : Type) := ExceptT Fault (StateM (Bench × σ))

abbrev SessionM := NotingM Ledger

namespace NotingM

variable {σ τ α : Type}

/-- An action that takes no notes. -/
def ofBench (act : BenchM α) : NotingM σ α := fun (b, s) =>
  let (r, b) := act b
  (r, b, s)

instance : MonadLift BenchM (NotingM σ) := ⟨ofBench⟩

def notes : NotingM σ σ := fun (b, s) => (.ok s, b, s)

/-- Changes the notes, unless that is a fault. -/
def amend (f : σ → Except Fault σ) : NotingM σ Unit := fun (b, s) =>
  match f s with
  | .ok s => (.ok (), b, s)
  | .error fault => (.error fault, b, s)

/-- Changes the notes. -/
def note (f : σ → σ) : NotingM σ Unit := amend fun s => .ok (f s)

/-- Takes something out of the notes. -/
def takeNote (f : σ → α × σ) : NotingM σ α := fun (b, s) =>
  let (x, s) := f s
  (.ok x, b, s)

/-- Carries out an action that takes other notes, and gives these together with its result. -/
def aside (start : τ) (act : NotingM τ Unit) : NotingM σ (Except Fault Unit × τ) := fun (b, s) =>
  let (r, b, t) := act (b, start)
  (.ok (r, t), b, s)

/-- Carries out an action for each item, up to the first fault. -/
def forEach (act : α → NotingM σ Unit) : List α → NotingM σ Unit
  | [] => pure ()
  | x :: rest => do
    act x
    forEach act rest

/-- Carries out an action for each item, whatever becomes of the others. The first fault is the
fault of all. -/
def tryEach (act : α → NotingM σ Unit) : List α → NotingM σ Unit
  | [] => pure ()
  | x :: rest => fun s =>
    match act x s with
    | (.ok (), s) => tryEach act rest s
    | (.error fault, s) => (.error fault, (tryEach act rest s).2)

end NotingM

end NicTuning
