import NicTuning.Ledger.Change

/-!
# Ledgers

The ledger of a run holds, for each layer that changed something, what has to be undone. Every
layer has its own key, and an entry that is present is never replaced by another.
-/
namespace NicTuning

/-- What one layer changed. -/
inductive Entry
  | settings (changes : SettingChanges)
  | queues (changes : List QueueChange)
  | interrupts (changes : InterruptChanges)
  | qdiscs (changes : List QdiscChange)

abbrev Ledger := Register Entry

namespace Ledger

/-- A new entry for a layer that has none. -/
def add (l : Ledger) (key : String) (entry : Entry) : Except Fault Ledger :=
  if l.contains key then .error (.alreadyConfigured key) else .ok (l.insert key entry)

/-- The entry of a layer, and the ledger without it. -/
def take (l : Ledger) (key : String) : Option Entry × Ledger := (l.get? key, l.erase key)

/-- The changed attributes of a layer. -/
def settings? (l : Ledger) (key : String) : Option SettingChanges :=
  match l.get? key with
  | some (.settings changes) => some changes
  | _ => none

/-- The changed attributes of a layer, or none yet. An entry of another kind is refused. -/
def settingsOrNone (l : Ledger) (key : String) : Except Fault SettingChanges :=
  match l.get? key with
  | some (.settings changes) => .ok changes
  | none => .ok .empty
  | some _ => .error (.alreadyConfigured key)

/-- One more changed attribute of a layer. -/
def push (l : Ledger) (key name : String) (change : SettingChange) : Except Fault Ledger :=
  (l.settingsOrNone key).map fun changes =>
    l.insert key (.settings (changes.push name change))

/-- The ledger in which a layer has an entry of changed attributes, empty if it is new. -/
def touch (l : Ledger) (key : String) : Except Fault (SettingChanges × Ledger) :=
  (l.settingsOrNone key).map fun changes => (changes, l.insert key (.settings changes))

/-- The changes of one attribute of a layer, and the ledger without them. The entry of the layer
stays, even if nothing is left in it. -/
def takeSetting (l : Ledger) (key name : String) : Option (List SettingChange) × Ledger :=
  match l.settings? key with
  | none => (none, l)
  | some changes =>
    match changes.get? name with
    | none => (none, l)
    | some taken => (some taken, l.insert key (.settings (changes.erase name)))

/-- The ledger without the entry of a layer in whose entry nothing is left. -/
def dropEmpty (l : Ledger) (key : String) : Ledger :=
  if (l.settings? key).any Register.isEmpty then l.erase key else l

def queues? (l : Ledger) (key : String) : Option (List QueueChange) :=
  match l.get? key with
  | some (.queues changes) => some changes
  | _ => none

def interrupts? (l : Ledger) (key : String) : Option InterruptChanges :=
  match l.get? key with
  | some (.interrupts changes) => some changes
  | _ => none

def qdiscs? (l : Ledger) (key : String) : Option (List QdiscChange) :=
  match l.get? key with
  | some (.qdiscs changes) => some changes
  | _ => none

/-- What a look-up finds in the entry of a layer, and the ledger without the entry. The ledger stays
as it is if nothing is found. -/
def takeIf {α : Type} (look : Ledger → String → Option α) (l : Ledger) (key : String) :
    Option α × Ledger :=
  match look l key with
  | some x => (some x, l.erase key)
  | none => (none, l)

end Ledger

end NicTuning
