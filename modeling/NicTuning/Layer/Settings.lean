import NicTuning.Session

/-!
# Changing attributes

Giving attributes new values and going back to the old ones. A value is read before it is replaced
and noted right after, so whatever stops a layer half-way, its changes are in the ledger.
-/
namespace NicTuning

/-- A device and the value that one of its attributes is to have, if any. -/
abbrev Target := Device × Option Setting

namespace Layer

/-- The same value for all devices. -/
def sharedTargets (devices : List Device) (value : Option Setting) : List Target :=
  devices.map fun d => (d, value)

/-- Gives an attribute of a device a new value, and notes it under the key of a layer. -/
def changeSetting (key name : String) (d : Device) (value : Setting) : SessionM Unit := do
  let previous ← d.get name
  d.set name value
  NotingM.amend (·.push key name ⟨d, previous, value⟩)

/-- Gives an attribute new values, up to the first fault. -/
def changeSettings (key name : String) (targets : List Target) : SessionM Unit :=
  NotingM.forEach
    (fun (d, value) => match value with
      | none => pure ()
      | some value => changeSetting key name d value)
    targets

/-- Gives an attribute its old values, the last change first. -/
def undoSettings (name : String) (changes : List SettingChange) : BenchM Unit :=
  tryEach (fun c => c.device.set name c.previous) changes.reverse

/-- Undoes the changes of one attribute. -/
def restoreSetting (key name : String) : SessionM Unit := do
  match ← NotingM.takeNote (·.takeSetting key name) with
  | none => pure ()
  | some changes =>
    NotingM.note (·.dropEmpty key)
    undoSettings name changes

/-- Undoes all changes of attributes of a layer, the attribute that was changed last first. -/
def restoreSettings (key : String) : SessionM Unit := do
  match (← NotingM.notes).settings? key with
  | none => pure ()
  | some changes => NotingM.tryEach (restoreSetting key) changes.keys.reverse

def describeChange (name : String) (c : SettingChange) : String :=
  c.device.id ++ " " ++ name ++ " configured to " ++ c.configured.text

/-- A line for each change of an attribute. -/
def describeSetting (key name : String) (l : Ledger) : List String :=
  (((l.settings? key).bind (·.get? name)).getD []).map (describeChange name)

/-- A line for each change of any attribute of a layer. -/
def describeSettings (key : String) (l : Ledger) : List String :=
  (((l.settings? key).map Register.keys).getD []).flatMap fun name => describeSetting key name l

/-- A line about an intended change. -/
def planLine (name : String) (d : Device) (value : Setting) : String :=
  d.id ++ " " ++ name ++ " -> " ++ value.text

def planSettings (name : String) (targets : List Target) : List String :=
  targets.filterMap fun (d, value) => value.map (planLine name d)

/-- The lines, or one that says there are none. -/
def orSkipped (skipped : String) (lines : List String) : List String :=
  if lines.isEmpty then [skipped] else lines

end Layer

end NicTuning
