import NicTuning.Proofs.Describing

/-!
# Rewriting attributes

What happens when an attribute is given new values: the devices are taken one after the other, each
is read right before it is written, and the first fault is the end of it. The ledger then holds what
was written, whatever the key is under which that is noted. None of this depends on which layer has
the attribute to itself.
-/
namespace NicTuning

/-! ## Entries that grow -/

namespace SettingChanges

theorem pushAll_append (changes : SettingChanges) (pairs pairs' : List (String × SettingChange)) :
    changes.pushAll (pairs ++ pairs') = (changes.pushAll pairs).pushAll pairs' :=
  List.foldl_append

theorem isEmpty_pushAll (pairs : List (String × SettingChange)) :
    (pushAll .empty pairs).isEmpty = pairs.isEmpty := by
  rcases List.eq_nil_or_concat pairs with rfl | ⟨before, p, rfl⟩
  · rfl
  · rw [List.concat_eq_append, pushAll_append]
    have hlast := Register.isEmpty_insert (pushAll .empty before) p.1
      (((pushAll .empty before).get? p.1).getD [] ++ [p.2])
    rw [show (pushAll (pushAll .empty before) [p]).isEmpty = false from hlast]
    simp

end SettingChanges

namespace Ledger

variable {l : Ledger} {key : String}

/-- The ledger with more changes of attributes under a key, one after the other. -/
def pushAll (l : Ledger) (key : String) (pairs : List (String × SettingChange)) : Ledger :=
  pairs.foldl (fun l p => l.insert key (.settings ((l.settingsOf key).push p.1 p.2))) l

theorem pushAll_cons (l : Ledger) (key : String) (p : String × SettingChange)
    (pairs : List (String × SettingChange)) : l.pushAll key (p :: pairs) =
      pushAll (l.insert key (.settings ((l.settingsOf key).push p.1 p.2))) key pairs := rfl

theorem settingsOf_insert (l : Ledger) (key : String) (changes : SettingChanges) :
    settingsOf (l.insert key (.settings changes)) key = changes := by
  rw [settingsOf_eq, Register.get?_insert, if_pos rfl]
  rfl

theorem takesSettings_insert (l : Ledger) (key : String) (changes : SettingChanges) :
    TakesSettings (l.insert key (.settings changes)) key := by
  intro entry he
  rw [Register.get?_insert, if_pos rfl] at he
  exact ⟨changes, (Option.some.inj he).symm⟩

/-- A change of an attribute is taken wherever there is no entry of another kind. -/
theorem push_eq_ok (h : l.TakesSettings key) (name : String) (change : SettingChange) :
    l.push key name change =
      .ok (l.insert key (.settings ((l.settingsOf key).push name change))) := by
  unfold push settingsOrNone
  rw [settingsOf_eq]
  cases he : l.get? key with
  | none => rfl
  | some entry =>
    obtain ⟨changes, rfl⟩ := h entry he
    rfl

/-- The entry under the key has grown by the changes, and all others are as they were. -/
theorem get?_pushAll (pairs : List (String × SettingChange)) (l : Ledger) (key k : String) :
    (l.pushAll key pairs).get? k =
      if k = key ∧ pairs ≠ [] then some (.settings ((l.settingsOf key).pushAll pairs))
      else l.get? k := by
  induction pairs generalizing l with
  | nil => simp [pushAll]
  | cons p rest ih =>
    rw [pushAll_cons, ih, settingsOf_insert, Register.get?_insert]
    by_cases hk : k = key
    · cases rest with
      | nil => simp [hk, SettingChanges.pushAll]
      | cons q rest => simp [hk, SettingChanges.pushAll]
    · simp [hk]

theorem pushAll_append (pairs pairs' : List (String × SettingChange)) (l : Ledger)
    (key : String) : l.pushAll key (pairs ++ pairs') = (l.pushAll key pairs).pushAll key pairs' :=
  List.foldl_append

theorem takesSettings_pushAll (h : l.TakesSettings key) (pairs : List (String × SettingChange)) :
    (l.pushAll key pairs).TakesSettings key := by
  induction pairs generalizing l with
  | nil => exact h
  | cons p rest ih => exact ih (l.takesSettings_insert key _)

theorem erase_pushAll (pairs : List (String × SettingChange)) (l : Ledger) (key : String) :
    (l.pushAll key pairs).erase key = l.erase key := by
  induction pairs generalizing l with
  | nil => rfl
  | cons p rest ih => rw [pushAll_cons, ih, Register.erase_insert, if_pos rfl]

end Ledger

/-! ## Calls that change attributes -/

/-- An attribute of a device is to get a value. -/
structure Rewrite where
  name : String
  device : Device
  value : Setting
  deriving DecidableEq

/-- What is to be done for an attribute: the devices with a value get it. -/
def rewrites (name : String) (targets : List Target) : List Rewrite :=
  targets.filterMap fun (d, value) => value.map (⟨name, d, ·⟩)

/-- Attributes are rewritten one after the other, up to the first fault. Each change is one that was
written, with what was read right before. -/
inductive Rewrites : Bench → List Rewrite → List (String × SettingChange) → Except Fault Unit →
    Bench → Prop
  | done {b} : Rewrites b [] [] (.ok ()) b
  | unread {b b' r rest fault} (look : r.device.get r.name b = (.error fault, b')) :
      Rewrites b (r :: rest) [] (.error fault) b'
  | unwritten {b b' b'' r rest previous fault}
      (look : r.device.get r.name b = (.ok previous, b'))
      (write : r.device.set r.name r.value b' = (.error fault, b'')) :
      Rewrites b (r :: rest) [] (.error fault) b''
  | written {b b' b'' b''' r rest previous made result}
      (look : r.device.get r.name b = (.ok previous, b'))
      (write : r.device.set r.name r.value b' = (.ok (), b''))
      (others : Rewrites b'' rest made result b''') :
      Rewrites b (r :: rest) ((r.name, ⟨r.device, previous, r.value⟩) :: made) result b'''

namespace Rewrites

variable {b b' : Bench} {rs : List Rewrite} {made : List (String × SettingChange)}
  {result : Except Fault Unit}

/-- What was written took effect one by one. -/
theorem course (h : Rewrites b rs made result b') :
    Course b (made.map fun p => .setting p.1 p.2) b' := by
  induction h with
  | done => exact .refl _
  | @unread b b' r _ _ look =>
    have hq := Quiet.get r.device r.name b
    rw [look] at hq
    exact .done hq
  | @unwritten b b' b'' r _ _ _ look write =>
    have hq := Quiet.get r.device r.name b
    rw [look] at hq
    exact .done (hq.trans (Quiet.set_of_error write))
  | written look write _ ih => exact .step (.refl _) (.setting look write) ih

end Rewrites

namespace Layer

/-- Giving an attribute of a device a new value is one rewrite, and its change goes to the ledger.
-/
theorem changeSettings_cons_some {key name : String} {l : Ledger} (h : l.TakesSettings key)
    (d : Device) (value : Setting) (rest : List Target) (b : Bench) :
    changeSettings key name ((d, some value) :: rest) (b, l) =
      match d.get name b with
      | (.error fault, b') => (.error fault, b', l)
      | (.ok previous, b') =>
        match d.set name value b' with
        | (.error fault, b'') => (.error fault, b'', l)
        | (.ok (), b'') => changeSettings key name rest
          (b'', l.insert key (.settings ((l.settingsOf key).push name ⟨d, previous, value⟩))) := by
  change (changeSetting key name d value >>= fun _ => changeSettings key name rest) (b, l) = _
  rw [ActionM.bind_apply]
  unfold changeSetting
  rw [NotingM.lift_bind_apply]
  rcases d.get name b with ⟨fault | previous, b'⟩
  · rfl
  · dsimp only
    rw [NotingM.lift_bind_apply]
    rcases d.set name value b' with ⟨fault | ⟨⟩, b''⟩
    · rfl
    · dsimp only
      rw [NotingM.amend_ok b'' (Ledger.push_eq_ok h name _)]

/-- However a call that changes an attribute ends, its changes are in the ledger. -/
theorem changeSettings_rewrites {key : String} (name : String) (targets : List Target) (b : Bench)
    {l : Ledger} (h : l.TakesSettings key) : ∃ made,
    Rewrites b (rewrites name targets) made (changeSettings key name targets (b, l)).1
      (changeSettings key name targets (b, l)).2.1 ∧
    (changeSettings key name targets (b, l)).2.2 = l.pushAll key made := by
  induction targets generalizing b l with
  | nil => exact ⟨[], .done, rfl⟩
  | cons target rest ih =>
    obtain ⟨d, - | value⟩ := target
    · exact ih b h
    · have hrewrites : rewrites name ((d, some value) :: rest) =
          ⟨name, d, value⟩ :: rewrites name rest := rfl
      rw [changeSettings_cons_some h, hrewrites]
      rcases look : d.get name b with ⟨fault | previous, b'⟩
      · exact ⟨[], .unread look, rfl⟩
      · dsimp only
        rcases write : d.set name value b' with ⟨fault | ⟨⟩, b''⟩
        · exact ⟨[], .unwritten look write, rfl⟩
        · obtain ⟨made, hmade, hledger⟩ := ih b''
            (l.takesSettings_insert key ((l.settingsOf key).push name ⟨d, previous, value⟩))
          exact ⟨_, .written look write hmade, hledger⟩

end Layer

end NicTuning
