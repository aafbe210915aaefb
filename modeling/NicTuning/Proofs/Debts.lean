import NicTuning.Proofs.Accounting

/-!
# Debts

The ledger owes an attribute of a device in memory the value that the first change found there. No
attribute belongs to two layers, so what is owed is read off one entry. `Restores` says that the
devices got what they were owed, as far as they take writes, and that nothing else happened to them.
-/
namespace NicTuning

/-! ## Values found by changes -/

namespace SettingChange

/-- The value that a change found on the device at an address. -/
def foundAt? (address : String) (c : SettingChange) : Option Setting :=
  if c.device.control = .memory address then some c.previous else none

end SettingChange

namespace Change

/-- The value that a change found for an attribute of the device at an address. -/
def found? (address name : String) : Change → Option Setting
  | setting n c => if n = name then c.foundAt? address else none
  | _ => none

end Change

/-- The attribute of the device at an address was written. -/
def Bench.Wrote (events : List Event) (address name : String) : Prop :=
  ∃ value, .wrote address name value true ∈ events

namespace Event

theorem apply_readOnly (e : Event) (devices : String → Memory) (address : String) :
    (e.apply devices address).readOnly = (devices address).readOnly := by
  unfold apply
  split
  · split
    · rename_i h
      rw [h]
    · rfl
  · split
    · rename_i h
      rw [h]
    · rfl
  · rfl

theorem apply_up {e : Event} (h : ∀ address up, e ≠ .linked address up)
    (devices : String → Memory) (address : String) :
    (e.apply devices address).up = (devices address).up := by
  unfold apply
  split
  · split
    · rename_i ha
      rw [ha]
    · rfl
  · exact absurd rfl (h _ _)
  · rfl

end Event

/-- A change finds the value that was there and leaves a value, or does nothing to an attribute. -/
theorem Takes.value_eq {b b' : Bench} {c : Change} (h : Takes b c b') (address name : String) :
    match c.found? address name with
    | some value => (b.memory address).values name = some value ∧
        ((b'.memory address).values name).isSome
    | none => (b'.memory address).values name = (b.memory address).values name := by
  have hm := congrFun (congrArg Memory.values (h.memory_eq address)) name
  cases h with
  | @setting d n value previous _ m _ look write =>
    by_cases hw : n = name ∧ d.control = .memory address
    · obtain ⟨rfl, hc⟩ := hw
      have hfound : (b.memory address).values n = some previous := by
        unfold Device.get at look
        rw [hc] at look
        dsimp only at look
        split at look
        · cases look
        · cases look
          assumption
      simp only [Change.intent?, Option.bind_some, Intent.value?, hc, and_self, if_true,
        Option.some_or] at hm
      simp [Change.found?, SettingChange.foundAt?, hc, hfound, hm]
    · have hnone : (Change.setting n ⟨d, previous, value⟩).found? address name = none := by
        unfold Change.found? SettingChange.foundAt?
        dsimp only
        by_cases hn : n = name
        · rw [if_pos hn, if_neg fun hc => hw ⟨hn, hc⟩]
        · rw [if_neg hn]
      simp only [Change.intent?, Option.bind_some, Intent.value?, if_neg hw, Option.none_or] at hm
      rw [hnone]
      exact hm
  | _ => exact hm

theorem Bench.wrote_mem_successes {b : Bench} {events : List Event} {address name : String}
    {value : Setting} : .wrote address name value true ∈ b.successes Event.isChange events ↔
      .wrote address name value true ∈ events := by
  induction events with
  | nil => rfl
  | cons e events ih =>
    unfold successes
    split
    · rw [List.mem_cons, List.mem_cons, ih]
    · rename_i he
      rw [ih, List.mem_cons]
      refine ⟨.inr, fun h => h.resolve_left ?_⟩
      rintro rfl
      exact he rfl

/-- The event of a change is a write to an attribute in memory if the change found something
there. -/
theorem Change.event?_eq_wrote_iff {c : Change} {address name : String} :
    (∃ value, c.event? = some (.wrote address name value true)) ↔
      (c.found? address name).isSome := by
  cases c with
  | setting n change =>
    have he : Change.event? (.setting n change) = change.device.writeEvent? n change.configured :=
      rfl
    rw [he]
    unfold Device.writeEvent? found? SettingChange.foundAt?
    cases hc : change.device.control with
    | commands => simp [hc]
    | memory address' =>
      by_cases hn : n = name
      · by_cases ha : address' = address <;> simp [hc, hn, ha]
      · simp [hn]
  | _ => simp [event?, found?]

namespace Course

variable {b b' : Bench} {cs : List Change}

/-- The links of the devices in memory are left alone in a course. -/
theorem link_eq (h : Course b cs b') (address : String) :
    (b'.memory address).up = (b.memory address).up ∧
      (b'.memory address).readOnly = (b.memory address).readOnly := by
  rw [h.memory_eq address]
  exact ⟨rfl, rfl⟩

/-- The first change of an attribute found the value that was there before the course, and an
attribute that was not changed is as it was. -/
theorem value_eq (h : Course b cs b') (address name : String) :
    match cs.findSome? (Change.found? address name) with
    | some value => (b.memory address).values name = some value ∧
        ((b'.memory address).values name).isSome
    | none => (b'.memory address).values name = (b.memory address).values name := by
  induction h with
  | done quiet =>
    obtain ⟨-, -, -, hm⟩ := quiet
    rw [hm]
    rfl
  | @step _ _ _ _ c _ quiet takes _ ih =>
    obtain ⟨-, -, -, hm⟩ := quiet
    have ht := takes.value_eq address name
    rw [hm] at ht
    rw [List.findSome?_cons]
    cases hf : c.found? address name with
    | none =>
      rw [hf] at ht
      dsimp only at ht ⊢
      rw [← ht]
      exact ih
    | some value =>
      rw [hf] at ht
      refine ⟨ht.1, ?_⟩
      split at ih
      · exact ih.2
      · rw [ih]
        exact ht.2

/-- The attributes in memory that were written in a course are those that a change found. -/
theorem wrote_iff {events : List Event} (h : Course b cs b') (hp : ∀ c ∈ cs, c.IsPlain)
    (hb : b' = b.after events) (address name : String) :
    Bench.Wrote events address name ↔ (cs.findSome? (Change.found? address name)).isSome := by
  obtain ⟨events', hb', hs⟩ := h.successes hp
  obtain rfl := Bench.after_injective b (hb.symm.trans hb')
  have hw : Bench.Wrote events address name ↔
      ∃ c ∈ cs, ∃ value, c.event? = some (.wrote address name value true) := by
    unfold Bench.Wrote
    constructor
    · rintro ⟨value, hm⟩
      rw [← Bench.wrote_mem_successes (b := b), hs, List.mem_reverse, List.mem_filterMap] at hm
      obtain ⟨c, hc, he⟩ := hm
      exact ⟨c, hc, value, he⟩
    · rintro ⟨c, hc, value, he⟩
      refine ⟨value, ?_⟩
      rw [← Bench.wrote_mem_successes (b := b), hs, List.mem_reverse, List.mem_filterMap]
      exact ⟨c, hc, he⟩
  rw [hw, List.findSome?_isSome_iff]
  exact exists_congr fun c => and_congr_right fun _ => Change.event?_eq_wrote_iff

end Course

/-! ## What the ledger owes -/

theorem Register.isEmpty_insert {α : Type} (r : Register α) (k : String) (v : α) :
    (r.insert k v).isEmpty = false := by
  change (insertEntries k v r.entries).isEmpty = false
  cases r.entries with
  | nil => rfl
  | cons e rest =>
    unfold insertEntries
    split <;> rfl

namespace Ledger

/-- The value that is owed to an attribute of the device at an address. -/
def owed (l : Ledger) (address name : String) : Option Setting :=
  (((l.settings? (settingKey name)).bind (·.get? name)).getD []).findSome?
    (SettingChange.foundAt? address)

/-- Every entry is of the kind that stands under its key, and an entry of changed attributes holds
some, all of them its own. -/
structure Sound (l : Ledger) : Prop where
  fits : ∀ key entry, l.get? key = some entry → entry.Fits key
  own : ∀ key changes name, l.get? key = some (.settings changes) → changes.contains name →
    settingKey name = key
  nonempty : ∀ key changes, l.get? key = some (.settings changes) → changes.isEmpty = false

theorem sound_empty : Sound .empty where
  fits _ _ h := by cases h
  own _ _ _ h := by cases h
  nonempty _ _ h := by cases h

theorem settings?_eq {l : Ledger} {key : String} :
    l.settings? key = (l.get? key).bind Entry.settings? := by
  unfold settings?
  split
  · rename_i h
    rw [h]
    rfl
  · rename_i h
    cases he : l.get? key with
    | none => rfl
    | some entry =>
      cases entry with
      | settings changes => exact absurd he (h changes)
      | _ => rfl

theorem get?_push (changes : SettingChanges) (n : String) (change : SettingChange)
    (name : String) : (changes.push n change).get? name =
      if name = n then some ((changes.get? name).getD [] ++ [change]) else changes.get? name := by
  unfold SettingChanges.push
  rw [Register.get?_insert]
  by_cases h : name = n
  · rw [if_pos h, if_pos h, h]
  · rw [if_neg h, if_neg h]

theorem owed_eq (l : Ledger) (address name : String) : l.owed address name =
    ((((l.get? (settingKey name)).bind Entry.settings?).getD .empty).get? name |>.getD []).findSome?
      (SettingChange.foundAt? address) := by
  unfold owed
  rw [settings?_eq]
  cases (l.get? (settingKey name)).bind Entry.settings? <;> rfl

/-- A change that found a value is a debt unless an earlier one is. -/
theorem owed_note (l : Ledger) (c : Change) (address name : String) :
    (l.note c).owed address name = (l.owed address name).or (c.found? address name) := by
  rw [owed_eq, owed_eq, get?_note]
  by_cases hk : c.key = settingKey name
  · rw [if_pos hk]
    cases c with
    | setting n change =>
      have hs : ((Change.setting n change).enter (l.get? (settingKey name))).settings? =
          some ((((l.get? (settingKey name)).bind Entry.settings?).getD .empty).push n change) :=
        rfl
      have hf : (Change.setting n change).found? address name =
          if n = name then change.foundAt? address else none := rfl
      rw [Option.bind_some, hs, Option.getD_some, get?_push, hf]
      by_cases hn : name = n
      · rw [if_pos hn, if_pos hn.symm, Option.getD_some, List.findSome?_append,
          List.findSome?_singleton]
      · rw [if_neg hn, if_neg (Ne.symm hn), Option.or_none]
    | _ => exact absurd hk.symm (Change.settingKey_ne (by simp [Change.key]))
  · rw [if_neg hk]
    have hf : c.found? address name = none := by
      cases c with
      | setting n change => exact if_neg fun hn => hk (congrArg settingKey hn)
      | _ => rfl
    rw [hf, Option.or_none]

theorem owed_foldl_note (cs : List Change) (l : Ledger) (address name : String) :
    (cs.foldl note l).owed address name =
      (l.owed address name).or (cs.findSome? (Change.found? address name)) := by
  induction cs generalizing l with
  | nil => simp
  | cons c cs ih =>
    rw [List.foldl_cons, ih, owed_note, Option.or_assoc, List.findSome?_cons]
    cases c.found? address name <;> rfl

/-- An entry of changed attributes after one more change. -/
theorem settings_of_get?_note {l : Ledger} {c : Change} {key : String} {changes : SettingChanges}
    (h : (l.note c).get? key = some (.settings changes)) :
    l.get? key = some (.settings changes) ∨ ∃ n change, c = .setting n change ∧
      settingKey n = key ∧
      changes = (((l.get? key).bind Entry.settings?).getD .empty).push n change := by
  rw [get?_note] at h
  split at h
  · rename_i hk
    cases c with
    | setting n change =>
      cases h
      exact .inr ⟨n, change, rfl, hk, rfl⟩
    | _ => cases h
  · exact .inl h

theorem sound_note {l : Ledger} (h : l.Sound) (c : Change) : (l.note c).Sound where
  fits key entry he := by
    rw [get?_note] at he
    split at he
    · rename_i hk
      cases he
      exact hk ▸ c.enter_fits _
    · exact h.fits key entry he
  own key changes name he hn := by
    rcases settings_of_get?_note he with he | ⟨n, change, -, hk, rfl⟩
    · exact h.own key changes name he hn
    · unfold Register.contains at hn
      rw [get?_push] at hn
      split at hn
      · rename_i hname
        rw [hname, hk]
      · cases hl : l.get? key with
        | none =>
          rw [hl] at hn
          cases hn
        | some entry =>
          rw [hl] at hn
          cases entry with
          | settings changes => exact h.own key changes name hl hn
          | _ => cases hn
  nonempty key changes he := by
    rcases settings_of_get?_note he with he | ⟨n, change, -, -, rfl⟩
    · exact h.nonempty key changes he
    · exact Register.isEmpty_insert _ _ _

theorem sound_foldl_note (cs : List Change) {l : Ledger} (h : l.Sound) :
    (cs.foldl note l).Sound := by
  induction cs generalizing l with
  | nil => exact h
  | cons c cs ih => exact ih (sound_note h c)

end Ledger

/-- Configuring leaves no entries but such as its layers make. -/
theorem Stack.sound_configure (s : Stack) (b : Bench) :
    (s.configure (b, .empty)).2.2.Sound := by
  obtain ⟨took, -, -, hl, -⟩ := configure_turns s b .empty
  exact hl ▸ Ledger.sound_foldl_note _ Ledger.sound_empty

end NicTuning
