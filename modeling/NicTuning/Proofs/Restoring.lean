import NicTuning.Proofs.Debts
import Mathlib.Data.List.Nodup

/-!
# Restoring

Restoring a layer settles what its entry owes to the devices in memory that take writes, does
nothing else to them, and removes the entry, whatever fails on the way. For a stack these
settlements add up.
-/
namespace NicTuning

/-- From one bench to another the devices in memory got the values that they were owed, as far as
they take writes, and nothing else happened to them. -/
def Restores (owed : String → String → Option Setting) (b b' : Bench) : Prop :=
  ∀ address, (b'.memory address).up = (b.memory address).up ∧
    (b'.memory address).readOnly = (b.memory address).readOnly ∧
    ∀ name, (b'.memory address).values name =
      if (b.memory address).readOnly then (b.memory address).values name
      else (owed address name).or ((b.memory address).values name)

namespace Restores

variable {owed owed' : String → String → Option Setting} {b b' b'' : Bench}

theorem of_memory_eq (h : b'.memory = b.memory) : Restores (fun _ _ => none) b b' := by
  intro address
  rw [h]
  refine ⟨rfl, rfl, fun name => ?_⟩
  split <;> rfl

theorem congr (h : Restores owed b b')
    (ho : ∀ address name, owed address name = owed' address name) : Restores owed' b b' := by
  obtain rfl : owed = owed' := funext fun address => funext fun name => ho address name
  exact h

/-- What is owed later prevails. -/
theorem trans (h : Restores owed b b') (h' : Restores owed' b' b'') :
    Restores (fun address name => (owed' address name).or (owed address name)) b b'' := by
  intro address
  obtain ⟨hup, hro, hv⟩ := h address
  obtain ⟨hup', hro', hv'⟩ := h' address
  refine ⟨hup'.trans hup, hro'.trans hro, fun name => ?_⟩
  rw [hv', hro, hv]
  split
  · rfl
  · rw [Option.or_assoc]

theorem of_emits {S α : Type} {bench : S → Bench} {act : ActionM S α}
    (h : Emits bench Event.IsRun act) (s : S) :
    Restores (fun _ _ => none) (bench s) (bench (act s).2) := by
  obtain ⟨events, he, hr⟩ := h s
  rw [he]
  exact of_memory_eq (Bench.memory_after_of_isRun hr)

end Restores

/-- Writing an attribute is giving a device in memory what it is owed. -/
theorem Device.set_restores (d : Device) (name : String) (value : Setting) (b : Bench) :
    Restores (fun address n => if n = name ∧ d.control = .memory address then some value else none)
      b (d.set name value b).2 := by
  rw [d.set_bench]
  unfold Device.setEvents
  cases hc : d.control with
  | commands =>
    refine (Restores.of_memory_eq ?_).congr fun address n => by simp
    refine Bench.memory_after_of_isRun fun e he => ?_
    obtain ⟨a, -, rfl⟩ := Option.map_eq_some_iff.1 (Option.mem_toList.1 he)
    exact ⟨_, _, rfl⟩
  | memory address' =>
    intro address
    refine ⟨Event.apply_up (by simp) _ _, Event.apply_readOnly _ _ _, fun n => ?_⟩
    cases hr : (b.memory address').readOnly with
    | true =>
      by_cases ha : address' = address
      · simp [Bench.after, Event.apply, hr, ← ha]
      · simp [Bench.after, Event.apply, hr, ha]
    | false =>
      by_cases ha : address' = address
      · by_cases hn : n = name <;> simp [Bench.after, Event.apply, hr, ← ha, hn]
      · simp [Bench.after, Event.apply, hr, ha, Ne.symm ha]

namespace Layer

/-- Undoing changes of an attribute gives every device what the first of its changes found. -/
theorem undoSettings_restores (name : String) (changes : List SettingChange) (b : Bench) :
    Restores (fun address n =>
        if n = name then changes.findSome? (SettingChange.foundAt? address) else none)
      b (undoSettings name changes b).2 := by
  unfold undoSettings
  induction changes with
  | nil => exact (Restores.of_memory_eq rfl).congr fun address n => by simp
  | cons c rest ih =>
    rw [List.reverse_cons, tryEach_append_bench]
    generalize (tryEach (fun c => c.device.set name c.previous) rest.reverse b).2 = m at ih
    have hs := c.device.set_restores name c.previous m
    rw [tryEach_cons]
    refine (ih.trans hs).congr fun address n => ?_
    rw [List.findSome?_cons]
    unfold SettingChange.foundAt?
    by_cases hn : n = name
    · by_cases hd : c.device.control = .memory address <;> simp [hn, hd]
    · simp [hn]

end Layer

/-! ## Layers that change attributes -/

/-- The entry under a key is gone, and the others are as they were. -/
def Ledger.Lacks (key : String) (l l' : Ledger) : Prop :=
  ∀ k, l'.get? k = if k = key then none else l.get? k

/-- The entries under some keys are gone, and the others are as they were. -/
def Ledger.LacksAll (gone : String → Bool) (l l' : Ledger) : Prop :=
  ∀ k, l'.get? k = if gone k then none else l.get? k

theorem Ledger.Lacks.all {key : String} {l l' : Ledger} (h : l.Lacks key l') :
    l.LacksAll (fun k => key == k) l' := by
  intro k
  rw [h k]
  by_cases hk : k = key
  · simp [hk]
  · simp [hk, Ne.symm hk]

namespace Register

variable {α : Type} {r : Register α}

theorem isEmpty_iff : r.isEmpty = true ↔ ∀ k, r.contains k = false := by
  constructor
  · intro h k
    have he : r.entries = [] := List.isEmpty_iff.1 h
    simp [contains, get?, he]
  · intro h
    refine List.isEmpty_iff.2 (List.eq_nil_iff_forall_not_mem.2 fun e he => ?_)
    have hc : r.contains e.1 := contains_iff.2 (List.mem_map.2 ⟨e, he, rfl⟩)
    rw [h e.1] at hc
    cases hc

theorem contains_erase (r : Register α) (k k' : String) :
    (r.erase k).contains k' = (k' != k && r.contains k') := by
  unfold contains
  rw [get?_erase]
  by_cases h : k' = k <;> simp [h]

theorem filter_insertEntries (k k' : String) (v : α) (l : List (String × α)) :
    (insertEntries k v l).filter (fun e => e.1 != k') =
      if k = k' then l.filter fun e => e.1 != k'
      else insertEntries k v (l.filter fun e => e.1 != k') := by
  induction l with
  | nil => by_cases h : k = k' <;> simp [insertEntries, h]
  | cons e rest ih =>
    obtain ⟨a, w⟩ := e
    by_cases ha : k = a
    · subst ha
      by_cases h : k = k' <;> simp [insertEntries, h]
    · have hlater : insertEntries k v ((a, w) :: rest) = (a, w) :: insertEntries k v rest :=
        if_neg ha
      rw [hlater, List.filter_cons, List.filter_cons, ih]
      by_cases h : k = k' <;> by_cases hk : a = k' <;> simp [insertEntries, ha, h, hk]

/-- What is erased does not matter, and the values of other keys can be written before or after. -/
theorem erase_insert (r : Register α) (k k' : String) (v : α) :
    (r.insert k v).erase k' = if k = k' then r.erase k' else (r.erase k').insert k v := by
  apply ext
  have hf := filter_insertEntries k k' v r.entries
  by_cases h : k = k'
  · rw [if_pos h] at hf ⊢
    exact hf
  · rw [if_neg h] at hf ⊢
    exact hf

/-- There is nothing to erase for a key without a value. -/
theorem erase_of_get? {k : String} (h : r.get? k = none) : r.erase k = r := by
  apply ext
  unfold erase
  apply List.filter_eq_self.2
  intro e he
  have hk : k ∉ r.keys := mt contains_iff.2 (by simp [contains, h])
  have hne : e.1 ≠ k := by
    rintro rfl
    exact hk (List.mem_map_of_mem he)
  simpa using hne

theorem eq_empty_of_get? (h : ∀ k, r.get? k = none) : r = .empty := by
  have he : r.isEmpty = true := isEmpty_iff.2 fun k => by simp [contains, h k]
  exact ext (List.isEmpty_iff.1 he)

end Register

namespace Ledger

variable {l : Ledger} {key name : String} {changes : SettingChanges} {taken : List SettingChange}

theorem settings?_of_get? (h : l.get? key = some (.settings changes)) :
    l.settings? key = some changes := by
  rw [settings?_eq, h]
  rfl

/-- The ledger after the changes of one attribute of a layer were taken out. -/
def without (l : Ledger) (key name : String) (changes : SettingChanges) : Ledger :=
  dropEmpty (l.insert key (.settings (changes.erase name))) key

theorem without_of_isEmpty (l : Ledger) (h : (changes.erase name).isEmpty = true) :
    l.without key name changes = l.erase key := by
  have hs : settings? (l.insert key (.settings (changes.erase name))) key =
      some (changes.erase name) :=
    settings?_of_get? (by rw [Register.get?_insert, if_pos rfl])
  unfold without dropEmpty
  rw [hs, Option.any_some, if_pos h, Register.erase_insert, if_pos rfl]

theorem without_of_not_isEmpty (l : Ledger) (h : ¬(changes.erase name).isEmpty = true) :
    l.without key name changes = l.insert key (.settings (changes.erase name)) := by
  have hs : settings? (l.insert key (.settings (changes.erase name))) key =
      some (changes.erase name) :=
    settings?_of_get? (by rw [Register.get?_insert, if_pos rfl])
  unfold without dropEmpty
  rw [hs, Option.any_some, if_neg h]

theorem get?_without (l : Ledger) (key name : String) (changes : SettingChanges) (k : String) :
    (l.without key name changes).get? k =
      if k = key then
        if (changes.erase name).isEmpty then none else some (.settings (changes.erase name))
      else l.get? k := by
  by_cases he : (changes.erase name).isEmpty = true
  · rw [without_of_isEmpty l he, Register.get?_erase, if_pos he]
  · rw [without_of_not_isEmpty l he, Register.get?_insert, if_neg he]

theorem lacks_erase (l : Ledger) (key : String) : l.Lacks key (l.erase key) :=
  l.get?_erase key

end Ledger

namespace Layer

theorem restoreSetting_apply {l : Ledger} {key name : String} {changes : SettingChanges}
    {taken : List SettingChange} (hl : l.get? key = some (.settings changes))
    (hn : changes.get? name = some taken) (b : Bench) :
    restoreSetting key name (b, l) =
      ((undoSettings name taken b).1, (undoSettings name taken b).2,
        l.without key name changes) := by
  have ht : l.takeSetting key name =
      (some taken, l.insert key (.settings (changes.erase name))) := by
    unfold Ledger.takeSetting
    rw [Ledger.settings?_of_get? hl]
    dsimp only
    rw [hn]
  unfold restoreSetting
  rw [ActionM.bind_apply]
  unfold NotingM.takeNote
  dsimp only
  rw [ht]
  rfl

/-- Undoing the changes of some attributes of a layer, which are all that it changed. -/
theorem restoreSetting_each {key : String} (names : List String) (hne : names ≠ [])
    (hnd : names.Nodup) (b : Bench) (l : Ledger) (changes : SettingChanges)
    (hl : l.get? key = some (.settings changes))
    (hm : ∀ name, changes.contains name = true ↔ name ∈ names) :
    Restores (fun address name =>
        ((changes.get? name).getD []).findSome? (SettingChange.foundAt? address))
      b (NotingM.tryEach (restoreSetting key) names (b, l)).2.1 ∧
    (NotingM.tryEach (restoreSetting key) names (b, l)).2.2 = l.erase key := by
  induction names generalizing b l changes with
  | nil => exact absurd rfl hne
  | cons name rest ih =>
    obtain ⟨taken, ht⟩ := Option.isSome_iff_exists.1 ((hm name).2 (by simp))
    obtain ⟨hnot, hrest⟩ := List.nodup_cons.1 hnd
    have hu := undoSettings_restores name taken b
    have hm' : ∀ k, (changes.erase name).contains k = true ↔ k ∈ rest := by
      intro k
      rw [Register.contains_erase, Bool.and_eq_true, bne_iff_ne, hm, List.mem_cons]
      constructor
      · rintro ⟨hk, rfl | hk'⟩
        · exact absurd rfl hk
        · exact hk'
      · intro hk
        exact ⟨fun e => hnot (e ▸ hk), .inr hk⟩
    rw [NotingM.tryEach_cons, restoreSetting_apply hl ht]
    dsimp only
    rcases rest with - | ⟨next, rest⟩
    · have hempty : (changes.erase name).isEmpty = true :=
        Register.isEmpty_iff.2 fun k => Bool.eq_false_iff.2 fun h => by simpa using (hm' k).1 h
      constructor
      · refine hu.congr fun address n => ?_
        by_cases hn : n = name
        · rw [if_pos hn, hn, ht, Option.getD_some]
        · have hc : changes.get? n = none := by
            refine Register.get?_eq_none (Bool.eq_false_iff.2 fun h => hn ?_)
            simpa using (hm n).1 h
          rw [if_neg hn, hc]
          rfl
      · exact l.without_of_isEmpty hempty
    · have hempty : ¬(changes.erase name).isEmpty = true := fun h =>
        absurd (Register.isEmpty_iff.1 h next) (by rw [(hm' next).2 (by simp)]; simp)
      have hl' : (l.without key name changes).get? key =
          some (.settings (changes.erase name)) := by
        rw [Ledger.get?_without, if_pos rfl, if_neg hempty]
      obtain ⟨hr, herase⟩ := ih (by simp) hrest (undoSettings name taken b).2 _ _ hl' hm'
      constructor
      · refine (hu.trans hr).congr fun address n => ?_
        rw [Register.get?_erase]
        by_cases hn : n = name
        · rw [if_pos hn, if_pos hn, hn, ht]
          rfl
        · rw [if_neg hn, if_neg hn, Option.or_none]
      · rw [herase, l.without_of_not_isEmpty hempty, Register.erase_insert, if_pos rfl]

theorem restoreSettings_apply (key : String) (b : Bench) (l : Ledger) :
    restoreSettings key (b, l) = match l.settings? key with
      | none => (.ok (), b, l)
      | some changes => NotingM.tryEach (restoreSetting key) changes.keys.reverse (b, l) := by
  unfold restoreSettings
  rw [ActionM.bind_apply]
  have hn : (NotingM.notes : SessionM Ledger) (b, l) = (.ok l, b, l) := rfl
  rw [hn]
  dsimp only
  cases l.settings? key <;> rfl

/-- Restoring changed attributes gives each the value that the first of its changes found, and takes
the entry out of the ledger. -/
theorem restoreSettings_of_get? {key : String} {l : Ledger} {changes : SettingChanges}
    (hl : l.get? key = some (.settings changes)) (hempty : changes.isEmpty = false) (b : Bench) :
    Restores (fun address name =>
        ((changes.get? name).getD []).findSome? (SettingChange.foundAt? address))
      b (restoreSettings key (b, l)).2.1 ∧ (restoreSettings key (b, l)).2.2 = l.erase key := by
  have hne : changes.keys.reverse ≠ [] := by
    intro h
    have hkeys : changes.entries = [] := List.map_eq_nil_iff.1 (List.reverse_eq_nil_iff.1 h)
    simp [Register.isEmpty, hkeys] at hempty
  rw [restoreSettings_apply, Ledger.settings?_of_get? hl]
  exact restoreSetting_each changes.keys.reverse hne (List.nodup_reverse.2 changes.nodup) b l
    changes hl fun name => Register.contains_iff.trans List.mem_reverse.symm

/-- Restoring the attributes of a layer settles what its entry owes and removes the entry. -/
theorem restoreSettings_restores {key : String} {l : Ledger} (hs : l.Sound)
    (hk : key ∉ [Queues.key, Qdisc.key, Interrupts.key]) (b : Bench) :
    Restores (fun address name => if settingKey name = key then l.owed address name else none)
      b (restoreSettings key (b, l)).2.1 ∧ l.Lacks key (restoreSettings key (b, l)).2.2 := by
  cases he : l.get? key with
  | none =>
    have hnone : l.settings? key = none := by
      rw [Ledger.settings?_eq, he]
      rfl
    rw [restoreSettings_apply, hnone]
    refine ⟨(Restores.of_memory_eq rfl).congr fun address name => ?_, fun k => ?_⟩
    · split
      · rename_i hn
        unfold Ledger.owed
        rw [hn, hnone]
        rfl
      · rfl
    · by_cases hkey : k = key
      · rw [if_pos hkey, hkey, he]
      · rw [if_neg hkey]
  | some entry =>
    cases entry with
    | settings changes =>
      have hsome := Ledger.settings?_of_get? he
      obtain ⟨hr, herase⟩ := restoreSettings_of_get? he (hs.nonempty key changes he) b
      refine ⟨hr.congr fun address name => ?_, herase ▸ l.lacks_erase key⟩
      split
      · rename_i hn
        unfold Ledger.owed
        rw [hn, hsome]
        rfl
      · rename_i hn
        have hc : changes.get? name = none := by
          refine Register.get?_eq_none (Bool.eq_false_iff.2 fun h => hn ?_)
          exact hs.own key changes name he h
        rw [hc]
        rfl
    | queues changes =>
      exact absurd (hs.fits key _ he) fun h : key = Queues.key => hk (by simp [h])
    | qdiscs changes =>
      exact absurd (hs.fits key _ he) fun h : key = Qdisc.key => hk (by simp [h])
    | interrupts changes =>
      exact absurd (hs.fits key _ he) fun h : key = Interrupts.key => hk (by simp [h])

/-! ## Other layers -/

/-- Takes out the entry of a layer, if it is of the right kind, and undoes what it holds. -/
def restoreTaken {α : Type} (look : Ledger → String → Option α) (key : String)
    (undo : α → BenchM Unit) : SessionM Unit := do
  match ← NotingM.takeNote (·.takeIf look key) with
  | none => pure ()
  | some x => undo x

theorem restoreTaken_apply {α : Type} (look : Ledger → String → Option α) (key : String)
    (undo : α → BenchM Unit) (b : Bench) (l : Ledger) : restoreTaken look key undo (b, l) =
      match look l key with
      | none => (.ok (), b, l)
      | some x => ((undo x b).1, (undo x b).2, l.erase key) := by
  unfold restoreTaken
  rw [ActionM.bind_apply]
  unfold NotingM.takeNote Ledger.takeIf
  dsimp only
  cases look l key <;> rfl

/-- Undoing by commands leaves the devices in memory alone, and the entry is gone. -/
theorem restoreTaken_restores {α : Type} {look : Ledger → String → Option α} {key : String}
    {undo : α → BenchM Unit} {l : Ledger} (hu : ∀ x, Emits id Event.IsRun (undo x))
    (hl : look l key = none → l.get? key = none) (b : Bench) :
    Restores (fun _ _ => none) b (restoreTaken look key undo (b, l)).2.1 ∧
      l.Lacks key (restoreTaken look key undo (b, l)).2.2 := by
  rw [restoreTaken_apply]
  cases hx : look l key with
  | none =>
    refine ⟨.of_memory_eq rfl, fun k => ?_⟩
    by_cases hkey : k = key
    · rw [if_pos hkey, hkey, hl hx]
    · rw [if_neg hkey]
  | some x => exact ⟨Restores.of_emits (hu x) b, Register.get?_erase l key⟩

namespace Interrupts

theorem restore_eq : restore = restoreTaken Ledger.interrupts? key fun changes =>
    tryEach (fun h => h.command "service irqbalance start") changes.stopped.reverse := by
  unfold restore restoreTaken
  congr 1
  funext taken
  cases taken <;> rfl

theorem get?_eq_none {l : Ledger} (hs : l.Sound) (h : l.interrupts? key = none) :
    l.get? key = none := by
  unfold Ledger.interrupts? at h
  cases he : l.get? key with
  | none => rfl
  | some entry =>
    have hf := hs.fits key entry he
    cases entry with
    | interrupts changes => simp [he] at h
    | settings changes => exact absurd hf (by simp [Entry.Fits])
    | queues changes => exact absurd (show key = Queues.key from hf) (by decide)
    | qdiscs changes => exact absurd (show key = Qdisc.key from hf) (by decide)

theorem restore_restores {l : Ledger} (hs : l.Sound) (b : Bench) :
    Restores (fun _ _ => none) b (restore (b, l)).2.1 ∧ l.Lacks key (restore (b, l)).2.2 := by
  rw [restore_eq]
  refine restoreTaken_restores (fun changes => Emits.tryEach fun h _ => ?_) (get?_eq_none hs) b
  exact Emits.command ⟨_, _, rfl⟩

end Interrupts

namespace Qdisc

theorem restore_eq :
    restore = restoreTaken Ledger.qdiscs? key fun changes => tryEach undo changes.reverse := by
  unfold restore restoreTaken
  congr 1
  funext taken
  cases taken <;> rfl

theorem get?_eq_none {l : Ledger} (hs : l.Sound) (h : l.qdiscs? key = none) :
    l.get? key = none := by
  unfold Ledger.qdiscs? at h
  cases he : l.get? key with
  | none => rfl
  | some entry =>
    have hf := hs.fits key entry he
    cases entry with
    | qdiscs changes => simp [he] at h
    | settings changes => exact absurd hf (by simp [Entry.Fits])
    | queues changes => exact absurd (show key = Queues.key from hf) (by decide)
    | interrupts changes => exact absurd (show key = Interrupts.key from hf) (by decide)

theorem undo_emits {P : Event → Prop} {c : QdiscChange}
    (hp : P (.ran c.device.netns.address (deleteCommand c.device))) : Emits id P (undo c) := by
  unfold undo
  split
  · exact .pure ()
  · exact Emits.command hp

theorem restore_restores {l : Ledger} (hs : l.Sound) (b : Bench) :
    Restores (fun _ _ => none) b (restore (b, l)).2.1 ∧ l.Lacks key (restore (b, l)).2.2 := by
  rw [restore_eq]
  refine restoreTaken_restores (fun changes => Emits.tryEach fun c _ => ?_) (get?_eq_none hs) b
  exact undo_emits ⟨_, _, rfl⟩

end Qdisc

namespace Queues

theorem restore_eq :
    restore = restoreTaken Ledger.queues? key fun changes => tryEach undo changes.reverse := by
  unfold restore restoreTaken
  congr 1
  funext taken
  cases taken <;> rfl

theorem get?_eq_none {l : Ledger} (hs : l.Sound) (h : l.queues? key = none) :
    l.get? key = none := by
  unfold Ledger.queues? at h
  cases he : l.get? key with
  | none => rfl
  | some entry =>
    have hf := hs.fits key entry he
    cases entry with
    | queues changes => simp [he] at h
    | settings changes => exact absurd hf (by simp [Entry.Fits])
    | qdiscs changes => exact absurd (show key = Qdisc.key from hf) (by decide)
    | interrupts changes => exact absurd (show key = Interrupts.key from hf) (by decide)

theorem undo_emits {P : Event → Prop} {c : QueueChange}
    (hp : P (.ran c.device.netns.address (setCommand c.device c.restoreCounts))) :
    Emits id P (undo c) := by
  unfold undo
  split
  · exact .pure ()
  · exact Emits.command hp

theorem restore_restores {l : Ledger} (hs : l.Sound) (b : Bench) :
    Restores (fun _ _ => none) b (restore (b, l)).2.1 ∧ l.Lacks key (restore (b, l)).2.2 := by
  rw [restore_eq]
  refine restoreTaken_restores (fun changes => Emits.tryEach fun c _ => ?_) (get?_eq_none hs) b
  exact undo_emits ⟨_, _, rfl⟩

end Queues

theorem key_not_mem_of_requests? {layer : Layer}
    {requests : Except Fault (List (String × List NicTuning.Target))}
    (h : layer.requests? = some requests) :
    layer.key ∉ [Queues.key, Qdisc.key, Interrupts.key] := by
  have hk : ∀ key ∈ [Offload.key, Mtu.key, Coalescing.key, PauseFrames.key, FlowHash.key,
      HashFunction.key], key ∉ [Queues.key, Qdisc.key, Interrupts.key] := by decide
  cases layer with
  | interrupts | qdisc | queues | inert => cases h
  | _ => exact hk _ (by simp [key])

/-- Restoring a layer settles what is owed to its attributes and removes its entry. -/
theorem restore_restores (layer : Layer) {l : Ledger} (hs : l.Sound) (b : Bench) :
    Restores (fun address name =>
        if layer.undoes (settingKey name) then l.owed address name else none)
      b (layer.restore (b, l)).2.1 ∧
    l.LacksAll (fun key => layer.undoes key) (layer.restore (b, l)).2.2 := by
  have other : ∀ {key : String} {b' : Bench} {l' : Ledger},
      key ∈ [Queues.key, Qdisc.key, Interrupts.key] →
      Restores (fun _ _ => none) b b' ∧ l.Lacks key l' →
      Restores (fun address name =>
        if key == settingKey name then l.owed address name else none) b b' ∧
      l.LacksAll (fun k => key == k) l' := by
    rintro key b' l' hk ⟨hr, hl⟩
    refine ⟨hr.congr fun address name => ?_, hl.all⟩
    rw [if_neg]
    simpa using (Change.settingKey_ne hk).symm
  cases hq : layer.requests? with
  | some requests =>
    obtain ⟨hr, hl⟩ := restoreSettings_restores hs (key_not_mem_of_requests? hq) b
    rw [restore_of_requests? hq]
    simp only [undoes_eq_of_requests? hq]
    refine ⟨hr.congr fun address name => ?_, hl.all⟩
    by_cases h : layer.key = settingKey name
    · simp [h]
    · simp [h, Ne.symm h]
  | none =>
    cases layer with
    | interrupts devices i =>
      exact other (show Interrupts.key ∈ _ by simp) (Interrupts.restore_restores hs b)
    | qdisc devices streams =>
      exact other (show Qdisc.key ∈ _ by simp) (Qdisc.restore_restores hs b)
    | queues devices counts =>
      exact other (show Queues.key ∈ _ by simp) (Queues.restore_restores hs b)
    | inert key =>
      refine ⟨(Restores.of_memory_eq rfl).congr fun address name => ?_, fun k => ?_⟩
      · rfl
      · rfl
    | _ => cases hq

/-- There is nothing to restore for a layer without an entry. -/
theorem restore_of_not_contains (layer : Layer) {l : Ledger} (h : l.contains layer.key = false)
    (b : Bench) : layer.restore (b, l) = (.ok (), b, l) := by
  have hn := Register.get?_eq_none h
  cases hq : layer.requests? with
  | some requests =>
    have hs : l.settings? layer.key = none := by
      rw [Ledger.settings?_eq, hn]
      rfl
    rw [restore_of_requests? hq, restoreSettings_apply, hs]
  | none =>
    cases layer with
    | interrupts devices i =>
      have hl : l.interrupts? Interrupts.key = none := by
        unfold Ledger.interrupts?
        rw [show l.get? Interrupts.key = none from hn]
      change Interrupts.restore (b, l) = _
      rw [Interrupts.restore_eq, restoreTaken_apply, hl]
    | qdisc devices streams =>
      have hl : l.qdiscs? Qdisc.key = none := by
        unfold Ledger.qdiscs?
        rw [show l.get? Qdisc.key = none from hn]
      change Qdisc.restore (b, l) = _
      rw [Qdisc.restore_eq, restoreTaken_apply, hl]
    | queues devices counts =>
      have hl : l.queues? Queues.key = none := by
        unfold Ledger.queues?
        rw [show l.get? Queues.key = none from hn]
      change Queues.restore (b, l) = _
      rw [Queues.restore_eq, restoreTaken_apply, hl]
    | inert key => rfl
    | _ => cases hq

end Layer

/-! ## Stacks -/

namespace Ledger

variable {l l' : Ledger} {gone : String → Bool}

theorem Sound.of_lacksAll (hs : l.Sound) (h : l.LacksAll gone l') : l'.Sound := by
  have hsub : ∀ {key entry}, l'.get? key = some entry → l.get? key = some entry := by
    intro key entry he
    rw [h key] at he
    split at he
    · cases he
    · exact he
  exact ⟨fun key entry he => hs.fits key entry (hsub he),
    fun key changes name he hn => hs.own key changes name (hsub he) hn,
    fun key changes he => hs.nonempty key changes (hsub he)⟩

theorem owed_of_lacksAll (h : l.LacksAll gone l') (address name : String) :
    l'.owed address name = if gone (settingKey name) then none else l.owed address name := by
  unfold owed
  rw [settings?_eq, settings?_eq, h (settingKey name)]
  split <;> rfl

theorem contains_of_lacksAll (h : l.LacksAll gone l') (key : String) :
    l'.contains key = (!gone key && l.contains key) := by
  unfold Register.contains
  rw [h key]
  cases gone key <;> rfl

end Ledger

namespace Undoing

/-- The keys of the layers that were restored and of those that were not. -/
def keys (u : Undoing) : List String := u.restored ++ u.failures.map Prod.fst

end Undoing

namespace Stack

theorem restoreLayer_state (layer : Layer) (u : Undoing) (s : Bench × Ledger) :
    (restoreLayer layer u s).2 = (layer.restore s).2 := by
  unfold restoreLayer
  rcases layer.restore s with ⟨fault | ⟨⟩, s'⟩ <;> rfl

/-- A layer is listed once more if it has an entry. -/
theorem mem_keys_restoreLayer (layer : Layer) (u : Undoing) (b : Bench) (l : Ledger)
    (key : String) : key ∈ (restoreLayer layer u (b, l)).1.keys ↔
      key ∈ u.keys ∨ l.contains key = true ∧ layer.key = key := by
  cases hc : l.contains layer.key with
  | false =>
    have hu : (restoreLayer layer u (b, l)).1 = u := by
      unfold restoreLayer
      rw [layer.restore_of_not_contains hc b]
      dsimp only
      rw [hc]
      rfl
    rw [hu]
    refine ⟨.inl, fun h => h.resolve_right ?_⟩
    rintro ⟨hk, rfl⟩
    rw [hc] at hk
    cases hk
  | true =>
    have hm : key ∈ (restoreLayer layer u (b, l)).1.keys ↔ key ∈ u.keys ∨ layer.key = key := by
      unfold restoreLayer Undoing.keys
      dsimp only
      rcases layer.restore (b, l) with ⟨fault | ⟨⟩, s'⟩
      · simp [or_assoc, eq_comm]
      · simp only [hc, if_true, List.mem_append, List.mem_singleton]
        rw [or_right_comm, eq_comm]
    rw [hm]
    refine or_congr_right (and_iff_right_of_imp ?_).symm
    rintro rfl
    exact hc

/-- One layer is restored, and then the others. -/
theorem restoreAll_step (layer : Layer) (rest : List Layer) (u : Undoing) (s : Bench × Ledger) :
    restoreAll u (layer :: rest) s =
      restoreAll (restoreLayer layer u s).1 rest (restoreLayer layer u s).2 := rfl

theorem restoreAll_cons (layer : Layer) (rest : List Layer) (u : Undoing) (s : Bench × Ledger) :
    restoreAll u (layer :: rest) s =
      restoreAll (restoreLayer layer u s).1 rest (layer.restore s).2 := by
  rw [restoreAll_step, restoreLayer_state]

/-- Restoring layers settles what is owed to their attributes and removes their entries. -/
theorem restoreAll_restores (layers : List Layer) (u : Undoing) (b : Bench) (l : Ledger)
    (hs : l.Sound) :
    Restores (fun address name =>
        if layers.any (·.undoes (settingKey name)) then l.owed address name else none)
      b (restoreAll u layers (b, l)).2.1 ∧
    l.LacksAll (fun key => layers.any (·.undoes key)) (restoreAll u layers (b, l)).2.2 := by
  induction layers generalizing u b l with
  | nil => exact ⟨.of_memory_eq rfl, fun _ => rfl⟩
  | cons layer rest ih =>
    obtain ⟨hr, hl⟩ := layer.restore_restores hs b
    obtain ⟨hr', hl'⟩ := ih (restoreLayer layer u (b, l)).1 (layer.restore (b, l)).2.1
      (layer.restore (b, l)).2.2 (hs.of_lacksAll hl)
    rw [restoreAll_cons]
    refine ⟨(hr.trans hr').congr fun address name => ?_, fun key => ?_⟩
    · rw [Ledger.owed_of_lacksAll hl, List.any_cons]
      cases layer.undoes (settingKey name) <;>
        cases rest.any (·.undoes (settingKey name)) <;> simp
    · rw [hl' key, hl key]
      by_cases h : layer.undoes key = true
      · simp [h]
      · simp [h]

/-- The layers that are listed are those with an entry. -/
theorem mem_keys_restoreAll (layers : List Layer) (u : Undoing) (b : Bench) (l : Ledger)
    (hs : l.Sound) (key : String) : key ∈ (restoreAll u layers (b, l)).1.keys ↔
      key ∈ u.keys ∨ l.contains key = true ∧ ∃ layer ∈ layers, layer.key = key := by
  induction layers generalizing u b l with
  | nil =>
    change key ∈ u.keys ↔ _
    simp
  | cons layer rest ih =>
    obtain ⟨-, hl⟩ := layer.restore_restores hs b
    rw [restoreAll_cons, ih _ _ _ (hs.of_lacksAll hl), mem_keys_restoreLayer,
      Ledger.contains_of_lacksAll hl, List.exists_mem_cons_iff, or_assoc, and_or_left]
    refine or_congr_right ?_
    cases hu : layer.undoes key with
    | false => simp
    | true =>
      have hk : layer.key = key := Layer.key_of_undoes hu
      simp only [hk, Bool.not_true, Bool.false_and, Bool.false_eq_true, false_and, or_false,
        and_true]
      exact (or_iff_left_of_imp And.left).symm

end Stack

end NicTuning
