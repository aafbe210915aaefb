import NicTuning.Proofs.Runs

/-!
# Undoing

Main statement: restoring a stack tries every step that takes back a recorded change, whatever
became of the steps before, and reports each key of the ledger once, with the first fault of its
steps if one failed. The ledger is empty then, so restoring once more does nothing.
-/
namespace NicTuning

/-! ## Remedies -/

/-- A step that takes back a change: an attribute is written, or a command is run. -/
inductive Remedy
  | write (device : Device) (name : String) (value : Setting)
  | command (host : Host) (command : String)
  deriving DecidableEq

/-- The first fault among some results. -/
def firstFault (results : List (Except Fault Unit)) : Option Fault :=
  results.findSome? fun
    | .ok () => none
    | .error fault => some fault

/-- What is to be said of some results together: the first fault is the fault of all. -/
def verdict (results : List (Except Fault Unit)) : Except Fault Unit :=
  (firstFault results).elim (.ok ()) .error

theorem verdict_cons (r : Except Fault Unit) (rs : List (Except Fault Unit)) :
    verdict (r :: rs) = r >>= fun _ => verdict rs := by
  rcases r with fault | ⟨⟩ <;> rfl

theorem verdict_append (rs rs' : List (Except Fault Unit)) :
    verdict (rs ++ rs') = verdict rs >>= fun _ => verdict rs' := by
  induction rs with
  | nil => rfl
  | cons r rs ih =>
    rw [List.cons_append, verdict_cons, verdict_cons, ih]
    rcases r with fault | ⟨⟩ <;> rfl

namespace Remedy

def act : Remedy → BenchM Unit
  | write d name value => d.set name value
  | command h c => h.command c

/-- Tries remedies one after the other, each on the bench that the one before left, and gives what
became of each. -/
def tryAll : List Remedy → Bench → List (Except Fault Unit) × Bench
  | [], b => ([], b)
  | r :: rest, b =>
    let (result, b) := r.act b
    let (results, b) := tryAll rest b
    (result :: results, b)

theorem tryAll_cons (r : Remedy) (rest : List Remedy) (b : Bench) :
    tryAll (r :: rest) b =
      ((r.act b).1 :: (tryAll rest (r.act b).2).1, (tryAll rest (r.act b).2).2) := rfl

theorem tryAll_append (rs rs' : List Remedy) (b : Bench) :
    tryAll (rs ++ rs') b =
      ((tryAll rs b).1 ++ (tryAll rs' (tryAll rs b).2).1, (tryAll rs' (tryAll rs b).2).2) := by
  induction rs generalizing b with
  | nil => rfl
  | cons r rest ih => rw [List.cons_append, tryAll_cons, tryAll_cons, ih, List.cons_append]

/-- Trying an action for each item is trying the remedies that the items stand for. -/
theorem tryEach_eq {α : Type} {act : α → BenchM Unit} (remedy? : α → Option Remedy)
    (h : ∀ x, act x = (remedy? x).elim (pure ()) Remedy.act) (xs : List α) (b : Bench) :
    tryEach act xs b = (verdict (tryAll (xs.filterMap remedy?) b).1,
      (tryAll (xs.filterMap remedy?) b).2) := by
  induction xs generalizing b with
  | nil => rfl
  | cons x rest ih =>
    rw [tryEach_cons, h x, List.filterMap_cons]
    cases remedy? x with
    | none => exact ih b
    | some r =>
      dsimp only [Option.elim_some]
      rw [ih, tryAll_cons, verdict_cons]

/-- The event can be part of the step. -/
def Involves (r : Remedy) (e : Event) : Prop :=
  match r with
  | write d name value => ∃ b, e ∈ d.setEvents name value b
  | command h c => e = .ran h.address c

theorem act_emits (r : Remedy) : Emits id r.Involves r.act := by
  cases r with
  | write d name value => exact Emits.set fun b e he => ⟨b, he⟩
  | command h c => exact Emits.command rfl

theorem tryAll_emits (rs : List Remedy) (b : Bench) : ∃ events,
    (tryAll rs b).2 = b.after events ∧ ∀ e ∈ events, ∃ r ∈ rs, r.Involves e := by
  induction rs generalizing b with
  | nil => exact ⟨[], rfl, by simp⟩
  | cons r rest ih =>
    obtain ⟨older, ho, hpo⟩ := r.act_emits b
    obtain ⟨newer, hn, hpn⟩ := ih (r.act b).2
    rw [tryAll_cons]
    refine ⟨newer ++ older, ?_, fun e he => ?_⟩
    · rw [← Bench.after_after, ← show (r.act b).2 = b.after older from ho]
      exact hn
    · rcases List.mem_append.mp he with he | he
      · obtain ⟨r', hm, hr'⟩ := hpn e he
        exact ⟨r', by simp [hm], hr'⟩
      · exact ⟨r, by simp, hpo e he⟩

end Remedy

/-- The step that takes back a change, if there is anything to take back. -/
def Change.remedy? : Change → Option Remedy
  | setting name c => some (.write c.device name c.previous)
  | queues c =>
    if c.restoreCounts.isEmpty then none
    else some (.command c.device.netns (Layer.Queues.setCommand c.device c.restoreCounts))
  | qdisc c =>
    if c.previousKind = some "mq" then none
    else some (.command c.device.netns (Layer.Qdisc.deleteCommand c.device))
  | stop h => some (.command h "service irqbalance start")
  | pin _ => none

namespace Ledger

/-- The steps that take back what is recorded under a key, the last change first. -/
def remedies (l : Ledger) (key : String) : List Remedy :=
  (l.changes key).reverse.filterMap Change.remedy?

/-- Tries all steps for some keys, key by key. -/
def tryEntries (l : Ledger) : List String → Bench → List (String × List (Except Fault Unit)) × Bench
  | [], b => ([], b)
  | key :: rest, b =>
    let (results, b) := Remedy.tryAll (l.remedies key) b
    let (tries, b) := tryEntries l rest b
    ((key, results) :: tries, b)

theorem get?_of_queues? {l : Ledger} {key : String} {changes : List QueueChange}
    (h : l.queues? key = some changes) : l.get? key = some (.queues changes) := by
  unfold queues? at h
  split at h
  · rename_i he
    rw [he, Option.some.inj h]
  · cases h

theorem get?_of_interrupts? {l : Ledger} {key : String} {changes : InterruptChanges}
    (h : l.interrupts? key = some changes) : l.get? key = some (.interrupts changes) := by
  unfold interrupts? at h
  split at h
  · rename_i he
    rw [he, Option.some.inj h]
  · cases h

theorem get?_of_qdiscs? {l : Ledger} {key : String} {changes : List QdiscChange}
    (h : l.qdiscs? key = some changes) : l.get? key = some (.qdiscs changes) := by
  unfold qdiscs? at h
  split at h
  · rename_i he
    rw [he, Option.some.inj h]
  · cases h

theorem remedies_of_get? {l : Ledger} {key : String} {held : Option Entry}
    (h : l.get? key = held) :
    l.remedies key = (held.elim [] Entry.changes).reverse.filterMap Change.remedy? := by
  rw [← h]
  rfl

end Ledger

theorem Register.get?_of_mem {α : Type} {r : Register α} {e : String × α} (h : e ∈ r.entries) :
    r.get? e.1 = some e.2 := (Pairs.lookup_eq_some_iff r.nodup).2 h

/-! ## Entries to be taken out -/

/-- Restoring takes the entry out from under the key: it is of the kind that belongs there, and some
attribute is in it if it is one of attributes. -/
def Entry.isDue (key : String) : Entry → Bool
  | .settings changes =>
    decide (key ∉ [Layer.Queues.key, Layer.Qdisc.key, Layer.Interrupts.key]) && !changes.isEmpty
  | .queues _ => key == Layer.Queues.key
  | .interrupts _ => key == Layer.Interrupts.key
  | .qdiscs _ => key == Layer.Qdisc.key

namespace Ledger

/-- The ledger has an entry under the key that restoring takes out. -/
def isDue (l : Ledger) (key : String) : Bool := (l.get? key).any (Entry.isDue key)

variable {l : Ledger} {key : String}

theorem isDue_of_get? {entry : Entry} (h : l.get? key = some entry) :
    l.isDue key = entry.isDue key := by
  unfold isDue
  rw [h, Option.any_some]

theorem isDue_settings (hk : key ∉ [Layer.Queues.key, Layer.Qdisc.key, Layer.Interrupts.key]) :
    l.isDue key = (l.settings? key).any fun changes => !changes.isEmpty := by
  have hne := hk
  simp only [List.mem_cons, List.not_mem_nil, or_false, not_or] at hne
  obtain ⟨hqueues, hqdisc, hinterrupts⟩ := hne
  unfold isDue
  rw [settings?_eq]
  cases l.get? key with
  | none => rfl
  | some entry =>
    cases entry with
    | settings changes =>
      change (decide _ && _) = _
      rw [decide_eq_true hk, Bool.true_and]
      rfl
    | queues changes => exact beq_false_of_ne hqueues
    | interrupts changes => exact beq_false_of_ne hinterrupts
    | qdiscs changes => exact beq_false_of_ne hqdisc

theorem isDue_queues : l.isDue Layer.Queues.key = (l.queues? Layer.Queues.key).isSome := by
  unfold isDue queues?
  rcases l.get? Layer.Queues.key with - | (_ | _ | _ | _) <;> rfl

theorem isDue_interrupts :
    l.isDue Layer.Interrupts.key = (l.interrupts? Layer.Interrupts.key).isSome := by
  unfold isDue interrupts?
  rcases l.get? Layer.Interrupts.key with - | (_ | _ | _ | _) <;> rfl

theorem isDue_qdiscs : l.isDue Layer.Qdisc.key = (l.qdiscs? Layer.Qdisc.key).isSome := by
  unfold isDue qdiscs?
  rcases l.get? Layer.Qdisc.key with - | (_ | _ | _ | _) <;> rfl

theorem isDue_erase (l : Ledger) (key k : String) :
    isDue (l.erase key) k = (k != key && l.isDue k) := by
  unfold isDue
  rw [Register.get?_erase]
  by_cases hk : k = key
  · simp [hk]
  · simp [hk]

/-- Everything in a sound ledger is due. -/
theorem Sound.isDue_eq (hs : l.Sound) (key : String) : l.isDue key = l.contains key := by
  unfold isDue Register.contains
  cases he : l.get? key with
  | none => rfl
  | some entry =>
    have hfits := hs.fits key entry he
    cases entry with
    | settings changes =>
      have hkey : key ∉ [Layer.Queues.key, Layer.Qdisc.key, Layer.Interrupts.key] := hfits
      change (decide _ && !changes.isEmpty) = true
      rw [decide_eq_true hkey, hs.nonempty key changes he]
      rfl
    | _ => exact beq_iff_eq.2 hfits

end Ledger

/-! ## Layers -/

namespace Layer

/-- The layer tunes something, so it is not an inert one. -/
def IsTuning : Layer → Prop
  | inert _ => False
  | _ => True

/-- The step that writes an attribute back. -/
def writeBack (name : String) (c : SettingChange) : Remedy := .write c.device name c.previous

theorem undoSettings_eq (name : String) (changes : List SettingChange) (b : Bench) :
    undoSettings name changes b =
      (verdict (Remedy.tryAll (changes.reverse.map (writeBack name)) b).1,
        (Remedy.tryAll (changes.reverse.map (writeBack name)) b).2) := by
  have h := Remedy.tryEach_eq (fun c => some (writeBack name c)) (fun _ => rfl) changes.reverse b
  rw [List.filterMap_eq_map'] at h
  exact h

/-- Undoing attributes one by one tries to write back every change of each. -/
theorem restoreSetting_tries {key : String} (taken : String → List SettingChange)
    (names : List String) (hnd : names.Nodup) (b : Bench) (l : Ledger) (changes : SettingChanges)
    (hl : l.get? key = some (.settings changes))
    (ht : ∀ name ∈ names, changes.get? name = some (taken name)) :
    let remedies := names.flatMap fun name => (taken name).reverse.map (writeBack name)
    (NotingM.tryEach (restoreSetting key) names (b, l)).1 = verdict (Remedy.tryAll remedies b).1 ∧
      (NotingM.tryEach (restoreSetting key) names (b, l)).2.1 = (Remedy.tryAll remedies b).2 := by
  induction names generalizing b l changes with
  | nil => exact ⟨rfl, rfl⟩
  | cons name rest ih =>
    obtain ⟨hnot, hrest⟩ := List.nodup_cons.1 hnd
    dsimp only
    rw [NotingM.tryEach_cons, restoreSetting_apply hl (ht name (by simp)), undoSettings_eq,
      List.flatMap_cons, Remedy.tryAll_append, verdict_append]
    dsimp only
    generalize Remedy.tryAll ((taken name).reverse.map (writeBack name)) b = first
    rcases rest with - | ⟨next, rest⟩
    · exact ⟨rfl, rfl⟩
    · have ht' : ∀ other ∈ next :: rest, (changes.erase name).get? other = some (taken other) := by
        intro other ho
        rw [Register.get?_erase, if_neg (by rintro rfl; exact hnot ho)]
        exact ht other (by simp [ho])
      have hl' : (l.without key name changes).get? key =
          some (.settings (changes.erase name)) := by
        rw [Ledger.get?_without, if_pos rfl, if_neg]
        intro he
        have hnext := Register.isEmpty_iff.1 he next
        rw [Register.contains, ht' next (by simp)] at hnext
        cases hnext
      obtain ⟨hr, hb⟩ := ih hrest first.2 (l.without key name changes) _ hl' ht'
      exact ⟨by rw [hr], hb⟩

/-- The steps for changed attributes come attribute by attribute, the last one first. -/
theorem remedies_of_settings {key : String} {l : Ledger} {changes : SettingChanges}
    (hl : l.get? key = some (.settings changes)) : l.remedies key =
      changes.keys.reverse.flatMap fun name =>
        ((changes.get? name).getD []).reverse.map (writeBack name) := by
  rw [Ledger.remedies_of_get? hl]
  unfold Register.keys
  rw [Option.elim_some, ← List.map_reverse, List.flatMap_map, Entry.changes, List.reverse_flatMap,
    List.filterMap_flatMap]
  refine List.flatMap_congr fun e hm => ?_
  rw [Register.get?_of_mem (List.mem_reverse.1 hm)]
  simp only [Function.comp_apply, Option.getD_some, ← List.map_reverse, List.filterMap_map]
  exact List.filterMap_eq_map_iff_forall_eq_some.2 fun _ _ => rfl

/-- Undoing changed attributes tries all their steps, whatever the key is. -/
theorem restoreSettings_tries_of_get? {key : String} {l : Ledger} {changes : SettingChanges}
    (hl : l.get? key = some (.settings changes)) (b : Bench) :
    (restoreSettings key (b, l)).1 = verdict (Remedy.tryAll (l.remedies key) b).1 ∧
      (restoreSettings key (b, l)).2.1 = (Remedy.tryAll (l.remedies key) b).2 := by
  have htaken : ∀ name ∈ changes.keys.reverse,
      changes.get? name = some ((changes.get? name).getD []) := by
    intro name hm
    have hc := Register.contains_iff.2 (List.mem_reverse.1 hm)
    obtain ⟨taken, ht⟩ := Option.isSome_iff_exists.1 hc
    rw [ht, Option.getD_some]
  rw [restoreSettings_apply, Ledger.settings?_of_get? hl, remedies_of_settings hl]
  exact restoreSetting_tries _ changes.keys.reverse (List.nodup_reverse.2 changes.nodup) b l
    changes hl htaken

/-- What restoring comes to for a key and a session: an entry that is due is taken out and all its
steps are tried; otherwise nothing is done. -/
def restoration (key : String) (b : Bench) (l : Ledger) : Except Fault Unit × Bench × Ledger :=
  if l.isDue key then
    (verdict (Remedy.tryAll (l.remedies key) b).1, (Remedy.tryAll (l.remedies key) b).2, l.erase key)
  else (.ok (), b, l)

theorem restoration_tries {l : Ledger} (hs : l.Sound) (key : String) (b : Bench) :
    (restoration key b l).1 = verdict (Remedy.tryAll (l.remedies key) b).1 ∧
      (restoration key b l).2.1 = (Remedy.tryAll (l.remedies key) b).2 := by
  unfold restoration
  rw [hs.isDue_eq]
  cases hc : l.contains key with
  | true => exact ⟨rfl, rfl⟩
  | false =>
    rw [Ledger.remedies_of_get? (Register.get?_eq_none hc)]
    exact ⟨rfl, rfl⟩

theorem restoreSettings_eq {key : String} (hk : key ∉ [Queues.key, Qdisc.key, Interrupts.key])
    (b : Bench) (l : Ledger) : restoreSettings key (b, l) = restoration key b l := by
  unfold restoration
  rw [Ledger.isDue_settings hk, Ledger.settings?_eq]
  cases he : l.get? key with
  | none =>
    rw [restoreSettings_apply, Ledger.settings?_eq, he]
    rfl
  | some entry =>
    cases entry with
    | settings changes =>
      cases hempty : changes.isEmpty with
      | true =>
        have hkeys : changes.keys = [] := by
          unfold Register.keys
          rw [List.isEmpty_iff.1 hempty, List.map_nil]
        rw [restoreSettings_apply, Ledger.settings?_of_get? he]
        dsimp only
        rw [hkeys]
        simp [Entry.settings?, hempty]
        rfl
      | false =>
        obtain ⟨hresult, hbench⟩ := restoreSettings_tries_of_get? he b
        obtain ⟨-, hledger⟩ := restoreSettings_of_get? he hempty b
        rw [Option.bind_some, Entry.settings?, Option.any_some, hempty, Bool.not_false, if_pos rfl]
        exact Prod.ext hresult (Prod.ext hbench hledger)
    | _ =>
      rw [restoreSettings_apply, Ledger.settings?_eq, he]
      rfl

theorem restoreTaken_eq {α : Type} {look : Ledger → String → Option α} {key : String}
    {undo : α → BenchM Unit} {l : Ledger} (hdue : l.isDue key = (look l key).isSome)
    (hu : ∀ x b, look l key = some x → undo x b =
      (verdict (Remedy.tryAll (l.remedies key) b).1, (Remedy.tryAll (l.remedies key) b).2))
    (b : Bench) : restoreTaken look key undo (b, l) = restoration key b l := by
  unfold restoration
  rw [restoreTaken_apply, hdue]
  cases hx : look l key with
  | none => rfl
  | some x =>
    dsimp only
    rw [hu x b hx]
    rfl

theorem restoreSettings_tries {key : String} {l : Ledger} (hs : l.Sound)
    (hk : key ∉ [Queues.key, Qdisc.key, Interrupts.key]) (b : Bench) :
    (restoreSettings key (b, l)).1 = verdict (Remedy.tryAll (l.remedies key) b).1 ∧
      (restoreSettings key (b, l)).2.1 = (Remedy.tryAll (l.remedies key) b).2 := by
  rw [restoreSettings_eq hk]
  exact restoration_tries hs key b

/-! ### Layers with commands of their own -/

/-- Only the stopping of balancers is undone. -/
theorem Interrupts.remedies_eq {l : Ledger} {changes : InterruptChanges}
    (h : l.interrupts? key = some changes) : l.remedies key =
      changes.stopped.reverse.filterMap fun h => (Change.stop h).remedy? := by
  have hpinned : (changes.pinned.map Change.pin).filterMap Change.remedy? = [] := by
    rw [List.filterMap_map]
    exact List.filterMap_eq_nil_iff.2 fun _ _ => rfl
  rw [Ledger.remedies_of_get? (Ledger.get?_of_interrupts? h), Option.elim_some, Entry.changes,
    List.filterMap_reverse, List.filterMap_append, hpinned, List.append_nil, List.filterMap_map,
    ← List.filterMap_reverse]
  rfl

theorem Qdisc.remedies_eq {l : Ledger} {changes : List QdiscChange}
    (h : l.qdiscs? key = some changes) : l.remedies key =
      changes.reverse.filterMap fun c => (Change.qdisc c).remedy? := by
  rw [Ledger.remedies_of_get? (Ledger.get?_of_qdiscs? h), Option.elim_some, Entry.changes,
    ← List.map_reverse, List.filterMap_map]
  rfl

theorem Qdisc.undo_eq (c : QdiscChange) :
    undo c = (Change.qdisc c).remedy?.elim (pure ()) Remedy.act := by
  unfold undo
  by_cases h : c.previousKind = some "mq"
  · rw [if_pos h, show (Change.qdisc c).remedy? = none from if_pos h]
    rfl
  · rw [if_neg h, show (Change.qdisc c).remedy? = some _ from if_neg h]
    rfl

theorem Queues.remedies_eq {l : Ledger} {changes : List QueueChange}
    (h : l.queues? key = some changes) : l.remedies key =
      changes.reverse.filterMap fun c => (Change.queues c).remedy? := by
  rw [Ledger.remedies_of_get? (Ledger.get?_of_queues? h), Option.elim_some, Entry.changes,
    ← List.map_reverse, List.filterMap_map]
  rfl

theorem Queues.undo_eq (c : QueueChange) :
    undo c = (Change.queues c).remedy?.elim (pure ()) Remedy.act := by
  unfold undo
  by_cases h : c.restoreCounts.isEmpty = true
  · rw [if_pos h, show (Change.queues c).remedy? = none from if_pos h]
    rfl
  · rw [if_neg h, show (Change.queues c).remedy? = some _ from if_neg h]
    rfl

/-- What restoring a layer comes to. -/
theorem restore_eq_restoration {layer : Layer} (h : layer.IsTuning) (b : Bench) (l : Ledger) :
    layer.restore (b, l) = restoration layer.key b l := by
  cases hq : layer.requests? with
  | some requests =>
    rw [restore_of_requests? hq]
    exact restoreSettings_eq (key_not_mem_of_requests? hq) b l
  | none =>
    cases layer with
    | interrupts devices i =>
      change Interrupts.restore (b, l) = restoration Interrupts.key b l
      rw [Interrupts.restore_eq]
      refine restoreTaken_eq Ledger.isDue_interrupts (fun changes b hc => ?_) b
      rw [Interrupts.remedies_eq hc]
      exact Remedy.tryEach_eq (fun h => (Change.stop h).remedy?) (fun _ => rfl) _ b
    | qdisc devices streams =>
      change Qdisc.restore (b, l) = restoration Qdisc.key b l
      rw [Qdisc.restore_eq]
      refine restoreTaken_eq Ledger.isDue_qdiscs (fun changes b hc => ?_) b
      rw [Qdisc.remedies_eq hc]
      exact Remedy.tryEach_eq _ Qdisc.undo_eq _ b
    | queues devices counts =>
      change Queues.restore (b, l) = restoration Queues.key b l
      rw [Queues.restore_eq]
      refine restoreTaken_eq Ledger.isDue_queues (fun changes b hc => ?_) b
      rw [Queues.remedies_eq hc]
      exact Remedy.tryEach_eq _ Queues.undo_eq _ b
    | inert key => exact h.elim
    | _ => cases hq

/-- On a sound ledger all remedies of the layer are tried. -/
theorem restore_tries {layer : Layer} (h : layer.IsTuning) {l : Ledger} (hs : l.Sound)
    (b : Bench) :
    (layer.restore (b, l)).1 = verdict (Remedy.tryAll (l.remedies layer.key) b).1 ∧
      (layer.restore (b, l)).2.1 = (Remedy.tryAll (l.remedies layer.key) b).2 := by
  rw [restore_eq_restoration h]
  exact restoration_tries hs layer.key b

end Layer

/-- All that happens while a layer is restored takes back what its entry holds. -/
theorem Layer.restore_emits (layer : Layer) (b : Bench) {l : Ledger} (hs : l.Sound) :
    ∃ events, (layer.restore (b, l)).2.1 = b.after events ∧
      ∀ e ∈ events, ∃ r ∈ l.remedies layer.key, r.Involves e := by
  by_cases ht : layer.IsTuning
  · rw [(restore_tries ht hs b).2]
    exact Remedy.tryAll_emits _ b
  · cases layer with
    | inert key => exact ⟨[], rfl, by simp⟩
    | _ => exact absurd trivial ht

namespace Ledger

variable {l l' : Ledger} {key : String}

theorem remedies_of_lacks (h : l.Lacks key l') {k : String} (hk : k ≠ key) :
    l'.remedies k = l.remedies k := by
  unfold remedies changes
  rw [h k, if_neg hk]

theorem tryEntries_cons (l : Ledger) (key : String) (rest : List String) (b : Bench) :
    l.tryEntries (key :: rest) b =
      ((key, (Remedy.tryAll (l.remedies key) b).1) ::
        (l.tryEntries rest (Remedy.tryAll (l.remedies key) b).2).1,
        (l.tryEntries rest (Remedy.tryAll (l.remedies key) b).2).2) := rfl

theorem tryEntries_of_lacks (h : l.Lacks key l') {keys : List String} (hk : key ∉ keys)
    (b : Bench) : l'.tryEntries keys b = l.tryEntries keys b := by
  induction keys generalizing b with
  | nil => rfl
  | cons k rest ih =>
    obtain ⟨hne, hrest⟩ := not_or.1 (mt List.mem_cons.2 hk)
    rw [tryEntries_cons, tryEntries_cons, remedies_of_lacks h (Ne.symm hne), ih hrest]

/-- Tries the steps of the entries that are due under some keys, each once. -/
def tryDue (l : Ledger) (keys : List String) :
    Bench → List (String × List (Except Fault Unit)) × Bench :=
  l.tryEntries (keys.filter l.isDue).eraseDups

theorem tryDue_cons_of_not_due (hdue : l.isDue key = false) (keys : List String) :
    l.tryDue (key :: keys) = l.tryDue keys := by
  unfold tryDue
  rw [List.filter_cons_of_neg (by simp [hdue])]

/-- The steps of an entry are tried, and then those of the ledger without it. -/
theorem tryDue_cons_of_due (hdue : l.isDue key = true) (keys : List String) (b : Bench) :
    l.tryDue (key :: keys) b =
      ((key, (Remedy.tryAll (l.remedies key) b).1) ::
        (tryDue (l.erase key) keys (Remedy.tryAll (l.remedies key) b).2).1,
        (tryDue (l.erase key) keys (Remedy.tryAll (l.remedies key) b).2).2) := by
  have horder : ((key :: keys).filter l.isDue).eraseDups =
      key :: (keys.filter (isDue (l.erase key))).eraseDups := by
    rw [List.filter_cons_of_pos hdue, List.eraseDups_cons, List.filter_filter]
    congr 2
    exact List.filter_congr fun k _ => (l.isDue_erase key k).symm
  have hnot : key ∉ (keys.filter (isDue (l.erase key))).eraseDups := by
    rw [List.mem_eraseDups, List.mem_filter, isDue_erase]
    simp
  unfold tryDue
  rw [horder, tryEntries_cons, tryEntries_of_lacks (l.lacks_erase key) hnot]

theorem keys_tryEntries (l : Ledger) (keys : List String) (b : Bench) :
    (l.tryEntries keys b).1.map Prod.fst = keys := by
  induction keys generalizing b with
  | nil => rfl
  | cons k rest ih => rw [tryEntries_cons, List.map_cons, ih]

end Ledger

/-! ## Stacks -/

namespace Undoing

/-- The report on what became of the steps for some keys: the keys whose steps all succeeded, and
the others, each with the first fault among its steps. -/
def ofTries (tries : List (String × List (Except Fault Unit))) : Undoing where
  restored := (tries.filter fun t => (firstFault t.2).isNone).map Prod.fst
  failures := tries.filterMap fun t => (firstFault t.2).map fun fault => (t.1, fault)

/-- One report after another. -/
def append (u u' : Undoing) : Undoing := ⟨u.restored ++ u'.restored, u.failures ++ u'.failures⟩

theorem append_assoc (u u' u'' : Undoing) :
    (u.append u').append u'' = u.append (u'.append u'') := by
  simp [append]

theorem append_ofTries_nil (u : Undoing) : u.append (ofTries []) = u := by
  simp [append, ofTries]

theorem ofTries_cons (t : String × List (Except Fault Unit))
    (tries : List (String × List (Except Fault Unit))) :
    ofTries (t :: tries) = (ofTries [t]).append (ofTries tries) := by
  cases h : firstFault t.2 <;> simp [ofTries, append, h]

/-- Every key that was tried is reported once. -/
theorem perm_keys_ofTries (tries : List (String × List (Except Fault Unit))) :
    (ofTries tries).keys.Perm (tries.map Prod.fst) := by
  induction tries with
  | nil => exact .nil
  | cons t rest ih =>
    obtain ⟨key, results⟩ := t
    unfold keys ofTries at ih ⊢
    cases h : firstFault results with
    | none => simpa [h] using ih
    | some fault =>
      simp only [h, List.filter_cons, Option.isNone_some, Bool.false_eq_true, if_false,
        List.filterMap_cons, Option.map_some, List.map_cons]
      exact List.perm_middle.trans (ih.cons key)

end Undoing

/-- A list without repetitions of its elements has each of them once. -/
theorem nodup_eraseDups (keys : List String) : keys.eraseDups.Nodup := by
  induction hn : keys.length using Nat.strong_induction_on generalizing keys with
  | _ n ih =>
    cases keys with
    | nil => exact List.nodup_nil
    | cons key rest =>
      rw [List.eraseDups_cons]
      refine List.nodup_cons.2 ⟨by simp, ih _ ?_ _ rfl⟩
      rw [← hn, List.length_cons]
      exact Nat.lt_succ_of_le (List.length_filter_le _ _)

namespace Stack

/-- The keys with an entry in the order in which they are restored: that of the stack from its end,
a repeated key where it comes first then. -/
def restoreOrder (s : Stack) (l : Ledger) : List String :=
  (s.keys.reverse.filter l.contains).eraseDups

/-- The ledgers that configuring and restoring a stack can lead to, on any benches. -/
inductive Reaches (s : Stack) : Ledger → Prop
  | empty : Reaches s .empty
  | configure {l} (b : Bench) (before : Reaches s l) : Reaches s (s.configure (b, l)).2.2
  | restore {l} (b : Bench) (before : Reaches s l) : Reaches s (s.restore (b, l)).2.2

/-- The ledger is sound, and some layer of the stack undoes each of its entries. -/
structure Undoes (s : Stack) (l : Ledger) : Prop where
  sound : l.Sound
  undone : ∀ key, l.contains key = true → s.any (·.undoes key) = true

theorem Undoes.configure {s : Stack} {l : Ledger} (h : s.Undoes l) (b : Bench) :
    s.Undoes (s.configure (b, l)).2.2 := by
  obtain ⟨took, ht, -, hl, hk⟩ := configure_turns s b l
  rw [hl]
  refine ⟨Ledger.sound_foldl_note _ h.sound, fun key hc => ?_⟩
  rw [Ledger.contains_foldl_note] at hc
  rcases Bool.or_eq_true_iff.1 hc with hc | hc
  · exact h.undone key hc
  · obtain ⟨c, hm, he⟩ := List.any_eq_true.1 hc
    obtain ⟨t, hmem, rfl⟩ := List.mem_map.1 hm
    rw [← of_decide_eq_true he]
    exact List.any_eq_true.2 ⟨t.1, ht.mem t hmem, (hk t hmem).undone⟩

/-- Restoring removes every entry. -/
theorem Undoes.restore {s : Stack} {l : Ledger} (h : s.Undoes l) (b : Bench) :
    (s.restore (b, l)).2.2 = .empty := by
  obtain ⟨-, hgone⟩ := restoreAll_restores s.reverse .none b l h.sound
  refine Register.eq_empty_of_get? fun key => ?_
  rw [show s.restore (b, l) = restoreAll .none s.reverse (b, l) from rfl, hgone key]
  split
  · rfl
  · rename_i hn
    simp only [List.any_reverse] at hn
    exact Register.get?_eq_none (Bool.eq_false_iff.2 fun hc => hn (h.undone key hc))

theorem Reaches.undoes {s : Stack} {l : Ledger} (h : s.Reaches l) : s.Undoes l := by
  induction h with
  | empty => exact ⟨Ledger.sound_empty, fun key hc => by cases hc⟩
  | configure b _ ih => exact ih.configure b
  | restore b _ ih =>
    rw [ih.restore b]
    exact ⟨Ledger.sound_empty, fun key hc => by cases hc⟩

/-- The layer is reported as restored although nothing was done for it. -/
theorem restoreLayer_of_not_due {layer : Layer} (h : layer.IsTuning) {l : Ledger}
    (hdue : l.isDue layer.key = false) (u : Undoing) (b : Bench) :
    restoreLayer layer u (b, l) =
      (if l.contains layer.key then { u with restored := u.restored ++ [layer.key] } else u,
        b, l) := by
  have hr := Layer.restore_eq_restoration h b l
  unfold Layer.restoration at hr
  rw [hdue] at hr
  unfold restoreLayer
  rw [hr]
  rfl

theorem restoreLayer_of_due {layer : Layer} (h : layer.IsTuning) {l : Ledger}
    (hdue : l.isDue layer.key = true) (u : Undoing) (b : Bench) :
    restoreLayer layer u (b, l) =
      (u.append (.ofTries [(layer.key, (Remedy.tryAll (l.remedies layer.key) b).1)]),
        (Remedy.tryAll (l.remedies layer.key) b).2, l.erase layer.key) := by
  have hr := Layer.restore_eq_restoration h b l
  unfold Layer.restoration at hr
  rw [if_pos hdue] at hr
  have hc : l.contains layer.key = true := by
    obtain ⟨entry, hentry, -⟩ := (Option.any_eq_true _ _).1 hdue
    exact Option.isSome_iff_exists.2 ⟨entry, hentry⟩
  unfold restoreLayer
  rw [hr]
  dsimp only
  rw [hc]
  unfold verdict Undoing.append Undoing.ofTries
  cases hf : firstFault (Remedy.tryAll (l.remedies layer.key) b).1 with
  | none => simp [hf]
  | some fault => simp [hf]

/-- Restoring layers tries the remedies for their entries, key by key, and reports on them. -/
theorem restoreAll_tries_due (layers : List Layer) (ht : ∀ layer ∈ layers, layer.IsTuning)
    (u : Undoing) (b : Bench) (l : Ledger) (hs : l.Sound) :
    let tries := l.tryDue (layers.map Layer.key) b
    (restoreAll u layers (b, l)).1 = u.append (.ofTries tries.1) ∧
      (restoreAll u layers (b, l)).2.1 = tries.2 := by
  induction layers generalizing u b l with
  | nil => exact ⟨(Undoing.append_ofTries_nil u).symm, rfl⟩
  | cons layer rest ih =>
    have hlayer := ht layer (by simp)
    have hrest : ∀ layer ∈ rest, layer.IsTuning := fun other ho => ht other (by simp [ho])
    rw [restoreAll_step, List.map_cons]
    cases hdue : l.isDue layer.key with
    | false =>
      have hc : l.contains layer.key = false := (hs.isDue_eq layer.key).symm.trans hdue
      rw [restoreLayer_of_not_due hlayer hdue, hc, Ledger.tryDue_cons_of_not_due hdue]
      exact ih hrest u b l hs
    | true =>
      have hs' := hs.of_lacksAll (l.lacks_erase layer.key).all
      rw [restoreLayer_of_due hlayer hdue, Ledger.tryDue_cons_of_due hdue]
      obtain ⟨hu, hb⟩ := ih hrest
        (u.append (.ofTries [(layer.key, (Remedy.tryAll (l.remedies layer.key) b).1)]))
        (Remedy.tryAll (l.remedies layer.key) b).2 (l.erase layer.key) hs'
      refine ⟨hu.trans ?_, hb⟩
      rw [Undoing.append_assoc, ← Undoing.ofTries_cons]

theorem restoreAll_tries (layers : List Layer) (ht : ∀ layer ∈ layers, layer.IsTuning)
    (u : Undoing) (b : Bench) (l : Ledger) (hs : l.Sound) :
    let tries := l.tryEntries ((layers.map Layer.key).filter l.contains).eraseDups b
    (restoreAll u layers (b, l)).1 = u.append (.ofTries tries.1) ∧
      (restoreAll u layers (b, l)).2.1 = tries.2 := by
  rw [← show l.isDue = l.contains from funext hs.isDue_eq]
  exact restoreAll_tries_due layers ht u b l hs

/-- There is nothing to restore on an empty ledger. -/
theorem restore_empty {s : Stack} (ht : ∀ layer ∈ s, layer.IsTuning) (b : Bench) :
    s.restore (b, .empty) = (.none, b, .empty) := by
  obtain ⟨hu, hb⟩ := restoreAll_tries s.reverse (fun layer hm => ht layer (List.mem_reverse.1 hm))
    .none b .empty Ledger.sound_empty
  have horder : (s.reverse.map Layer.key).filter (Register.contains (.empty : Ledger)) = [] :=
    List.filter_eq_nil_iff.2 fun key _ => Bool.false_ne_true
  have hl : (s.restore (b, .empty)).2.2 = .empty :=
    Undoes.restore ⟨Ledger.sound_empty, fun key hc => by cases hc⟩ b
  rw [horder] at hu hb
  calc s.restore (b, .empty)
      = ((s.restore (b, .empty)).1, (s.restore (b, .empty)).2.1,
          (s.restore (b, .empty)).2.2) := rfl
    _ = (.none, b, .empty) := by rw [hl]; exact Prod.ext hu (Prod.ext hb rfl)

theorem nodup_restoreOrder (s : Stack) (l : Ledger) : (s.restoreOrder l).Nodup :=
  nodup_eraseDups _

theorem mem_restoreOrder {s : Stack} {l : Ledger} (h : s.Undoes l) (key : String) :
    key ∈ s.restoreOrder l ↔ l.contains key = true := by
  unfold restoreOrder
  rw [List.mem_eraseDups, List.mem_filter, List.mem_reverse, and_iff_right_iff_imp]
  intro hc
  obtain ⟨layer, hm, hu⟩ := List.any_eq_true.1 (h.undone key hc)
  exact List.mem_map.2 ⟨layer, hm, Layer.key_of_undoes hu⟩

theorem restoreAll_emits (layers : List Layer) (u : Undoing) (b : Bench) {l : Ledger}
    (hs : l.Sound) : ∃ events, (restoreAll u layers (b, l)).2.1 = b.after events ∧
      ∀ e ∈ events, ∃ key, ∃ r ∈ l.remedies key, r.Involves e := by
  induction layers generalizing u b l with
  | nil => exact ⟨[], rfl, by simp⟩
  | cons layer rest ih =>
    obtain ⟨older, ho, hpo⟩ := layer.restore_emits b hs
    obtain ⟨-, hl⟩ := layer.restore_restores hs b
    obtain ⟨newer, hn, hpn⟩ := ih (restoreLayer layer u (b, l)).1 (layer.restore (b, l)).2.1
      (hs.of_lacksAll hl)
    rw [restoreAll_cons]
    refine ⟨newer ++ older, ?_, fun e he => ?_⟩
    · rw [← Bench.after_after, ← ho]
      exact hn
    · rcases List.mem_append.mp he with he | he
      · obtain ⟨key, r, hr, hi⟩ := hpn e he
        rw [Ledger.remedies_of_get? (hl key)] at hr
        split at hr
        · cases hr
        · exact ⟨key, r, hr, hi⟩
      · exact ⟨layer.key, hpo e he⟩

/-- All that happens while a stack is restored takes back what the ledger holds. -/
theorem restore_emits (s : Stack) (b : Bench) {l : Ledger} (hs : l.Sound) :
    ∃ events, (s.restore (b, l)).2.1 = b.after events ∧
      ∀ e ∈ events, ∃ key, ∃ r ∈ l.remedies key, r.Involves e :=
  restoreAll_emits s.reverse .none b hs

/-- However a ledger came about that configuring and restoring a stack can lead to, restoring tries
every step that takes back a recorded change, whatever became of the others, and reports each key
with an entry once and no other, in the order of the restoring, a key with a fault among its steps
with the first of them. The ledger is empty then, so restoring once more does nothing. -/
theorem restore_accounts_for_entries {s : Stack} (ht : ∀ layer ∈ s, layer.IsTuning) {l : Ledger}
    (hl : s.Reaches l) (b : Bench) :
    ∃ tries b', l.tryEntries (s.restoreOrder l) b = (tries, b') ∧
      s.restore (b, l) = (.ofTries tries, b', .empty) ∧
      (∀ key, (Undoing.ofTries tries).keys.count key = if l.contains key then 1 else 0) ∧
      s.restore (b', .empty) = (.none, b', .empty) := by
  have hundoes := hl.undoes
  obtain ⟨hu, hb⟩ := restoreAll_tries s.reverse (fun layer hm => ht layer (List.mem_reverse.1 hm))
    .none b l hundoes.sound
  have horder : ((s.reverse.map Layer.key).filter l.contains).eraseDups = s.restoreOrder l := by
    unfold restoreOrder keys
    rw [List.map_reverse]
  rw [horder] at hu hb
  have hkeys := l.keys_tryEntries (s.restoreOrder l) b
  rcases htries : l.tryEntries (s.restoreOrder l) b with ⟨tries, b'⟩
  rw [htries] at hu hb hkeys
  refine ⟨tries, b', rfl, ?_, fun key => ?_, restore_empty ht b'⟩
  · exact Prod.ext hu (Prod.ext hb (hundoes.restore b))
  · have hcount := (Undoing.perm_keys_ofTries tries).count_eq key
    rw [hcount, show tries.map Prod.fst = _ from hkeys]
    split
    · rename_i hc
      exact List.count_eq_one_of_mem (nodup_restoreOrder s l) ((mem_restoreOrder hundoes key).2 hc)
    · rename_i hc
      exact List.count_eq_zero_of_not_mem fun hm => hc ((mem_restoreOrder hundoes key).1 hm)

/-- Two devices in memory with one size of a packet, of which only the first takes writes if
`stuck`. -/
def sampleBench (stuck : Bool) : Bench :=
  { Bench.quiet with
    memory := fun address =>
      { values := fun name =>
          if name = "mtu" then some (.number 1500)
          else if name = "rx_pause_frames" then some (.flag false)
          else none
        up := true
        readOnly := stuck && address == "eth1" } }

def sampleDevice (name : String) : Device := ⟨name, ⟨"", "lab"⟩, ⟨"", "lab"⟩, none, .memory name⟩

/-- The last layer is refused when the stack is configured, for it has the key of the first one. -/
def sampleStack : Stack :=
  [.mtu [sampleDevice "eth0", sampleDevice "eth1"] (some 9000),
    .pauseFrames [sampleDevice "eth0"] ⟨some true, none⟩, .mtu [] none]

def sampleLedger : Ledger := (sampleStack.configure (sampleBench false, .empty)).2.2

/-- The first device gets its size back although the second one, whose turn is earlier, does not. -/
theorem restore_accounts_for_stuck_device :
    (∀ layer ∈ sampleStack, layer.IsTuning) ∧ sampleStack.Reaches sampleLedger ∧
    sampleStack.restoreOrder sampleLedger = ["mtu", "pause_frames"] ∧
    ((sampleStack.restore (sampleBench true, sampleLedger)).2.1.memory "eth0").values "mtu" =
      some (.number 1500) ∧
    ∃ tries b', sampleLedger.tryEntries ["mtu", "pause_frames"] (sampleBench true) = (tries, b') ∧
      sampleStack.restore (sampleBench true, sampleLedger) = (.ofTries tries, b', .empty) ∧
      (Undoing.ofTries tries).restored = ["pause_frames"] ∧
      (Undoing.ofTries tries).failures.map Prod.fst = ["mtu"] := by
  have ht : ∀ layer ∈ sampleStack, layer.IsTuning := by
    intro layer hm
    simp only [sampleStack, List.mem_cons, List.not_mem_nil, or_false] at hm
    rcases hm with rfl | rfl | rfl <;> trivial
  have hl : sampleStack.Reaches sampleLedger := .configure (sampleBench false) .empty
  have horder : sampleStack.restoreOrder sampleLedger = ["mtu", "pause_frames"] := by decide
  obtain ⟨tries, b', hb, hr, -⟩ := restore_accounts_for_entries ht hl (sampleBench true)
  have hu : (sampleStack.restore (sampleBench true, sampleLedger)).1 = .ofTries tries := by rw [hr]
  refine ⟨ht, hl, horder, rfl, tries, b', horder ▸ hb, hr, ?_, ?_⟩
  · rw [← hu]
    rfl
  · rw [← hu]
    rfl

end Stack

end NicTuning
