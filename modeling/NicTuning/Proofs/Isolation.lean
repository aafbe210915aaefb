import Mathlib.Data.List.Pairwise
import NicTuning.Proofs.CoalescingRequests
import NicTuning.Proofs.Projection

/-!
# Devices that are tuned apart

Some parameters are given device by device. Main statement: what is done for a device, and what is
recorded about it, depends only on the parameters at its place, whatever the others are.
-/
namespace NicTuning

/-! ## Records -/

/-- The attribute that is changed, if it is one. -/
def Change.attribute? : Change → Option String
  | setting name _ => some name
  | _ => none

/-- The change is one of an attribute of a device, or of something else on it. -/
def Change.isAbout (d : Device) (attribute? : Option String) (c : Change) : Bool :=
  c.device? = some d ∧ c.attribute? = attribute?

/-- What a ledger has under a key about an attribute of a device, or about what is no attribute. The
attributes themselves stand in the order in which they were first changed on any device. -/
def Ledger.about (l : Ledger) (key : String) (d : Device) (attribute? : Option String) :
    List Change :=
  (l.changes key).filter (Change.isAbout d attribute?)

/-- Entering one more value for a key adds it to those that are picked, as long as only values for
one key are. -/
theorem filter_insertEntries {α : Type} (name : String) (x : α) {l : List (String × List α)}
    (hl : (l.map Prod.fst).Nodup) {picked : String} {p : String × α → Bool}
    (hp : ∀ e, p e = true → e.1 = picked) :
    ((Register.insertEntries name ((l.lookup name).getD [] ++ [x]) l).flatMap
        fun e => e.2.map (Prod.mk e.1)).filter p =
      (l.flatMap fun e => e.2.map (Prod.mk e.1)).filter p ++ [(name, x)].filter p := by
  induction l with
  | nil => simp [Register.insertEntries]
  | cons e rest ih =>
    obtain ⟨k, xs⟩ := e
    obtain ⟨hk, hrest⟩ := List.nodup_cons.1 hl
    by_cases h : name = k
    · subst h
      simp only [Register.insertEntries, if_true, List.lookup_cons_self, Option.getD_some,
        List.flatMap_cons, List.map_append, List.map_cons, List.map_nil, List.filter_append]
      by_cases hn : name = picked
      · -- What comes later is for other keys, so none of it is picked.
        have hlater : (rest.flatMap fun e => e.2.map (Prod.mk e.1)).filter p = [] := by
          rw [List.filter_eq_nil_iff]
          intro q hq hpicked
          obtain ⟨e, he, hq⟩ := List.mem_flatMap.1 hq
          obtain ⟨y, -, rfl⟩ := List.mem_map.1 hq
          have hkey : e.1 = name := (hp _ hpicked).trans hn.symm
          have hmem : e.1 ∈ rest.map Prod.fst := List.mem_map_of_mem he
          exact hk (hkey ▸ hmem)
        rw [hlater, List.append_nil, List.append_nil]
      · have hnone : [(name, x)].filter p = [] := by
          rw [List.filter_eq_nil_iff]
          intro q hq hpicked
          rw [List.mem_singleton.1 hq] at hpicked
          exact hn (hp _ hpicked)
        rw [hnone, List.append_nil, List.append_nil]
    · have hlookup : ((k, xs) :: rest).lookup name = rest.lookup name := by
        rw [Pairs.lookup_cons_eq_ite, if_neg h]
      rw [hlookup, Register.insertEntries, if_neg h, List.flatMap_cons, List.flatMap_cons,
        List.filter_append, List.filter_append, ih hrest, List.append_assoc]

theorem Entry.changes_settings (changes : SettingChanges) : (Entry.settings changes).changes =
    (changes.entries.flatMap fun e => e.2.map (Prod.mk e.1)).map
      fun e => Change.setting e.1 e.2 := by
  rw [List.map_flatMap]
  apply List.flatMap_congr
  intro e _
  rw [List.map_map]
  rfl

/-- A change is entered after those about the same attribute of its device. -/
theorem Change.filter_changes_enter_some {c : Change} {entry : Entry} (h : entry.Fits c.key)
    (d : Device) (attribute? : Option String) :
    (c.enter (some entry)).changes.filter (isAbout d attribute?) =
      entry.changes.filter (isAbout d attribute?) ++ [c].filter (isAbout d attribute?) := by
  cases suits_of_fits h with
  | @setting name change changes =>
    have hpicked : ∀ e : String × SettingChange,
        (Change.setting e.1 e.2).isAbout d attribute? = true → e.1 = attribute?.getD "" := by
      intro e he
      unfold isAbout at he
      rw [← (of_decide_eq_true he).2]
      rfl
    have hpush : (Change.setting name change).enter (some (.settings changes)) =
        .settings (changes.push name change) := rfl
    have hinsert := filter_insertEntries name change changes.nodup hpicked
    rw [hpush, Entry.changes_settings, Entry.changes_settings, List.filter_map, List.filter_map]
    refine (congrArg (List.map _) hinsert).trans ?_
    rw [List.map_append]
    congr 1
    by_cases hc : (Change.setting name change).isAbout d attribute? = true <;> simp [hc]
  | queues => simp [enter, Entry.changes, Entry.queues?, List.filter_append]
  | qdisc => simp [enter, Entry.changes, Entry.qdiscs?, List.filter_append]
  | stop => simp [enter, Entry.changes, Entry.interrupts?, InterruptChanges.note, isAbout, device?]
  | pin => simp [enter, Entry.changes, Entry.interrupts?, InterruptChanges.note]

namespace Ledger

theorem about_note {l : Ledger} (hl : l.Sound) (c : Change) (key : String) (d : Device)
    (attribute? : Option String) : (l.note c).about key d attribute? =
      l.about key d attribute? ++
        [c].filter fun c => c.key = key ∧ c.isAbout d attribute? := by
  unfold about changes
  rw [get?_note]
  by_cases hk : c.key = key
  · have hc : ([c].filter fun c => c.key = key ∧ c.isAbout d attribute?) =
        [c].filter (Change.isAbout d attribute?) := by
      by_cases ha : c.isAbout d attribute? = true <;> simp [hk, ha]
    rw [if_pos hk, hc]
    cases he : l.get? key with
    | none => rw [Option.elim_some, Change.changes_enter_none, Option.elim_none]; rfl
    | some entry => exact Change.filter_changes_enter_some (hk ▸ hl.fits key entry he) d attribute?
  · rw [if_neg hk]
    simp [hk]

/-- What is recorded about an attribute of a device are the changes of it, in their order. -/
theorem about_foldl_note (cs : List Change) (key : String) (d : Device)
    (attribute? : Option String) : Ledger.about (cs.foldl note .empty) key d attribute? =
      cs.filter fun c => c.key = key ∧ c.isAbout d attribute? := by
  induction cs using List.reverseRecOn with
  | nil => rfl
  | append_singleton cs c ih =>
    rw [List.foldl_append, List.filter_append, ← ih]
    exact about_note (sound_foldl_note cs sound_empty) c key d attribute?

end Ledger

/-! ## Parameters device by device -/

/-- Where no two things have the same key, those with the key at a place are the one at the place,
if there is one. -/
theorem filter_eq_getElem? {α β : Type} [DecidableEq β] {key : α → β} {keys : List β}
    (hk : keys.Nodup) {xs : List α} (hx : xs.map key <+: keys) {i : Nat} {k : β}
    (hi : keys[i]? = some k) : xs.filter (fun x => key x = k) = xs[i]?.toList := by
  induction xs generalizing keys i with
  | nil => simp
  | cons x rest ih =>
    cases keys with
    | nil => simp at hx
    | cons k' keys =>
      rw [List.map_cons, List.cons_prefix_cons] at hx
      obtain ⟨rfl, hrest⟩ := hx
      obtain ⟨hnot, hnodup⟩ := List.nodup_cons.1 hk
      cases i with
      | zero =>
        obtain rfl : key x = k := by simpa using hi
        have hnone : rest.filter (fun y => key y = key x) = [] := by
          rw [List.filter_eq_nil_iff]
          intro y hy hkey
          have hmem : key y ∈ keys := hrest.subset (List.mem_map_of_mem hy)
          exact hnot (of_decide_eq_true hkey ▸ hmem)
        rw [List.filter_cons_of_pos (by simp), hnone]
        rfl
      | succ i =>
        have hi' : keys[i]? = some k := by simpa using hi
        have hne : key x ≠ k := by
          rintro rfl
          exact hnot (List.mem_of_getElem? hi')
        rw [List.filter_cons_of_neg (by simpa using hne), ih hnodup hrest hi']
        rfl

theorem isPrefix_map_fst_zip {α β : Type} (xs : List α) (ys : List β) :
    (xs.zip ys).map Prod.fst <+: xs := by
  induction xs generalizing ys with
  | nil => simp
  | cons x rest ih =>
    cases ys with
    | nil => simp
    | cons y ys => simpa using ih ys

theorem getElem?_zip_of_left {α β : Type} {xs : List α} {i : Nat} {x : α} (hi : xs[i]? = some x)
    (ys : List β) : (xs.zip ys)[i]? = ys[i]?.map (Prod.mk x) := by
  rw [List.zip_eq_zipWith, List.getElem?_zipWith, hi]
  cases ys[i]? <;> rfl

/-- Of what is intended for some things, what is intended for a device is intended for the things
of that device. -/
theorem Intent.filter_map {α : Type} {intent : α → Intent} (device : α → Device)
    (h : ∀ x, (intent x).device = device x) (p : α → Bool) (xs : List α) (d : Device) :
    ((xs.filter p).map intent).filter (·.device = d) =
      ((xs.filter (device · = d)).filter p).map intent := by
  simp [List.filter_map, List.filter_filter, Function.comp_def, h, Bool.and_comm]

namespace Layer

variable {devices : List Device} {d : Device} {i : Nat}

namespace Interrupts

/-- The processors for the interrupts of the device at a place, none if nothing is given. -/
def processorsFor (p : Tuning.Interrupts) (i : Nat) : List Int64 :=
  ((p.processors.getD [])[i]?).getD []

/-- What is intended for the device at a place. -/
def intentsAt (p : Tuning.Interrupts) (d : Device) (i : Nat) : List Intent :=
  if (processorsFor p i).isEmpty then []
  else [targetIntent ⟨d, processorsFor p i, spreadingFor p i⟩]

theorem filter_intents (hd : devices.Nodup) (hi : devices[i]? = some d) (p : Tuning.Interrupts) :
    (intents devices p).filter (·.device = d) = intentsAt p d i := by
  have hkeys : ((devices.zip (p.processors.getD [])).zipIdx.map fun x => x.1.1) <+: devices := by
    have hfst := congrArg (List.map Prod.fst)
      (List.zipIdx_map_fst 0 (devices.zip (p.processors.getD [])))
    rw [List.map_map] at hfst
    exact hfst ▸ isPrefix_map_fst_zip devices _
  unfold intents targets
  rw [List.map_map, Intent.filter_map (fun x => x.1.1) fun _ => rfl,
    filter_eq_getElem? hd hkeys hi, List.getElem?_zipIdx, getElem?_zip_of_left hi]
  unfold intentsAt processorsFor
  cases (p.processors.getD [])[i]? with
  | none => rfl
  | some processors =>
    cases processors with
    | nil => rfl
    | cons processor rest => simp

end Interrupts

namespace Queues

/-- The numbers for the device at a place, none if nothing is given. -/
def countsFor (counts : Option (List (Dict UInt32))) (i : Nat) : Dict UInt32 :=
  ((counts.getD [])[i]?).getD .empty

/-- What is intended for the device at a place. -/
def intentsAt (counts : Option (List (Dict UInt32))) (d : Device) (i : Nat) : List Intent :=
  if (countsFor counts i).isEmpty then [] else [.queues d (countsFor counts i)]

theorem filter_intents (hd : devices.Nodup) (hi : devices[i]? = some d)
    (counts : Option (List (Dict UInt32))) :
    (intents devices counts).filter (·.device = d) = intentsAt counts d i := by
  unfold intents targets
  rw [Intent.filter_map Prod.fst fun _ => rfl,
    filter_eq_getElem? hd (isPrefix_map_fst_zip devices _) hi, getElem?_zip_of_left hi]
  unfold intentsAt countsFor
  cases (counts.getD [])[i]? with
  | none => rfl
  | some n => cases hn : n.isEmpty <;> simp [hn]

end Queues

/-- What is intended for an attribute of the device at a place is that it gets the value there. -/
theorem filter_settingIntents (hd : devices.Nodup) (hi : devices[i]? = some d) (name : String)
    {targets : List Target} (ht : targets.map Prod.fst = devices) :
    (settingIntents name targets).filter (·.device = d) =
      ((targets[i]?.bind Prod.snd).map (.setting name d)).toList := by
  have hkeys : targets.map Prod.fst <+: devices := by
    rw [ht]
  have hplace := filter_eq_getElem? hd hkeys hi
  have hsplit : (settingIntents name targets).filter (·.device = d) =
      settingIntents name (targets.filter fun target => target.1 = d) := by
    unfold settingIntents
    rw [List.filter_filterMap, List.filterMap_filter]
    apply List.filterMap_congr
    rintro ⟨e, - | value⟩ _
    · simp
    · by_cases he : e = d <;> simp [Option.filter, Intent.device, he]
  rw [hsplit, hplace]
  cases htarget : targets[i]? with
  | none => rfl
  | some target =>
    obtain ⟨e, value⟩ := target
    obtain rfl : e = d := by
      have hfst : (targets.map Prod.fst)[i]? = some e := by simp [htarget]
      rw [ht, hi] at hfst
      exact (Option.some.inj hfst).symm
    cases value <;> rfl

namespace Coalescing

/-- What is intended for the device at a place. -/
def intentsAt (c : Tuning.Coalescing) (d : Device) (i : Nat) : List Intent :=
  (asked c (settingsFor c i)).map fun p => .setting p.1 d p.2

theorem intents_of_not_clashes {c : Tuning.Coalescing} (hc : ¬Clashes devices c) :
    (coalescing devices c).intents =
      (requestsAt devices c).flatMap fun r => settingIntents r.1 r.2 := by
  have hintents : (coalescing devices c).intents = requestIntents (requests devices c) := rfl
  rw [hintents, requests_of_not_clashes hc, requestIntents]

theorem filter_intents (hd : devices.Nodup) (hi : devices[i]? = some d) {c : Tuning.Coalescing}
    (hc : ¬Clashes devices c) :
    (coalescing devices c).intents.filter (·.device = d) = intentsAt c d i := by
  obtain ⟨hlt, -⟩ := List.getElem?_eq_some_iff.1 hi
  calc (coalescing devices c).intents.filter (·.device = d)
      = (requestsAt devices c).flatMap
          fun r => (settingIntents r.1 r.2).filter (·.device = d) := by
        rw [intents_of_not_clashes hc, List.filter_flatMap]
    _ = (requestsAt devices c).flatMap
          fun r => ((r.2[i]?.bind Prod.snd).map (.setting r.1 d)).toList := by
        apply List.flatMap_congr
        intro r hr
        exact filter_settingIntents hd hi r.1 (map_fst_of_mem_requestsAt hr)
    _ = (askedAt (requestsAt devices c) i).map fun p => .setting p.1 d p.2 := by
        unfold askedAt
        rw [← List.filterMap_eq_flatMap_toList, List.map_filterMap]
        simp only [Option.map_map, Function.comp_def]
    _ = intentsAt c d i := by
        rw [askedAt_requestsAt devices c ⟨i, hlt⟩]
        rfl

end Coalescing

/-- Two layers of one kind, with parameters that are given device by device and are the same for the
device at a place. Whatever is given for the others may differ, also for how many. -/
inductive AgreeAt (devices : List Device) (i : Nat) : Layer → Layer → Prop
  | coalescing {c c' : Tuning.Coalescing} (rx : c'.adaptiveRx = c.adaptiveRx)
      (tx : c'.adaptiveTx = c.adaptiveTx)
      (settings : Coalescing.settingsFor c' i = Coalescing.settingsFor c i) :
      AgreeAt devices i (.coalescing devices c) (.coalescing devices c')
  | interrupts {p p' : Tuning.Interrupts}
      (processors : Interrupts.processorsFor p' i = Interrupts.processorsFor p i)
      (spreading : Interrupts.spreadingFor p' i = Interrupts.spreadingFor p i) :
      AgreeAt devices i (.interrupts devices p) (.interrupts devices p')
  | queues {n n' : Option (List (Dict UInt32))}
      (counts : Queues.countsFor n' i = Queues.countsFor n i) :
      AgreeAt devices i (.queues devices n) (.queues devices n')

namespace AgreeAt

variable {layer layer' : Layer} {s s' t t' : Bench × Ledger}

theorem symm (h : AgreeAt devices i layer layer') : AgreeAt devices i layer' layer := by
  cases h with
  | coalescing rx tx settings => exact .coalescing rx.symm tx.symm settings.symm
  | interrupts processors spreading => exact .interrupts processors.symm spreading.symm
  | queues counts => exact .queues counts.symm

/-- The same is intended for the device at the place. -/
theorem filter_intents (h : AgreeAt devices i layer layer') (hd : devices.Nodup)
    (hi : devices[i]? = some d) (hok : layer.configure s = (.ok (), t))
    (hok' : layer'.configure s' = (.ok (), t')) :
    layer'.intents.filter (·.device = d) = layer.intents.filter (·.device = d) := by
  cases h with
  | @coalescing c c' rx tx settings =>
    have hc := Coalescing.not_clashes_of_ok hok
    have hc' := Coalescing.not_clashes_of_ok hok'
    rw [Coalescing.filter_intents hd hi hc, Coalescing.filter_intents hd hi hc']
    unfold Coalescing.intentsAt Coalescing.asked Tuning.Coalescing.toggles
    rw [rx, tx, settings]
  | @interrupts p p' processors spreading =>
    change (Interrupts.intents devices p').filter _ = (Interrupts.intents devices p).filter _
    rw [Interrupts.filter_intents hd hi, Interrupts.filter_intents hd hi]
    unfold Interrupts.intentsAt
    rw [processors, spreading]
  | @queues n n' counts =>
    change (Queues.intents devices n').filter _ = (Queues.intents devices n).filter _
    rw [Queues.filter_intents hd hi, Queues.filter_intents hd hi]
    unfold Queues.intentsAt
    rw [counts]

/-- Nothing is intended for devices that are not given. -/
theorem device_mem (h : AgreeAt devices i layer layer') (hok : layer.configure s = (.ok (), t))
    {intent : Intent} (hintent : intent ∈ layer.intents) : intent.device ∈ devices := by
  cases h with
  | @coalescing c c' rx tx settings =>
    rw [Coalescing.intents_of_not_clashes (Coalescing.not_clashes_of_ok hok)] at hintent
    obtain ⟨r, hr, hintent⟩ := List.mem_flatMap.1 hintent
    obtain ⟨target, htarget, hvalue⟩ := List.mem_filterMap.1 hintent
    obtain ⟨value, -, rfl⟩ := Option.map_eq_some_iff.1 hvalue
    rw [← Coalescing.map_fst_of_mem_requestsAt hr]
    exact List.mem_map_of_mem htarget
  | @interrupts p p' processors spreading =>
    obtain ⟨target, htarget, rfl⟩ := List.mem_map.1 hintent
    obtain ⟨⟨⟨e, list⟩, place⟩, hlisted, rfl⟩ := List.mem_map.1 htarget
    have hzip := List.fst_mem_of_mem_zipIdx (List.mem_filter.1 hlisted).1
    exact (List.of_mem_zip hzip).1
  | @queues n n' counts =>
    obtain ⟨⟨e, numbers⟩, htarget, rfl⟩ := List.mem_map.1 hintent
    exact (List.of_mem_zip (List.mem_filter.1 htarget).1).1

end AgreeAt

end Layer

/-! ## Deeds for one device -/

namespace Deed

theorem isFor_iff (deed : Deed) (d : Device) :
    deed.isFor d = true ↔ ∃ i, deed.change.intent? = some i ∧ i.device = d := by
  unfold isFor
  rw [decide_eq_true_iff, Change.device?_eq, Option.map_eq_some_iff]

/-- What the deeds for a device carry out is what is intended for it. -/
theorem map_intent?_filter (deeds : List Deed) (d : Device) :
    (deeds.filter (isFor d)).map (·.change.intent?) =
      (((deeds.map Deed.change).filterMap Change.intent?).filter (·.device = d)).map some := by
  induction deeds with
  | nil => rfl
  | cons deed rest ih =>
    have hfor := deed.isFor_iff d
    cases hi : deed.change.intent? with
    | none =>
      have hnot : ¬deed.isFor d = true := by simp [hfor, hi]
      rw [List.filter_cons_of_neg hnot, List.map_cons, List.filterMap_cons_none hi, ih]
    | some intent =>
      rw [List.map_cons, List.filterMap_cons_some hi]
      by_cases hd : intent.device = d
      · have hyes : deed.isFor d = true := by simp [hfor, hi, hd]
        rw [List.filter_cons_of_pos hyes, List.filter_cons_of_pos (by simpa using hd),
          List.map_cons, List.map_cons, ih, hi]
      · have hnot : ¬deed.isFor d = true := by simp [hfor, hi, hd]
        rw [List.filter_cons_of_neg hnot, List.filter_cons_of_neg (by simpa using hd), ih]

/-- The deeds for a device hold all that is recorded about it. -/
theorem about_eq (deeds : List Deed) (key : String) (d : Device) (attribute? : Option String) :
    Ledger.about ((deeds.map Deed.change).foldl Ledger.note .empty) key d attribute? =
      ((deeds.filter (isFor d)).map Deed.change).filter
        fun c => c.key = key ∧ c.isAbout d attribute? := by
  rw [Ledger.about_foldl_note, List.filter_map, List.filter_map, List.filter_filter]
  congr 1
  apply List.filter_congr
  intro deed _
  by_cases hfor : deed.change.device? = some d
  · simp [isFor, hfor]
  · simp [isFor, hfor, Change.isAbout]

end Deed

namespace Layer

variable {devices : List Device} {d : Device} {i : Nat} {layer layer' : Layer} {b : Bench}
  {s s' : Bench × Ledger}

/-- The deeds of a layer are for the device or for others that are apart from it. -/
theorem AgreeAt.separate (h : AgreeAt devices i layer layer')
    (hd : devices.Pairwise Device.Apart) (hi : devices[i]? = some d)
    (hok : layer.configure (b, .empty) = (.ok (), s)) {deeds : List Deed}
    (hdeeds : (deeds.map Deed.change).filterMap Change.intent? = layer.intents) :
    ∀ deed ∈ deeds, deed.Separate d := by
  intro deed hm e he
  rw [Change.device?_eq] at he
  obtain ⟨intent, hintent, rfl⟩ := Option.map_eq_some_iff.1 he
  have hmem : intent ∈ layer.intents := by
    rw [← hdeeds]
    exact List.mem_filterMap.2 ⟨deed.change, List.mem_map_of_mem hm, hintent⟩
  by_cases heq : intent.device = d
  · exact .inl heq
  · have : Std.Symm Device.Apart := ⟨fun _ _ hapart => hapart.symm⟩
    exact .inr (hd.forall (List.mem_of_getElem? hi) (h.device_mem hok hmem) (Ne.symm heq))

/-- One run from the point of view of a device: the deeds for it are possible on their own, and
nobody else writes to it. -/
theorem deeds_for (hd : devices.Pairwise Device.Apart) (hi : devices[i]? = some d)
    (h : AgreeAt devices i layer layer') (hb : b.Steady)
    (hok : layer.configure (b, .empty) = (.ok (), s)) : ∃ counts deeds,
      (∀ e ∈ counts, ∃ address, e = .ran address "lscpu") ∧
      Carries Ledger.note (·.key = layer.key) layer.intents (b.after counts, .empty) s deeds ∧
      (∃ m, Unbroken b (deeds.filter (Deed.isFor d)) m) ∧
      ∀ address, d.control = .memory address → s.1.journal.filter (Event.isWriteAt address) =
        ((deeds.filter (Deed.isFor d)).reverse.flatMap Deed.events).filter
          (Event.isWriteAt address) ++ b.journal.filter (Event.isWriteAt address) := by
  obtain ⟨counts, deeds, hcounts, hdeeds⟩ := layer.configure_proceeds hok
  have hrun : ∀ e ∈ counts, e.IsRun := by
    intro e he
    obtain ⟨address, rfl⟩ := hcounts e he
    exact ⟨address, _, rfl⟩
  have hsame : (b.after counts).SameFor d b := (Bench.SameFor.of_isRun hb hrun).symm
  have hseparate : ∀ deed ∈ deeds, deed.Separate d := h.separate hd hi hok hdeeds.intended
  refine ⟨counts, deeds, hcounts, hdeeds, hdeeds.unbroken.only hsame hseparate, ?_⟩
  intro address hmemory
  have hnone : counts.filter (Event.isWriteAt address) = [] := by
    rw [List.filter_eq_nil_iff]
    intro e he
    rw [Event.isWriteAt_of_isRun (hrun e he)]
    exact Bool.false_ne_true
  have hjournal : (b.after counts).journal.filter (Event.isWriteAt address) =
      b.journal.filter (Event.isWriteAt address) := by
    change (counts ++ b.journal).filter _ = _
    rw [List.filter_append, hnone, List.nil_append]
  rw [hdeeds.unbroken.filter_isWriteAt hmemory hseparate, hjournal]

/-- Of two layers of one kind that succeed on the same bench with the same parameters for a device,
whatever is given for the others, both do the same for the device, event by event and in the same
order, as long as no two devices are the same one. All else that happened was done for the others or
is the counting of processors. The ledgers hold the same about the device, attribute by attribute,
and if it is in memory it is written in the same way. -/
theorem configure_isolated (hd : devices.Pairwise Device.Apart) (hi : devices[i]? = some d)
    (h : AgreeAt devices i layer layer') (hb : b.Steady)
    (hok : layer.configure (b, .empty) = (.ok (), s))
    (hok' : layer'.configure (b, .empty) = (.ok (), s')) :
    ∃ counts counts' deeds deeds',
      (∀ e ∈ counts ++ counts', ∃ address, e = .ran address "lscpu") ∧
      Carries Ledger.note (·.key = layer.key) layer.intents (b.after counts, .empty) s deeds ∧
      Carries Ledger.note (·.key = layer'.key) layer'.intents (b.after counts', .empty) s' deeds' ∧
      deeds'.filter (Deed.isFor d) = deeds.filter (Deed.isFor d) ∧
      (∀ key attribute?, s'.2.about key d attribute? = s.2.about key d attribute?) ∧
      ∀ address, d.control = .memory address →
        s'.1.journal.filter (Event.isWriteAt address) =
          s.1.journal.filter (Event.isWriteAt address) := by
  obtain ⟨counts, deeds, hcounts, hdeeds, ⟨m, hm⟩, hwrites⟩ := deeds_for hd hi h hb hok
  obtain ⟨counts', deeds', hcounts', hdeeds', ⟨m', hm'⟩, hwrites'⟩ :=
    deeds_for hd hi h.symm hb hok'
  have hnodup : devices.Nodup := hd.imp fun hapart => hapart.ne
  have hintents : (deeds'.filter (Deed.isFor d)).map (·.change.intent?) =
      (deeds.filter (Deed.isFor d)).map (·.change.intent?) := by
    rw [Deed.map_intent?_filter, Deed.map_intent?_filter, hdeeds.intended, hdeeds'.intended,
      h.filter_intents hnodup hi hok hok']
  have hsome : ∀ deed ∈ deeds.filter (Deed.isFor d), deed.change.intent?.isSome = true := by
    intro deed hmem
    obtain ⟨intent, hintent, -⟩ := (deed.isFor_iff d).1 (List.mem_filter.1 hmem).2
    rw [hintent]
    rfl
  have hsame : deeds'.filter (Deed.isFor d) = deeds.filter (Deed.isFor d) :=
    hm.unique hm' hintents hsome
  refine ⟨counts, counts', deeds, deeds', ?_, hdeeds, hdeeds', hsame, ?_, ?_⟩
  · intro e he
    rcases List.mem_append.1 he with he | he
    · exact hcounts e he
    · exact hcounts' e he
  · intro key attribute?
    rw [hdeeds.noted, hdeeds'.noted, Deed.about_eq, Deed.about_eq, hsame]
  · intro address hmemory
    rw [hwrites' address hmemory, hwrites address hmemory, hsame]

/-- Two devices in memory. -/
def isolatedDevice (name : String) : Device := ⟨name, ⟨"", "lab"⟩, ⟨"", "lab"⟩, none, .memory name⟩

def isolatedDevices : List Device := [isolatedDevice "eth0", isolatedDevice "eth1"]

def isolatedBench : Bench where
  answer := Bench.quiet.answer
  memory _ := ⟨fun _ => some (.number 0), true, false⟩
  journal := []

/-- Settings for two devices. -/
def fewSettings : Tuning.Coalescing where
  settings := some (.each [some (.ofList [("rx-usecs", .number 64)]),
    some (.ofList [("tx-usecs", .number 3), ("adaptive-rx", .word "off")])])

/-- Other settings for the first device, among them ones that go before and after those of the
second, and settings for a third device, which is not there. -/
def manySettings : Tuning.Coalescing where
  settings := some (.each [some (.ofList [("adaptive-tx", .word "on"), ("rx-frames", .number 8),
      ("tx-usecs", .number 5), ("tx-usecs-irq", .number 7)]),
    some (.ofList [("tx-usecs", .number 3), ("adaptive-rx", .word "off")]),
    some (.ofList [("rx-usecs", .number 1)])])

theorem configure_isolated_from_more_settings :
    isolatedDevices.Pairwise Device.Apart ∧ isolatedDevices[1]? = some (isolatedDevice "eth1") ∧
    AgreeAt isolatedDevices 1 (.coalescing isolatedDevices fewSettings)
      (.coalescing isolatedDevices manySettings) ∧
    isolatedBench.Steady ∧
    ∃ s s', (coalescing isolatedDevices fewSettings).configure (isolatedBench, .empty) =
        (.ok (), s) ∧
      (coalescing isolatedDevices manySettings).configure (isolatedBench, .empty) = (.ok (), s') ∧
      s'.2.about "coalescing" (isolatedDevice "eth1") (some "coalescing_tx_usecs") =
        [.setting "coalescing_tx_usecs" ⟨isolatedDevice "eth1", .number 0, .number 3⟩] ∧
      s'.1.journal.filter (Event.isWriteAt "eth1") =
        [.wrote "eth1" "coalescing_tx_usecs" (.number 3) true,
          .wrote "eth1" "adaptive_rx_coalescing" (.flag false) true] := by
  have hd : isolatedDevices.Pairwise Device.Apart := by
    refine .cons ?_ (List.pairwise_singleton _ _)
    intro e he
    rw [List.mem_singleton.1 he]
    refine ⟨by decide, ?_⟩
    intro address h h'
    exact absurd (Control.memory.inj (h.trans h'.symm)) (by decide)
  have hi : isolatedDevices[1]? = some (isolatedDevice "eth1") := rfl
  have hagree : AgreeAt isolatedDevices 1 (.coalescing isolatedDevices fewSettings)
      (.coalescing isolatedDevices manySettings) := .coalescing rfl rfl rfl
  have hb : isolatedBench.Steady := fun _ _ _ _ => rfl
  refine ⟨hd, hi, hagree, hb, _, _, rfl, rfl, ?_⟩
  obtain ⟨-, -, -, -, -, -, -, -, habout, hwrites⟩ := configure_isolated hd hi hagree hb rfl rfl
  constructor
  · rw [habout]
    rfl
  · rw [hwrites "eth1" rfl]
    rfl

end Layer

end NicTuning
