import Mathlib.Data.List.Flatten
import Mathlib.Data.List.Perm.Subperm
import NicTuning.Proofs.Planning
import NicTuning.Proofs.Undoing

/-!
# Describing

Main statement: after a stack was configured, with whatever result, its description has a line for
every recorded change of every layer, in the order of the ledger, and no other line, exactly if no
two features whose attribute was changed share that attribute. The layer for features looks changes
up by the attribute of each feature, so it describes the changes of a shared one once for each.
-/
namespace NicTuning

/-! ## Names in the order of their first changes -/

namespace Intent

/-- The attribute that is to be changed. -/
def name? : Intent → Option String
  | setting name _ _ => some name
  | _ => none

end Intent

theorem Layer.name?_of_mem_settingIntents {name : String} {targets : List Target} :
    ∀ n ∈ (settingIntents name targets).filterMap Intent.name?, n = name := by
  intro n hn
  obtain ⟨i, hi, he⟩ := List.mem_filterMap.1 hn
  obtain ⟨target, -, ht⟩ := List.mem_filterMap.1 hi
  obtain ⟨value, -, rfl⟩ := Option.map_eq_some_iff.1 ht
  exact (Option.some.inj he).symm

/-- If names come in the order of some items, each perhaps several times, each of them once comes in
that order too. -/
theorem eraseDups_sublist {α : Type} {name : α → String} {occurrences : α → List String}
    {items : List α} {ns : List String} (ho : ∀ x ∈ items, ∀ n ∈ occurrences x, n = name x)
    (h : ns.Sublist (items.flatMap occurrences)) : ns.eraseDups.Sublist (items.map name) := by
  induction items generalizing ns with
  | nil =>
    rw [List.eq_nil_of_sublist_nil h]
    exact .slnil
  | cons x rest ih =>
    have hrest : ∀ y ∈ rest, ∀ n ∈ occurrences y, n = name y := fun y hy => ho y (by simp [hy])
    rw [List.flatMap_cons, List.sublist_append_iff] at h
    obtain ⟨first, later, rfl, hfirst, hlater⟩ := h
    have hname : ∀ n ∈ first, n = name x := fun n hn => ho x (by simp) n (hfirst.subset hn)
    cases first with
    | nil => exact (ih hrest hlater).trans (List.sublist_cons_self _ _)
    | cons n first =>
      obtain rfl : n = name x := hname n (by simp)
      have hnone : first.filter (fun m => !m == name x) = [] :=
        List.filter_eq_nil_iff.2 fun m hm => by simp [hname m (by simp [hm])]
      rw [List.cons_append, List.eraseDups_cons, List.filter_append, hnone, List.nil_append]
      -- Without this name the later ones are still in the order of the other items.
      exact (ih hrest (List.filter_sublist.trans hlater)).cons_cons _

/-! ## Lines for names -/

section Lines

variable {lines : String → List String} {known names : List String}

/-- Names without lines make no difference. -/
theorem flatMap_filter_known (hout : ∀ name ∉ known, lines name = []) (names : List String) :
    (names.filter known.contains).flatMap lines = names.flatMap lines := by
  induction names with
  | nil => rfl
  | cons name rest ih =>
    rw [List.filter_cons, List.flatMap_cons]
    by_cases hn : name ∈ known
    · rw [if_pos (by simpa using hn), List.flatMap_cons, ih]
    · rw [if_neg (by simpa using hn), ih, hout name hn, List.nil_append]

theorem eq_of_flatMap_eq {some all : List String} (h : some.Sublist all)
    (hne : ∀ name ∈ all, lines name ≠ []) (he : some.flatMap lines = all.flatMap lines) :
    some = all := by
  induction h with
  | slnil => rfl
  | @cons some all name h ih =>
    have hlength := congrArg List.length he
    have hle := (h.flatMap lines).length_le
    have hpos := List.length_pos_iff.2 (hne name (by simp))
    rw [List.flatMap_cons, List.length_append] at hlength
    omega
  | @cons_cons some all name h ih =>
    rw [List.flatMap_cons, List.flatMap_cons] at he
    rw [ih (fun name hn => hne name (by simp [hn])) (List.append_cancel_left he)]

/-- Some names have the lines of all exactly if none of those that have any comes twice. -/
theorem flatMap_eq_iff (hnd : known.Nodup) (hsub : known.Sublist names)
    (hout : ∀ name ∉ known, lines name = []) (hin : ∀ name ∈ known, lines name ≠ []) :
    names.flatMap lines = known.flatMap lines ↔ (names.filter known.contains).Nodup := by
  have hfilter : known.filter known.contains = known :=
    List.filter_eq_self.2 fun name hn => by simpa using hn
  have hknown : known.Sublist (names.filter known.contains) := by
    have := hsub.filter known.contains
    rwa [hfilter] at this
  have hmem : names.filter known.contains ⊆ known := fun name hn => by
    simpa using (List.mem_filter.1 hn).2
  rw [← flatMap_filter_known hout names]
  constructor
  · intro he
    rw [← eq_of_flatMap_eq hknown (fun name hn => hin name (hmem hn)) he.symm]
    exact hnd
  · intro hn
    have heq := hknown.eq_of_length_le (hn.subperm hmem).length_le
    exact congrArg (List.flatMap lines) heq.symm

end Lines

namespace SettingChanges

/-- Changes of attributes after some more. -/
def pushAll (changes : SettingChanges) (pairs : List (String × SettingChange)) : SettingChanges :=
  pairs.foldl (fun changes p => changes.push p.1 p.2) changes

/-- The names are in the order of their first changes. -/
theorem keys_pushAll (changes : SettingChanges) (pairs : List (String × SettingChange)) :
    (changes.pushAll pairs).keys =
      changes.keys ++ ((pairs.map Prod.fst).filter (!changes.keys.contains ·)).eraseDups := by
  induction pairs generalizing changes with
  | nil => simp [pushAll]
  | cons p rest ih =>
    have hpush : (changes.push p.1 p.2).keys =
        if p.1 ∈ changes.keys then changes.keys else changes.keys ++ [p.1] :=
      Register.keys_insert _ _ _
    rw [show changes.pushAll (p :: rest) = (changes.push p.1 p.2).pushAll rest from rfl, ih, hpush,
      List.map_cons]
    by_cases hp : p.1 ∈ changes.keys
    · rw [if_pos hp, List.filter_cons_of_neg (by simpa using hp)]
    · rw [if_neg hp, List.filter_cons_of_pos (by simpa using hp), List.eraseDups_cons,
        List.filter_filter, List.append_assoc, List.singleton_append]
      congr 4
      funext n
      by_cases hn : n = p.1 <;> simp [hn]

/-- The changes of an attribute are in their order. -/
theorem get?_pushAll (changes : SettingChanges) (pairs : List (String × SettingChange))
    (name : String) : ((changes.pushAll pairs).get? name).getD [] =
      (changes.get? name).getD [] ++
        pairs.filterMap fun p => if p.1 = name then some p.2 else none := by
  induction pairs generalizing changes with
  | nil => simp [pushAll]
  | cons p rest ih =>
    rw [show changes.pushAll (p :: rest) = (changes.push p.1 p.2).pushAll rest from rfl, ih,
      Ledger.get?_push, List.filterMap_cons]
    by_cases hp : p.1 = name
    · simp [hp]
    · simp [hp, Ne.symm hp]

end SettingChanges

namespace Change

/-- An attribute and how it was changed. -/
def pair? : Change → Option (String × SettingChange)
  | setting name c => some (name, c)
  | _ => none

theorem name?_intent? (c : Change) : c.intent?.bind Intent.name? = c.pair?.map Prod.fst := by
  cases c <;> rfl

theorem pair?_isSome {c : Change}
    (h : c.key ∉ [Layer.Queues.key, Layer.Qdisc.key, Layer.Interrupts.key]) :
    c.pair?.isSome = true := by
  cases c with
  | setting name change => rfl
  | _ => exact absurd h (by simp [key])

theorem enterAll_settings {cs : List Change} (h : ∀ c ∈ cs, c.pair?.isSome = true)
    (changes : SettingChanges) : enterAll (some (.settings changes)) cs =
      some (.settings (changes.pushAll (cs.filterMap pair?))) := by
  induction cs generalizing changes with
  | nil => rfl
  | cons c cs ih =>
    have hc := h c (by simp)
    cases c with
    | setting name change => exact ih (fun c hm => h c (by simp [hm])) (changes.push name change)
    | _ => cases hc

theorem enterAll_none_settings {cs : List Change} (h : ∀ c ∈ cs, c.pair?.isSome = true)
    (hne : cs ≠ []) : enterAll none cs =
      some (.settings (SettingChanges.pushAll .empty (cs.filterMap pair?))) := by
  cases cs with
  | nil => exact absurd rfl hne
  | cons c cs =>
    have hc := h c (by simp)
    cases c with
    | setting name change => exact enterAll_settings (fun c hm => h c (by simp [hm])) _
    | _ => cases hc

end Change

namespace Ledger

/-- The changed attributes of a layer. -/
def settingsOf (l : Ledger) (key : String) : SettingChanges := (l.settings? key).getD .empty

theorem settingsOf_eq (l : Ledger) (key : String) :
    l.settingsOf key = ((l.get? key).bind Entry.settings?).getD .empty := by
  unfold settingsOf
  rw [settings?_eq]

end Ledger

namespace Layer

/-- The ledger holds under the key of a layer what is left by changes of the layer, which carry out
its intents up to some point. -/
def Recorded (layer : Layer) (l : Ledger) : Prop :=
  ∃ cs, l.get? layer.key = Change.enterAll none cs ∧ (∀ c ∈ cs, c.key = layer.key) ∧
    cs.filterMap Change.intent? <+: layer.intents

namespace Recorded

variable {layer : Layer} {l : Ledger}

/-- An entry that is there holds some change. -/
theorem changes_ne_nil (h : layer.Recorded l) {entry : Entry}
    (he : l.get? layer.key = some entry) : entry.changes ≠ [] := by
  obtain ⟨cs, hcs, hk, -⟩ := h
  rw [he] at hcs
  have hp := Change.changes_enterAll hk
  rw [← hcs, Option.elim_some] at hp
  intro hnil
  rw [hnil] at hp
  rw [← hp.nil_eq] at hcs
  cases hcs

/-- A layer that changes attributes has them in the ledger in the order in which it intended to
change them. -/
theorem settingsOf_eq (h : layer.Recorded l)
    {requests : Except Fault (List (String × List NicTuning.Target))}
    (hq : layer.requests? = some requests) :
    ∃ pairs, l.settingsOf layer.key = SettingChanges.pushAll .empty pairs ∧
      (pairs.map Prod.fst).Sublist (layer.intents.filterMap Intent.name?) := by
  obtain ⟨cs, hcs, hk, hprefix⟩ := h
  have hpair : ∀ c ∈ cs, c.pair?.isSome = true := fun c hc =>
    Change.pair?_isSome (hk c hc ▸ key_not_mem_of_requests? hq)
  refine ⟨cs.filterMap Change.pair?, ?_, ?_⟩
  · rw [Ledger.settingsOf_eq, hcs]
    by_cases hne : cs = []
    · rw [hne]
      rfl
    · rw [Change.enterAll_none_settings hpair hne]
      rfl
  · have hs := hprefix.sublist.filterMap Intent.name?
    rw [List.filterMap_filterMap] at hs
    rw [List.map_filterMap]
    simpa only [Change.name?_intent?] using hs

end Recorded

end Layer

/-! ## Descriptions -/

/-- A change in words. -/
def Change.line : Change → String
  | setting name c => Layer.describeChange name c
  | queues c => Layer.Queues.describeChange c
  | qdisc c => c.device.id ++ " root qdisc replaced with mq"
  | stop h => Layer.Interrupts.describeStop h
  | pin d => Layer.Interrupts.describePinned d

namespace Layer

/-- The names of the attributes by which a layer looks its changes up, if it does. -/
def names? : Layer → Option (List String)
  | offload _ settings => some ((Offload.requests settings).map Prod.fst)
  | mtu .. => some [Mtu.name]
  | pauseFrames _ p => some ((PauseFrames.requests p).map Prod.fst)
  | flowHash _ f => some ((FlowHash.request? f).toList.map Prod.fst)
  | hashFunction .. => some [HashFunction.name]
  | coalescing .. | interrupts .. | qdisc .. | queues .. | inert _ => none

theorem requests?_of_names? {layer : Layer} {names : List String}
    (h : layer.names? = some names) :
    ∃ rs, layer.requests? = some (.ok rs) ∧ rs.map Prod.fst = names := by
  cases layer with
  | offload devices settings =>
    cases h
    exact ⟨_, rfl, by rw [List.map_map]; rfl⟩
  | pauseFrames devices p =>
    cases h
    exact ⟨_, rfl, by rw [List.map_map]; rfl⟩
  | flowHash devices f =>
    cases h
    exact ⟨_, rfl, by rw [List.map_map]; rfl⟩
  | mtu devices size =>
    cases h
    exact ⟨_, rfl, rfl⟩
  | hashFunction devices function =>
    cases h
    exact ⟨_, rfl, rfl⟩
  | _ => cases h

/-- The line of a layer that recorded nothing. -/
def skipped : Layer → String
  | offload .. => "Offload configuration skipped."
  | mtu .. => "MTU configuration skipped."
  | coalescing .. => "Coalescing configuration skipped."
  | interrupts .. => "Device irq configuration skipped."
  | qdisc .. => "Parallel stream qdisc configuration skipped."
  | pauseFrames .. => "Pause frames configuration skipped."
  | queues .. => "device queues configuration skipped"
  | flowHash .. => "NFC RX flow hash configuration skipped."
  | hashFunction .. => "RX hash function configuration skipped."
  | inert _ => ""

/-- The lines of a layer about changes: those of the attributes that it looks up, or those of all
its changes. -/
def listed (layer : Layer) (l : Ledger) : List String :=
  match layer.names? with
  | some names => names.flatMap fun name => describeSetting layer.key name l
  | none => (l.changes layer.key).map Change.line

variable {layer : Layer} {l : Ledger}

theorem describeSetting_eq (key name : String) (l : Ledger) : describeSetting key name l =
    (((l.settingsOf key).get? name).getD []).map (describeChange name) := by
  unfold describeSetting Ledger.settingsOf
  cases l.settings? key <;> rfl

/-- The lines about the changes of a layer that changes attributes come attribute by attribute. -/
theorem changes_lines (layer : Layer) (hs : l.Sound)
    {requests : Except Fault (List (String × List NicTuning.Target))}
    (hq : layer.requests? = some requests) : (l.changes layer.key).map Change.line =
      (l.settingsOf layer.key).keys.flatMap fun name => describeSetting layer.key name l := by
  have hkey := key_not_mem_of_requests? hq
  have hlookup : ∀ name, describeSetting layer.key name l =
      (((l.settingsOf layer.key).get? name).getD []).map (describeChange name) :=
    fun name => describeSetting_eq layer.key name l
  simp only [hlookup]
  rw [Ledger.settingsOf_eq]
  unfold Ledger.changes
  cases he : l.get? layer.key with
  | none => rfl
  | some entry =>
    have hfits := hs.fits _ _ he
    cases entry with
    | settings changes =>
      change (changes.entries.flatMap fun e => e.2.map (Change.setting e.1)).map Change.line =
        changes.keys.flatMap fun name => ((changes.get? name).getD []).map (describeChange name)
      unfold Register.keys
      rw [List.map_flatMap, List.flatMap_map]
      refine List.flatMap_congr fun e hm => ?_
      rw [Register.get?_of_mem hm, List.map_map]
      rfl
    | queues changes => exact absurd hfits fun h : layer.key = Queues.key => hkey (by simp [h])
    | qdiscs changes => exact absurd hfits fun h : layer.key = Qdisc.key => hkey (by simp [h])
    | interrupts changes =>
      exact absurd hfits fun h : layer.key = Interrupts.key => hkey (by simp [h])

theorem Queues.changes_eq (hs : l.Sound) :
    l.changes key = ((l.queues? key).getD []).map Change.queues := by
  unfold Ledger.changes
  cases h : l.queues? key with
  | none =>
    rw [get?_eq_none hs h]
    rfl
  | some changes =>
    rw [Ledger.get?_of_queues? h]
    rfl

theorem Qdisc.changes_eq (hs : l.Sound) :
    l.changes key = ((l.qdiscs? key).getD []).map Change.qdisc := by
  unfold Ledger.changes
  cases h : l.qdiscs? key with
  | none =>
    rw [get?_eq_none hs h]
    rfl
  | some changes =>
    rw [Ledger.get?_of_qdiscs? h]
    rfl

theorem Interrupts.changes_eq (hs : l.Sound) : l.changes key =
    ((l.interrupts? key).getD .none).stopped.map Change.stop ++
      ((l.interrupts? key).getD .none).pinned.map Change.pin := by
  unfold Ledger.changes
  cases h : l.interrupts? key with
  | none =>
    rw [get?_eq_none hs h]
    rfl
  | some changes =>
    rw [Ledger.get?_of_interrupts? h]
    rfl

theorem Coalescing.describeSettings_eq (l : Ledger) : describeSettings key l =
    (l.settingsOf key).keys.flatMap fun name => describeSetting key name l := by
  unfold describeSettings Ledger.settingsOf
  cases l.settings? key <;> rfl

/-- A layer describes what it lists, and says so if that is nothing. -/
theorem describe_eq (ht : layer.IsTuning) (hs : l.Sound) :
    layer.describe l = orSkipped layer.skipped (layer.listed l) := by
  cases layer with
  | offload devices settings =>
    refine congrArg (orSkipped _) (Eq.symm ?_)
    exact List.flatMap_map _ _ _
  | pauseFrames devices p =>
    refine congrArg (orSkipped _) (Eq.symm ?_)
    exact List.flatMap_map _ _ _
  | mtu devices size => exact congrArg (orSkipped _) (List.append_nil _).symm
  | hashFunction devices function => exact congrArg (orSkipped _) (List.append_nil _).symm
  | flowHash devices f =>
    refine congrArg (orSkipped _) (Eq.symm ?_)
    change ((FlowHash.request? f).toList.map Prod.fst).flatMap _ = _
    cases FlowHash.request? f with
    | none => rfl
    | some r => exact List.append_nil _
  | coalescing devices c =>
    refine congrArg (orSkipped _) ((Coalescing.describeSettings_eq l).trans (Eq.symm ?_))
    exact changes_lines (.coalescing devices c) hs rfl
  | interrupts devices i =>
    refine congrArg (orSkipped _) (Eq.symm ?_)
    change (l.changes Interrupts.key).map Change.line = _
    rw [Interrupts.changes_eq hs, List.map_append, List.map_map, List.map_map]
    rfl
  | qdisc devices streams =>
    refine congrArg (orSkipped _) (Eq.symm ?_)
    change (l.changes Qdisc.key).map Change.line = _
    rw [Qdisc.changes_eq hs, List.map_map]
    rfl
  | queues devices counts =>
    refine congrArg (orSkipped _) (Eq.symm ?_)
    change (l.changes Queues.key).map Change.line = _
    rw [Queues.changes_eq hs, List.map_map]
    rfl
  | inert key => exact ht.elim

/-! ### What is described of a layer -/

/-- What is to be said of a layer: that it recorded nothing, or a line for each change that it
recorded, in the order of its entry. -/
def account (layer : Layer) (l : Ledger) : List String :=
  match l.get? layer.key with
  | none => [layer.skipped]
  | some entry => entry.changes.map Change.line

theorem account_eq (h : layer.Recorded l) :
    layer.account l = orSkipped layer.skipped ((l.changes layer.key).map Change.line) := by
  unfold account Ledger.changes
  cases he : l.get? layer.key with
  | none => rfl
  | some entry =>
    have hne : entry.changes ≠ [] := h.changes_ne_nil he
    unfold orSkipped
    rw [if_neg]
    · rfl
    · simpa using hne

/-- The changed attributes of a layer are among those that it looks up, in their order. -/
theorem Recorded.keys_sublist (h : layer.Recorded l) {names : List String}
    (hn : layer.names? = some names) : (l.settingsOf layer.key).keys.Sublist names := by
  obtain ⟨rs, hq, rfl⟩ := requests?_of_names? hn
  obtain ⟨pairs, hp, hs⟩ := h.settingsOf_eq hq
  have hkeys : (l.settingsOf layer.key).keys = (pairs.map Prod.fst).eraseDups := by
    rw [hp, SettingChanges.keys_pushAll]
    simp [Register.keys, Register.empty]
  rw [intents_of_requests? hq, requestIntents, List.filterMap_flatMap] at hs
  rw [hkeys]
  exact eraseDups_sublist (fun r _ => name?_of_mem_settingIntents) hs

/-- There are lines for an attribute exactly if it was changed. -/
theorem Recorded.describeSetting_eq_nil_iff (h : layer.Recorded l) {names : List String}
    (hn : layer.names? = some names) (name : String) :
    describeSetting layer.key name l = [] ↔ name ∉ (l.settingsOf layer.key).keys := by
  obtain ⟨rs, hq, -⟩ := requests?_of_names? hn
  obtain ⟨pairs, hp, -⟩ := h.settingsOf_eq hq
  have hkeys : name ∈ (l.settingsOf layer.key).keys ↔ ∃ p ∈ pairs, p.1 = name := by
    rw [hp, SettingChanges.keys_pushAll]
    simp [Register.keys, Register.empty]
  have hlines : ((l.settingsOf layer.key).get? name).getD [] =
      pairs.filterMap fun p => if p.1 = name then some p.2 else none := by
    rw [hp, SettingChanges.get?_pushAll]
    rfl
  rw [describeSetting_eq, List.map_eq_nil_iff, hlines, List.filterMap_eq_nil_iff, hkeys]
  simp only [ite_eq_right_iff, reduceCtorEq, imp_false, not_exists, not_and]

theorem orSkipped_sublist {some all : List String} (skipped : String) (h : some.Sublist all)
    (hnil : some = [] → all = []) : (orSkipped skipped some).Sublist (orSkipped skipped all) := by
  cases some with
  | nil => rw [hnil rfl]
  | cons line rest =>
    cases all with
    | nil => cases h
    | cons => exact h

theorem orSkipped_inj {some all : List String} (skipped : String) (hnil : some = [] ↔ all = []) :
    orSkipped skipped all = orSkipped skipped some ↔ all = some := by
  cases some with
  | nil =>
    rw [hnil.1 rfl]
    exact ⟨fun _ => rfl, fun _ => rfl⟩
  | cons line rest =>
    cases all with
    | nil => exact absurd (hnil.2 rfl) (by simp)
    | cons => rfl

/-- A layer describes each change at least once, and nothing else exactly if no attribute that it
looks up twice was changed. -/
theorem describe_account (ht : layer.IsTuning) (hs : l.Sound) (h : layer.Recorded l) :
    (layer.account l).Sublist (layer.describe l) ∧
      (layer.describe l = layer.account l ↔ ∀ names, layer.names? = some names →
        (names.filter (l.settingsOf layer.key).keys.contains).Nodup) := by
  rw [describe_eq ht hs, account_eq h]
  unfold listed
  cases hn : layer.names? with
  | none => simp
  | some names =>
    obtain ⟨rs, hq, -⟩ := requests?_of_names? hn
    have hnil := h.describeSetting_eq_nil_iff hn
    have hsub := h.keys_sublist hn
    have hnd : (l.settingsOf layer.key).keys.Nodup := (l.settingsOf layer.key).nodup
    have hiff := flatMap_eq_iff hnd hsub
      (fun name hm => (hnil name).2 hm) (fun name hm he => (hnil name).1 he hm)
    have hlines := hsub.flatMap fun name => describeSetting layer.key name l
    have hempty : (l.settingsOf layer.key).keys.flatMap
        (fun name => describeSetting layer.key name l) = [] ↔
          names.flatMap (fun name => describeSetting layer.key name l) = [] := by
      refine ⟨fun he => ?_, fun he => List.eq_nil_of_sublist_nil (he ▸ hlines)⟩
      refine List.flatMap_eq_nil_iff.2 fun name _ => (hnil name).2 fun hm => ?_
      exact (hnil name).1 (List.flatMap_eq_nil_iff.1 he name hm) hm
    dsimp only
    rw [changes_lines layer hs hq, orSkipped_inj _ hempty, hiff]
    exact ⟨orSkipped_sublist _ hlines hempty.1, by simp⟩

/-- The attributes of features that were changed, by the features of a tuning. -/
def Offload.changedNames (settings : Option Tuning.Settings) (l : Ledger) : List String :=
  ((requests settings).map Prod.fst).filter (l.settingsOf key).keys.contains

/-- Only the layer for features can look an attribute up twice. -/
theorem nodup_names_iff : (∀ names, layer.names? = some names →
      (names.filter (l.settingsOf layer.key).keys.contains).Nodup) ↔
    ∀ devices settings, layer = .offload devices settings →
      (Offload.changedNames settings l).Nodup := by
  cases layer with
  | offload devices settings =>
    constructor
    · intro h _ _ he
      cases he
      exact h _ rfl
    · intro h names he
      cases he
      exact h devices settings rfl
  | flowHash devices f =>
    refine ⟨fun _ _ _ he => (by cases he), fun _ names he => ?_⟩
    cases he
    refine List.Nodup.filter _ ?_
    cases FlowHash.request? f <;> simp
  | pauseFrames devices p =>
    refine ⟨fun _ _ _ he => (by cases he), fun _ names he => ?_⟩
    cases he
    refine List.Nodup.filter _ ?_
    simp [PauseFrames.requests]
  | mtu | hashFunction =>
    refine ⟨fun _ _ _ he => (by cases he), fun _ names he => ?_⟩
    cases he
    exact (List.nodup_singleton _).filter _
  | _ => simp [names?]

end Layer

/-! ## Stacks -/

theorem flatMap_eq_flatMap_iff {α : Type} {f g : α → List String} {xs : List α}
    (h : ∀ x ∈ xs, (f x).Sublist (g x)) :
    xs.flatMap g = xs.flatMap f ↔ ∀ x ∈ xs, g x = f x := by
  refine ⟨fun he => ?_, fun he => List.flatMap_congr he⟩
  induction xs with
  | nil => simp
  | cons x rest ih =>
    have hrest : ∀ y ∈ rest, (f y).Sublist (g y) := fun y hy => h y (by simp [hy])
    have hlength := congrArg List.length he
    have hfirst := (h x (by simp)).length_le
    have hlater := (List.Sublist.flatMap_right rest hrest).length_le
    rw [List.flatMap_cons, List.flatMap_cons, List.length_append, List.length_append] at hlength
    have hx : f x = g x := (h x (by simp)).eq_of_length (by omega)
    rw [List.flatMap_cons, List.flatMap_cons, hx] at he
    intro y hy
    rcases List.mem_cons.1 hy with rfl | hy
    · exact hx.symm
    · exact ih hrest (List.append_cancel_left he) y hy

namespace Stack

theorem filter_key_eq {s : Stack} (hn : s.keys.Nodup) {layer : Layer} (hm : layer ∈ s) :
    s.filter (·.key = layer.key) = [layer] := by
  obtain ⟨before, after, rfl⟩ := List.append_of_mem hm
  unfold keys at hn
  rw [List.map_append, List.map_cons, List.nodup_append, List.nodup_cons] at hn
  have hbefore : before.filter (·.key = layer.key) = [] := by
    refine List.filter_eq_nil_iff.2 fun other ho => ?_
    simpa using hn.2.2 other.key (List.mem_map_of_mem ho) layer.key (by simp)
  have hafter : after.filter (·.key = layer.key) = [] := by
    refine List.filter_eq_nil_iff.2 fun other ho he => hn.2.1.1 ?_
    exact List.mem_map.2 ⟨other, ho, of_decide_eq_true he⟩
  rw [List.filter_append, List.filter_cons_of_pos (by simp), hbefore, hafter, List.nil_append]

/-- If no two layers have one key, the ledger holds of each layer what the layer recorded. -/
theorem recorded_of_configure {s : Stack} (hn : s.keys.Nodup) (b : Bench) :
    ∀ layer ∈ s, layer.Recorded (s.configure (b, .empty)).2.2 := by
  intro layer hm
  obtain ⟨took, ht, hc, hl, hk, hf⟩ := configure_follows s b .empty
  refine ⟨(took.map Prod.snd).filter (·.key = layer.key), ?_, ?_, ?_⟩
  · rw [hl, Ledger.get?_foldl_note]
    rfl
  · intro c hc
    simpa using (List.mem_filter.1 hc).2
  · have hprefix := hf.begun.filter (·.key = layer.key)
    rw [filter_intents, filter_key_eq hn hm, List.flatMap_singleton] at hprefix
    rw [Change.filterMap_intent?_filter]
    exact hprefix

/-- However the configuring of a stack ends whose layers have a key each, every recorded change is
described, layer by layer and in the order of the ledger, and a layer without an entry has one line
of its own. There are no other lines exactly if no two features of the tuning have the same
attribute and it was changed: such a change is described again for each of them. -/
theorem describe_accounts_iff {s : Stack} (ht : ∀ layer ∈ s, layer.IsTuning)
    (hn : s.keys.Nodup) (b : Bench) :
    let l := (s.configure (b, .empty)).2.2
    (s.flatMap fun layer => layer.account l).Sublist (s.describe l) ∧
      ((s.describe l = s.flatMap fun layer => layer.account l) ↔
        ∀ devices settings, Layer.offload devices settings ∈ s →
          (Layer.Offload.changedNames settings l).Nodup) := by
  intro l
  have hs : l.Sound := sound_configure s b
  have hr := recorded_of_configure hn b
  have hlayer : ∀ layer ∈ s, _ := fun layer hm =>
    Layer.describe_account (ht layer hm) hs (hr layer hm)
  refine ⟨List.Sublist.flatMap_right s fun layer hm => (hlayer layer hm).1, ?_⟩
  unfold describe
  rw [flatMap_eq_flatMap_iff fun layer hm => (hlayer layer hm).1]
  constructor
  · intro h devices settings hm
    have hd := (hlayer _ hm).2.1 (h _ hm)
    exact Layer.nodup_names_iff.1 hd devices settings rfl
  · intro h layer hm
    refine (hlayer layer hm).2.2 (Layer.nodup_names_iff.2 ?_)
    rintro devices settings rfl
    exact h devices settings hm

/-- A bench whose devices have all attributes but the size of a packet. -/
def featureBench : Bench :=
  { Bench.quiet with
    memory := fun _ =>
      ⟨fun name => if name = "mtu" then none else some (.flag false), true, false⟩ }

/-- Two features with an attribute each, and a size of packets, which the device lacks. -/
def featureStack : Stack :=
  [.offload [plainDevice] (some (.ofList [("rx-gro", .flag true), ("tx-gro", .word "off")])),
    .mtu [plainDevice] (some 9000)]

/-- Configuring the stack ends with a fault, and all that was changed is described once. -/
theorem describe_accounts_for_features :
    (∀ layer ∈ featureStack, layer.IsTuning) ∧ featureStack.keys.Nodup ∧
    (featureStack.configure (featureBench, .empty)).1 =
      .error (.unsupportedAttribute "lab.eth0" "mtu") ∧
    let l := (featureStack.configure (featureBench, .empty)).2.2
    featureStack.describe l = ["lab.eth0 offload_rx_gro configured to true",
      "lab.eth0 offload_tx_gro configured to false", "MTU configuration skipped."] ∧
    featureStack.describe l = featureStack.flatMap fun layer => layer.account l := by
  have ht : ∀ layer ∈ featureStack, layer.IsTuning := by
    intro layer hm
    simp only [featureStack, List.mem_cons, List.not_mem_nil, or_false] at hm
    rcases hm with rfl | rfl <;> trivial
  have hn : featureStack.keys.Nodup := by decide
  refine ⟨ht, hn, rfl, by decide, (describe_accounts_iff ht hn featureBench).2.2 ?_⟩
  intro devices settings hm
  simp only [featureStack, List.mem_cons, List.not_mem_nil, or_false, Layer.offload.injEq,
    reduceCtorEq] at hm
  obtain ⟨rfl, rfl⟩ := hm
  decide

/-- Two features with one attribute. -/
def sharingStack : Stack :=
  [.offload [plainDevice]
    (some (.ofList [("tx-nocache-copy", .flag true), ("tx_nocache_copy", .flag false)]))]

/-- Both changes of the attribute are described once for each of the two features. -/
theorem describes_shared_attribute_twice :
    (∀ layer ∈ sharingStack, layer.IsTuning) ∧ sharingStack.keys.Nodup ∧
    (sharingStack.configure (featureBench, .empty)).1 = .ok () ∧
    let l := (sharingStack.configure (featureBench, .empty)).2.2
    (sharingStack.flatMap fun layer => layer.account l) =
      ["lab.eth0 offload_tx_nocache_copy configured to true",
        "lab.eth0 offload_tx_nocache_copy configured to false"] ∧
    sharingStack.describe l =
      ["lab.eth0 offload_tx_nocache_copy configured to true",
        "lab.eth0 offload_tx_nocache_copy configured to false",
        "lab.eth0 offload_tx_nocache_copy configured to true",
        "lab.eth0 offload_tx_nocache_copy configured to false"] ∧
    sharingStack.describe l ≠ sharingStack.flatMap fun layer => layer.account l := by
  refine ⟨?_, by decide, rfl, by decide, by decide, by decide⟩
  intro layer hm
  rw [List.mem_singleton.1 hm]
  trivial

end Stack

end NicTuning
