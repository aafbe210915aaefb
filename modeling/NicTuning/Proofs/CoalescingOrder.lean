import NicTuning.Proofs.CoalescingWrites
import NicTuning.Proofs.Describing
import NicTuning.Proofs.Repeating
import NicTuning.Proofs.Steps

/-!
# The order of coalescing attributes

The adaptive modes are requested first, so the ledger has their attributes first, and restoring goes
through the attributes backwards. Main statement: the parameters of the layer are refused exactly if
a mode is at odds with the settings of some device, and otherwise each device is asked for what its
own settings come to; whatever else a stack does, the modes are written before the other settings
when it is configured, and after them when it is restored.
-/
namespace NicTuning

/-- What a sound ledger has under a key goes there. -/
theorem Ledger.Sound.key_of_mem_changes {l : Ledger} (hs : l.Sound) {key : String} {c : Change}
    (hc : c ∈ l.changes key) : c.key = key := by
  unfold Ledger.changes at hc
  cases he : l.get? key with
  | none =>
    rw [he] at hc
    cases hc
  | some entry =>
    rw [he, Option.elim_some] at hc
    have hfits := hs.fits key entry he
    cases entry with
    | settings changes =>
      obtain ⟨e, hm, hc⟩ := List.mem_flatMap.1 hc
      obtain ⟨change, -, rfl⟩ := List.mem_map.1 hc
      exact hs.own key changes e.1 he (Register.contains_iff.2 (List.mem_map_of_mem hm))
    | queues changes =>
      obtain ⟨change, -, rfl⟩ := List.mem_map.1 hc
      exact hfits.symm
    | qdiscs changes =>
      obtain ⟨change, -, rfl⟩ := List.mem_map.1 hc
      exact hfits.symm
    | interrupts changes =>
      rcases List.mem_append.1 hc with hc | hc
      · obtain ⟨host, -, rfl⟩ := List.mem_map.1 hc
        exact hfits.symm
      · obtain ⟨device, -, rfl⟩ := List.mem_map.1 hc
        exact hfits.symm

/-! ## Steps among other events -/

/-- Events, the newest first: those of some steps stand together, behind some earlier ones, and
nothing else that happened writes an attribute of coalescing. -/
def Encloses (events earlier : List Event) (steps : List Step) : Prop :=
  ∃ later, events = later ++ (Step.journal steps ++ earlier) ∧
    ∀ e ∈ later ++ earlier, ¬e.WritesCoalescing

namespace Encloses

variable {events earlier other : List Event} {steps : List Step}

theorem of_steps (steps : List Step) : Encloses (Step.journal steps) [] steps :=
  ⟨[], by simp, by simp⟩

theorem of_other (h : ∀ e ∈ events, ¬e.WritesCoalescing) : Encloses events events [] :=
  ⟨[], by simp [Step.journal], h⟩

theorem before (h : Encloses events earlier steps) (ho : ∀ e ∈ other, ¬e.WritesCoalescing) :
    Encloses (other ++ events) earlier steps := by
  obtain ⟨later, rfl, hrest⟩ := h
  refine ⟨other ++ later, by simp, fun e he => ?_⟩
  rw [List.append_assoc, List.mem_append] at he
  exact he.elim (ho e) (hrest e)

theorem after (h : Encloses events earlier steps) (ho : ∀ e ∈ other, ¬e.WritesCoalescing) :
    Encloses (events ++ other) (earlier ++ other) steps := by
  obtain ⟨later, rfl, hrest⟩ := h
  refine ⟨later, by simp, fun e he => ?_⟩
  rw [← List.append_assoc, List.mem_append] at he
  exact he.elim (hrest e) (ho e)

end Encloses

namespace Layer.Coalescing

open Tuning.Coalescing (Toggle isToggleKey)
open Tuning (Settings)

/-! ## Names of requests -/

theorem request_of_mem_requestsAt {devices : List Device} {c : Tuning.Coalescing} :
    ∀ r ∈ requestsAt devices c, r.2.map Prod.fst = devices ∧
      (IsMode r.1 ∨ ∃ k, isToggleKey k = false ∧ r.1 = Attribute.coalescingName k) := by
  intro r hr
  refine ⟨map_fst_of_mem_requestsAt hr, ?_⟩
  rcases List.mem_append.1 hr with hr | hr
  · obtain ⟨t, ht, rfl⟩ := List.mem_map.1 hr
    exact .inl (isMode_of_mem_toggles ht)
  · obtain ⟨k, hk, rfl⟩ := List.mem_map.1 hr
    exact .inr ⟨k, (mem_settingKeys.1 hk).2, rfl⟩

theorem names_requestsAt (devices : List Device) (c : Tuning.Coalescing) :
    ∃ modes settings, requestsAt devices c = modes ++ settings ∧
      (∀ r ∈ modes, IsMode r.1) ∧ ∀ r ∈ settings, IsSetting r.1 := by
  refine ⟨_, _, rfl, ?_, ?_⟩
  · intro r hr
    obtain ⟨t, ht, rfl⟩ := List.mem_map.1 hr
    exact isMode_of_mem_toggles ht
  · intro r hr
    obtain ⟨k, -, rfl⟩ := List.mem_map.1 hr
    exact isSetting_coalescingName k

/-! ## Names in the ledger -/

/-- The ledger has the modes that were changed before the other settings. -/
def KeepsOrder (l : Ledger) : Prop :=
  ∃ modes settings, (l.settingsOf key).keys = modes ++ settings ∧ (∀ name ∈ modes, IsMode name) ∧
    ∀ name ∈ settings, IsSetting name

theorem keepsOrder_of_not_contains {l : Ledger} (h : l.contains key = false) : KeepsOrder l := by
  have hnone : l.settingsOf key = .empty := by
    rw [Ledger.settingsOf_eq, Register.get?_eq_none h]
    rfl
  rw [KeepsOrder, hnone]
  exact ⟨[], [], rfl, by simp, by simp⟩

theorem name?_settingIntents_of {kind : String → Prop}
    {rs : List (String × List NicTuning.Target)} (h : ∀ r ∈ rs, kind r.1) :
    ∀ name ∈ (rs.flatMap fun r => settingIntents r.1 r.2).filterMap Intent.name?, kind name := by
  intro name hn
  rw [List.filterMap_flatMap] at hn
  obtain ⟨r, hr, hname⟩ := List.mem_flatMap.1 hn
  rw [name?_of_mem_settingIntents name hname]
  exact h r hr

/-- The names of what the layer intends: first modes, then other settings. -/
theorem names_intents (devices : List Device) (c : Tuning.Coalescing) :
    ∃ modes settings, (Layer.coalescing devices c).intents.filterMap Intent.name? =
        modes ++ settings ∧ (∀ name ∈ modes, IsMode name) ∧ ∀ name ∈ settings, IsSetting name := by
  have hintents : (Layer.coalescing devices c).intents =
      requestIntents (requests devices c) := rfl
  rw [hintents]
  by_cases hclash : Clashes devices c
  · obtain ⟨fault, hfault⟩ := requests_of_clashes hclash
    rw [hfault]
    exact ⟨[], [], rfl, by simp, by simp⟩
  · obtain ⟨modes, settings, hrequests, hm, hs⟩ := names_requestsAt devices c
    rw [requests_of_not_clashes hclash, hrequests, requestIntents, List.flatMap_append,
      List.filterMap_append]
    exact ⟨_, _, rfl, name?_settingIntents_of hm, name?_settingIntents_of hs⟩

/-- The steps of the layer are made for the modes first. -/
theorem inOrder_of_begun {devices : List Device} {c : Tuning.Coalescing} {steps : List Step}
    (h : steps.map Step.intent <+: (Layer.coalescing devices c).intents) :
    Step.InOrder IsMode IsSetting steps := by
  obtain ⟨modes, settings, hnames, hm, hs⟩ := names_intents devices c
  have hsteps : (steps.map Step.intent).filterMap Intent.name? = steps.map Step.name := by
    rw [List.filterMap_map]
    exact List.filterMap_eq_map_iff_forall_eq_some.2 fun _ _ => rfl
  refine .of_names ?_ hm hs
  rw [← hnames, ← hsteps]
  exact h.filterMap _

theorem keepsOrder_of_recorded {devices : List Device} {c : Tuning.Coalescing} {l : Ledger}
    (h : (Layer.coalescing devices c).Recorded l) : KeepsOrder l := by
  obtain ⟨pairs, hpairs, hsub⟩ := h.settingsOf_eq rfl
  obtain ⟨modes, settings, hnames, hm, hs⟩ := names_intents devices c
  rw [hnames, List.sublist_append_iff] at hsub
  obtain ⟨first, later, hsplit, hfirst, hlater⟩ := hsub
  have hkeys : (l.settingsOf key).keys = (first ++ later).eraseDups := by
    rw [← hsplit, show l.settingsOf key = _ from hpairs, SettingChanges.keys_pushAll]
    simp [Register.keys, Register.empty]
  rw [List.eraseDups_append] at hkeys
  refine ⟨_, _, hkeys, ?_, ?_⟩
  · intro name hn
    exact hm name (hfirst.subset (List.mem_eraseDups.1 hn))
  · intro name hn
    have hmem : name ∈ later := by
      rw [List.mem_eraseDups, List.removeAll] at hn
      exact (List.mem_filter.1 hn).1
    exact hs name (hlater.subset hmem)

theorem keepsOrder_congr {l l' : Ledger} (h : KeepsOrder l) (hl : l'.get? key = l.get? key) :
    KeepsOrder l' := by
  unfold KeepsOrder at h ⊢
  rw [Ledger.settingsOf_eq, hl, ← Ledger.settingsOf_eq]
  exact h

/-! ## Steps that take back -/

/-- The steps under the key, attribute by attribute. -/
theorem remedies_eq {l : Ledger} (hs : l.Sound) : l.remedies key =
    (l.settingsOf key).keys.reverse.flatMap fun name =>
      (((l.settingsOf key).get? name).getD []).reverse.map (writeBack name) := by
  rw [Ledger.settingsOf_eq]
  cases he : l.get? key with
  | none =>
    rw [Ledger.remedies_of_get? he]
    rfl
  | some entry =>
    have hfits := hs.fits key entry he
    cases entry with
    | settings changes => exact remedies_of_settings he
    | queues changes => exact absurd (show key = Queues.key from hfits) (by decide)
    | qdiscs changes => exact absurd (show key = Qdisc.key from hfits) (by decide)
    | interrupts changes => exact absurd (show key = Interrupts.key from hfits) (by decide)

/-- Steps that take back what such a ledger has go through the modes last. -/
theorem inOrder_of_remedies {l : Ledger} (hs : l.Sound) (ho : KeepsOrder l) {steps : List Step}
    (h : steps.map Step.remedy = l.remedies key) : Step.InOrder IsSetting IsMode steps := by
  obtain ⟨modes, settings, hnames, hm, hset⟩ := ho
  have hname : ∀ {kind : String → Prop} {names : List String} {steps : List Step},
      (∀ name ∈ names, kind name) →
      steps.map Step.remedy = (names.reverse.flatMap fun name =>
        (((l.settingsOf key).get? name).getD []).reverse.map (writeBack name)) →
      ∀ s ∈ steps, kind s.name := by
    intro kind names steps hkind heq s hs
    have hmem := List.mem_map_of_mem (f := Step.remedy) hs
    rw [heq] at hmem
    obtain ⟨name, hn, hmem⟩ := List.mem_flatMap.1 hmem
    obtain ⟨change, -, hw⟩ := List.mem_map.1 hmem
    rw [← (Remedy.write.inj hw).2.1]
    exact hkind name (List.mem_reverse.1 hn)
  rw [remedies_eq hs, hnames, List.reverse_append, List.flatMap_append] at h
  obtain ⟨older, newer, hsteps, hold, hnew⟩ := List.map_eq_append_iff.1 h
  exact ⟨older, newer, hsteps, hname hset hold, hname hm hnew⟩

/-- Undoing the layer makes a step for each change that is recorded under the key. -/
theorem restore_steps {l : Ledger} (hs : l.Sound) (b : Bench) :
    ∃ steps, (restoreSettings key (b, l)).2.1 = b.after (Step.journal steps) ∧
      Walk Step.Writes b steps ∧ steps.map Step.remedy = l.remedies key := by
  have hkey : key ∉ [Queues.key, Qdisc.key, Interrupts.key] := by decide
  obtain ⟨-, hbench⟩ := restoreSettings_tries hs hkey b
  have hwrites : ∀ r ∈ l.remedies key, ∃ d name value, r = .write d name value := by
    intro r hr
    rw [remedies_eq hs] at hr
    obtain ⟨name, -, hr⟩ := List.mem_flatMap.1 hr
    obtain ⟨change, -, rfl⟩ := List.mem_map.1 hr
    exact ⟨change.device, name, change.previous, rfl⟩
  obtain ⟨steps, hb, hwalk, hremedies⟩ := Remedy.tryAll_steps hwrites b
  exact ⟨steps, hbench.trans hb, hwalk, hremedies⟩

end Layer.Coalescing

/-! ## Stacks -/

namespace Stack

open Layer.Coalescing (key IsMode IsSetting KeepsOrder keepsOrder_of_not_contains
  keepsOrder_of_recorded keepsOrder_congr inOrder_of_begun inOrder_of_remedies Clashes askedAt asked
  settingsFor)

/-- What the layers with a key intend. -/
def intentsUnder (s : Stack) (key : String) : List Intent :=
  (s.filter (·.key = key)).flatMap Layer.intents

theorem intentsUnder_cons_of_eq {layer : Layer} {key : String} (h : layer.key = key)
    (rest : Stack) : intentsUnder (layer :: rest) key = layer.intents ++ rest.intentsUnder key := by
  simp [intentsUnder, h]

theorem intentsUnder_cons_of_ne {layer : Layer} {key : String} (h : layer.key ≠ key)
    (rest : Stack) : intentsUnder (layer :: rest) key = rest.intentsUnder key := by
  simp [intentsUnder, h]

theorem cases_of_key {layer : Layer} (h : layer.key = key) :
    (∃ devices c, layer = .coalescing devices c) ∨ layer = .inert key := by
  cases layer with
  | coalescing devices c => exact .inl ⟨devices, c, rfl⟩
  | inert key' => exact .inr (congrArg Layer.inert h)
  | _ =>
    simp [Layer.key, key, Layer.Offload.key, Layer.Mtu.key, Layer.Interrupts.key, Layer.Qdisc.key,
      Layer.PauseFrames.key, Layer.Queues.key, Layer.FlowHash.key, Layer.HashFunction.key] at h

/-- A layer with another key writes no attribute of coalescing. -/
theorem configureLayer_elsewhere {layer : Layer} (hk : layer.key ≠ key) (b : Bench) (l : Ledger) :
    ∃ events, (configureLayer layer (b, l)).2.1 = b.after events ∧
      (∀ e ∈ events, ¬e.WritesCoalescing) ∧
      (configureLayer layer (b, l)).2.2.get? key = l.get? key := by
  obtain ⟨events, hb, he⟩ := configureLayer_emits layer (b, l)
  obtain ⟨cs, -, hl, hown, -⟩ := configureLayer_performs layer b l trivial
  refine ⟨events, hb, ?_, ?_⟩
  · intro e hm
    obtain ⟨i, hi, hinvolves⟩ := he e hm
    exact hinvolves.not_writesCoalescing (Layer.key_of_mem_intents hi ▸ hk)
  · have hnone : cs.filter (·.key = key) = [] := by
      apply List.filter_eq_nil_iff.2
      intro c hc
      simpa [(hown c hc).key_eq] using hk
    rw [hl, Ledger.get?_foldl_note, hnone]
    rfl

/-- Where there is an entry for coalescing, nothing writes an attribute of coalescing, and a stack
that goes through has no layer for it. -/
theorem configure_elsewhere (s : Stack) (b : Bench) (l : Ledger) (h : l.contains key = true) :
    ∃ events, (s.configure (b, l)).2.1 = b.after events ∧ (∀ e ∈ events, ¬e.WritesCoalescing) ∧
      (s.configure (b, l)).2.2.get? key = l.get? key ∧
      ((s.configure (b, l)).1 = .ok () → s.intentsUnder key = []) := by
  induction s generalizing b l with
  | nil => exact ⟨[], rfl, by simp, rfl, fun _ => rfl⟩
  | cons layer rest ih =>
    rw [configure_cons]
    by_cases hk : layer.key = key
    · rw [configureLayer_of_contains (hk.symm ▸ h)]
      exact ⟨[], rfl, by simp, rfl, nofun⟩
    · rw [intentsUnder_cons_of_ne hk]
      obtain ⟨older, ho, hpo, hget⟩ := configureLayer_elsewhere hk b l
      rcases hturn : configureLayer layer (b, l) with ⟨fault | ⟨⟩, b', l'⟩ <;>
        rw [hturn] at ho hget
      · exact ⟨older, ho, hpo, hget, nofun⟩
      · change b' = b.after older at ho
        change l'.get? key = l.get? key at hget
        have h' : l'.contains key = true := by rw [Register.contains, hget]; exact h
        obtain ⟨newer, hn, hpn, hget', hnone⟩ := ih b' l' h'
        refine ⟨newer ++ older, ?_, ?_, hget'.trans hget, hnone⟩
        · rw [hn, ho, Bench.after_after]
        · intro e hm
          rcases List.mem_append.1 hm with hm | hm
          · exact hpn e hm
          · exact hpo e hm

/-- The turn of the layer for coalescing leaves in the ledger what the layer recorded. -/
theorem recorded_of_configureLayer {layer : Layer} {l : Ledger} (h : l.contains layer.key = false)
    (b : Bench) : layer.Recorded (configureLayer layer (b, l)).2.2 := by
  rw [configureLayer_apply, h, if_neg Bool.false_ne_true]
  obtain ⟨cs, -, hl, hown, hf⟩ := layer.configure_performs b l h
  have hkeys : ∀ c ∈ cs, c.key = layer.key := fun c hc => (hown c hc).key_eq
  refine ⟨cs, ?_, hkeys, hf.begun⟩
  have hall : cs.filter (·.key = layer.key) = cs := by
    apply List.filter_eq_self.2
    intro c hc
    simpa using hkeys c hc
  rw [hl, Ledger.get?_foldl_note, hall, Register.get?_eq_none h]

/-- In the turn of a layer for coalescing nothing happens but steps for what it intends, up to a
fault, and those for the modes are made first. -/
theorem configureLayer_steps {layer : Layer} (hk : layer.key = key) (b : Bench) {l : Ledger}
    (h : l.contains key = false) :
    ∃ steps, (configureLayer layer (b, l)).2.1 = b.after (Step.journal steps) ∧
      Pursues b layer.intents (configureLayer layer (b, l)).1 steps ∧
      Step.InOrder IsMode IsSetting steps ∧ KeepsOrder (configureLayer layer (b, l)).2.2 := by
  have hl : l.contains layer.key = false := hk.symm ▸ h
  rcases cases_of_key hk with ⟨devices, c, rfl⟩ | rfl
  · have happly : configureLayer (.coalescing devices c) (b, l) =
        (Layer.coalescing devices c).configure (b, l) := by
      rw [configureLayer_apply, hl, if_neg Bool.false_ne_true]
    have hpursuing : Pursuing (Layer.coalescing devices c).intents
      (Layer.coalescing devices c).configure := Layer.configure_pursuing rfl
    obtain ⟨steps, hb, hsteps⟩ := hpursuing b l
    rw [← happly] at hb hsteps
    exact ⟨steps, hb, hsteps, inOrder_of_begun hsteps.begun,
      keepsOrder_of_recorded (recorded_of_configureLayer hl b)⟩
  · rw [configureLayer_of_idle (fun _ => rfl) hl]
    exact ⟨[], rfl, .nothing fun _ => rfl, .nil _ _, keepsOrder_of_not_contains h⟩

/-- However the configuring of a stack ends, what writes attributes of coalescing are steps for what
its layers for coalescing intend, up to a fault, and those for the modes are made first. -/
theorem configure_steps (s : Stack) (b : Bench) (l : Ledger) (h : l.contains key = false) :
    ∃ events earlier steps, (s.configure (b, l)).2.1 = b.after events ∧
      Encloses events earlier steps ∧
      Pursues (b.after earlier) (s.intentsUnder key) (s.configure (b, l)).1 steps ∧
      Step.InOrder IsMode IsSetting steps ∧ KeepsOrder (s.configure (b, l)).2.2 := by
  induction s generalizing b l with
  | nil =>
    exact ⟨[], [], [], rfl, .of_steps [], .nothing fun _ => rfl, .nil _ _,
      keepsOrder_of_not_contains h⟩
  | cons layer rest ih =>
    rw [configure_cons]
    by_cases hk : layer.key = key
    · rw [intentsUnder_cons_of_eq hk]
      have hl : l.contains layer.key = false := hk.symm ▸ h
      have hcases := configureLayer_cases (b := b) hl
      obtain ⟨steps, hb, hsteps, horder, hkeeps⟩ := configureLayer_steps hk b h
      rcases hturn : configureLayer layer (b, l) with ⟨fault | ⟨⟩, b', l'⟩ <;>
        rw [hturn] at hcases hb hsteps hkeeps
      · exact ⟨Step.journal steps, [], steps, hb, .of_steps steps, hsteps.cut _, horder, hkeeps⟩
      · rcases hcases with hc | ⟨-, hidle⟩
        · -- The layer has an entry now, so no other gets at its attributes.
          rw [hk] at hc
          obtain ⟨newer, hn, hpn, hget, hnone⟩ := configure_elsewhere rest b' l' hc
          obtain rfl : b' = b.after (Step.journal steps) := hb
          have hthrough := hsteps.append (.nothing hnone)
          rw [List.append_nil] at hthrough
          exact ⟨newer ++ Step.journal steps, [], steps, hn.trans (Bench.after_after _ _ _),
            (Encloses.of_steps steps).before hpn, hthrough, horder, keepsOrder_congr hkeeps hget⟩
        · -- The layer had nothing to do, so another one with the key may come later.
          have hsame := hturn.symm.trans (configureLayer_of_idle (hidle rfl) hl b)
          cases hsame
          rw [(layer.idle_iff.1 (hidle rfl)).2, List.nil_append]
          exact ih b l h
    · rw [intentsUnder_cons_of_ne hk]
      obtain ⟨older, ho, hpo, hget⟩ := configureLayer_elsewhere hk b l
      rcases hturn : configureLayer layer (b, l) with ⟨fault | ⟨⟩, b', l'⟩ <;>
        rw [hturn] at ho hget
      · exact ⟨older, older, [], ho, .of_other hpo, .nothing nofun, .nil _ _,
          keepsOrder_congr (keepsOrder_of_not_contains h) hget⟩
      · change l'.get? key = l.get? key at hget
        have h' : l'.contains key = false := by rw [Register.contains, hget]; exact h
        obtain ⟨newer, earlier, steps, hn, hin, hsteps, horder, hkeeps⟩ := ih b' l' h'
        obtain rfl : b' = b.after older := ho
        rw [Bench.after_after] at hn hsteps
        exact ⟨newer ++ older, earlier ++ older, steps, hn, hin.after hpo, hsteps, horder, hkeeps⟩

/-- What is taken back for another key writes no attribute of coalescing. -/
theorem not_writesCoalescing_of_remedies {l : Ledger} (hs : l.Sound) {k : String} (hk : k ≠ key)
    {r : Remedy} (hr : r ∈ l.remedies k) {e : Event} (he : r.Involves e) :
    ¬e.WritesCoalescing := by
  obtain ⟨c, hc, hremedy⟩ := List.mem_filterMap.1 hr
  have hkey := hs.key_of_mem_changes (List.mem_reverse.1 hc)
  exact he.not_writesCoalescing hremedy (hkey.symm ▸ hk)

/-- However the restoring of layers goes, what writes attributes of coalescing are steps that take
back what is recorded for them, and those for the modes are made last. -/
theorem restoreAll_steps (layers : List Layer) (u : Undoing) (b : Bench) {l : Ledger}
    (hs : l.Sound) (ho : KeepsOrder l)
    (hu : l.contains key = true → layers.any (·.undoes key) = true) :
    ∃ events earlier steps, (restoreAll u layers (b, l)).2.1 = b.after events ∧
      Encloses events earlier steps ∧ Walk Step.Writes (b.after earlier) steps ∧
      steps.map Step.remedy = l.remedies key := by
  induction layers generalizing u b l with
  | nil =>
    have hnone : l.contains key = false := Bool.eq_false_iff.2 fun hc => by cases hu hc
    refine ⟨[], [], [], rfl, .of_steps [], .nil, ?_⟩
    rw [Ledger.remedies_of_get? (Register.get?_eq_none hnone)]
    rfl
  | cons layer rest ih =>
    rw [restoreAll_cons]
    obtain ⟨-, hlacks⟩ := layer.restore_restores hs b
    have hs' := hs.of_lacksAll hlacks
    by_cases hk : layer.key = key
    · rcases cases_of_key hk with ⟨devices, c, rfl⟩ | rfl
      · obtain ⟨steps, hold, hwalk, hsteps⟩ := Layer.Coalescing.restore_steps hs b
        obtain ⟨newer, hnew, hpn⟩ := restoreAll_emits rest
          (restoreLayer (.coalescing devices c) u (b, l)).1
          ((Layer.coalescing devices c).restore (b, l)).2.1 hs'
        have hbench : ((Layer.coalescing devices c).restore (b, l)).2.1 =
          b.after (Step.journal steps) := hold
        refine ⟨newer ++ Step.journal steps, [], steps, ?_,
          (Encloses.of_steps steps).before fun e hm => ?_, hwalk, hsteps⟩
        · rw [hbench, Bench.after_after] at hnew
          rw [← hnew, ← hbench]
        · obtain ⟨k, r, hr, he⟩ := hpn e hm
          have hne : k ≠ key := by
            rintro rfl
            rw [Ledger.remedies_of_get? (hlacks key)] at hr
            cases hr
          exact not_writesCoalescing_of_remedies hs' hne hr he
      · exact ih _ b hs ho hu
    · have hno : layer.undoes key = false :=
        Bool.eq_false_iff.2 fun hu => hk (Layer.key_of_undoes hu)
      obtain ⟨older, hold, hpo⟩ := layer.restore_emits b hs
      have hget : (layer.restore (b, l)).2.2.get? key = l.get? key := by
        rw [hlacks key, if_neg (Bool.eq_false_iff.1 hno)]
      obtain ⟨newer, earlier, steps, hnew, hin, hwalk, hsteps⟩ :=
        ih (restoreLayer layer u (b, l)).1 (layer.restore (b, l)).2.1 hs' (keepsOrder_congr ho hget)
          (fun hc => by
            rw [Register.contains, hget] at hc
            have hany := hu hc
            rwa [List.any_cons, hno, Bool.false_or] at hany)
      rw [hold, Bench.after_after] at hnew hwalk
      refine ⟨newer ++ older, earlier ++ older, steps, ?_, hin.after fun e hm => ?_, hwalk, ?_⟩
      · rw [← hnew, ← hold]
      · obtain ⟨r, hr, he⟩ := hpo e hm
        exact not_writesCoalescing_of_remedies hs hk hr he
      · rw [hsteps, Ledger.remedies_of_get? hget]
        rfl

/-- The parameters of the layer for coalescing are refused exactly if an adaptive mode is at odds
with the settings of some device. If they are not, each device is asked, over all requests, for the
modes and for its own other settings in key order, and for nothing else; no key of a mode is
requested as one of the other settings. However a stack is configured, what writes attributes of
coalescing are the steps for what its layers for coalescing intend, up to a fault, and those for the
modes are made before those for the other settings. When it is restored, on whatever bench, it is
one step for each recorded change, and those for the modes are made after the others. -/
theorem coalescing_requests_in_order (devices : List Device) (c : Tuning.Coalescing) (s : Stack)
    (b b' : Bench) :
    (match Layer.Coalescing.requests devices c with
      | .error _ => Clashes devices c
      | .ok rs => ¬Clashes devices c ∧
        (∀ r ∈ rs, r.2.map Prod.fst = devices ∧ (IsMode r.1 ∨
          ∃ k, Tuning.Coalescing.isToggleKey k = false ∧ r.1 = Attribute.coalescingName k)) ∧
        ∀ i : Fin devices.length, askedAt rs i = asked c (settingsFor c i)) ∧
    (∃ events earlier steps, (s.configure (b, .empty)).2.1 = b.after events ∧
      Encloses events earlier steps ∧
      Pursues (b.after earlier) (s.intentsUnder key) (s.configure (b, .empty)).1 steps ∧
      Step.InOrder IsMode IsSetting steps) ∧
    ∃ events earlier steps,
      (s.restore (b', (s.configure (b, .empty)).2.2)).2.1 = b'.after events ∧
      Encloses events earlier steps ∧ Walk Step.Writes (b'.after earlier) steps ∧
      steps.map Step.remedy = (s.configure (b, .empty)).2.2.remedies key ∧
      Step.InOrder IsSetting IsMode steps := by
  obtain ⟨events, earlier, steps, hb, hin, hsteps, horder, hkeeps⟩ := s.configure_steps b .empty rfl
  have hsound := s.sound_configure b
  have hundone := (Reaches.configure (s := s) b .empty).undoes.undone key
  rw [← List.any_reverse] at hundone
  obtain ⟨events', earlier', steps', hb', hin', hwalk, hremedies⟩ :=
    restoreAll_steps s.reverse .none b' hsound hkeeps hundone
  refine ⟨?_, ⟨events, earlier, steps, hb, hin, hsteps, horder⟩, events', earlier', steps', hb',
    hin', hwalk, hremedies, inOrder_of_remedies hsound hkeeps hremedies⟩
  by_cases hclash : Clashes devices c
  · obtain ⟨fault, hfault⟩ := Layer.Coalescing.requests_of_clashes hclash
    rw [hfault]
    exact hclash
  · rw [Layer.Coalescing.requests_of_not_clashes hclash]
    refine ⟨hclash, ?_, Layer.Coalescing.askedAt_requestsAt devices c⟩
    exact Layer.Coalescing.request_of_mem_requestsAt

/-- A mode for all devices, and settings for each of two, among them a mode for the first one. -/
def sampleCoalescing : Tuning.Coalescing where
  adaptiveRx := some true
  settings := some (.each [some (.ofList [("rx-usecs", .number 64), ("adaptive-tx", .word "off")]),
    some (.ofList [("rx-frames", .number 16)])])

/-- A host on which all devices have the same parameters. -/
def coalescingBench : Bench :=
  Bench.quiet.addRule "first" ⟨"ethtool -c ", .ok
    "Coalesce parameters:\nAdaptive RX: off  TX: on\nrx-usecs: 3\nrx-frames: 8\n"⟩

def coalescingDevices : List Device :=
  ["eth0", "eth1"].map (Layer.Interrupts.machineDevice "first")

def coalescingStack : Stack :=
  [.mtu coalescingDevices (some 9000), .coalescing coalescingDevices sampleCoalescing]

theorem coalescing_requests_for_two_devices :
    let eth0 := Layer.Interrupts.machineDevice "first" "eth0"
    let eth1 := Layer.Interrupts.machineDevice "first" "eth1"
    (∃ rs, Layer.Coalescing.requests coalescingDevices sampleCoalescing = .ok rs ∧
      askedAt rs 0 = [("adaptive_rx_coalescing", .flag true),
        ("adaptive_tx_coalescing", .flag false), ("coalescing_rx_usecs", .number 64)] ∧
      askedAt rs 1 = [("adaptive_rx_coalescing", .flag true),
        ("coalescing_rx_frames", .number 16)]) ∧
    ∃ b l, coalescingStack.configure (coalescingBench, .empty) = (.ok (), b, l) ∧
      (∃ events earlier steps, b = coalescingBench.after events ∧ Encloses events earlier steps ∧
        steps.map Step.intent =
          [.setting "adaptive_rx_coalescing" eth0 (.flag true),
            .setting "adaptive_rx_coalescing" eth1 (.flag true),
            .setting "adaptive_tx_coalescing" eth0 (.flag false),
            .setting "coalescing_rx_frames" eth1 (.number 16),
            .setting "coalescing_rx_usecs" eth0 (.number 64)] ∧
        Step.InOrder IsMode IsSetting steps) ∧
      ∃ events earlier steps, (coalescingStack.restore (b, l)).2.1 = b.after events ∧
        Encloses events earlier steps ∧
        steps.map Step.remedy =
          [.write eth0 "coalescing_rx_usecs" (.number 3),
            .write eth1 "coalescing_rx_frames" (.number 8),
            .write eth0 "adaptive_tx_coalescing" (.flag true),
            .write eth1 "adaptive_rx_coalescing" (.flag false),
            .write eth0 "adaptive_rx_coalescing" (.flag false)] ∧
        Step.InOrder IsSetting IsMode steps := by
  intro eth0 eth1
  have hok : (coalescingStack.configure (coalescingBench, .empty)).1 = .ok () := by decide +kernel
  have hintents : coalescingStack.intentsUnder key =
      [.setting "adaptive_rx_coalescing" eth0 (.flag true),
        .setting "adaptive_rx_coalescing" eth1 (.flag true),
        .setting "adaptive_tx_coalescing" eth0 (.flag false),
        .setting "coalescing_rx_frames" eth1 (.number 16),
        .setting "coalescing_rx_usecs" eth0 (.number 64)] := by decide +kernel
  have htaken : (coalescingStack.configure (coalescingBench, .empty)).2.2.remedies key =
      [.write eth0 "coalescing_rx_usecs" (.number 3),
        .write eth1 "coalescing_rx_frames" (.number 8),
        .write eth0 "adaptive_tx_coalescing" (.flag true),
        .write eth1 "adaptive_rx_coalescing" (.flag false),
        .write eth0 "adaptive_rx_coalescing" (.flag false)] := by decide +kernel
  obtain ⟨hrequests, hconfigure, hrestore⟩ := coalescing_requests_in_order coalescingDevices
    sampleCoalescing coalescingStack coalescingBench
    (coalescingStack.configure (coalescingBench, .empty)).2.1
  generalize coalescingStack.configure (coalescingBench, .empty) = configured
    at hok htaken hconfigure hrestore ⊢
  obtain ⟨result, b, l⟩ := configured
  obtain rfl : result = .ok () := hok
  obtain ⟨events, earlier, steps, hb, hin, hsteps, horder⟩ := hconfigure
  obtain ⟨events', earlier', steps', hb', hin', -, hremedies, horder'⟩ := hrestore
  refine ⟨?_, b, l, rfl, ⟨events, earlier, steps, hb, hin, (hsteps.through rfl).trans hintents,
    horder⟩, events', earlier', steps', hb', hin', hremedies.trans htaken, horder'⟩
  obtain ⟨rs, hrs⟩ : ∃ rs, Layer.Coalescing.requests coalescingDevices sampleCoalescing = .ok rs :=
    ⟨_, rfl⟩
  rw [hrs] at hrequests
  obtain ⟨-, -, hasked⟩ := hrequests
  exact ⟨rs, hrs, (hasked ⟨0, by decide⟩).trans (by decide),
    (hasked ⟨1, by decide⟩).trans (by decide)⟩

end Stack

end NicTuning
