import NicTuning.Proofs.Dictionaries
import NicTuning.Proofs.Refusal
import NicTuning.Proofs.Validity

/-!
# Admitted tunings

Main statement: what validation lets through is not refused later. A stack for a validated tuning
fails only where hosts and devices do, or because a machine lacks a processor; no parameter that is
given device by device is left over, and no feature is passed over.
-/
namespace NicTuning

/-! ## Lists matched by place -/

/-- Pairing devices with entries by place leaves none of either over. -/
structure InStep {α : Type} (devices : List Device) (entries : List α) : Prop where
  devices_eq : (devices.zip entries).map Prod.fst = devices
  entries_eq : (devices.zip entries).map Prod.snd = entries

theorem InStep.of_length {α : Type} {devices : List Device} {entries : List α}
    (h : entries.length = devices.length) : InStep devices entries where
  devices_eq := List.map_fst_zip (by omega)
  entries_eq := List.map_snd_zip (by omega)

/-- Going by the place of an item is going along with a list that has the values for the places. -/
theorem map_zipIdx_eq_map_zip {α β γ : Type} (xs : List α) (ys : List β) (value : Nat → β)
    (hl : ys.length = xs.length) (hv : ∀ i (hi : i < ys.length), value i = ys[i])
    (f : α → β → γ) :
    xs.zipIdx.map (fun p => f p.1 (value p.2)) = (xs.zip ys).map fun p => f p.1 p.2 := by
  apply List.ext_getElem
  · simp [hl]
  · intro i hi _
    have hy : i < ys.length := by
      simp at hi
      omega
    simp [hv i hy]

/-! ## Coalescing -/

namespace Layer.Coalescing

open Tuning.Coalescing (Toggle)
open Tuning (Settings)

/-- The settings device by device, for so many devices. -/
def given (c : Tuning.Coalescing) (devices : Nat) : List (Option Settings) :=
  match c.settings with
  | none => List.replicate devices none
  | some (.shared settings) => List.replicate devices (some settings)
  | some (.each list) => list

/-- The value of an adaptive mode for a device with the given settings, if they are not at odds. -/
def mode (t : Toggle) (settings : Option Settings) : Option Setting :=
  (t.explicit.or ((settings.bind (·.get? t.key)).bind Setting.asFlag?)).map .flag

/-- The attributes to change and their values, for devices with their settings. -/
def requestsFor (c : Tuning.Coalescing) (pairs : List (Device × Option Settings)) :
    List (String × List NicTuning.Target) :=
  c.toggles.map (fun t => (t.name, pairs.map fun (d, settings) => (d, mode t settings))) ++
    (settingKeys c).map fun k => (Attribute.coalescingName k,
      pairs.map fun (d, settings) => (d, settings.bind (·.get? k)))

variable {devices : List Device} {c : Tuning.Coalescing}

theorem length_given (h : (c.lengthFindings devices.length).isValid = true) :
    (given c devices.length).length = devices.length := by
  unfold given
  split
  · simp
  · simp
  · rename_i list hs
    exact Tuning.Coalescing.isValid_lengthFindings_iff.1 h list hs

theorem settingsFor_eq {n i : Nat} (hi : i < (given c n).length) :
    settingsFor c i = (given c n)[i] := by
  have hget : (given c n)[i]? = some (settingsFor c i) := by
    revert hi
    unfold given settingsFor
    cases c.settings with
    | none => simp +contextual
    | some allotment => cases allotment <;> simp +contextual [Allotment.forDevice?]
  exact Option.some.inj (hget.symm.trans (List.getElem?_eq_getElem hi))

theorem mem_values_of_settingsFor {i : Nat} {settings : Settings}
    (h : settingsFor c i = some settings) :
    ∃ allotment, c.settings = some allotment ∧ settings ∈ allotment.values := by
  obtain ⟨allotment, ha, hf⟩ := Option.bind_eq_some_iff.1 h
  exact ⟨allotment, ha, Allotment.mem_values_of_forDevice? hf⟩

/-- What was found valid for all settings at once is not refused for those of any device. -/
theorem toggleValue_eq (h : c.findings.isValid = true) {t : Toggle} (ht : t ∈ c.toggles)
    (i : Nat) : toggleValue t (settingsFor c i) = .ok (mode t (settingsFor c i)) := by
  have hkey : Tuning.Coalescing.isToggleKey t.key = true := by
    rcases List.mem_pair.1 ht with rfl | rfl <;> rfl
  cases hs : settingsFor c i with
  | none => cases he : t.explicit <;> simp [toggleValue, mode, he]
  | some settings =>
    obtain ⟨allotment, ha, hm⟩ := mem_values_of_settingsFor hs
    obtain ⟨hsettings, htoggles⟩ := Tuning.Coalescing.isValid_findings_iff.1 h allotment ha
    cases hg : settings.get? t.key with
    | none => cases he : t.explicit <;> simp [toggleValue, mode, he, hg]
    | some value =>
      -- A mode that is given twice is found invalid.
      have hexplicit : t.explicit = none := by
        by_contra hne
        have hcontains := Tuning.Coalescing.isValid_toggleFindings_iff.1 (htoggles t ht)
          (Option.isSome_iff_ne_none.2 hne) settings hm
        simp [Dict.contains, hg] at hcontains
      have hvalue := hsettings settings hm (t.key, value) (Dict.mem_of_get? hg)
      obtain ⟨on, hon⟩ := Option.isSome_iff_exists.1
        ((Tuning.Coalescing.isValid_settingFindings_iff.1 hvalue).2 hkey)
      simp [toggleValue, mode, hexplicit, hg, hon]

/-- Validated settings are never at odds, and every device is asked for its own. -/
theorem requests_eq (h : c.findings.isValid = true)
    (hl : (c.lengthFindings devices.length).isValid = true) :
    requests devices c = .ok (requestsFor c (devices.zip (given c devices.length))) := by
  have hlength := length_given hl
  have halong : ∀ f : Device → Option Settings → NicTuning.Target,
      devices.zipIdx.map (fun p => f p.1 (settingsFor c p.2)) =
        (devices.zip (given c devices.length)).map fun p => f p.1 p.2 :=
    map_zipIdx_eq_map_zip devices _ (settingsFor c) hlength fun i => settingsFor_eq
  have htoggles : c.toggles.mapM (toggleRequest devices c) = .ok (c.toggles.map fun t =>
      (t.name, (devices.zip (given c devices.length)).map fun p => (p.1, mode t p.2))) := by
    refine Except.mapM_eq_ok fun t ht => ?_
    have hvalue : ∀ p ∈ devices.zipIdx, (do
          let value ← toggleValue t (settingsFor c p.2)
          return ((p.1, value) : NicTuning.Target)) =
        .ok (p.1, mode t (settingsFor c p.2)) := by
      intro p _
      rw [toggleValue_eq h ht]
      rfl
    have hvalues := Except.mapM_eq_ok hvalue
    rw [halong fun d settings => (d, mode t settings)] at hvalues
    unfold toggleRequest
    dsimp only
    rw [hvalues]
    rfl
  unfold requests
  rw [htoggles]
  refine congrArg Except.ok (congrArg _ ?_)
  refine List.map_congr_left fun k _ => ?_
  exact congrArg (Prod.mk _) (halong fun d settings => (d, settings.bind (·.get? k)))

end Layer.Coalescing

/-! ## Interrupts -/

namespace Layer.Interrupts

/-- The spreadings device by device, for so many devices. -/
def spreadings (i : Tuning.Interrupts) (devices : Nat) : List Spreading :=
  match i.spreadings with
  | none | some [] => List.replicate devices .roundRobin
  | some list => list

theorem length_spreadings {i : Tuning.Interrupts} {devices : Nat}
    (h : (i.lengthFindings devices).isValid = true) :
    (spreadings i devices).length = devices := by
  unfold spreadings
  split
  · simp
  · simp
  · rename_i list hne hs
    exact (Tuning.Interrupts.isValid_lengthFindings_iff.1 h).2 list hs hne

theorem spreadingFor_eq {i : Tuning.Interrupts} {n place : Nat}
    (hp : place < (spreadings i n).length) : spreadingFor i place = (spreadings i n)[place] := by
  have hget : (spreadings i n)[place]? = some (spreadingFor i place) := by
    revert hp
    unfold spreadings spreadingFor
    split <;> rename_i hs <;> simp +contextual [hs]
  exact Option.some.inj (hget.symm.trans (List.getElem?_eq_getElem hp))

/-- Every device that is not left alone is pinned to its own list with its own spreading. -/
theorem targets_eq {devices : List Device} {i : Tuning.Interrupts}
    (h : (i.lengthFindings devices.length).isValid = true) {lists : List (List Int64)}
    (hp : i.processors = some lists) : targets devices i =
      (((devices.zip lists).zip (spreadings i devices.length)).filter fun p =>
        !p.1.2.isEmpty).map fun p => ⟨p.1.1, p.1.2, p.2⟩ := by
  have hlists := (Tuning.Interrupts.isValid_lengthFindings_iff.1 h).1 lists hp
  have hlength : (spreadings i devices.length).length = (devices.zip lists).length := by
    rw [length_spreadings h, List.length_zip]
    omega
  have halong := map_zipIdx_eq_map_zip (devices.zip lists) _ (spreadingFor i) hlength
    (fun place => spreadingFor_eq) Prod.mk
  rw [List.map_id'' (fun p => rfl)] at halong
  rw [← halong, List.filter_map, List.map_map]
  unfold targets
  rw [hp]
  rfl

end Layer.Interrupts

/-! ## Faults of a stack -/

/-- The hosts of the bench fail in operational ways only. Those that follow a script never fail. -/
def Bench.FailsOperationally (b : Bench) : Prop := Covers Fault.IsOperational b.answer

theorem Bench.failsOperationally_of_ok {b : Bench}
    (h : ∀ history address command, ∃ output, b.answer history address command = .ok output) :
    b.FailsOperationally where
  operational _ hf := hf
  answer history address command := by
    obtain ⟨output, ho⟩ := h history address command
    rw [ho]
    exact .ok output

namespace Layer

/-- The last thing that happened is that a machine told how many processors it has, and the layer
was to pin interrupts to others. -/
def LacksProcessor (layer : Layer) (b : Bench) (fault : Fault) : Prop :=
  ∃ devices i, layer = .interrupts devices i ∧ ∃ t ∈ Interrupts.targets devices i, ∃ history,
    b.journal = .ran t.device.netns.address "lscpu" :: history ∧
    Interrupts.RefusesProcessor b.answer history t fault

namespace Interrupts

theorem checks_fault {ts : List Target} {b b' : Bench} {fault : Fault}
    (hb : b.FailsOperationally) (h : ts.mapM check b = (.error fault, b')) :
    fault.IsOperational ∨ ∃ t ∈ ts, ∃ history,
      b'.journal = .ran t.device.netns.address "lscpu" :: history ∧
      RefusesProcessor b'.answer history t fault := by
  induction ts generalizing b with
  | nil => cases h
  | cons t rest ih =>
    have hm := check_bench t b
    have hf := check_faultsIn hb rfl t
    rw [List.mapM_cons, ActionM.bind_apply] at h
    rcases hc : check t b with ⟨fault' | pinning, m⟩ <;> rw [hc] at h hm hf
    · cases h
      obtain rfl : b' = b.after [.ran t.device.netns.address "lscpu"] := hm
      refine (hf fault rfl).imp_right fun hr => ⟨t, by simp, b.journal, rfl, hr⟩
    · obtain rfl : m = b.after [.ran t.device.netns.address "lscpu"] := hm
      dsimp only at h
      rw [ActionM.bind_apply] at h
      rcases hs : rest.mapM check (b.after [.ran t.device.netns.address "lscpu"]) with
        ⟨fault' | pinnings, m⟩ <;> rw [hs] at h <;> cases h
      refine (ih (b := b.after _) hb hs).imp_right ?_
      rintro ⟨t', ht, hr⟩
      exact ⟨t', by simp [ht], hr⟩

end Interrupts

/-- A layer whose parameters are not at odds fails where hosts and devices do, unless it is to pin
interrupts to processors that a machine lacks. -/
theorem fault_of_configure {layer : Layer} {b b' : Bench} {l l' : Ledger} {fault : Fault}
    (hb : b.FailsOperationally) (hl : l.contains layer.key = false)
    (hodds : ∀ fault, layer.requests? ≠ some (.error fault))
    (h : layer.configure (b, l) = (.error fault, b', l')) :
    fault.IsOperational ∨ layer.LacksProcessor b' fault := by
  have hown : (∀ devices i, layer ≠ .interrupts devices i) → fault.IsOperational := by
    intro hne
    have hf := configure_faultsIn hb (fun fault hr => ?_) (not_refusedBy hl)
    · rw [h] at hf
      exact hf fault rfl
    · cases layer with
      | interrupts devices i => exact absurd rfl (hne devices i)
      | _ => exact absurd hr (hodds fault)
  cases layer with
  | interrupts devices i =>
    change Interrupts.configure devices i (b, l) = _ at h
    rw [Interrupts.configure_apply] at h
    obtain ⟨events, hm, -, -⟩ := Interrupts.check_quiet (Interrupts.targets devices i) b
    rcases hc : (Interrupts.targets devices i).mapM Interrupts.check b with
      ⟨fault' | pinnings, m⟩ <;> rw [hc] at h hm
    · cases h
      refine (Interrupts.checks_fault hb hc).imp_right ?_
      rintro ⟨t, ht, hr⟩
      exact ⟨devices, i, rfl, t, ht, hr⟩
    · obtain rfl : m = b.after events := hm
      have hpins := Interrupts.notebook.collect_faultsIn (b := b.after events) (l := l)
        (Interrupts.pins_confines hb pinnings) Interrupts.stopsFirst_none hl
      dsimp only at h
      rw [h] at hpins
      exact .inl (hpins fault rfl)
  | _ => exact .inl (hown fun _ _ => Layer.noConfusion)

end Layer

namespace Stack

/-- A fault of a stack with distinct keys is a fault of one of its layers, which found no entry under
its key. -/
theorem exists_layer_of_fault {s : Stack} (hk : s.keys.Nodup) {b b' : Bench} {l l' : Ledger}
    {fault : Fault} (hl : ∀ layer ∈ s, l.contains layer.key = false)
    (h : s.configure (b, l) = (.error fault, b', l')) :
    ∃ layer ∈ s, ∃ m lm, m.answer = b.answer ∧ lm.contains layer.key = false ∧
      layer.configure (m, lm) = (.error fault, b', l') := by
  induction s generalizing b l with
  | nil => cases h
  | cons layer rest ih =>
    obtain ⟨hnot, hrest⟩ := List.nodup_cons.1 hk
    have hhead := hl layer (by simp)
    rw [configure_cons, configureLayer_apply, hhead, if_neg Bool.false_ne_true] at h
    obtain ⟨events, hm, -⟩ := layer.configure_emits (b, l)
    obtain ⟨cs, -, hn, hown, -⟩ := layer.configure_performs b l hhead
    rcases hc : layer.configure (b, l) with ⟨fault' | ⟨⟩, m, lm⟩ <;> rw [hc] at h hm hn
    · cases h
      exact ⟨layer, by simp, b, l, rfl, hhead, hc⟩
    · obtain rfl : m = b.after events := hm
      obtain rfl : lm = cs.foldl Ledger.note l := hn
      -- What the first layer noted is under its own key, so the others find none under theirs.
      have hfree : ∀ other ∈ rest,
          (cs.foldl Ledger.note l).contains other.key = false := by
        intro other ho
        rw [Ledger.contains_foldl_note, hl other (by simp [ho]), Bool.false_or,
          List.any_eq_false]
        intro c hcs
        rw [(hown c hcs).key_eq]
        intro he
        exact hnot (of_decide_eq_true he ▸ List.mem_map_of_mem ho)
      obtain ⟨other, ho, hturn⟩ := ih hrest hfree h
      exact ⟨other, by simp [ho], hturn⟩

end Stack

/-- The layers of a tuning, by the keys of their entries. -/
theorem Stack.keys_unchecked (t : Tuning) (r : Roster) : (unchecked t r).keys =
    ["offloads", "mtu", "coalescing", "dev_intr_cpu_configuration", "parallel_stream_qdisc",
      "pause_frames", "dev_queues", "dev_nfc_rx_flow_hash", "dev_rx_hash_function"] := rfl

/-! ## What is written -/

theorem Course.exists_takes {b b' : Bench} {cs : List Change} {c : Change} (h : Course b cs b')
    (hc : c ∈ cs) : ∃ m m', Takes m c m' := by
  induction h with
  | done quiet => cases hc
  | step quiet takes others ih =>
    rcases List.mem_cons.1 hc with rfl | hc
    · exact ⟨_, _, takes⟩
    · exact ih hc

/-- A stack that is configured without a fault writes every attribute that it intends to. -/
theorem Stack.writes_intents {s : Stack} {b b' : Bench} {l l' : Ledger}
    (h : s.configure (b, l) = (.ok (), b', l')) : ∃ events, b' = b.after events ∧
      ∀ name d value, .setting name d value ∈ s.intents → ∃ e,
        d.writeEvent? name value = some e ∧ e ∈ b.successes Event.isChange events := by
  obtain ⟨took, -, hc, -, hk, hf⟩ := configure_follows s b l
  rw [h] at hc hf
  obtain ⟨events, hb, hs⟩ := hc.successes (plain_of_owns hk)
  refine ⟨events, hb, fun name d value hi => ?_⟩
  rw [← hf.through rfl] at hi
  obtain ⟨c, hm, hi⟩ := List.mem_filterMap.1 hi
  cases c with
  | setting name change =>
    cases hi
    obtain ⟨m, m', ht⟩ := hc.exists_takes hm
    cases ht with
    | setting look write =>
      obtain ⟨e, he, -⟩ := Device.writeEvent?_of_ok write
      refine ⟨e, he, ?_⟩
      rw [hs, List.mem_reverse]
      exact List.mem_filterMap.2 ⟨_, hm, he⟩
  | _ => cases hi

/-- A switch is intended for every device. -/
theorem Layer.Offload.mem_intents {devices : List Device} {settings : Tuning.Settings}
    {e : String × Setting} {on : Bool} (he : e ∈ settings.entries) (ho : e.2.asFlag? = some on)
    {d : Device} (hd : d ∈ devices) : Intent.setting (Attribute.offloadName e.1) d (.flag on) ∈
      (Layer.offload devices (some settings)).intents := by
  refine List.mem_flatMap.2
    ⟨(Attribute.offloadName e.1, sharedTargets devices (some (.flag on))), ?_, ?_⟩
  · refine List.mem_map.2 ⟨(Attribute.offloadName e.1, some (.flag on)), ?_, rfl⟩
    exact List.mem_map.2 ⟨e, he, by simp [ho]⟩
  · exact List.mem_filterMap.2 ⟨(d, some (.flag on)), List.mem_map.2 ⟨d, hd, rfl⟩, rfl⟩

/-! ## Main statement -/

/-- Every parameter that is given device by device is matched with the devices of its layer, and the
parameters for coalescing are not at odds. -/
structure Roster.Matches (r : Roster) (t : Tuning) : Prop where
  requests : Layer.Coalescing.requests r.coalescing t.coalescing =
    .ok (Layer.Coalescing.requestsFor t.coalescing
      (r.coalescing.zip (Layer.Coalescing.given t.coalescing r.coalescing.length)))
  plan : Layer.Coalescing.plan r.coalescing t.coalescing =
    (Layer.Coalescing.requestsFor t.coalescing
      (r.coalescing.zip (Layer.Coalescing.given t.coalescing r.coalescing.length))).flatMap
        fun q => Layer.planSettings q.1 q.2
  settings : ∀ list, t.coalescing.settings = some (.each list) →
    Layer.Coalescing.given t.coalescing r.coalescing.length = list ∧ InStep r.coalescing list
  processors : ∀ lists, t.interrupts.processors = some lists → InStep r.interrupts lists ∧
    Layer.Interrupts.targets r.interrupts t.interrupts =
      (((r.interrupts.zip lists).zip
        (Layer.Interrupts.spreadings t.interrupts r.interrupts.length)).filter fun p =>
          !p.1.2.isEmpty).map fun p => ⟨p.1.1, p.1.2, p.2⟩
  spreadings : ∀ list, t.interrupts.spreadings = some list → list ≠ [] →
    Layer.Interrupts.spreadings t.interrupts r.interrupts.length = list ∧
      InStep r.interrupts list
  queues : ∀ list, t.queues = some list → InStep r.queues list ∧
    Layer.Queues.targets r.queues t.queues =
      (r.queues.zip list).filter fun p => !p.2.isEmpty

theorem Roster.Suits.isMatch {r : Roster} {t : Tuning} (h : r.Suits t) : r.Matches t := by
  have hcoalescing := (Tuning.isValid_findings_iff.1 h.tuning).2.2.1
  have hrequests := Layer.Coalescing.requests_eq hcoalescing h.coalescing
  constructor
  · exact hrequests
  · unfold Layer.Coalescing.plan
    rw [hrequests]
  · intro list hs
    have hlength := Tuning.Coalescing.isValid_lengthFindings_iff.1 h.coalescing list hs
    exact ⟨by simp [Layer.Coalescing.given, hs], .of_length hlength⟩
  · intro lists hp
    have hlength := (Tuning.Interrupts.isValid_lengthFindings_iff.1 h.interrupts).1 lists hp
    exact ⟨.of_length hlength, Layer.Interrupts.targets_eq h.interrupts hp⟩
  · intro list hs hne
    have hlength := (Tuning.Interrupts.isValid_lengthFindings_iff.1 h.interrupts).2 list hs hne
    refine ⟨?_, .of_length hlength⟩
    simp [Layer.Interrupts.spreadings, hs]
  · intro list hq
    have hlength := Tuning.isValid_queueLengthFindings_iff.1 h.queues list hq
    exact ⟨.of_length hlength, by simp [Layer.Queues.targets, hq]⟩

/-- No layer is asked for what is at odds. -/
theorem Roster.Matches.requests?_ne_error {r : Roster} {t : Tuning} (h : r.Matches t)
    {layer : Layer} (hm : layer ∈ Stack.unchecked t r) (fault : Fault) :
    layer.requests? ≠ some (.error fault) := by
  intro hq
  cases layer with
  | coalescing devices c =>
    obtain ⟨rfl, rfl⟩ : devices = r.coalescing ∧ c = t.coalescing := by
      simpa [Stack.unchecked] using hm
    cases (Option.some.inj hq).symm.trans h.requests
  | _ => cases hq

/-- A stack that was made for a validated tuning fails only where hosts and devices do, or because a
machine lacks a processor. All that is given device by device is matched with the devices, and if
the stack does not fail, every feature was written to every device. -/
theorem Stack.standard_is_admitted {t : Tuning} {r : Roster} {s : Stack} {b : Bench}
    (h : standard t r = .ok s) (hb : b.FailsOperationally) :
    r.Matches t ∧
    (∀ fault b' l, s.configure (b, .empty) = (.error fault, b', l) →
      fault.IsOperational ∨ ∃ layer ∈ s, layer.LacksProcessor b' fault) ∧
    ∀ b' l, s.configure (b, .empty) = (.ok (), b', l) → ∃ events, b' = b.after events ∧
      ∀ settings, t.offload = some settings → ∀ e ∈ settings.entries, ∃ on,
        e.2.asFlag? = some on ∧ ∀ d ∈ r.offload, ∃ written,
          d.writeEvent? (Attribute.offloadName e.1) (.flag on) = some written ∧
          written ∈ b.successes Event.isChange events := by
  obtain ⟨hsuits, rfl⟩ := standard_eq_ok_iff.1 h
  have hmatches := hsuits.isMatch
  refine ⟨hmatches, fun fault b' l hc => ?_, fun b' l hc => ?_⟩
  · have hkeys : (unchecked t r).keys.Nodup := by
      rw [keys_unchecked]
      decide
    obtain ⟨layer, hm, m, lm, ha, hl, he⟩ := exists_layer_of_fault hkeys (fun _ _ => rfl) hc
    have hodds := hmatches.requests?_ne_error hm
    have hb' : m.FailsOperationally := by
      unfold Bench.FailsOperationally
      rw [ha]
      exact hb
    exact (Layer.fault_of_configure hb' hl hodds he).imp_right fun hp => ⟨layer, hm, hp⟩
  · obtain ⟨events, he, hw⟩ := writes_intents hc
    refine ⟨events, he, fun settings hs e hm => ?_⟩
    have hoffload := (Tuning.isValid_findings_iff.1 hsuits.tuning).1
    rw [hs] at hoffload
    have hswitch := (Tuning.isValid_offloadFindings_iff.1 hoffload e hm).2
    obtain ⟨on, hon⟩ := Option.isSome_iff_exists.1 hswitch
    refine ⟨on, hon, fun d hd => hw _ _ _ ?_⟩
    refine List.mem_flatMap.2 ⟨_, List.mem_cons_self, ?_⟩
    rw [hs]
    exact Layer.Offload.mem_intents hm hon hd

namespace Stack

/-- Two devices in memory for all layers. -/
def twoDevices : Roster :=
  let machine : Host := ⟨"", "lab"⟩
  .uniform [⟨"eth0", machine, machine, none, .memory "eth0"⟩,
    ⟨"eth1", machine, machine, none, .memory "eth1"⟩]

/-- Every attribute is one, and the machine has four processors. -/
def fourProcessors : Bench :=
  { Bench.quiet.addRule "" ⟨"lscpu", .ok "CPU(s): 4"⟩ with
    memory := fun _ => ⟨fun _ => some (.number 1), true, false⟩ }

/-- The second device is left alone, but has its place in every list. -/
def firstDeviceTuning : Tuning where
  offload := some (.ofList [("gro", .flag false)])
  coalescing.settings := some (.each [some (.ofList [("rx-usecs", .number 64)]), none])
  interrupts.processors := some [[2, 4], []]
  interrupts.spreadings := some [.all, .roundRobin]

/-- The tuning asks for the fifth processor, which validation cannot know to be missing. -/
theorem standard_is_admitted_on_four_processors :
    standard firstDeviceTuning twoDevices = .ok (unchecked firstDeviceTuning twoDevices) ∧
    fourProcessors.FailsOperationally ∧ twoDevices.Matches firstDeviceTuning ∧
    ∃ b' l, (unchecked firstDeviceTuning twoDevices).configure (fourProcessors, .empty) =
        (.error (.invalidParameter "dev_intr_cpu_lists"
          "Invalid CPU value given: 4. Accepted values are: 0..3."), b', l) ∧
      ∃ layer ∈ unchecked firstDeviceTuning twoDevices, layer.LacksProcessor b'
        (.invalidParameter "dev_intr_cpu_lists"
          "Invalid CPU value given: 4. Accepted values are: 0..3.") := by
  have h : standard firstDeviceTuning twoDevices =
      .ok (unchecked firstDeviceTuning twoDevices) := by rfl
  have hquiet : Bench.quiet.FailsOperationally :=
    Bench.failsOperationally_of_ok fun _ _ _ => ⟨_, rfl⟩
  have hb : fourProcessors.FailsOperationally := hquiet.addRule "" _
  obtain ⟨hmatches, hfaults, -⟩ := standard_is_admitted h hb
  have hc : (unchecked firstDeviceTuning twoDevices).configure (fourProcessors, .empty) =
      (.error (.invalidParameter "dev_intr_cpu_lists"
        "Invalid CPU value given: 4. Accepted values are: 0..3."),
        ((unchecked firstDeviceTuning twoDevices).configure (fourProcessors, .empty)).2) := by rfl
  refine ⟨h, hb, hmatches, _, _, hc, ?_⟩
  rcases hfaults _ _ _ hc with hoperational | hlacks
  · exact hoperational.elim
  · exact hlacks

end Stack

end NicTuning
