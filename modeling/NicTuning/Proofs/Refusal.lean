import NicTuning.Proofs.Accounting
import NicTuning.Proofs.Faults
import NicTuning.Proofs.Services

/-!
# Layers that are applied twice

Main statement: a layer that is configured on its own looks for a place in the ledger only when it
has something to note, so it is refused exactly if there is no place and something took effect, and
then the ledger does not know what. A stack looks first, and is refused before anything happens.
-/
namespace NicTuning

/-! ## Refusals -/

/-- The result is not the refusal to apply a layer on top of itself. -/
def Unrefused {α : Type} (r : Except Fault α) : Prop :=
  ∀ key, r ≠ .error (.alreadyConfigured key)

/-- The fault is not the refusal to apply a layer on top of itself. -/
def Fault.IsNoRefusal (fault : Fault) : Prop := ∀ key, fault ≠ .alreadyConfigured key

theorem Fault.IsOperational.isNoRefusal {fault : Fault} (h : fault.IsOperational) :
    fault.IsNoRefusal := by
  rintro key rfl
  exact h

theorem Fault.IsInvalidParameter.isNoRefusal {fault : Fault} (h : fault.IsInvalidParameter) :
    fault.IsNoRefusal := by
  rintro key rfl
  exact h

theorem unrefused_iff {α : Type} {r : Except Fault α} :
    Unrefused r ↔ FaultsIn Fault.IsNoRefusal r := by
  constructor
  · rintro h fault rfl key rfl
    exact h key rfl
  · intro h key he
    exact h _ he key rfl

namespace Unrefused

variable {α β : Type}

theorem ok (x : α) : Unrefused (.ok x : Except Fault α) := unrefused_iff.2 (.ok x)

/-- Whether a fault is a refusal has nothing to do with the result that it took the place of. -/
theorem of_error {fault : Fault} (h : Unrefused (.error fault : Except Fault α)) :
    Unrefused (.error fault : Except Fault β) :=
  unrefused_iff.2 (unrefused_iff.1 h).of_error

end Unrefused

namespace Bench

/-- No host answers a command with the refusal to apply a layer. -/
def LeavesRefusing (b : Bench) : Prop :=
  ∀ history address command, Unrefused (b.answer history address command)

theorem leavesRefusing_quiet : quiet.LeavesRefusing := fun _ _ _ => .ok _

theorem LeavesRefusing.covers {b : Bench} (h : b.LeavesRefusing) :
    Covers Fault.IsNoRefusal b.answer where
  operational _ hf := hf.isNoRefusal
  answer history address command := unrefused_iff.1 (h history address command)

theorem LeavesRefusing.addRule {b : Bench} (h : b.LeavesRefusing) (address : String)
    (rule : Rule) : (b.addRule address rule).LeavesRefusing := fun history a command =>
  unrefused_iff.2 ((h.covers.addRule address rule).answer history a command)

end Bench

/-! ## Refused actions -/

/-- Nothing is noted in the ledger. The action is refused if something of a kind took effect, and
only then. -/
def RefusedOn (l : Ledger) (key : String) (kind : Event → Bool) (act : SessionM Unit) : Prop :=
  ∀ b, b.LeavesRefusing → ∃ events result, act (b, l) = (result, b.after events, l) ∧
    (Unrefused result ∧ b.successes kind events = [] ∨
      result = .error (.alreadyConfigured key) ∧ b.successes kind events ≠ [])

namespace RefusedOn

variable {α : Type} {l : Ledger} {key : String} {kind : Event → Bool}

theorem done : RefusedOn l key kind (pure ()) :=
  fun _ _ => ⟨[], .ok (), rfl, .inl ⟨.ok (), rfl⟩⟩

theorem bind {act next : SessionM Unit} (h : RefusedOn l key kind act)
    (hn : RefusedOn l key kind next) : RefusedOn l key kind (act >>= fun _ => next) := by
  intro b hb
  obtain ⟨older, result, ha, hr⟩ := h b hb
  rw [ActionM.bind_apply, ha]
  rcases hr with ⟨hr, hs⟩ | ⟨rfl, hs⟩
  · cases result with
    | error fault => exact ⟨older, .error fault, rfl, .inl ⟨hr, hs⟩⟩
    | ok x =>
      obtain ⟨newer, result, ha', hr'⟩ := hn (b.after older) hb
      refine ⟨newer ++ older, result, ?_, ?_⟩
      · rw [← Bench.after_after]
        exact ha'
      · rw [Bench.successes_append, hs, List.append_nil]
        exact hr'
  · exact ⟨older, _, rfl, .inr ⟨rfl, hs⟩⟩

theorem forEach {act : α → SessionM Unit} {xs : List α}
    (h : ∀ x ∈ xs, RefusedOn l key kind (act x)) :
    RefusedOn l key kind (NotingM.forEach act xs) := by
  induction xs with
  | nil => exact done
  | cons x rest ih => exact bind (h x (by simp)) (ih fun y hy => h y (by simp [hy]))

end RefusedOn

/-! ## Attributes -/

/-- Of all that is read and written for an attribute and a value, only the write itself is of the
kind. -/
structure Catches (kind : Event → Bool) (name : String) (value : Setting) : Prop where
  passes : ∀ e, e.touches = false → kind e = false
  takes : ∀ e, e.touches = true →
    ((name = "mtu" → ∃ n, value = .number n) → e.isChange = true) → kind e = true

namespace Catches

variable {name : String} {value : Setting}

theorem touches : Catches Event.touches name value where
  passes _ h := h
  takes _ h _ := h

theorem isChange (h : name = "mtu" → ∃ n, value = .number n) :
    Catches Event.isChange name value where
  passes _ := Event.isChange_of_touches
  takes _ _ he := he h

end Catches

namespace Layer

variable {key name : String} {d : Device} {value : Setting} {l : Ledger} {kind : Event → Bool}

/-- An attribute that could not be read or written is as it was. -/
theorem successes_of_rewrite_error {b b' : Bench} {fault : Fault}
    (hkind : Catches kind name value) (h : rewrite name d value b = (.error fault, b')) :
    ∃ events, b' = b.after events ∧ b.successes kind events = [] := by
  have hget : b.successes kind (d.getEvents name) = [] :=
    Bench.successes_eq_nil fun e he => hkind.passes e (d.touches_getEvents name e he)
  have hm := d.get_bench b name
  unfold rewrite at h
  rw [ActionM.bind_apply] at h
  rcases hg : d.get name b with ⟨fault | previous, m⟩ <;> rw [hg] at h hm
  · obtain ⟨-, rfl⟩ := Prod.mk.inj h
    exact ⟨_, hm, hget⟩
  · obtain rfl : m = b.after (d.getEvents name) := hm
    have hset := (Device.set_of_error (show d.set name value _ = _ from h) kind).2
    have hb := d.set_bench (b.after (d.getEvents name)) name value
    rw [show d.set name value _ = _ from h] at hb
    refine ⟨_, hb.trans (Bench.after_after _ _ _), ?_⟩
    rw [Bench.successes_append, hset, hget, List.append_nil]

/-- An attribute that was read and written has changed. -/
theorem successes_of_takes {b b' : Bench} {previous : Setting}
    (hkind : Catches kind name value) (h : Takes b (.setting name ⟨d, previous, value⟩) b') :
    ∃ events, b' = b.after events ∧ b.successes kind events ≠ [] := by
  cases h with
  | @setting _ _ _ _ _ m _ look write =>
    have hm := d.get_bench b name
    rw [look] at hm
    obtain rfl : m = b.after (d.getEvents name) := hm
    obtain ⟨e, -, rfl, ha, ht, hc⟩ := Device.writeEvent?_of_ok write
    refine ⟨[e] ++ d.getEvents name, Bench.after_after _ _ _, ?_⟩
    rw [Bench.successes_append]
    simp [Bench.successes, hkind.takes e ht hc, ha]

/-- The write comes first, the refusal after it. -/
theorem changeSetting_refusedOn (hl : ¬l.TakesSettings key) (hkind : Catches kind name value) :
    RefusedOn l key kind (changeSetting key name d value) := by
  intro b hb
  rcases changeSetting_cases key name d value b l with
    ⟨fault, b', he, -, hr⟩ | ⟨previous, b', ht, he⟩
  · obtain ⟨events, rfl, hs⟩ := successes_of_rewrite_error hkind hr
    have hu := (rewrite_confines hb.covers name d value b rfl).2
    rw [hr] at hu
    exact ⟨events, .error fault, he, .inl ⟨unrefused_iff.2 hu, hs⟩⟩
  · obtain ⟨events, rfl, hs⟩ := successes_of_takes hkind ht
    rw [NotingM.amend_error _ (Ledger.push_of_not_takesSettings hl name _)] at he
    exact ⟨events, _, he, .inr ⟨rfl, hs⟩⟩

theorem changeSettings_refusedOn {targets : List Target} (hl : ¬l.TakesSettings key)
    (hkind : ∀ target ∈ targets, ∀ value, target.2 = some value → Catches kind name value) :
    RefusedOn l key kind (changeSettings key name targets) := by
  refine RefusedOn.forEach fun target ht => ?_
  obtain ⟨d, - | value⟩ := target
  · exact .done
  · exact changeSetting_refusedOn hl (hkind _ ht value rfl)

end Layer

theorem Change.filterMap_event?_ne_nil {cs : List Change} {c : Change} (hm : c ∈ cs)
    (hc : c.event?.isSome = true) : cs.filterMap event? ≠ [] := by
  intro h
  rw [List.filterMap_eq_nil_iff] at h
  rw [h c hm] at hc
  cases hc

namespace Notebook

variable {σ : Type} {n : Notebook σ} {act : NotingM σ Unit} {kept : σ → Prop} {b : Bench}
  {l : Ledger} {P : Fault → Prop}

/-- No fault of the action is a refusal, on hosts that do not refuse themselves. -/
def NeverRefused (kept : σ → Prop) (act : NotingM σ Unit) : Prop :=
  ∀ b : Bench, b.LeavesRefusing → Confines Fault.IsNoRefusal (Keeps b.answer kept) act

/-- Notes that have a place are entered, and every fault is the action's own. -/
theorem collect_faultsIn (hact : Confines P (Keeps b.answer kept) act) (hstart : kept n.start)
    (hl : l.contains n.key = false) : FaultsIn P (n.collect act (b, l)).1 := by
  have hr := (hact (b, n.start) ⟨rfl, hstart⟩).2
  have hadd : ∀ entry, l.add n.key entry = .ok (l.insert n.key entry) :=
    fun entry => if_neg (Bool.eq_false_iff.1 hl)
  rw [collect_apply, hadd]
  split <;> exact hr

/-- Notes are entered when everything is done, and refused then. -/
theorem collect_refusedOn (hrecords : Records n.note (fun _ => True) n.kind act)
    (hact : NeverRefused kept act) (hstart : kept n.start)
    (hkept : ∀ cs, (∀ c ∈ cs, n.kind c) → cs ≠ [] → kept (cs.foldl n.note n.start) →
      cs.filterMap Change.event? ≠ [])
    (hl : l.contains n.key = true) : RefusedOn l n.key Event.isChange (n.collect act) := by
  intro b hb
  obtain ⟨cs, hc, hs, hk⟩ := hrecords b n.start trivial
  obtain ⟨⟨-, hn⟩, hr⟩ := hact b hb (b, n.start) ⟨rfl, hstart⟩
  obtain ⟨events, he, hsuccess⟩ := hc.successes fun c hm => n.plain_of_kind c (hk c hm)
  have hadd : ∀ entry, l.add n.key entry = .error (.alreadyConfigured n.key) :=
    fun entry => if_pos hl
  rw [collect_apply, hs, isEmpty_foldl hk, hadd, he]
  cases cs with
  | nil => exact ⟨events, _, rfl, .inl ⟨unrefused_iff.2 hr, hsuccess⟩⟩
  | cons c cs =>
    refine ⟨events, _, rfl, .inr ⟨rfl, ?_⟩⟩
    rw [hsuccess, ne_eq, List.reverse_eq_nil_iff]
    exact hkept (c :: cs) hk (by simp) (hs ▸ hn)

/-- Notes that all tell of an event of their own. -/
theorem collect_refusedOn_of_event (hrecords : Records n.note (fun _ => True) n.kind act)
    (hact : NeverRefused (fun _ => True) act)
    (hevent : ∀ c, n.kind c → c.event?.isSome = true) (hl : l.contains n.key = true) :
    RefusedOn l n.key Event.isChange (n.collect act) := by
  refine collect_refusedOn hrecords hact trivial (fun cs hk hne _ => ?_) hl
  obtain ⟨c, hm⟩ := List.exists_mem_of_ne_nil cs hne
  exact Change.filterMap_event?_ne_nil hm (hevent c (hk c hm))

end Notebook

namespace Layer

/-! ### Layers without a place -/

variable {l : Ledger}

theorem Queues.configure_refusedOn (devices : List Device)
    (counts : Option (List (Dict UInt32))) (hl : l.contains key = true) :
    RefusedOn l key Event.isChange (configure devices counts) := by
  refine notebook.collect_refusedOn_of_event (changes_performs devices counts).records
    (fun _ hb => changes_confines hb.covers _) ?_ hl
  rintro c ⟨change, rfl⟩
  rfl

theorem Qdisc.configure_refusedOn (devices : List Device) (streams : Option UInt32)
    (hl : l.contains key = true) :
    RefusedOn l key Event.isChange (configure devices streams) := by
  unfold configure
  split
  · refine notebook.collect_refusedOn_of_event (changes_performs devices).records
      (fun _ hb => changes_confines hb.covers devices) ?_ hl
    rintro c ⟨change, rfl⟩
    rfl
  · exact .done

namespace Interrupts

/-- Whenever something is noted, a balancer was stopped. -/
theorem exists_stop {cs : List Change} (hk : ∀ c ∈ cs, notebook.kind c) (hne : cs ≠ [])
    (hs : StopsFirst (cs.foldl notebook.note notebook.start)) : ∃ h, Change.stop h ∈ cs := by
  by_contra hno
  have hpins : ∀ c ∈ cs, ∃ d, c = .pin d := by
    intro c hm
    rcases hk c hm with ⟨h, rfl⟩ | hd
    · exact absurd ⟨h, hm⟩ hno
    · exact hd
  have hstopped : (cs.foldl notebook.note notebook.start).stopped = [] :=
    stopped_foldl_note hpins .none
  have hpinned : (cs.foldl notebook.note notebook.start).pinned = [] := by
    by_contra hp
    exact hs hp hstopped
  have hempty := notebook.isEmpty_foldl hk
  rw [show notebook.isEmpty _ = (_ && _) from rfl, hstopped, hpinned] at hempty
  exact hne (List.isEmpty_iff.1 hempty.symm)

theorem configure_refusedOn (devices : List Device) (i : Tuning.Interrupts)
    (hl : l.contains key = true) :
    RefusedOn l key Event.isChange (configure devices i) := by
  intro b hb
  obtain ⟨checks, hm, hs, -⟩ := check_quiet (targets devices i) b
  have hr := (checks_confines hb.covers (targets devices i)
    (fun _ _ _ _ h => h.isInvalidParameter.isNoRefusal) b rfl).2
  rw [configure_apply]
  rcases hc : (targets devices i).mapM check b with ⟨fault | pinnings, m⟩ <;>
    rw [hc] at hm hr <;> obtain rfl : m = b.after checks := hm
  · exact ⟨checks, .error fault, rfl, .inl ⟨unrefused_iff.2 hr.of_error, hs⟩⟩
  · have hcollect : RefusedOn l key Event.isChange
        (notebook.collect (NotingM.forEach pin pinnings)) := by
      refine notebook.collect_refusedOn (pins_performs pinnings).records
        (fun _ hb => pins_confines hb.covers pinnings) stopsFirst_none
        (fun cs hk hne hkept => ?_) hl
      obtain ⟨h, hm⟩ := exists_stop hk hne hkept
      exact Change.filterMap_event?_ne_nil hm rfl
    obtain ⟨events, result, he, hres⟩ := hcollect (b.after checks) hb
    refine ⟨events ++ checks, result, ?_, ?_⟩
    · rw [← Bench.after_after]
      exact he
    · rw [Bench.successes_append, hs, List.append_nil]
      exact hres

end Interrupts

/-- The ledger has an entry to which the layer cannot add its notes. -/
def RefusedBy (l : Ledger) : Layer → Prop
  | interrupts .. => l.contains Interrupts.key = true
  | qdisc .. => l.contains Qdisc.key = true
  | queues .. => l.contains Queues.key = true
  | inert _ => False
  | layer => ¬l.TakesSettings layer.key

theorem refusedBy_of_requests? {layer : Layer}
    {requests : Except Fault (List (String × List NicTuning.Target))}
    (h : layer.requests? = some requests) :
    layer.RefusedBy l ↔ ¬l.TakesSettings layer.key := by
  cases layer <;> first | rfl | cases h

theorem refuses_of_requests? {layer : Layer} {answers : Answers} {fault : Fault}
    (h : layer.requests? = some (.error fault)) : layer.Refuses answers fault := by
  cases layer <;> first | exact h | cases h

theorem configure_refusedOn {layer : Layer} (h : layer.RefusedBy l) :
    RefusedOn l layer.key Event.isChange layer.configure := by
  cases hq : layer.requests? with
  | some requests =>
    have hl := (refusedBy_of_requests? hq).1 h
    rw [show layer.configure = changeAll layer.key requests from
      funext (configure_of_requests? hq)]
    cases requests with
    | error fault =>
      have hu := (requests?_faultsIn hq).mono fun _ hf => hf.isNoRefusal
      exact fun b _ => ⟨[], .error fault, rfl, .inl ⟨unrefused_iff.2 hu.of_error, rfl⟩⟩
    | ok rs =>
      rw [show changeAll layer.key (.ok rs) = _ from funext (changeAll_ok layer.key rs)]
      refine .forEach fun r hr => changeSettings_refusedOn hl fun t ht value hv => ?_
      exact .isChange fun hm => (settingKey_of_requests? hq r hr).2 hm t ht value hv
  | none =>
    cases layer with
    | interrupts devices i => exact Interrupts.configure_refusedOn devices i h
    | qdisc devices streams => exact Qdisc.configure_refusedOn devices streams h
    | queues devices counts => exact Queues.configure_refusedOn devices counts h
    | inert key => exact h.elim
    | _ => cases hq

/-! ### Layers with a place -/

/-- On hosts whose faults are of a kind, so are the faults of a layer that has a place in the
ledger, if the kind covers what the layer itself refuses. -/
theorem configure_faultsIn {layer : Layer} {b : Bench} {P : Fault → Prop}
    (hP : Covers P b.answer) (hown : ∀ fault, layer.Refuses b.answer fault → P fault)
    (h : ¬layer.RefusedBy l) : FaultsIn P (layer.configure (b, l)).1 := by
  cases hq : layer.requests? with
  | some requests =>
    have hl : l.TakesSettings layer.key := not_not.1 (mt (refusedBy_of_requests? hq).2 h)
    rw [configure_of_requests? hq]
    cases requests with
    | error fault => exact .error (hown fault (refuses_of_requests? hq))
    | ok rs =>
      rw [changeAll_ok]
      exact (Confines.forEach (fun r _ => changeSettings_confines hP layer.key r.1 r.2)
        (b, l) ⟨rfl, hl⟩).2
  | none =>
    cases layer with
    | interrupts devices i =>
      have hchecks := Interrupts.checks_confines hP (Interrupts.targets devices i)
        (fun t ht history fault hf => hown fault ⟨t, ht, history, hf⟩) b rfl
      change FaultsIn P (Interrupts.configure devices i (b, l)).1
      rw [Interrupts.configure_apply]
      rcases hc : (Interrupts.targets devices i).mapM Interrupts.check b with
        ⟨fault | pinnings, m⟩ <;> rw [hc] at hchecks
      · exact hchecks.2.of_error
      · have hm : m.answer = b.answer := hchecks.1
        have hpins := Interrupts.pins_confines hP pinnings
        rw [← hm] at hpins
        exact Notebook.collect_faultsIn hpins Interrupts.stopsFirst_none (Bool.eq_false_iff.2 h)
    | qdisc devices streams =>
      change FaultsIn P (Qdisc.configure devices streams (b, l)).1
      unfold Qdisc.configure
      split
      · exact Qdisc.notebook.collect_faultsIn (Qdisc.changes_confines hP devices) trivial
          (Bool.eq_false_iff.2 h)
      · exact .ok ()
    | queues devices counts =>
      exact Queues.notebook.collect_faultsIn (Queues.changes_confines hP _) trivial
        (Bool.eq_false_iff.2 h)
    | inert key => exact .ok ()
    | _ => cases hq

theorem configure_unrefused {layer : Layer} {b : Bench} (hb : b.LeavesRefusing)
    (h : ¬layer.RefusedBy l) : Unrefused (layer.configure (b, l)).1 :=
  unrefused_iff.2
    (configure_faultsIn hb.covers (fun _ hf => hf.isInvalidParameter.isNoRefusal) h)

end Layer

/-! ## When actions are refused -/

/-- The action is refused exactly if the ledger is full for it and something of a kind took effect.
A full ledger stays as it is. -/
def RefusedAfter (b : Bench) (l : Ledger) (key : String) (full : Prop) (kind : Event → Bool)
    (act : SessionM Unit) : Prop :=
  ∃ events, (act (b, l)).2.1 = b.after events ∧
    (∀ key', (act (b, l)).1 = .error (.alreadyConfigured key') ↔
      key' = key ∧ full ∧ b.successes kind events ≠ []) ∧
    (full → (act (b, l)).2.2 = l)

namespace RefusedAfter

variable {b : Bench} {l : Ledger} {key : String} {full : Prop} {kind : Event → Bool}
  {act : SessionM Unit}

theorem of_full (h : RefusedOn l key kind act) (hb : b.LeavesRefusing) (hf : full) :
    RefusedAfter b l key full kind act := by
  obtain ⟨events, result, he, hr⟩ := h b hb
  refine ⟨events, by rw [he], fun key' => ?_, fun _ => by rw [he]⟩
  rw [he]
  rcases hr with ⟨hr, hs⟩ | ⟨rfl, hs⟩
  · constructor
    · intro h
      exact absurd h (hr key')
    · rintro ⟨-, -, hne⟩
      exact absurd hs hne
  · constructor
    · intro h
      cases h
      exact ⟨rfl, hf, hs⟩
    · rintro ⟨rfl, -, -⟩
      rfl

theorem of_not_full (he : ∃ events, (act (b, l)).2.1 = b.after events)
    (h : Unrefused (act (b, l)).1) (hf : ¬full) : RefusedAfter b l key full kind act := by
  obtain ⟨events, he⟩ := he
  refine ⟨events, he, fun key' => ?_, fun hfull => absurd hfull hf⟩
  constructor
  · intro hr
    exact absurd hr (h key')
  · rintro ⟨-, hfull, -⟩
    exact absurd hfull hf

end RefusedAfter

/-- A layer that is configured on its own is refused exactly if the ledger has no place for its
notes and something took effect, which the ledger does not know then. So is the change of any
attribute under any key. -/
theorem refused_iff_changed (b : Bench) (l : Ledger) (hb : b.LeavesRefusing) :
    (∀ layer : Layer,
      RefusedAfter b l layer.key (layer.RefusedBy l) Event.isChange layer.configure) ∧
    ∀ key name targets, RefusedAfter b l key (¬l.TakesSettings key) Event.touches
      (Layer.changeSettings key name targets) := by
  constructor
  · intro layer
    by_cases h : layer.RefusedBy l
    · exact .of_full (Layer.configure_refusedOn h) hb h
    · obtain ⟨events, he, -⟩ := layer.configure_emits (b, l)
      exact .of_not_full ⟨events, he⟩ (Layer.configure_unrefused hb h) h
  · intro key name targets
    by_cases h : l.TakesSettings key
    · have hu := Layer.changeSettings_confines hb.covers key name targets (b, l) ⟨rfl, h⟩
      obtain ⟨events, he, -⟩ := Layer.changeSettings_emits key name targets (b, l)
      exact .of_not_full ⟨events, he⟩ (unrefused_iff.2 hu.2) (not_not.2 h)
    · exact .of_full (Layer.changeSettings_refusedOn h fun _ _ _ _ => .touches) hb h

namespace Layer.Interrupts

/-- A machine with two processors on which every command succeeds. -/
def sampleBench : Bench := Bench.quiet.addRule "" ⟨"lscpu", .ok "CPU(s): 2"⟩

def sampleDevice : Device := ⟨"eth0", ⟨"", "lab"⟩, ⟨"", "lab"⟩, none, .memory "eth0"⟩

/-- Pins the interrupts of the device to the first processor. -/
def sampleLayer : Layer := .interrupts [sampleDevice] ⟨some [[0]], none⟩

def sampleLedger : Ledger := Register.empty.insert key (.interrupts .none)

/-- The layer is refused, and the balancer that it stopped is not in the ledger. -/
theorem refused_with_balancer_stopped :
    sampleBench.LeavesRefusing ∧
    (sampleLayer.configure (sampleBench, sampleLedger)).1 = .error (.alreadyConfigured key) ∧
    (sampleLayer.configure (sampleBench, sampleLedger)).2.2 = sampleLedger ∧
    ∃ events, (sampleLayer.configure (sampleBench, sampleLedger)).2.1 = sampleBench.after events ∧
      sampleBench.successes Event.isChange events ≠ [] := by
  have hb : sampleBench.LeavesRefusing := Bench.leavesRefusing_quiet.addRule "" _
  have hr : (sampleLayer.configure (sampleBench, sampleLedger)).1 =
      .error (.alreadyConfigured key) := rfl
  obtain ⟨events, he, hi, hl⟩ := (refused_iff_changed sampleBench sampleLedger hb).1 sampleLayer
  exact ⟨hb, hr, hl rfl, events, he, ((hi key).1 hr).2.2⟩

/-- So a refusal does not mean that nothing was touched. -/
theorem not_untouched_when_refused : ¬∀ (layer : Layer) (b : Bench) (l : Ledger) (key : String),
    b.LeavesRefusing → (layer.configure (b, l)).1 = .error (.alreadyConfigured key) →
    ∀ events, (layer.configure (b, l)).2.1 = b.after events → ∀ e ∈ events, e.touches = false := by
  intro h
  have hb : sampleBench.LeavesRefusing := Bench.leavesRefusing_quiet.addRule "" _
  have hstop := h sampleLayer sampleBench sampleLedger key hb rfl
    [.ran "" "cat /proc/interrupts", .ran "" "service irqbalance stop", .ran "" "lscpu"] rfl
    (.ran "" "service irqbalance stop") (by simp)
  exact absurd hstop (show ¬Command.touches "service irqbalance stop" = false by decide)

end Layer.Interrupts

/-! ## Stacks -/

theorem Layer.not_refusedBy {layer : Layer} {l : Ledger} (h : l.contains layer.key = false) :
    ¬layer.RefusedBy l := by
  intro hr
  cases layer with
  | inert key => exact hr
  | interrupts | qdisc | queues => exact Bool.eq_false_iff.1 h hr
  | _ => exact hr (Ledger.takesSettings_of_contains h)

/-- A layer of a stack is refused exactly if the ledger has an entry under its key, and then
nothing happens. -/
theorem Stack.configureLayer_refused_iff (layer : Layer) (b : Bench) (l : Ledger)
    (hb : b.LeavesRefusing) :
    (∀ key, (configureLayer layer (b, l)).1 = .error (.alreadyConfigured key) ↔
      key = layer.key ∧ l.contains layer.key = true) ∧
    (l.contains layer.key = true → (configureLayer layer (b, l)).2 = (b, l)) := by
  rw [configureLayer_apply]
  cases hc : l.contains layer.key with
  | true =>
    rw [if_pos rfl]
    refine ⟨fun key => ?_, fun _ => rfl⟩
    constructor
    · intro h
      cases h
      exact ⟨rfl, rfl⟩
    · rintro ⟨rfl, -⟩
      rfl
  | false =>
    rw [if_neg Bool.false_ne_true]
    refine ⟨fun key => ?_, fun h => by cases h⟩
    constructor
    · intro h
      exact absurd h (Layer.configure_unrefused hb (Layer.not_refusedBy hc) key)
    · rintro ⟨-, h⟩
      cases h

end NicTuning
