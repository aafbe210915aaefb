import NicTuning.Bench.Script
import NicTuning.Proofs.Layers

/-!
# Kinds of faults

Hosts and devices, and whatever reads their answers, fail in operational ways only. So the faults of
a whole action are of a kind if the answers of hosts are and the kind covers operational faults: only
what an action refuses by itself has to be looked at. In particular only the ledger refuses a layer
because it was applied before.
-/
namespace NicTuning

/-- Devices and hosts, or what they print, are to blame, but neither parameters nor the ledger. -/
def Fault.IsOperational : Fault → Prop
  | io _ | remoteCommand .. | parse _ | unsupportedAttribute .. => True
  | _ => False

/-- A parameter is to blame. -/
def Fault.IsInvalidParameter : Fault → Prop
  | invalidParameter .. => True
  | _ => False

/-- The result is a value or a fault of a kind. -/
def FaultsIn {α : Type} (P : Fault → Prop) (r : Except Fault α) : Prop :=
  ∀ fault, r = .error fault → P fault

namespace FaultsIn

variable {α β : Type} {P Q : Fault → Prop}

theorem ok (x : α) : FaultsIn P (.ok x : Except Fault α) := by
  intro fault h
  cases h

theorem error {fault : Fault} (h : P fault) : FaultsIn P (.error fault : Except Fault α) := by
  intro fault' he
  cases he
  exact h

/-- The kind of a fault has nothing to do with the result that it took the place of. -/
theorem of_error {fault : Fault} (h : FaultsIn P (.error fault : Except Fault α)) :
    FaultsIn P (.error fault : Except Fault β) :=
  error (h fault rfl)

theorem bind {r : Except Fault α} {next : α → Except Fault β} (h : FaultsIn P r)
    (hn : ∀ x, FaultsIn P (next x)) : FaultsIn P (r >>= next) := by
  cases r with
  | error fault => exact h.of_error
  | ok x => exact hn x

theorem map {r : Except Fault α} (h : FaultsIn P r) (f : α → β) : FaultsIn P (r.map f) := by
  cases r with
  | error fault => exact h.of_error
  | ok x => exact ok (f x)

theorem mapM {act : α → Except Fault β} {xs : List α} (h : ∀ x ∈ xs, FaultsIn P (act x)) :
    FaultsIn P (xs.mapM act) := by
  induction xs with
  | nil => exact ok []
  | cons x rest ih =>
    rw [List.mapM_cons]
    exact (h x (by simp)).bind fun y => (ih fun z hz => h z (by simp [hz])).bind fun ys => ok _

theorem mono {r : Except Fault α} (h : FaultsIn P r) (hpq : ∀ fault, P fault → Q fault) :
    FaultsIn Q r := by
  intro fault he
  exact hpq fault (h fault he)

end FaultsIn

/-! ## What is read and checked -/

theorem Output.check_faultsIn (o : Output) (host command : String) :
    FaultsIn Fault.IsOperational (o.check host command) := by
  unfold check
  split
  · exact .ok o
  · exact .error trivial

namespace Report

theorem linkIsUp_faultsIn (output : String) : FaultsIn Fault.IsOperational (linkIsUp output) := by
  refine FaultsIn.map ?_ _
  unfold linkFlags
  split
  · exact .error trivial
  · split
    · exact .ok _
    · exact .error trivial

theorem processorCount_faultsIn (output : String) :
    FaultsIn Fault.IsOperational (processorCount output) := by
  unfold processorCount
  dsimp only
  split
  · exact .ok _
  · exact .error trivial

theorem Channels.readLines_faultsIn (known : Channels) (open? : Option Section)
    (lines : List String) : FaultsIn Fault.IsOperational (readLines known open? lines) := by
  induction lines generalizing known open? with
  | nil => exact .ok known
  | cons line rest ih =>
    unfold readLines
    split
    · exact ih known open?
    · split
      · exact ih known _
      · split
        · exact .error trivial
        · split
          · exact .error trivial
          · exact .error trivial
          · exact ih _ _

end Report

theorem Affinity.checkProcessors_faultsIn {P : Fault → Prop} {processors : List Int64}
    {count : Nat} (hP : ∀ fault, fault.IsOperational → P fault)
    (h : ∀ processor ∈ processors, FaultsIn P (checkProcessor count processor)) :
    FaultsIn P (checkProcessors processors count) := by
  unfold checkProcessors
  split
  · exact .error (hP _ trivial)
  · exact .mapM h

/-- Only the processor is to blame. -/
theorem Affinity.checkProcessor_faultsIn (count : Nat) (processor : Int64) :
    FaultsIn Fault.IsInvalidParameter (checkProcessor count processor) := by
  unfold checkProcessor
  split
  · exact .ok _
  · exact .error trivial

/-- Only the settings are to blame. -/
theorem Layer.Coalescing.requests_faultsIn (devices : List Device) (c : Tuning.Coalescing) :
    FaultsIn Fault.IsInvalidParameter (requests devices c) := by
  have hvalue : ∀ t settings, FaultsIn Fault.IsInvalidParameter (toggleValue t settings) := by
    intro t settings
    unfold toggleValue
    split
    · exact .error trivial
    · exact .ok _
    · split
      · exact .ok _
      · exact .error trivial
    · exact .ok _
  have htoggle : ∀ t, FaultsIn Fault.IsInvalidParameter (toggleRequest devices c t) := fun t =>
    FaultsIn.bind (.mapM fun _ _ => (hvalue t _).bind fun _ => .ok _) fun _ => .ok _
  exact FaultsIn.bind (.mapM fun t _ => htoggle t) fun _ => .ok _

/-- Of the layers that change attributes only the one for coalescing looks at its parameters. -/
theorem Layer.requests?_faultsIn {layer : Layer}
    {requests : Except Fault (List (String × List NicTuning.Target))}
    (h : layer.requests? = some requests) : FaultsIn Fault.IsInvalidParameter requests := by
  cases layer with
  | coalescing devices c =>
    cases h
    exact Coalescing.requests_faultsIn devices c
  | interrupts | qdisc | queues | inert => cases h
  | _ =>
    cases h
    exact .ok _

/-! ## Actions -/

/-- From any state that is ready the action ends in such a state, and with a fault of a kind if with
any. -/
def Confines {S α : Type} (P : Fault → Prop) (ready : S → Prop) (act : ActionM S α) : Prop :=
  ∀ s, ready s → ready (act s).2 ∧ FaultsIn P (act s).1

/-- How the hosts of a bench answer. -/
abbrev Answers := List Event → String → String → Except Fault Output

/-- The kind covers all that hosts and devices can be to blame for. -/
structure Covers (P : Fault → Prop) (answers : Answers) : Prop where
  operational : ∀ fault, fault.IsOperational → P fault
  answer : ∀ history address command, FaultsIn P (answers history address command)

/-- What a rule makes a host answer is no fault. -/
theorem Covers.addRule {P : Fault → Prop} {b : Bench} (h : Covers P b.answer) (address : String)
    (rule : Rule) : Covers P (b.addRule address rule).answer where
  operational := h.operational
  answer history a command := by
    change FaultsIn P (if a = address ∧ Text.begins rule.beginning command then .ok rule.output
      else b.answer history a command)
    split
    · exact .ok _
    · exact h.answer history a command

/-- The hosts answer in a given way, and the notes are as they are kept. -/
def Keeps {σ : Type} (answers : Answers) (kept : σ → Prop) (s : Bench × σ) : Prop :=
  s.1.answer = answers ∧ kept s.2

/-- A changed attribute is taken by a ledger that takes attributes under the key. -/
theorem Ledger.push_of_takesSettings {l : Ledger} {key : String} (h : l.TakesSettings key)
    (name : String) (change : SettingChange) :
    ∃ l', l.push key name change = .ok l' ∧ l'.TakesSettings key := by
  have hok : ∃ changes, l.settingsOrNone key = .ok changes := by
    unfold settingsOrNone
    split
    · exact ⟨_, rfl⟩
    · exact ⟨_, rfl⟩
    · rename_i entry hne he
      obtain ⟨changes, rfl⟩ := h entry he
      exact absurd rfl (hne changes)
  obtain ⟨changes, hc⟩ := hok
  refine ⟨l.insert key (.settings (changes.push name change)), ?_, fun entry he => ?_⟩
  · unfold push
    rw [hc]
    rfl
  · rw [Register.get?_insert, if_pos rfl] at he
    exact ⟨_, (Option.some.inj he).symm⟩

theorem Bench.answer_of_reply {b : Bench} {h : Host} {command : String} {output : Output}
    (hr : b.reply h command = .ok output) :
    b.answer b.journal h.address command = .ok output := by
  unfold reply at hr
  cases ha : b.answer b.journal h.address command with
  | error fault => simp [ha, bind, Except.bind] at hr
  | ok printed =>
    simp only [ha, bind, Except.bind] at hr
    rw [(Output.check_eq_ok_iff.1 hr).2]

namespace Confines

variable {S σ α β : Type} {P : Fault → Prop} {ready : S → Prop}

theorem of_except {r : Except Fault α} (h : FaultsIn P r) :
    Confines P ready (liftM r : ActionM S α) := fun _ hs => ⟨hs, h⟩

theorem pure (x : α) : Confines P ready (Pure.pure x : ActionM S α) := fun _ hs => ⟨hs, .ok x⟩

theorem throw {fault : Fault} (h : P fault) : Confines P ready (throw fault : ActionM S α) :=
  fun _ hs => ⟨hs, .error h⟩

theorem bind {act : ActionM S α} {next : α → ActionM S β} (h : Confines P ready act)
    (hn : ∀ x, Confines P ready (next x)) : Confines P ready (act >>= next) := by
  intro s hs
  obtain ⟨hs', hr⟩ := h s hs
  rw [ActionM.bind_apply]
  rcases ha : act s with ⟨fault | x, s'⟩ <;> rw [ha] at hs' hr
  · exact ⟨hs', hr.of_error⟩
  · exact hn x s' hs'

theorem mapM {act : α → ActionM S β} {xs : List α} (h : ∀ x ∈ xs, Confines P ready (act x)) :
    Confines P ready (xs.mapM act) := by
  induction xs with
  | nil => exact pure []
  | cons x rest ih =>
    rw [List.mapM_cons]
    exact (h x (by simp)).bind fun y => (ih fun z hz => h z (by simp [hz])).bind fun ys => pure _

/-- A result that was put aside is of the kind when it is taken up again. -/
theorem attempt_bind {ready : Bench → Prop} {act : BenchM α} {next : Except Fault α → BenchM β}
    (h : Confines P ready act) (hn : ∀ r, FaultsIn P r → Confines P ready (next r)) :
    Confines P ready (attempt act >>= next) := by
  intro b hb
  obtain ⟨hb', hr⟩ := h b hb
  rw [ActionM.bind_apply, attempt_apply]
  exact hn _ hr _ hb'

/-! ### Actions that take notes -/

variable {answers : Answers} {kept : σ → Prop}

theorem ofBench {act : BenchM α} (h : Confines P (·.answer = answers) act) :
    Confines P (Keeps answers kept) (NotingM.ofBench act : NotingM σ α) := by
  rintro ⟨b, s⟩ ⟨hb, hs⟩
  obtain ⟨hb', hr⟩ := h b hb
  exact ⟨⟨hb', hs⟩, hr⟩

theorem amend {f : σ → Except Fault σ} (h : ∀ s, kept s → ∃ s', f s = .ok s' ∧ kept s') :
    Confines P (Keeps answers kept) (NotingM.amend f) := by
  rintro ⟨b, s⟩ ⟨hb, hs⟩
  obtain ⟨s', hf, hs'⟩ := h s hs
  rw [NotingM.amend_ok b hf]
  exact ⟨⟨hb, hs'⟩, .ok ()⟩

theorem note {f : σ → σ} (h : ∀ s, kept s → kept (f s)) :
    Confines P (Keeps answers kept) (NotingM.note f) :=
  amend fun s hs => ⟨f s, rfl, h s hs⟩

theorem forEach {ready : Bench × σ → Prop} {act : α → NotingM σ Unit} {xs : List α}
    (h : ∀ x ∈ xs, Confines P ready (act x)) : Confines P ready (NotingM.forEach act xs) := by
  induction xs with
  | nil => exact pure ()
  | cons x rest ih => exact (h x (by simp)).bind fun _ => ih fun y hy => h y (by simp [hy])

end Confines

/-- After some history the machine says how many processors it has, and one of the target's list is
none of them. -/
def Layer.Interrupts.RefusesProcessor (answers : Answers) (history : List Event) (t : Target)
    (fault : Fault) : Prop :=
  ∃ output count processor,
    answers history t.device.netns.address "lscpu" = .ok output ∧
    Report.processorCount output.stdout = .ok count ∧ processor ∈ t.processors ∧
    Affinity.checkProcessor count processor = .error fault

/-- What the layer itself refuses: parameters that are at odds, and processors. -/
def Layer.Refuses (answers : Answers) (layer : Layer) (fault : Fault) : Prop :=
  match layer with
  | interrupts devices i =>
    ∃ t ∈ Interrupts.targets devices i, ∃ history,
      Interrupts.RefusesProcessor answers history t fault
  | layer => layer.requests? = some (.error fault)

/-! ## Hosts and devices -/

section Operations

variable {P : Fault → Prop} {answers : Answers} (hP : Covers P answers)

include hP

theorem Covers.reply {b : Bench} (hb : b.answer = answers) (h : Host) (command : String) :
    FaultsIn P (b.reply h command) := by
  have ha := hP.answer b.journal h.address command
  rw [← hb] at ha
  exact ha.bind fun output => (output.check_faultsIn h.id command).mono hP.operational

theorem Host.query_confines (h : Host) (command : String) :
    Confines P (·.answer = answers) (h.query command) := by
  intro b hb
  rw [h.query_apply command b]
  exact ⟨hb, (hP.reply hb h command).map _⟩

theorem Host.command_confines (h : Host) (command : String) :
    Confines P (·.answer = answers) (h.command command) := by
  intro b hb
  rw [h.command_apply command b]
  exact ⟨hb, (hP.reply hb h command).map _⟩

namespace Device

variable (d : Device)

theorem query_confines (command : String) :
    Confines P (·.answer = answers) (d.query command) :=
  d.netns.query_confines hP command

theorem readAttribute_confines (a : Attribute) :
    Confines P (·.answer = answers) (d.readAttribute a) := by
  cases a <;> exact (d.query_confines hP _).bind fun _ => .pure _

theorem get_confines (name : String) : Confines P (·.answer = answers) (d.get name) := by
  have hunsupported : P (d.unsupported name) := hP.operational _ trivial
  unfold get
  cases d.control with
  | memory address =>
    intro b hb
    refine ⟨hb, ?_⟩
    dsimp only
    cases (b.memory address).values name with
    | none => exact .error hunsupported
    | some value => exact .ok value
  | commands =>
    cases Attribute.ofName? name with
    | none => exact .throw hunsupported
    | some a =>
      refine (d.readAttribute_confines hP a).bind fun value => ?_
      cases value with
      | none => exact .throw hunsupported
      | some value => exact .pure value

theorem set_confines (name : String) (value : Setting) :
    Confines P (·.answer = answers) (d.set name value) := by
  unfold set
  cases d.control with
  | memory address =>
    intro b hb
    dsimp only
    split
    · exact ⟨hb, .error (hP.operational _ trivial)⟩
    · exact ⟨hb, .ok ()⟩
  | commands =>
    cases Attribute.ofName? name with
    | none => exact .throw (hP.operational _ trivial)
    | some a => exact d.netns.command_confines hP _

theorem isUp_confines : Confines P (·.answer = answers) d.isUp := by
  unfold isUp
  cases d.control with
  | memory address => exact fun b hb => ⟨hb, .ok _⟩
  | commands =>
    refine (d.query_confines hP _).bind fun output => .of_except ?_
    exact (Report.linkIsUp_faultsIn output).mono hP.operational

theorem setLink_confines (up : Bool) : Confines P (·.answer = answers) (d.setLink up) := by
  unfold setLink
  cases d.control with
  | memory address => exact fun b hb => ⟨hb, .ok ()⟩
  | commands => exact d.netns.command_confines hP _

end Device

/-! ## Layers -/

namespace Layer

theorem rewrite_confines (name : String) (d : Device) (value : Setting) :
    Confines P (·.answer = answers) (rewrite name d value) :=
  (d.get_confines hP name).bind fun _ => d.set_confines hP name value

/-- A changed attribute is noted wherever there is a place for it. -/
theorem changeSettings_confines (key name : String) (targets : List NicTuning.Target) :
    Confines P (Keeps answers (·.TakesSettings key)) (changeSettings key name targets) := by
  refine .forEach fun target _ => ?_
  obtain ⟨d, - | value⟩ := target
  · exact .pure ()
  · refine .bind (.ofBench (d.get_confines hP name)) fun previous => ?_
    refine .bind (.ofBench (d.set_confines hP name value)) fun _ => ?_
    exact .amend fun l hl => Ledger.push_of_takesSettings hl name _

theorem Queues.changes_confines (targets : List (Device × Dict UInt32)) :
    Confines P (Keeps answers fun _ => True) (NotingM.forEach change targets) := by
  refine .forEach fun target _ => ?_
  obtain ⟨d, counts⟩ := target
  refine .bind (.ofBench (d.query_confines hP _)) fun output => ?_
  refine .bind (.of_except ?_) fun channels => ?_
  · exact (Report.Channels.readLines_faultsIn _ _ _).mono hP.operational
  · exact .bind (.ofBench (d.netns.command_confines hP _)) fun _ => .note fun _ _ => trivial

theorem Qdisc.changes_confines (devices : List Device) :
    Confines P (Keeps answers fun _ => True) (NotingM.forEach change devices) := by
  refine .forEach fun d _ => .bind (.ofBench (d.query_confines hP _)) fun output => ?_
  exact .bind (.ofBench (d.netns.command_confines hP _)) fun _ => .note fun _ _ => trivial

namespace Interrupts

/-- Beyond what its machine is to blame for, the check of a target only refuses processors. -/
theorem check_faultsIn {b : Bench} (hb : b.answer = answers) (t : Target) :
    FaultsIn (fun fault => P fault ∨ RefusesProcessor answers b.journal t fault) (check t b).1 := by
  unfold check
  rw [ActionM.bind_apply, Device.query_apply]
  cases hr : b.reply t.device.netns "lscpu" with
  | error fault =>
    have hreply := hP.reply hb t.device.netns "lscpu"
    rw [hr] at hreply
    exact .error (.inl (hreply fault rfl))
  | ok output =>
    have ha := Bench.answer_of_reply hr
    rw [hb] at ha
    dsimp only [Except.map]
    rw [ActionM.bind_apply, ActionM.liftExcept_apply]
    cases hc : Report.processorCount output.stdout with
    | error fault =>
      have hcount := Report.processorCount_faultsIn output.stdout
      rw [hc] at hcount
      exact .error (.inl (hP.operational fault (hcount fault rfl)))
    | ok count =>
      have hchecks : FaultsIn (fun fault => P fault ∨ RefusesProcessor answers b.journal t fault)
          (Affinity.checkProcessors t.processors count) := by
        refine Affinity.checkProcessors_faultsIn (fun fault hf => .inl (hP.operational fault hf))
          fun processor hm fault he => .inr ⟨output, count, processor, ha, hc, hm, he⟩
      dsimp only
      rw [ActionM.bind_apply, ActionM.liftExcept_apply]
      cases hp : Affinity.checkProcessors t.processors count with
      | error fault =>
        rw [hp] at hchecks
        exact hchecks.of_error
      | ok processors => exact .ok _

theorem checks_confines (ts : List Target)
    (h : ∀ t ∈ ts, ∀ history fault, RefusesProcessor answers history t fault → P fault) :
    Confines P (·.answer = answers) (ts.mapM check) := by
  refine .mapM fun t ht b hb => ?_
  constructor
  · rw [check_bench]
    exact hb
  · exact (check_faultsIn hP hb t).mono fun fault hf => hf.elim id (h t ht b.journal fault)

theorem interruptsOf_confines (d : Device) :
    Confines P (·.answer = answers) (interruptsOf d) := by
  refine (d.isUp_confines hP).bind fun isUp => ?_
  split
  · exact (d.query_confines hP _).bind fun _ => .pure _
  · refine (d.setLink_confines hP true).bind fun _ => ?_
    refine .attempt_bind (d.query_confines hP _) fun table htable => ?_
    refine .attempt_bind (d.setLink_confines hP false) fun taken htaken => ?_
    exact .bind (.of_except htable) fun _ => .bind (.of_except htaken) fun _ => .pure _

theorem assignInterrupts_confines (p : Pinning) :
    Confines P (Keeps answers fun s => s.stopped ≠ []) (assignInterrupts p) := by
  refine .bind (.ofBench (interruptsOf_confines hP p.device)) fun interrupts => ?_
  refine .bind (.forEach fun a _ => .ofBench (p.device.netns.command_confines hP _)) fun _ => ?_
  exact .note fun _ hs => hs

end Interrupts

end Layer

end Operations

namespace Layer.Interrupts

/-- The notes of pinned devices follow that of a stopped balancer. -/
def StopsFirst (s : InterruptChanges) : Prop := s.pinned ≠ [] → s.stopped ≠ []

theorem stopsFirst_none : StopsFirst .none := fun h => absurd rfl h

variable {P : Fault → Prop} {answers : Answers}

theorem pin_confines (hP : Covers P answers) (p : Pinning) :
    Confines P (Keeps answers StopsFirst) (pin p) := by
  rintro ⟨b, s⟩ ⟨hb, hs⟩
  have hrest := assignInterrupts_confines hP p
  rw [pin_eq, ActionM.bind_apply, stopBalancer_apply]
  by_cases hh : s.hasStopped p.device.host = true
  · have hne : s.stopped ≠ [] := by
      rintro he
      rw [InterruptChanges.hasStopped, he] at hh
      cases hh
    rw [if_pos hh]
    obtain ⟨⟨hb', hs'⟩, hr⟩ := hrest (b, s) ⟨hb, hne⟩
    exact ⟨⟨hb', fun _ => hs'⟩, hr⟩
  · rw [if_neg hh]
    obtain ⟨hb', hr⟩ := p.device.host.command_confines hP "service irqbalance stop" b hb
    rcases hc : p.device.host.command "service irqbalance stop" b with ⟨fault | ⟨⟩, b'⟩ <;>
      rw [hc] at hb' hr
    · exact ⟨⟨hb', hs⟩, hr⟩
    · have hne : (s.note (.stop p.device.host)).stopped ≠ [] := by
        simp [InterruptChanges.note]
      obtain ⟨⟨hb'', hs'⟩, hr'⟩ := hrest (b', s.note (.stop p.device.host)) ⟨hb', hne⟩
      exact ⟨⟨hb'', fun _ => hs'⟩, hr'⟩

theorem pins_confines (hP : Covers P answers) (pinnings : List Pinning) :
    Confines P (Keeps answers StopsFirst) (NotingM.forEach pin pinnings) :=
  .forEach fun p _ => pin_confines hP p

end Layer.Interrupts

theorem Layer.Interrupts.RefusesProcessor.isInvalidParameter {answers : Answers}
    {history : List Event} {t : Target} {fault : Fault}
    (h : RefusesProcessor answers history t fault) : fault.IsInvalidParameter := by
  obtain ⟨output, count, processor, -, -, -, he⟩ := h
  exact Affinity.checkProcessor_faultsIn count processor fault he

theorem Layer.Refuses.isInvalidParameter {answers : Answers} {layer : Layer} {fault : Fault}
    (h : layer.Refuses answers fault) : fault.IsInvalidParameter := by
  cases hq : layer.requests? with
  | some requests =>
    cases layer with
    | interrupts => cases hq
    | _ => exact requests?_faultsIn h fault rfl
  | none =>
    cases layer with
    | interrupts devices i =>
      obtain ⟨t, -, history, hf⟩ := h
      exact hf.isInvalidParameter
    | _ => exact absurd (hq.symm.trans h) (by simp)

end NicTuning
