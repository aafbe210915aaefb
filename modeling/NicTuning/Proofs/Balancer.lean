import NicTuning.Proofs.Runs
import NicTuning.Proofs.Services

/-!
# Balancers

Main statement: configuring stops the balancer of no host twice and of none before all processors
are checked, and restoring starts exactly those that were stopped, the last one first.
-/
namespace NicTuning

namespace Event

/-- The event is a try to stop a balancer. -/
def isStop : Event → Bool
  | ran _ command => command == "service irqbalance stop"
  | _ => false

/-- The event is a try to start a balancer. -/
def isStart : Event → Bool
  | ran _ command => command == "service irqbalance start"
  | _ => false

theorem not_isStop {e : Event} (h : OffService e) : e.isStop = false := by
  cases e with
  | ran address command =>
    refine beq_eq_false_iff_ne.2 ?_
    rintro rfl
    exact absurd h (show ¬Command.isService "service irqbalance stop" = false by decide)
  | _ => rfl

theorem not_isStart {e : Event} (h : OffService e) : e.isStart = false := by
  cases e with
  | ran address command =>
    refine beq_eq_false_iff_ne.2 ?_
    rintro rfl
    exact absurd h (show ¬Command.isService "service irqbalance start" = false by decide)
  | _ => rfl

end Event

namespace Host

/-- The stop of the host's balancer. -/
def stopEvent (h : Host) : Event := .ran h.address "service irqbalance stop"

/-- The start of the host's balancer. -/
def startEvent (h : Host) : Event := .ran h.address "service irqbalance start"

end Host

/-- The balancers of some hosts are to be stopped, in this order, and none is to be started. -/
structure Issues (events : List Event) (hosts : List Host) : Prop where
  stops : events.filter Event.isStop = (hosts.map Host.stopEvent).reverse
  starts : ∀ e ∈ events, e.isStart = false

namespace Issues

variable {events newer older : List Event} {hosts hosts' : List Host}

theorem of_offService (h : ∀ e ∈ events, OffService e) : Issues events [] where
  stops := List.filter_eq_nil_iff.2 fun e he => by simp [Event.not_isStop (h e he)]
  starts e he := Event.not_isStart (h e he)

theorem append (h : Issues older hosts) (h' : Issues newer hosts') :
    Issues (newer ++ older) (hosts ++ hosts') where
  stops := by
    rw [List.filter_append, h.stops, h'.stops, List.map_append, List.reverse_append]
  starts e he := by
    rcases List.mem_append.mp he with he | he
    · exact h'.starts e he
    · exact h.starts e he

theorem not_isStop (h : Issues events []) : ∀ e ∈ events, e.isStop = false := by
  intro e he
  simpa using List.filter_eq_nil_iff.1 h.stops e he

theorem stop (h : Host) : Issues [h.stopEvent] [h] where
  stops := by simp [Host.stopEvent, Event.isStop]
  starts e he := by
    rw [List.mem_singleton.1 he]
    exact beq_eq_false_iff_ne.2 (by decide)

end Issues

namespace Layer.Interrupts

/-! ## Pinning -/

theorem assignInterrupts_offService (p : Pinning) :
    Emits Prod.fst OffService (assignInterrupts p) := by
  have hinterrupts : Emits id OffService (interruptsOf p.device) :=
    interruptsOf_emits p.device.offService_isUpEvents p.device.offService_linkEvents
      (show Command.isService "cat /proc/interrupts" = false by decide)
  refine .bind (.ofBench hinterrupts) fun interrupts => .bind (.forEach fun a _ => ?_) fun _ => ?_
  · exact .ofBench (Emits.command (Command.isService_assignCommand a))
  · exact .note _

/-- Pinning a device stops the balancer of its host unless that was stopped before, and notes it
unless that failed. -/
theorem pin_issues (p : Pinning) (b : Bench) (s : InterruptChanges) : ∃ events hosts done,
    (pin p (b, s)).2.1 = b.after events ∧ Issues events hosts ∧
      (hosts = [] ∨ hosts = [p.device.host] ∧ s.hasStopped p.device.host = false) ∧
      (pin p (b, s)).2.2.stopped = s.stopped ++ done ∧ done <+: hosts ∧
      ((pin p (b, s)).1 = .ok () → done = hosts) := by
  have rest : ∀ (b : Bench) (s : InterruptChanges), ∃ events,
      (assignInterrupts p (b, s)).2.1 = b.after events ∧ Issues events [] ∧
      (assignInterrupts p (b, s)).2.2.stopped = s.stopped := by
    intro b s
    obtain ⟨events, hb, ho⟩ := assignInterrupts_offService p (b, s)
    obtain ⟨cs, -, hs, hk, -⟩ := (assignInterrupts_makesOne p).performs b s trivial
    exact ⟨events, hb, .of_offService ho, hs ▸ stopped_foldl_note hk s⟩
  rw [pin_eq, ActionM.bind_apply, stopBalancer_apply]
  by_cases hh : s.hasStopped p.device.host = true
  · rw [if_pos hh]
    obtain ⟨events, hb, hi, hs⟩ := rest b s
    exact ⟨events, [], [], hb, hi, .inl rfl, by simpa using hs, List.prefix_refl _, fun _ => rfl⟩
  · rw [if_neg hh]
    have hno := Bool.eq_false_iff.2 hh
    have hc := p.device.host.command_apply "service irqbalance stop" b
    have hstop := Issues.stop p.device.host
    cases hr : b.reply p.device.host "service irqbalance stop" with
    | error fault =>
      rw [hr] at hc
      rw [hc]
      exact ⟨_, [p.device.host], [], rfl, hstop, .inr ⟨rfl, hno⟩, (List.append_nil _).symm,
        List.nil_prefix, fun h => by cases h⟩
    | ok output =>
      rw [hr] at hc
      rw [hc]
      obtain ⟨events, hb, hi, hs⟩ := rest (b.after [p.device.host.stopEvent])
        (s.note (.stop p.device.host))
      refine ⟨events ++ [p.device.host.stopEvent], [p.device.host], [p.device.host], ?_,
        hstop.append hi, .inr ⟨rfl, hno⟩, hs, List.prefix_refl _, fun _ => rfl⟩
      rw [← Bench.after_after]
      exact hb

/-- Pinning several devices stops no balancer twice, and none that was stopped before. -/
theorem pinAll_issues (pinnings : List Pinning) (b : Bench) (s : InterruptChanges) :
    ∃ events hosts done, (NotingM.forEach pin pinnings (b, s)).2.1 = b.after events ∧
      Issues events hosts ∧ (hosts.map Host.id).Nodup ∧ (∀ h ∈ hosts, s.hasStopped h = false) ∧
      (∀ h ∈ hosts, ∃ p ∈ pinnings, p.device.host = h) ∧
      (NotingM.forEach pin pinnings (b, s)).2.2.stopped = s.stopped ++ done ∧ done <+: hosts ∧
      ((NotingM.forEach pin pinnings (b, s)).1 = .ok () → done = hosts) := by
  induction pinnings generalizing b s with
  | nil =>
    exact ⟨[], [], [], rfl, .of_offService (by simp), .nil, by simp, by simp,
      (List.append_nil _).symm, List.nil_prefix, fun _ => rfl⟩
  | cons p rest ih =>
    obtain ⟨older, first, done, hb, hi, hfirst, hs, hd, hok⟩ := pin_issues p b s
    have hnew : ∀ h ∈ first, h = p.device.host ∧ s.hasStopped h = false := by
      intro h hm
      rcases hfirst with rfl | ⟨rfl, hno⟩
      · cases hm
      · rw [List.mem_singleton.1 hm]
        exact ⟨rfl, hno⟩
    have hnodup : (first.map Host.id).Nodup := by
      rcases hfirst with rfl | ⟨rfl, -⟩
      · exact .nil
      · exact List.nodup_singleton _
    unfold NotingM.forEach
    rw [ActionM.bind_apply]
    rcases hr : pin p (b, s) with ⟨fault | ⟨⟩, b', s'⟩ <;> rw [hr] at hb hs hok
    · refine ⟨older, first, done, hb, hi, ?_, fun h hm => (hnew h hm).2,
        fun h hm => ⟨p, by simp, (hnew h hm).1.symm⟩, hs, hd, fun h => by cases h⟩
      exact hnodup
    · obtain ⟨newer, others, done', hb', hi', hnd, hno, hp, hs', hd', hok'⟩ := ih b' s'
      obtain rfl : done = first := hok rfl
      obtain rfl : b' = b.after older := hb
      have hstopped : s'.stopped = s.stopped ++ done := hs
      have hno' : ∀ h ∈ others, (∀ h' ∈ s.stopped, h'.id ≠ h.id) ∧ ∀ h' ∈ done, h'.id ≠ h.id := by
        intro h hm
        have hf := hno h hm
        unfold InterruptChanges.hasStopped at hf
        rw [hstopped, List.any_append, Bool.or_eq_false_iff, List.any_eq_false,
          List.any_eq_false] at hf
        simpa using hf
      refine ⟨newer ++ older, done ++ others, done ++ done', ?_, hi.append hi', ?_, ?_, ?_, ?_,
        (List.prefix_append_right_inj done).2 hd', fun h => by rw [hok' h]⟩
      · rw [← Bench.after_after]
        exact hb'
      · rw [List.map_append]
        refine List.nodup_append.2 ⟨hnodup, hnd, ?_⟩
        intro i hi j hj
        obtain ⟨h', hm', rfl⟩ := List.mem_map.1 hi
        obtain ⟨h, hm, rfl⟩ := List.mem_map.1 hj
        exact (hno' h hm).2 h' hm'
      · intro h hm
        rcases List.mem_append.mp hm with hm | hm
        · exact (hnew h hm).2
        · unfold InterruptChanges.hasStopped
          rw [List.any_eq_false]
          simpa using (hno' h hm).1
      · intro h hm
        rcases List.mem_append.mp hm with hm | hm
        · exact ⟨p, by simp, (hnew h hm).1.symm⟩
        · obtain ⟨q, hq, he⟩ := hp h hm
          exact ⟨q, by simp [hq], he⟩
      · rw [← List.append_assoc, ← hstopped]
        exact hs'

/-! ## The layer -/

/-- Only devices that were checked are pinned. -/
theorem device_of_mem_check {targets : List Target} {pinnings : List Pinning} {b b' : Bench}
    (h : targets.mapM check b = (.ok pinnings, b')) :
    ∀ p ∈ pinnings, ∃ t ∈ targets, t.device = p.device := by
  intro p hp
  have hi : pinIntent p ∈ targets.map targetIntent :=
    pinIntents_of_checks h ▸ List.mem_map_of_mem hp
  obtain ⟨t, ht, he⟩ := List.mem_map.1 hi
  exact ⟨t, ht, (Intent.pin.inj he).1⟩

end Layer.Interrupts

/-- The hosts whose balancers were stopped according to a ledger. -/
def Ledger.stopped (l : Ledger) : List Host :=
  ((l.interrupts? Layer.Interrupts.key).getD .none).stopped

namespace Layer.Interrupts

theorem stopped_of_not_contains {l : Ledger} (hl : l.contains key = false) : l.stopped = [] := by
  unfold Ledger.stopped Ledger.interrupts?
  rw [Register.get?_eq_none hl]
  rfl

theorem stopped_insert (l : Ledger) (changes : InterruptChanges) :
    Ledger.stopped (l.insert key (.interrupts changes)) = changes.stopped := by
  unfold Ledger.stopped Ledger.interrupts?
  rw [Register.get?_insert, if_pos rfl]
  rfl

/-- The layer checks all processors before it stops any balancer, stops none twice, and notes those
that were stopped. -/
theorem configure_issues (devices : List Device) (i : Tuning.Interrupts) (b : Bench) (l : Ledger)
    (hl : l.contains key = false) : ∃ checks newer hosts,
    (configure devices i (b, l)).2.1 = b.after (newer ++ checks) ∧
      (∀ e ∈ checks, OffService e) ∧ Issues newer hosts ∧ (hosts.map Host.id).Nodup ∧
      (hosts ≠ [] → ∃ pinnings,
        (targets devices i).mapM check b = (.ok pinnings, b.after checks)) ∧
      (∀ h ∈ hosts, ∃ t ∈ targets devices i, t.device.host = h) ∧
      (configure devices i (b, l)).2.2.stopped <+: hosts ∧
      ((configure devices i (b, l)).1 = .ok () → hosts ≠ [] →
        (configure devices i (b, l)).2.2.contains key = true) := by
  have hc : Emits id OffService ((targets devices i).mapM check) :=
    Emits.mapM fun t _ => check_emits (show Command.isService "lscpu" = false by decide)
  obtain ⟨checks, hb, ho⟩ := hc b
  rw [configure_apply]
  rcases hm : (targets devices i).mapM check b with ⟨fault | pinnings, m⟩ <;> rw [hm] at hb
  · refine ⟨checks, [], [], hb, ho, .of_offService (by simp), .nil, by simp, by simp, ?_, by simp⟩
    exact stopped_of_not_contains hl ▸ List.nil_prefix
  · obtain rfl : m = b.after checks := hb
    obtain ⟨newer, hosts, done, hb, hi, hnd, -, hp, hs, hd, hok⟩ :=
      pinAll_issues pinnings (b.after checks) .none
    have hs : (NotingM.forEach pin pinnings (b.after checks, .none)).2.2.stopped = done := hs
    refine ⟨checks, newer, hosts, ?_, ho, hi, hnd, fun _ => ⟨pinnings, rfl⟩, ?_, ?_⟩
    · dsimp only
      rw [notebook.collect_bench, ← Bench.after_after]
      exact hb
    · intro h hm'
      obtain ⟨p, hpm, rfl⟩ := hp h hm'
      obtain ⟨t, ht, he⟩ := device_of_mem_check hm p hpm
      exact ⟨t, ht, congrArg Device.host he⟩
    · dsimp only
      rw [notebook.collect_apply]
      have hok : (NotingM.forEach pin pinnings (b.after checks, notebook.start)).1 = .ok () →
          done = hosts := hok
      have hs : (NotingM.forEach pin pinnings (b.after checks, notebook.start)).2.2.stopped =
          done := hs
      generalize NotingM.forEach pin pinnings (b.after checks, notebook.start) = out at hok hs ⊢
      obtain ⟨result, b', s⟩ := out
      obtain rfl : s.stopped = done := hs
      dsimp only at hok ⊢
      by_cases he : notebook.isEmpty s = true
      · rw [if_pos he]
        refine ⟨stopped_of_not_contains hl ▸ List.nil_prefix, fun hr hne => ?_⟩
        have hnone : s.stopped = [] := by
          have he : (s.stopped.isEmpty && s.pinned.isEmpty) = true := he
          exact List.isEmpty_iff.1 (Bool.and_eq_true_iff.1 he).1
        exact absurd (hok hr ▸ hnone) hne
      · have hadd : l.add notebook.key (notebook.entry s) =
            .ok (l.insert key (.interrupts s)) :=
          if_neg fun h => Bool.false_ne_true (hl.symm.trans h)
        rw [if_neg he, hadd]
        dsimp only
        rw [stopped_insert, Register.contains_insert]
        exact ⟨hd, fun _ _ => by simp⟩

theorem tryEach_command_bench (hosts : List Host) (command : String) (b : Bench) :
    (tryEach (fun h => h.command command) hosts b).2 =
      b.after (hosts.map fun h => .ran h.address command).reverse := by
  induction hosts generalizing b with
  | nil => rfl
  | cons h rest ih =>
    rw [tryEach_cons, h.command_apply]
    dsimp only
    rw [ih, Bench.after_after, List.map_cons, List.reverse_cons]

/-- Restoring starts the balancers that were stopped, the last one first, whatever becomes of
any. -/
theorem restore_bench (b : Bench) (l : Ledger) :
    (restore (b, l)).2.1 = b.after (l.stopped.map Host.startEvent) := by
  rw [restore_eq, restoreTaken_apply]
  unfold Ledger.stopped
  cases l.interrupts? key with
  | none => rfl
  | some changes =>
    dsimp only
    rw [tryEach_command_bench, List.map_reverse, List.reverse_reverse]
    rfl

end Layer.Interrupts

namespace Layer

theorem undoes_interrupts_iff {layer : Layer} :
    layer.undoes Interrupts.key = true ↔ layer.IsInterrupts := by
  have other : ∀ key ∈ [Offload.key, Mtu.key, Coalescing.key, Qdisc.key, PauseFrames.key,
      Queues.key, FlowHash.key, HashFunction.key],
      ((key == Interrupts.key) = true ↔ False) := by decide
  cases layer with
  | interrupts devices i => exact ⟨fun _ => trivial, fun _ => beq_self_eq_true _⟩
  | inert key => exact ⟨fun h => (by cases h), False.elim⟩
  | _ => exact other _ (by simp [key])

theorem restore_bench {layer : Layer} (h : layer.IsInterrupts) (b : Bench) (l : Ledger) :
    (layer.restore (b, l)).2.1 = b.after (l.stopped.map Host.startEvent) := by
  cases layer with
  | interrupts devices i => exact Interrupts.restore_bench b l
  | _ => exact h.elim

end Layer

namespace Stack

/-! ## Stacks -/

/-- The layers that are restored start the balancers that were stopped, if one of them pins
interrupts, and they stop none. -/
theorem restoreAll_starts (layers : List Layer) (u : Undoing) (b : Bench) (l : Ledger)
    (hs : l.Sound) : ∃ events, (restoreAll u layers (b, l)).2.1 = b.after events ∧
      (∀ e ∈ events, e.isStop = false) ∧
      events.filter Event.isStart =
        if layers.any (·.undoes Layer.Interrupts.key) then l.stopped.map Host.startEvent
        else [] := by
  induction layers generalizing u b l with
  | nil => exact ⟨[], rfl, by simp, rfl⟩
  | cons layer rest ih =>
    obtain ⟨-, hl⟩ := layer.restore_restores hs b
    obtain ⟨newer, hb, hstop, hstart⟩ := ih (restoreLayer layer u (b, l)).1
      (layer.restore (b, l)).2.1 (layer.restore (b, l)).2.2 (hs.of_lacksAll hl)
    rw [restoreAll_cons]
    by_cases hi : layer.undoes Layer.Interrupts.key = true
    · have hb₁ := Layer.restore_bench (Layer.undoes_interrupts_iff.1 hi) b l
      have hnone : Ledger.stopped (layer.restore (b, l)).2.2 = [] := by
        refine Layer.Interrupts.stopped_of_not_contains ?_
        rw [Ledger.contains_of_lacksAll hl]
        simp [hi]
      refine ⟨newer ++ l.stopped.map Host.startEvent, ?_, fun e he => ?_, ?_⟩
      · rw [← Bench.after_after, ← hb₁]
        exact hb
      · rcases List.mem_append.mp he with he | he
        · exact hstop e he
        · obtain ⟨h, -, rfl⟩ := List.mem_map.1 he
          exact beq_eq_false_iff_ne.2 (by decide)
      · have hself : (l.stopped.map Host.startEvent).filter Event.isStart =
            l.stopped.map Host.startEvent := by
          refine List.filter_eq_self.2 fun e he => ?_
          obtain ⟨h, -, rfl⟩ := List.mem_map.1 he
          exact beq_self_eq_true _
        have hnewer : newer.filter Event.isStart = [] := by
          rw [hstart, hnone]
          split <;> rfl
        rw [List.filter_append, hnewer, hself, List.any_cons, hi, Bool.true_or, if_pos rfl,
          List.nil_append]
    · obtain ⟨older, hb₁, ho⟩ :=
        Layer.restore_offService (fun h => hi (Layer.undoes_interrupts_iff.2 h)) (b, l)
      have hsame : Ledger.stopped (layer.restore (b, l)).2.2 = l.stopped := by
        unfold Ledger.stopped Ledger.interrupts?
        rw [hl Layer.Interrupts.key, if_neg hi]
      refine ⟨newer ++ older, ?_, fun e he => ?_, ?_⟩
      · rw [← Bench.after_after, ← hb₁]
        exact hb
      · rcases List.mem_append.mp he with he | he
        · exact hstop e he
        · exact Event.not_isStop (ho e he)
      · have hnone : older.filter Event.isStart = [] :=
          List.filter_eq_nil_iff.2 fun e he => by simp [Event.not_isStart (ho e he)]
        rw [List.filter_append, hstart, hsame, hnone, List.append_nil, List.any_cons,
          Bool.eq_false_iff.2 hi, Bool.false_or]

/-- The balancers are stopped by one layer of the stack, after it has checked the processors of
all its devices. -/
def StopsAfterChecks (s : Stack) (b : Bench) (events : List Event) (hosts : List Host) : Prop :=
  ∃ before devices i after older checks newer pinnings,
    s = before ++ .interrupts devices i :: after ∧ events = newer ++ (checks ++ older) ∧
    (Layer.Interrupts.targets devices i).mapM Layer.Interrupts.check (b.after older) =
      (.ok pinnings, b.after (checks ++ older)) ∧
    (∀ e ∈ checks ++ older, e.isStop = false) ∧
    ∀ h ∈ hosts, ∃ t ∈ Layer.Interrupts.targets devices i, t.device.host = h

/-- A layer that stops nothing may go before. -/
theorem StopsAfterChecks.cons {rest : Stack} {b : Bench} {newer older : List Event}
    {hosts : List Host} (h : StopsAfterChecks rest (b.after older) newer hosts) (layer : Layer)
    (ho : ∀ e ∈ older, e.isStop = false) :
    StopsAfterChecks (layer :: rest) b (newer ++ older) hosts := by
  obtain ⟨before, devices, i, after, old, checks, new, pinnings, rfl, rfl, hc, hn, hh⟩ := h
  refine ⟨layer :: before, devices, i, after, old ++ older, checks, new, pinnings, rfl,
    by simp, ?_, ?_, hh⟩
  · rw [← Bench.after_after, hc, Bench.after_after, List.append_assoc]
  · intro e he
    rw [← List.append_assoc] at he
    rcases List.mem_append.mp he with he | he
    · exact hn e he
    · exact ho e he

/-- The layer that stops balancers may be the first. -/
theorem StopsAfterChecks.head {devices : List Device} {i : Tuning.Interrupts} {b : Bench}
    {checks : List Event} {pinnings : List Pinning} {hosts : List Host}
    (hc : (Layer.Interrupts.targets devices i).mapM Layer.Interrupts.check b =
      (.ok pinnings, b.after checks)) (ho : ∀ e ∈ checks, OffService e)
    (hh : ∀ h ∈ hosts, ∃ t ∈ Layer.Interrupts.targets devices i, t.device.host = h)
    (rest : Stack) (newer : List Event) :
    StopsAfterChecks (.interrupts devices i :: rest) b (newer ++ checks) hosts := by
  refine ⟨[], devices, i, rest, [], checks, newer, pinnings, rfl, by simp, by simpa using hc, ?_,
    hh⟩
  intro e he
  rw [List.append_nil] at he
  exact Event.not_isStop (ho e he)

/-- Other layers leave the entry of stopped balancers alone. -/
theorem get?_interrupts_of_configure {layer : Layer} (h : ¬layer.IsInterrupts) {l : Ledger}
    (hl : l.contains layer.key = false) (b : Bench) :
    (layer.configure (b, l)).2.2.get? Layer.Interrupts.key = l.get? Layer.Interrupts.key := by
  obtain ⟨cs, -, hs, hk, -⟩ := layer.configure_performs b l hl
  have hnone : cs.filter (·.key = Layer.Interrupts.key) = [] := by
    refine List.filter_eq_nil_iff.2 fun c hc he => h ?_
    refine Layer.undoes_interrupts_iff.1 ?_
    rw [← of_decide_eq_true he]
    exact (hk c hc).undone
  rw [hs, Ledger.get?_foldl_note, hnone]
  rfl

/-- From one bench and ledger to others a stack stopped no balancer twice, none before all
processors were checked, and none at all if there was an entry of stopped balancers before. The
ledger has those that were stopped. -/
def StopsOnce (s : Stack) (b : Bench) (l : Ledger) (out : Bench × Ledger) : Prop :=
  ∃ events hosts, out.1 = b.after events ∧ Issues events hosts ∧ (hosts.map Host.id).Nodup ∧
    (hosts ≠ [] → l.contains Layer.Interrupts.key = false ∧ StopsAfterChecks s b events hosts) ∧
    out.2.stopped <+: l.stopped ++ hosts

namespace StopsOnce

theorem refl (s : Stack) (b : Bench) (l : Ledger) : StopsOnce s b l (b, l) :=
  ⟨[], [], rfl, .of_offService (by simp), .nil, by simp, List.prefix_append _ _⟩

/-- A layer with an entry of its own may go before. -/
theorem cons {layer : Layer} {rest : Stack} {b b' : Bench} {l l' : Ledger} {older : List Event}
    {out : Bench × Ledger} (hb : b' = b.after older) (ho : ∀ e ∈ older, OffService e)
    (hl : l'.get? Layer.Interrupts.key = l.get? Layer.Interrupts.key)
    (h : StopsOnce rest b' l' out) : StopsOnce (layer :: rest) b l out := by
  subst hb
  obtain ⟨newer, hosts, hb', hi, hnd, hc, hp⟩ := h
  have hsame : l'.contains Layer.Interrupts.key = l.contains Layer.Interrupts.key :=
    congrArg Option.isSome hl
  have hstopped : l'.stopped = l.stopped := by
    unfold Ledger.stopped Ledger.interrupts?
    rw [hl]
  refine ⟨newer ++ older, hosts, ?_, (Issues.of_offService ho).append hi, hnd, fun hne => ?_,
    hstopped ▸ hp⟩
  · rw [← Bench.after_after]
    exact hb'
  · obtain ⟨hn, hchecks⟩ := hc hne
    exact ⟨hsame.symm.trans hn, hchecks.cons layer fun e he => Event.not_isStop (ho e he)⟩

/-- A layer that pins interrupts may be the last to have its turn. -/
theorem single (devices : List Device) (i : Tuning.Interrupts) {l : Ledger}
    (hl : l.contains Layer.Interrupts.key = false) (rest : Stack) (b : Bench) :
    StopsOnce (.interrupts devices i :: rest) b l
      (Layer.Interrupts.configure devices i (b, l)).2 := by
  obtain ⟨checks, older, first, hb, ho, hi, hnd, hc, ht, hstopped, -⟩ :=
    Layer.Interrupts.configure_issues devices i b l hl
  refine ⟨older ++ checks, first, hb, (Issues.of_offService ho).append hi, hnd, fun hne => ?_, ?_⟩
  · obtain ⟨pinnings, hcheck⟩ := hc hne
    exact ⟨hl, .head hcheck ho ht rest older⟩
  · rwa [Layer.Interrupts.stopped_of_not_contains hl]

/-- The first layer that pins interrupts is the only one to stop balancers. -/
theorem interrupts {devices : List Device} {i : Tuning.Interrupts} {rest : Stack} {b b' : Bench}
    {l l' : Ledger} (hl : l.contains Layer.Interrupts.key = false)
    (hr : Layer.Interrupts.configure devices i (b, l) = (.ok (), b', l')) {out : Bench × Ledger}
    (h : StopsOnce rest b' l' out) : StopsOnce (.interrupts devices i :: rest) b l out := by
  obtain ⟨checks, older, first, hb, ho, hi, hnd, hc, ht, hstopped, hok⟩ :=
    Layer.Interrupts.configure_issues devices i b l hl
  rw [hr] at hb hstopped hok
  obtain rfl : b' = b.after (older ++ checks) := hb
  obtain ⟨newer, others, hb', hi', hnd', hc', hp⟩ := h
  have hnone := Layer.Interrupts.stopped_of_not_contains hl
  have hissues := (Issues.of_offService ho).append hi
  have hout : out.1 = b.after (newer ++ (older ++ checks)) := by
    rw [← Bench.after_after]
    exact hb'
  by_cases hne : first = []
  · subst hne
    have hempty : l'.stopped = [] := List.prefix_nil.1 hstopped
    refine ⟨newer ++ (older ++ checks), others, hout, hissues.append hi', hnd', fun hne => ?_, ?_⟩
    · exact ⟨hl, (hc' hne).2.cons _ hissues.not_isStop⟩
    · rw [hnone]
      rwa [hempty] at hp
  · have hothers : others = [] := by
      by_contra hne'
      have hcontains : l'.contains Layer.Interrupts.key = true := hok rfl hne
      rw [(hc' hne').1] at hcontains
      cases hcontains
    subst hothers
    obtain ⟨pinnings, hcheck⟩ := hc hne
    refine ⟨newer ++ (older ++ checks), first, hout, ?_, hnd, fun _ => ⟨hl, ?_⟩, ?_⟩
    · simpa using hissues.append hi'
    · rw [← List.append_assoc]
      exact .head hcheck ho ht rest (newer ++ older)
    · rw [hnone, List.nil_append]
      rw [List.append_nil] at hp
      exact hp.trans hstopped

end StopsOnce

theorem configure_stopsOnce (s : Stack) (b : Bench) (l : Ledger) :
    StopsOnce s b l (s.configure (b, l)).2 := by
  induction s generalizing b l with
  | nil => exact .refl [] b l
  | cons layer rest ih =>
    rw [configure_cons, configureLayer_apply]
    by_cases hl : l.contains layer.key = true
    · rw [if_pos hl]
      exact .refl (layer :: rest) b l
    · rw [if_neg hl]
      have hl := Bool.eq_false_iff.2 hl
      by_cases hi : layer.IsInterrupts
      · cases layer with
        | interrupts devices i =>
          have hsingle := StopsOnce.single devices i hl rest b
          rw [show (Layer.interrupts devices i).configure = Layer.Interrupts.configure devices i
            from rfl]
          rcases hr : Layer.Interrupts.configure devices i (b, l) with ⟨fault | ⟨⟩, b', l'⟩
          · rwa [hr] at hsingle
          · exact .interrupts hl hr (ih b' l')
        | _ => exact hi.elim
      · obtain ⟨older, hb, ho⟩ := Layer.configure_offService hi (b, l)
        have hget := get?_interrupts_of_configure hi hl b
        rcases hr : layer.configure (b, l) with ⟨fault | ⟨⟩, b', l'⟩ <;> rw [hr] at hb hget
        · exact .cons hb ho hget (.refl rest b' l')
        · exact .cons hb ho hget (ih b' l')

end Stack

/-! ## Balance -/

theorem not_isStop_writeEvent? {d : Device} {name : String} {value : Setting} {e : Event}
    (h : d.writeEvent? name value = some e) : e.isStop = false := by
  refine Event.not_isStop ?_
  unfold Device.writeEvent? at h
  cases hc : d.control with
  | memory address =>
    rw [hc] at h
    cases h
    rfl
  | commands =>
    rw [hc] at h
    obtain ⟨a, -, rfl⟩ := Option.map_eq_some_iff.1 h
    exact Command.isService_writeCommand d _ a

namespace Change

/-- The host whose balancer a change stops. -/
def stopped? : Change → Option Host
  | stop h => some h
  | _ => none

/-- The event of a change is a stop if the change stops a balancer. -/
theorem filter_event? (c : Change) :
    c.event?.toList.filter Event.isStop = c.stopped?.toList.map Host.stopEvent := by
  have other : ∀ {e : Event}, e.isStop = false → [e].filter Event.isStop = [] := by
    intro e he
    exact List.filter_cons_of_neg (by simp [he])
  cases c with
  | setting name change =>
    cases he : (setting name change).event? with
    | none => rfl
    | some e =>
      exact other (not_isStop_writeEvent? (show change.device.writeEvent? _ _ = some e from he))
  | queues change => exact other (Event.not_isStop (Command.isService_setCommand _ _))
  | qdisc change => exact other (Event.not_isStop (Command.isService_replaceCommand _))
  | stop h => exact List.filter_cons_of_pos (beq_self_eq_true _)
  | pin d => rfl

theorem filterMap_cons_toList {α : Type} (f : Change → Option α) (c : Change)
    (cs : List Change) : (c :: cs).filterMap f = (f c).toList ++ cs.filterMap f := by
  rw [List.filterMap_cons]
  cases f c <;> rfl

theorem filter_filterMap_event? (cs : List Change) :
    (cs.filterMap event?).filter Event.isStop = (cs.filterMap stopped?).map Host.stopEvent := by
  induction cs with
  | nil => rfl
  | cons c cs ih =>
    rw [filterMap_cons_toList, filterMap_cons_toList, List.filter_append, c.filter_event?, ih,
      List.map_append]

end Change

namespace Ledger

theorem stopped_eq (l : Ledger) : l.stopped =
    (((l.get? Layer.Interrupts.key).bind Entry.interrupts?).getD .none).stopped := by
  unfold stopped interrupts?
  cases l.get? Layer.Interrupts.key with
  | none => rfl
  | some entry => cases entry <;> rfl

/-- A change that stops a balancer adds its host. -/
theorem stopped_note (l : Ledger) (c : Change) :
    (l.note c).stopped = l.stopped ++ c.stopped?.toList := by
  rw [stopped_eq, stopped_eq, get?_note]
  by_cases hk : c.key = Layer.Interrupts.key
  · rw [if_pos hk]
    cases c with
    | stop h => rfl
    | pin d => exact (List.append_nil _).symm
    | setting name change => exact absurd hk (Change.settingKey_ne (by simp))
    | queues change =>
      exact absurd (show Layer.Queues.key = Layer.Interrupts.key from hk) (by decide)
    | qdisc change =>
      exact absurd (show Layer.Qdisc.key = Layer.Interrupts.key from hk) (by decide)
  · rw [if_neg hk]
    cases c with
    | stop h => exact absurd rfl hk
    | _ => exact (List.append_nil _).symm

theorem stopped_foldl_note (cs : List Change) (l : Ledger) :
    (cs.foldl note l).stopped = l.stopped ++ cs.filterMap Change.stopped? := by
  induction cs generalizing l with
  | nil => simp
  | cons c cs ih =>
    rw [List.foldl_cons, ih, stopped_note, List.append_assoc, Change.filterMap_cons_toList]

end Ledger

theorem Bench.successes_filter {b : Bench} {kind kind' : Event → Bool}
    (h : ∀ e, kind' e = true → kind e = true) (events : List Event) :
    b.successes kind' events = (b.successes kind events).filter kind' := by
  induction events with
  | nil => rfl
  | cons e events ih =>
    unfold successes
    rw [ih]
    cases hk : kind' e with
    | true =>
      cases ha : (b.after events).accomplishes e with
      | true => simp [h e hk, hk]
      | false => simp
    | false =>
      rw [Bool.false_and, if_neg Bool.false_ne_true]
      split
      · rw [List.filter_cons_of_neg (by simp [hk])]
      · rfl

theorem Event.isChange_of_isStop {e : Event} (h : e.isStop = true) : e.isChange = true := by
  cases e with
  | ran address command =>
    rw [show command = _ from beq_iff_eq.1 h]
    exact Command.isChange_stopCommand
  | _ => cases h

namespace Stack

/-- In configuring and restoring, no balancer is stopped twice and none before all processors are
checked, and those that were stopped are started, the last one first, whatever fails. -/
theorem stops_and_starts_balance (s : Stack) (b left : Bench) : ∃ stops starts hosts stopped,
    (s.configure (b, .empty)).2.1 = b.after stops ∧
    (s.restore (left, (s.configure (b, .empty)).2.2)).2.1 = left.after starts ∧
    stops.filter Event.isStop = (hosts.map Host.stopEvent).reverse ∧
    (hosts.map Host.id).Nodup ∧
    (hosts ≠ [] → StopsAfterChecks s b stops hosts) ∧
    b.successes Event.isStop stops = (stopped.map Host.stopEvent).reverse ∧
    stopped <+: hosts ∧
    starts.filter Event.isStart = stopped.map Host.startEvent ∧
    (∀ e ∈ stops, e.isStart = false) ∧ ∀ e ∈ starts, e.isStop = false := by
  obtain ⟨took, -, hc, hl, hk⟩ := configure_turns s b .empty
  have hsound := s.sound_configure b
  have hstopped : (s.configure (b, .empty)).2.2.stopped =
      (took.map Prod.snd).filterMap Change.stopped? := by
    rw [hl, Ledger.stopped_foldl_note]
    rfl
  obtain ⟨stops, hosts, hb, hi, hnd, hchecks, hprefix⟩ := configure_stopsOnce s b .empty
  obtain ⟨stops', hb', hsuccess⟩ := hc.successes (plain_of_owns hk)
  obtain rfl := Bench.after_injective b (hb.symm.trans hb')
  obtain ⟨starts, hr, hnostop, hstarts⟩ := restoreAll_starts s.reverse .none left _ hsound
  refine ⟨stops, starts, hosts, (s.configure (b, .empty)).2.2.stopped, hb, hr, hi.stops, hnd,
    fun hne => (hchecks hne).2, ?_, hprefix, ?_, hi.starts, hnostop⟩
  · rw [Bench.successes_filter (fun _ => Event.isChange_of_isStop), hsuccess, List.filter_reverse,
      Change.filter_filterMap_event?, hstopped]
  · rw [hstarts]
    split
    · rfl
    · rename_i hn
      have hno : (s.configure (b, .empty)).2.2.contains Layer.Interrupts.key = false :=
        Bool.eq_false_iff.2 fun h => hn (s.undoes_of_contains b _ h)
      rw [Layer.Interrupts.stopped_of_not_contains hno]
      rfl

end Stack

end NicTuning
