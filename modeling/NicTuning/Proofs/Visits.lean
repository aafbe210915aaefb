import NicTuning.Proofs.Balancer
import NicTuning.Proofs.ProcessorChecks

/-!
# Visits

The layer that pins interrupts goes from device to device. This module tells what happens at one
device: the balancer may be stopped, the interrupts are looked up, for which the link may have to be
up, and the processors are written interrupt by interrupt. A run of the layer is such visits one
after the other, up to the first fault.
-/
namespace NicTuning

/-- Of two results that are faults the first is to blame. -/
theorem ActionM.results_apply {S α β γ : Type} (first : Except Fault α) (second : Except Fault β)
    (f : α → γ) (s : S) :
    (do let x ← first; let _ ← second; return f x : ActionM S γ) s =
      ((first <* second).map f, s) := by
  cases first <;> cases second <;> rfl

namespace Device

/-- The change of the link. -/
def linkEvent (d : Device) (up : Bool) : Event :=
  match d.control with
  | .commands => .ran d.netns.address (d.linkCommand up)
  | .memory address => .linked address up

theorem linkEvents_eq (d : Device) (up : Bool) : d.linkEvents up = [d.linkEvent up] := by
  unfold linkEvents linkEvent
  cases d.control <;> rfl

/-- The question for the interrupts of the device's machine. -/
def tableEvent (d : Device) : Event := .ran d.netns.address "cat /proc/interrupts"

/-- The command that gives an interrupt its processors. -/
def assignEvent (d : Device) (assignment : UInt32 × String) : Event :=
  .ran d.netns.address (Layer.Interrupts.assignCommand assignment)

end Device

namespace Layer.Interrupts

/-! ## Looking up interrupts -/

/-- How interrupts were looked up: the changes of the link, all that happened, the newest first as
in a journal, and the table that the machine has shown. -/
structure Look where
  links : List Event
  events : List Event
  table : Except Fault String

/-- A device whose link is up, or nobody knows how it is, keeps its link. One that is down is
brought up, and it is taken down right after the table was asked for. If both the question and that
end with a fault, it is the fault of the question. -/
inductive Looks (d : Device) (b : Bench) : Look → Prop
  | unknown {fault} (found : (d.isUp b).1 = .error fault) :
      Looks d b ⟨[], d.isUpEvents, .error fault⟩
  | up {table} (found : (d.isUp b).1 = .ok true)
      (read : (d.query "cat /proc/interrupts" (b.after d.isUpEvents)).1 = table) :
      Looks d b ⟨[], d.tableEvent :: d.isUpEvents, table⟩
  | stuck {fault} (found : (d.isUp b).1 = .ok false)
      (raised : (d.setLink true (b.after d.isUpEvents)).1 = .error fault) :
      Looks d b ⟨[d.linkEvent true], d.linkEvent true :: d.isUpEvents, .error fault⟩
  | raised {table taken} (found : (d.isUp b).1 = .ok false)
      (raised : (d.setLink true (b.after d.isUpEvents)).1 = .ok ())
      (read : (d.query "cat /proc/interrupts"
        (b.after (d.linkEvent true :: d.isUpEvents))).1 = table)
      (lowered : (d.setLink false
        (b.after (d.tableEvent :: d.linkEvent true :: d.isUpEvents))).1 = taken) :
      Looks d b ⟨[d.linkEvent false, d.linkEvent true],
        d.linkEvent false :: d.tableEvent :: d.linkEvent true :: d.isUpEvents, table <* taken⟩

/-- A look-up asks for the link and for the table, and changes the link. -/
theorem Looks.of_mem_events {d : Device} {b : Bench} {look : Look} (h : Looks d b look) {e : Event}
    (he : e ∈ look.events) :
    e ∈ d.isUpEvents ∨ e = d.tableEvent ∨ ∃ up, e = d.linkEvent up := by
  cases h with
  | unknown => exact .inl he
  | up =>
    rcases List.mem_cons.1 he with rfl | he
    · exact .inr (.inl rfl)
    · exact .inl he
  | stuck =>
    rcases List.mem_cons.1 he with rfl | he
    · exact .inr (.inr ⟨true, rfl⟩)
    · exact .inl he
  | raised =>
    rcases List.mem_cons.1 he with rfl | he
    · exact .inr (.inr ⟨false, rfl⟩)
    · rcases List.mem_cons.1 he with rfl | he
      · exact .inr (.inl rfl)
      · rcases List.mem_cons.1 he with rfl | he
        · exact .inr (.inr ⟨true, rfl⟩)
        · exact .inl he

/-- The interrupts of a device are those of the table that a look-up has given. -/
theorem interruptsOf_looks (d : Device) (b : Bench) : ∃ look, Looks d b look ∧
    interruptsOf d b = (look.table.map fun table =>
      Report.Interrupts.ofDevice table d.name d.busInfo, b.after look.events) := by
  have hup : d.isUp b = ((d.isUp b).1, b.after d.isUpEvents) := Prod.ext rfl (d.isUp_bench b)
  have hlink : ∀ up b, d.setLink up b = ((d.setLink up b).1, b.after [d.linkEvent up]) :=
    fun up b => Prod.ext rfl (d.linkEvents_eq up ▸ d.setLink_bench b up)
  unfold interruptsOf
  rw [ActionM.bind_apply, hup]
  cases hfound : (d.isUp b).1 with
  | error fault => exact ⟨_, .unknown hfound, rfl⟩
  | ok up =>
    cases up with
    | true =>
      refine ⟨_, .up hfound rfl, ?_⟩
      dsimp only
      rw [if_pos rfl, ActionM.bind_apply, Device.query_apply]
      cases (b.after d.isUpEvents).reply d.netns "cat /proc/interrupts" <;> rfl
    | false =>
      dsimp only
      rw [if_neg Bool.false_ne_true, ActionM.bind_apply, hlink]
      cases hraised : (d.setLink true (b.after d.isUpEvents)).1 with
      | error fault => exact ⟨_, .stuck hfound hraised, rfl⟩
      | ok =>
        refine ⟨_, .raised hfound hraised (congrArg Prod.fst (d.query_apply _ _)) rfl, ?_⟩
        dsimp only
        rw [ActionM.bind_apply, attempt_apply]
        dsimp only
        rw [ActionM.bind_apply, attempt_apply, hlink, Device.query_apply]
        dsimp only
        rw [Bench.after_after, Bench.after_after, Bench.after_after]
        exact ActionM.results_apply _ _ _ _

/-! ## Visits -/

/-- A visit to a device: what was to be done, what happened before the interrupts were looked up,
how they were looked up, and the commands with their processors, the newest first. -/
structure Visit where
  pinning : Pinning
  before : List Event
  look : Look
  writes : List Event

namespace Visit

variable (v : Visit)

def device : Device := v.pinning.device

/-- All that happened, the newest first. -/
def events : List Event := v.writes ++ (v.look.events ++ v.before)

/-- The processors for each interrupt in the table. -/
def assignments : List (UInt32 × String) :=
  match v.look.table with
  | .ok table =>
    Affinity.assign (Report.Interrupts.ofDevice table v.device.name v.device.busInfo)
      v.pinning.processors v.pinning.spreading
  | .error _ => []

/-- The note about the visit. -/
def record : PinnedDevice := { v.pinning with assignments := v.assignments }

variable {v}

theorem assignments_of_table {table : String} (h : v.look.table = .ok table) :
    v.assignments = Affinity.assign
      (Report.Interrupts.ofDevice table v.device.name v.device.busInfo)
      v.pinning.processors v.pinning.spreading := by
  unfold assignments
  rw [h]

theorem assignments_of_fault {fault : Fault} (h : v.look.table = .error fault) :
    v.assignments = [] := by
  unfold assignments
  rw [h]

end Visit

/-- What happened during some visits, of which the first is the oldest. -/
def journal (visits : List Visit) : List Event := visits.reverse.flatMap Visit.events

theorem journal_cons (v : Visit) (visits : List Visit) :
    journal (v :: visits) = journal visits ++ v.events := by
  simp [journal]

/-- The visit took place on a bench and ended so. The processors are written one by one, all of them
unless the visit ends with a fault, and none if there is no table. The fault is that of the table or
of the last command. -/
structure Visited (b : Bench) (v : Visit) (result : Except Fault Unit) : Prop where
  before : v.before = [] ∨ v.before = [v.device.host.stopEvent]
  look : Looks v.device (b.after v.before) v.look
  writes : v.writes.reverse <+: v.assignments.map v.device.assignEvent
  fails : ∀ fault, v.look.table = .error fault → result = .error fault
  complete : result = .ok () → v.writes.reverse = v.assignments.map v.device.assignEvent
  cause : ∀ fault, result = .error fault → v.look.table = .error fault ∨
    ∃ assignment earlier, v.writes = v.device.assignEvent assignment :: earlier ∧
      (b.after (earlier ++ (v.look.events ++ v.before))).reply v.device.netns
        (assignCommand assignment) = .error fault

/-- Devices are visited one after the other, up to the first fault. This may also be that of a
balancer, which then was the last to be stopped, without a visit to the device. -/
inductive Visits : Bench → List Pinning → List Visit → List Event → Except Fault Unit → Prop
  | done {b} : Visits b [] [] [] (.ok ())
  | unstopped {b p rest fault}
      (refused : b.reply p.device.host "service irqbalance stop" = .error fault) :
      Visits b (p :: rest) [] [p.device.host.stopEvent] (.error fault)
  | failed {b v rest fault} (here : Visited b v (.error fault)) :
      Visits b (v.pinning :: rest) [v] [] (.error fault)
  | next {b v rest visits last result} (here : Visited b v (.ok ()))
      (others : Visits (b.after v.events) rest visits last result) :
      Visits b (v.pinning :: rest) (v :: visits) last result

/-- Commands are run for items up to the first that fails. -/
theorem forEach_command {σ α : Type} (h : Host) (command : α → String) (xs : List α) (b : Bench)
    (s : σ) : ∃ done result, done <+: xs ∧ (result = .ok () → done = xs) ∧
      (∀ fault, result = .error fault → ∃ earlier x, done = earlier ++ [x] ∧
        (b.after (earlier.map fun x => Event.ran h.address (command x)).reverse).reply h
          (command x) = .error fault) ∧
      NotingM.forEach (fun x => h.command (command x)) xs (b, s) =
        (result, b.after (done.map fun x => Event.ran h.address (command x)).reverse, s) := by
  induction xs generalizing b with
  | nil =>
    refine ⟨[], .ok (), List.prefix_refl _, fun _ => rfl, fun fault h => ?_, rfl⟩
    cases h
  | cons x rest ih =>
    unfold NotingM.forEach
    rw [NotingM.lift_bind_apply, h.command_apply]
    cases hreply : b.reply h (command x) with
    | error fault =>
      refine ⟨[x], .error fault, by simp, fun h => ?_, fun fault' h => ?_, rfl⟩
      · cases h
      · cases h
        exact ⟨[], x, rfl, hreply⟩
    | ok output =>
      obtain ⟨done, result, hp, hr, hf, he⟩ := ih (b.after [.ran h.address (command x)])
      refine ⟨x :: done, result, by simpa using hp, fun h => by rw [hr h], fun fault h => ?_, ?_⟩
      · obtain ⟨earlier, last, rfl, hlast⟩ := hf fault h
        refine ⟨x :: earlier, last, rfl, ?_⟩
        rw [List.map_cons, List.reverse_cons, ← Bench.after_after]
        exact hlast
      · rw [List.map_cons, List.reverse_cons, ← Bench.after_after]
        exact he

namespace Visited

variable {b : Bench} {v : Visit}

/-- A visit without a table ends with the fault that took its place. -/
theorem of_table_error {fault : Fault} (hb : v.before = [] ∨ v.before = [v.device.host.stopEvent])
    (hlook : Looks v.device (b.after v.before) v.look) (htable : v.look.table = .error fault)
    (hw : v.writes = []) : Visited b v (.error fault) := by
  have hnone : v.writes.reverse = [] := by rw [hw, List.reverse_nil]
  refine ⟨hb, hlook, ?_, fun fault' h => ?_, fun h => ?_, fun fault' h => .inl ?_⟩
  · rw [hnone]
    exact List.nil_prefix
  · cases htable.symm.trans h
    rfl
  · cases h
  · cases h
    exact htable

/-- A visit with a table ends as the commands with the processors do. -/
theorem of_commands {table : String} {done : List (UInt32 × String)} {result : Except Fault Unit}
    (hb : v.before = [] ∨ v.before = [v.device.host.stopEvent])
    (hlook : Looks v.device (b.after v.before) v.look) (htable : v.look.table = .ok table)
    (hw : v.writes = (done.map v.device.assignEvent).reverse) (hdone : done <+: v.assignments)
    (hall : result = .ok () → done = v.assignments)
    (hfault : ∀ fault, result = .error fault → ∃ earlier assignment,
      done = earlier ++ [assignment] ∧
      (((b.after v.before).after v.look.events).after
        (earlier.map v.device.assignEvent).reverse).reply v.device.netns
          (assignCommand assignment) = .error fault) : Visited b v result := by
  have hwrites : v.writes.reverse = done.map v.device.assignEvent := by
    rw [hw, List.reverse_reverse]
  refine ⟨hb, hlook, ?_, fun fault h => ?_, fun hr => ?_, fun fault h => .inr ?_⟩
  · rw [hwrites]
    exact hdone.map _
  · cases htable.symm.trans h
  · rw [hwrites, hall hr]
  · obtain ⟨earlier, assignment, rfl, hreply⟩ := hfault fault h
    refine ⟨assignment, (earlier.map v.device.assignEvent).reverse, ?_, ?_⟩
    · simp [hw]
    · rw [Bench.after_after b v.before, Bench.after_after] at hreply
      exact hreply

end Visited

/-- Once the balancer is stopped the device is looked up and its interrupts are assigned. -/
theorem assignInterrupts_visited (p : Pinning) (b : Bench) (s : InterruptChanges)
    {before : List Event} (hb : before = [] ∨ before = [p.device.host.stopEvent]) :
    ∃ v result s', v.pinning = p ∧ v.before = before ∧ Visited b v result ∧
      assignInterrupts p (b.after before, s) = (result, b.after v.events, s') ∧
      s'.stopped = s.stopped ∧ (result = .ok () → s'.pinned = s.pinned ++ [v.record]) := by
  obtain ⟨look, hlook, hinterrupts⟩ := interruptsOf_looks p.device (b.after before)
  unfold assignInterrupts
  rw [NotingM.lift_bind_apply, hinterrupts]
  cases htable : look.table with
  | error fault =>
    have hvisited : Visited b ⟨p, before, look, []⟩ (.error fault) :=
      .of_table_error hb hlook htable rfl
    refine ⟨_, .error fault, s, rfl, rfl, hvisited, ?_, rfl, fun h => by cases h⟩
    exact congrArg (fun b => (_, b, s)) (Bench.after_after ..)
  | ok table =>
    dsimp only [Except.map]
    rw [ActionM.bind_apply]
    obtain ⟨done, result, hdone, hall, hfault, he⟩ := forEach_command p.device.netns assignCommand
      (Affinity.assign (Report.Interrupts.ofDevice table p.device.name p.device.busInfo)
        p.processors p.spreading) ((b.after before).after look.events) s
    let v : Visit := ⟨p, before, look, (done.map p.device.assignEvent).reverse⟩
    have hassign : v.assignments = Affinity.assign
        (Report.Interrupts.ofDevice table p.device.name p.device.busInfo)
        p.processors p.spreading := Visit.assignments_of_table htable
    have hvisited : Visited b v result := by
      rw [← hassign] at hdone hall
      exact .of_commands hb hlook htable rfl hdone hall hfault
    have hevents : ((b.after before).after look.events).after v.writes = b.after v.events := by
      rw [Bench.after_after b before, Bench.after_after]
      rfl
    rw [he]
    cases result with
    | error fault =>
      exact ⟨v, _, s, rfl, rfl, hvisited, congrArg (_, ·, s) hevents, rfl, fun h => by cases h⟩
    | ok =>
      refine ⟨v, _, _, rfl, rfl, hvisited, congrArg (_, ·, _) hevents, rfl, fun _ => ?_⟩
      unfold Visit.record
      rw [hassign]

/-- A device is visited unless the balancer of its host cannot be stopped. -/
theorem pin_visited (p : Pinning) (b : Bench) (s : InterruptChanges) :
    (∃ fault, b.reply p.device.host "service irqbalance stop" = .error fault ∧
      pin p (b, s) = (.error fault, b.after [p.device.host.stopEvent], s)) ∨
    ∃ v result s', v.pinning = p ∧ Visited b v result ∧
      pin p (b, s) = (result, b.after v.events, s') ∧ s'.stopped ≠ [] ∧
      (result = .ok () → s'.pinned = s.pinned ++ [v.record]) := by
  rw [pin_eq, ActionM.bind_apply, stopBalancer_apply]
  by_cases hh : s.hasStopped p.device.host = true
  · obtain ⟨v, result, s', hp, -, hv, he, hs, hr⟩ := assignInterrupts_visited p b s (.inl rfl)
    rw [if_pos hh]
    refine .inr ⟨v, result, s', hp, hv, he, fun hn => ?_, hr⟩
    rw [InterruptChanges.hasStopped, ← hs, hn] at hh
    cases hh
  · rw [if_neg hh, Host.command_apply]
    cases hreply : b.reply p.device.host "service irqbalance stop" with
    | error fault => exact .inl ⟨fault, rfl, rfl⟩
    | ok output =>
      obtain ⟨v, result, s', hp, -, hv, he, hs, hr⟩ :=
        assignInterrupts_visited p b (s.note (.stop p.device.host)) (.inr rfl)
      refine .inr ⟨v, result, s', hp, hv, he, fun hn => ?_, hr⟩
      exact absurd (hs.symm.trans hn) (List.append_ne_nil_of_right_ne_nil _ (by simp))

/-- Devices that are to be pinned are visited. There are notes as soon as one is visited, and there
is one about each visit if the run ends without a fault. -/
theorem forEach_pin_visits (pinnings : List Pinning) (b : Bench) (s : InterruptChanges) :
    ∃ visits last result s', Visits b pinnings visits last result ∧
      NotingM.forEach pin pinnings (b, s) = (result, b.after (last ++ journal visits), s') ∧
      (visits = [] → s' = s) ∧ (visits ≠ [] → s'.stopped ≠ []) ∧
      (result = .ok () → s'.pinned = s.pinned ++ visits.map Visit.record) := by
  induction pinnings generalizing b s with
  | nil =>
    exact ⟨[], [], .ok (), s, .done, rfl, fun _ => rfl, by simp, fun _ => (List.append_nil _).symm⟩
  | cons p rest ih =>
    unfold NotingM.forEach
    rw [ActionM.bind_apply]
    rcases pin_visited p b s with ⟨fault, hrefused, he⟩ | ⟨v, result, s', rfl, hv, he, hs, hr⟩
    · rw [he]
      exact ⟨[], _, .error fault, s, .unstopped hrefused, rfl, fun _ => rfl, by simp,
        fun h => by cases h⟩
    · rw [he]
      cases result with
      | error fault =>
        refine ⟨[v], [], .error fault, s', .failed hv, ?_, by simp, fun _ => hs,
          fun h => by cases h⟩
        rw [show journal [v] = v.events by simp [journal]]
        rfl
      | ok =>
        obtain ⟨visits, last, result, s'', hvisits, he', hnone, hs', hr'⟩ :=
          ih (b.after v.events) s'
        refine ⟨v :: visits, last, result, s'', .next hv hvisits, ?_, by simp, fun _ => ?_,
          fun h => ?_⟩
        · dsimp only
          rw [he', Bench.after_after, journal_cons, List.append_assoc]
        · by_cases hempty : visits = []
          · rwa [hnone hempty]
          · exact hs' hempty
        · rw [hr' h, hr rfl, List.append_assoc]
          rfl

namespace Visits

variable {b : Bench} {pinnings : List Pinning} {visits : List Visit} {last : List Event}
  {result : Except Fault Unit}

/-- The devices come in the order in which they are to be pinned. -/
theorem pinnings_prefix (h : Visits b pinnings visits last result) :
    visits.map Visit.pinning <+: pinnings := by
  induction h with
  | done | unstopped => exact List.nil_prefix
  | failed => simp
  | next _ _ ih => simpa using ih

theorem last_eq (h : Visits b pinnings visits last result) :
    last = [] ∨ ∃ p ∈ pinnings, last = [p.device.host.stopEvent] := by
  induction h with
  | done | failed => exact .inl rfl
  | unstopped => exact .inr ⟨_, by simp, rfl⟩
  | next _ _ ih =>
    rcases ih with h | ⟨p, hp, h⟩
    · exact .inl h
    · exact .inr ⟨p, by simp [hp], h⟩

/-- A visit takes place when those before it are over. One that ends with a fault is the last. -/
theorem visited {earlier later : List Visit} {v : Visit}
    (h : Visits b pinnings (earlier ++ v :: later) last result) :
    ∃ mid, Visited (b.after (journal earlier)) v mid ∧
      ∀ fault, mid = .error fault → later = [] ∧ last = [] ∧ result = .error fault := by
  induction earlier generalizing b pinnings with
  | nil =>
    cases h with
    | failed here => exact ⟨_, here, fun fault h => by cases h; exact ⟨rfl, rfl, rfl⟩⟩
    | next here others => exact ⟨_, here, fun fault h => by cases h⟩
  | cons first rest ih =>
    rw [List.cons_append] at h
    generalize htail : rest ++ v :: later = tail at h
    cases h with
    | failed here => simp at htail
    | next here others =>
      rw [journal_cons, ← Bench.after_after]
      exact ih (htail ▸ others)

/-- All devices are visited if the run ends well. -/
theorem pinnings_eq (h : Visits b pinnings visits last (.ok ())) :
    last = [] ∧ visits.map Visit.pinning = pinnings := by
  generalize hr : (Except.ok () : Except Fault Unit) = result at h
  induction h with
  | done => exact ⟨rfl, rfl⟩
  | unstopped | failed => cases hr
  | next _ _ ih => exact ⟨(ih hr).1, congrArg (_ :: ·) (ih hr).2⟩

/-- The events of a kind in a run of visits are those in the visits, unless the kind has stops of
balancers in it. -/
theorem filter_events (h : Visits b pinnings visits last result) {kind : Event → Bool}
    {part : Visit → List Event}
    (hpart : ∀ b v result, Visited b v result → v.events.filter kind = part v)
    (hstop : ∀ host : Host, kind host.stopEvent = false) :
    (last ++ journal visits).filter kind = visits.reverse.flatMap part := by
  have hlast : last.filter kind = [] := by
    rcases h.last_eq with rfl | ⟨p, -, rfl⟩
    · rfl
    · simp [hstop]
  rw [List.filter_append, hlast, List.nil_append, journal, List.filter_flatMap]
  refine List.flatMap_congr fun v hv => ?_
  obtain ⟨earlier, later, rfl⟩ := List.append_of_mem (List.mem_reverse.1 hv)
  obtain ⟨mid, hvisited, -⟩ := h.visited
  exact hpart _ v mid hvisited

end Visits

/-! ## The layer -/

theorem asksForProcessors_of_mem_countEvents {ts : List Target} :
    ∀ e ∈ countEvents ts, AsksForProcessors e := by
  intro e he
  obtain ⟨t, -, rfl⟩ := List.mem_map.1 (List.mem_reverse.1 he)
  exact ⟨_, rfl⟩

/-- Questions for processors are of no other kind. -/
theorem filter_asked {kind : Event → Bool} (hk : ∀ address, kind (.ran address "lscpu") = false)
    {asked : List Event} (h : ∀ e ∈ asked, AsksForProcessors e) : asked.filter kind = [] := by
  refine List.filter_eq_nil_iff.2 fun e he => ?_
  obtain ⟨address, rfl⟩ := h e he
  exact Bool.eq_false_iff.1 (hk address)

/-- The layer ends with the checks, or it goes on to visit the devices. After a visit it makes an
entry in the ledger, unless there is one already. -/
theorem configure_visits (devices : List Device) (i : Tuning.Interrupts) (b : Bench) (l : Ledger) :
    (∃ fault place, FirstRejected (targets devices i) b place fault ∧
      configure devices i (b, l) =
        (.error fault, b.after (countEvents ((targets devices i).take (place + 1))), l)) ∨
    ∃ pinnings visits last result s,
      (targets devices i).mapM check b =
        (.ok pinnings, b.after (countEvents (targets devices i))) ∧
      Visits (b.after (countEvents (targets devices i))) pinnings visits last result ∧
      (result = .ok () → s.pinned = visits.map Visit.record) ∧
      configure devices i (b, l) =
        (if visits ≠ [] ∧ l.contains key then .error (.alreadyConfigured key) else result,
          b.after (last ++ (journal visits ++ countEvents (targets devices i))),
          if visits = [] ∨ l.contains key then l else l.insert key (.interrupts s)) := by
  rw [configure_apply]
  rcases hc : (targets devices i).mapM check b with ⟨fault | pinnings, m⟩
  · obtain ⟨place, hrejected⟩ := firstRejected_of_checks hc
    cases hc.symm.trans hrejected.checks
    exact .inl ⟨fault, place, hrejected, rfl⟩
  · obtain ⟨rfl, -, -⟩ := accepts_of_checks hc
    obtain ⟨visits, last, result, s, hvisits, he, hnone, hstopped, hpinned⟩ :=
      forEach_pin_visits pinnings (b.after (countEvents (targets devices i))) .none
    rw [Bench.after_after, List.append_assoc] at he
    refine .inr ⟨pinnings, visits, last, result, s, rfl, hvisits, hpinned, ?_⟩
    dsimp only
    rw [notebook.collect_apply, show NotingM.forEach pin pinnings (_, notebook.start) = _ from he]
    by_cases hv : visits = []
    · have hempty : notebook.isEmpty s = true := by
        rw [hnone hv]
        rfl
      rw [if_pos hempty, if_neg fun h => h.1 hv, if_pos (.inl hv)]
    · have hempty : notebook.isEmpty s = false := by
        have hne : s.stopped.isEmpty = false := List.isEmpty_eq_false_iff.2 (hstopped hv)
        simp [notebook, InterruptChanges.isEmpty, hne]
      rw [if_neg (by simp [hempty])]
      unfold Ledger.add
      by_cases hl : l.contains key = true
      · rw [if_pos (show l.contains notebook.key = true from hl), if_pos ⟨hv, hl⟩, if_pos (.inr hl)]
        rfl
      · rw [if_neg (show ¬l.contains notebook.key = true from hl), if_neg fun h => hl h.2,
          if_neg fun h => h.elim hv hl]
        rfl

end Layer.Interrupts

end NicTuning
