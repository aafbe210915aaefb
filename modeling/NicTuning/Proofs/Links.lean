import NicTuning.Proofs.Visits

/-!
# Links

Main statement: to look up interrupts, a link that is down is brought up and taken down again right
after the interrupts were asked for, whatever fails, and nothing else changes a link.
-/
namespace NicTuning

namespace Command

theorem isLinkChange_of_begins {front command : String} (hf : Text.begins front command = true)
    (h : Text.conflict linkBeginning front = true) : isLinkChange command = false := by
  unfold isLinkChange
  rw [Text.begins_of_conflict hf h, Bool.false_and]

end Command

namespace Event

/-- The event is a try to bring a link up or to take it down. -/
def isLink : Event → Bool
  | ran _ command => Command.isLinkChange command
  | linked .. => true
  | _ => false

end Event

namespace Device

variable (d : Device)

theorem isLink_linkEvent (up : Bool) : (d.linkEvent up).isLink = true := by
  unfold linkEvent
  cases d.control with
  | commands => exact Command.isLinkChange_linkCommand d up
  | memory address => rfl

theorem isLink_isUpEvents : ∀ e ∈ d.isUpEvents, e.isLink = false :=
  d.forall_isUpEvents fun _ _ hb => Command.isLinkChange_of_begins hb (by decide)

theorem isLink_tableEvent : d.tableEvent.isLink = false :=
  Command.isLinkChange_of_begins (Text.begins_front "cat /proc/interrupts" "") (by decide)

theorem isLink_assignEvent (assignment : UInt32 × String) :
    (d.assignEvent assignment).isLink = false :=
  Command.isLinkChange_of_begins (Command.begins_assignCommand assignment) (by decide)

end Device

theorem Host.isLink_stopEvent (h : Host) : h.stopEvent.isLink = false :=
  show Command.isLinkChange "service irqbalance stop" = false by decide

namespace Layer.Interrupts

theorem Looks.filter_isLink {d : Device} {b : Bench} {look : Look} (h : Looks d b look) :
    look.events.filter Event.isLink = look.links := by
  have hnone : d.isUpEvents.filter Event.isLink = [] :=
    List.filter_eq_nil_iff.2 fun e he => by simp [d.isLink_isUpEvents e he]
  cases h <;> simp [hnone, d.isLink_tableEvent, d.isLink_linkEvent]

theorem Visited.filter_isLink {b : Bench} {v : Visit} {result : Except Fault Unit}
    (h : Visited b v result) : v.events.filter Event.isLink = v.look.links := by
  have hwrites : v.writes.filter Event.isLink = [] := by
    refine List.filter_eq_nil_iff.2 fun e he => ?_
    obtain ⟨assignment, -, rfl⟩ := List.mem_map.1 (h.writes.mem (List.mem_reverse.2 he))
    simp [v.device.isLink_assignEvent assignment]
  have hbefore : v.before.filter Event.isLink = [] := by
    rcases h.before with hb | hb <;> simp [hb, Host.isLink_stopEvent]
  rw [Visit.events, List.filter_append, List.filter_append, hwrites, hbefore, h.look.filter_isLink,
    List.nil_append, List.append_nil]

/-- The layer does the same on the bench whatever is in the ledger. -/
theorem configure_bench (devices : List Device) (i : Tuning.Interrupts) (b : Bench)
    (l l' : Ledger) : (configure devices i (b, l)).2.1 = (configure devices i (b, l')).2.1 := by
  rw [configure_apply, configure_apply]
  rcases (targets devices i).mapM check b with ⟨fault | pinnings, m⟩
  · rfl
  · exact (notebook.collect_bench _ m l).trans (notebook.collect_bench _ m l').symm

/-- The links of devices in memory are as they were. -/
theorem configure_up (devices : List Device) (i : Tuning.Interrupts) (b : Bench) (l : Ledger)
    (address : String) :
    ((configure devices i (b, l)).2.1.memory address).up = (b.memory address).up := by
  obtain ⟨cs, hcourse, -⟩ := configure_performs devices i b .empty rfl
  rw [configure_bench devices i b l .empty]
  exact (hcourse.link_eq address).1

/-- How a link is changed to look up interrupts, the newest change first: not at all unless it is
down. Then it is brought up and, if that worked, taken down again. -/
def linkRound (d : Device) (b : Bench) : List Event :=
  match (d.isUp b).1 with
  | .ok false =>
    match (d.setLink true (b.after d.isUpEvents)).1 with
    | .ok () => [d.linkEvent false, d.linkEvent true]
    | .error _ => [d.linkEvent true]
  | _ => []

theorem Looks.links_eq {d : Device} {b : Bench} {look : Look} (h : Looks d b look) :
    look.links = linkRound d b := by
  unfold linkRound
  cases h with
  | unknown found => rw [found]
  | up found => rw [found]
  | stuck found raised => simp only [found, raised]
  | raised found raised => simp only [found, raised]

/-- A run of the layer on a bench, with the questions for processors, the visits, what happened
after them, and the end. It is over with a rejected target, when no more machines have been asked
than that of this target and those before it, or all targets are accepted and their devices are
visited. -/
inductive Runs (ts : List Target) (b : Bench) :
    List Event → List Visit → List Event → Except Fault Unit → Prop
  | rejected {place fault} (first : FirstRejected ts b place fault) :
      Runs ts b (countEvents (ts.take (place + 1))) [] [] (.error fault)
  | accepted {pinnings visits last result}
      (checked : ts.mapM check b = (.ok pinnings, b.after (countEvents ts)))
      (visited : Visits (b.after (countEvents ts)) pinnings visits last result) :
      Runs ts b (countEvents ts) visits last result

theorem configure_runs (devices : List Device) (i : Tuning.Interrupts) (b : Bench) (l : Ledger) :
    ∃ checks visits last result, Runs (targets devices i) b checks visits last result ∧
      (configure devices i (b, l)).1 =
        (if visits ≠ [] ∧ l.contains key then .error (.alreadyConfigured key) else result) ∧
      (configure devices i (b, l)).2.1 = b.after (last ++ (journal visits ++ checks)) := by
  rcases configure_visits devices i b l with
    ⟨fault, place, hrejected, hc⟩ | ⟨pinnings, visits, last, result, s, hm, hvisits, -, hc⟩
  · refine ⟨_, [], [], _, .rejected hrejected, ?_, ?_⟩
    · rw [hc, if_neg fun h => h.1 rfl]
    · rw [hc]
      rfl
  · refine ⟨_, visits, last, result, .accepted hm hvisits, ?_, ?_⟩ <;> rw [hc]

namespace Runs

variable {ts : List Target} {b : Bench} {checks last : List Event} {visits : List Visit}
  {result : Except Fault Unit}

/-- The links are changed to look up interrupts and for nothing else. -/
theorem filter_isLink (h : Runs ts b checks visits last result) :
    (last ++ (journal visits ++ checks)).filter Event.isLink =
      visits.reverse.flatMap (·.look.links) := by
  have hchecks : ∀ ts : List Target, (countEvents ts).filter Event.isLink = [] := fun ts =>
    filter_asked (fun _ => show Command.isLinkChange "lscpu" = false by decide)
      asksForProcessors_of_mem_countEvents
  cases h with
  | rejected first => exact hchecks _
  | accepted checked visited =>
    rw [← List.append_assoc, List.filter_append, hchecks, List.append_nil]
    exact visited.filter_events (fun _ _ _ h => h.filter_isLink) Host.isLink_stopEvent

/-- The devices of the targets are visited in their order, all of them if the run ends well. -/
theorem devices_visited (h : Runs ts b checks visits last result) :
    visits.map Visit.device <+: ts.map Target.device ∧
      (result = .ok () → visits.map Visit.device = ts.map Target.device) := by
  cases h with
  | rejected first => exact ⟨List.nil_prefix, nofun⟩
  | accepted checked visited =>
    have hdevice : Visit.device = Pinning.device ∘ Visit.pinning := rfl
    rw [← devices_of_checks checked, hdevice, ← List.map_map]
    refine ⟨visited.pinnings_prefix.map _, ?_⟩
    rintro rfl
    rw [visited.pinnings_eq.2]

/-- A visit takes place when those before it are over, and one that ends with a fault is the last
thing that happens. -/
theorem visited {earlier later : List Visit} {v : Visit}
    (h : Runs ts b checks (earlier ++ v :: later) last result) :
    ∃ ended, Visited (b.after (journal earlier ++ checks)) v ended ∧
      ∀ fault, ended = .error fault → later = [] ∧ last = [] ∧ result = .error fault := by
  generalize hvisits : earlier ++ v :: later = visits at h
  cases h with
  | rejected first => simp at hvisits
  | accepted checked others =>
    subst hvisits
    obtain ⟨ended, hvisited, hends⟩ := others.visited
    rw [Bench.after_after] at hvisited
    exact ⟨ended, hvisited, hends⟩

end Runs

/-- Nothing is written without a table. -/
theorem Visited.writes_of_table_error {b : Bench} {v : Visit} {result : Except Fault Unit}
    {fault : Fault} (h : Visited b v result) (ht : v.look.table = .error fault) :
    v.writes = [] := by
  have hwrites := h.writes
  rw [Visit.assignments_of_fault ht, List.map_nil, List.prefix_nil] at hwrites
  simpa using hwrites

/-- A run of the layer visits the devices of its targets one after the other, all of them if it ends
well, and nothing happens beside the visits but questions for processors before them and one more
try to stop a balancer after them. To look up the interrupts of a device, a link that is up is left
alone. One that is down is brought up and, if that worked, taken down right after the interrupts
were asked for, before any of them is assigned. No other link is changed. A look-up that ends with a
fault is the last thing that happens, and its fault is that of the layer, unless the ledger has an
entry already. In the end every device in memory is up if it was up before. -/
theorem links_are_put_back (devices : List Device) (i : Tuning.Interrupts) (b : Bench)
    (l : Ledger) : ∃ checks visits last result,
      Runs (targets devices i) b checks visits last result ∧
      (configure devices i (b, l)).1 =
        (if visits ≠ [] ∧ l.contains key then .error (.alreadyConfigured key) else result) ∧
      (configure devices i (b, l)).2.1 = b.after (last ++ (journal visits ++ checks)) ∧
      (last ++ (journal visits ++ checks)).filter Event.isLink =
        visits.reverse.flatMap (·.look.links) ∧
      visits.map Visit.device <+: (targets devices i).map Target.device ∧
      (result = .ok () → visits.map Visit.device = (targets devices i).map Target.device) ∧
      (∀ earlier v later, visits = earlier ++ v :: later →
        ∃ ended, Visited (b.after (journal earlier ++ checks)) v ended ∧
          (∀ fault, ended = .error fault → later = [] ∧ last = [] ∧ result = .error fault) ∧
          v.look.links =
            linkRound v.device (b.after (v.before ++ (journal earlier ++ checks))) ∧
          ∀ fault, v.look.table = .error fault → v.writes = [] ∧ ended = .error fault) ∧
      ∀ address, ((configure devices i (b, l)).2.1.memory address).up = (b.memory address).up := by
  obtain ⟨checks, visits, last, result, hruns, hresult, hbench⟩ := configure_runs devices i b l
  obtain ⟨hbegun, hall⟩ := hruns.devices_visited
  refine ⟨checks, visits, last, result, hruns, hresult, hbench, hruns.filter_isLink, hbegun, hall,
    ?_, configure_up devices i b l⟩
  rintro earlier v later rfl
  obtain ⟨ended, hvisited, hends⟩ := hruns.visited
  refine ⟨ended, hvisited, hends, ?_, ?_⟩
  · rw [hvisited.look.links_eq, Bench.after_after]
  · intro fault ht
    exact ⟨hvisited.writes_of_table_error ht, hvisited.fails fault ht⟩

/-- Two machines on which both devices are down. The second one shows no interrupts, and its device
cannot be taken down again. -/
def stuckLinks : Bench :=
  ((((twoMachines.addRule "first" ⟨"ip -o link show dev eth0", .ok "2: eth0: <BROADCAST> mtu"⟩
    ).addRule "first" ⟨"cat /proc/interrupts", .ok "10: 5 eth0-rx\n"⟩
    ).addRule "second" ⟨"ip -o link show dev eth2", .ok "3: eth2: <BROADCAST> mtu"⟩
    ).addRule "second" ⟨"cat /proc/interrupts", .failed 1 "no interrupts\n"⟩
    ).addRule "second" ⟨"ip link set dev eth2 down", .failed 2 "no way down\n"⟩

/-- The device in the middle is left alone. -/
def outerLists : Tuning.Interrupts := ⟨some [[3], [], [0, 1]], none⟩

/-- Both links go up and down, the last change first, and it is the missing table that counts. -/
theorem links_are_put_back_on_two_machines :
    ∃ checks visits last result,
      Runs (targets threeDevices outerLists) stuckLinks checks visits last result ∧
      visits.reverse.flatMap (·.look.links) =
        [.ran "second" "ip link set dev eth2 down", .ran "second" "ip link set dev eth2 up",
          .ran "first" "ip link set dev eth0 down", .ran "first" "ip link set dev eth0 up"] ∧
      result = .error (.remoteCommand "second" "cat /proc/interrupts" 1 "no interrupts") := by
  obtain ⟨checks, visits, last, result, hruns, hresult, hbench, hlinks, -⟩ :=
    links_are_put_back threeDevices outerLists stuckLinks .empty
  refine ⟨checks, visits, last, result, hruns, ?_, ?_⟩
  · have hjournal : (configure threeDevices outerLists (stuckLinks, .empty)).2.1.journal =
        last ++ (journal visits ++ checks) := by
      rw [hbench]
      exact List.append_nil _
    rw [← hlinks, ← hjournal]
    decide +kernel
  · rw [if_neg fun h => Bool.false_ne_true h.2] at hresult
    rw [← hresult]
    decide +kernel

end Layer.Interrupts

end NicTuning
