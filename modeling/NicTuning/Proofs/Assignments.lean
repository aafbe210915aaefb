import Mathlib.Data.Int.CardIntervalMod
import NicTuning.Proofs.Visits

/-!
# Assignments

Main statement: when interrupts are pinned without a fault, each interrupt of a device gets what the
list at the device's own place has for it, which are processors that the machine has, and what is in
the ledger is what was written.
-/
namespace NicTuning

namespace Affinity

/-! ## Dealing out processors -/

/-- The places in a list that interrupts take one after the other when they go round it. -/
def turns (interrupts places : Nat) : List Nat := (List.range interrupts).map (· % places)

/-- Going round a list takes each of its places equally often, or some of them once more. -/
theorem count_turns (interrupts : Nat) {place places : Nat} (h : place < places) :
    (turns interrupts places).count place =
      interrupts / places + if place < interrupts % places then 1 else 0 := by
  have hcard := Nat.count_modEq_card interrupts (Nat.zero_lt_of_lt h) place
  rw [Nat.mod_eq_of_lt h] at hcard
  rw [← hcard, turns, List.count_eq_countP, List.countP_map, Nat.count]
  refine List.countP_congr fun turn _ => ?_
  simp [Nat.ModEq, Nat.mod_eq_of_lt h]

/-- The interrupts, in their order, get processors of the list: one each, going round the list and
thereby taking each of its places equally often but for one, or the whole of it. -/
inductive Dealt (interrupts processors : List UInt32) : Spreading → List (UInt32 × String) → Prop
  | roundRobin {assignments : List (UInt32 × String)}
      (length : assignments.length = interrupts.length)
      (each : ∀ (n : Nat) interrupt, interrupts[n]? = some interrupt →
        ∃ processor, processors[n % processors.length]? = some processor ∧
          assignments[n]? = some (interrupt, toString processor))
      (evenly : ∀ place < processors.length,
        (turns interrupts.length processors.length).count place =
            interrupts.length / processors.length ∨
          (turns interrupts.length processors.length).count place =
            (interrupts.length + (processors.length - 1)) / processors.length) :
      Dealt interrupts processors .roundRobin assignments
  | all : Dealt interrupts processors .all (interrupts.map fun interrupt =>
      (interrupt, ",".intercalate (processors.map toString)))

theorem assign_dealt (interrupts : List UInt32) {processors : List UInt32} (h : processors ≠ [])
    (spreading : Spreading) :
    Dealt interrupts processors spreading (assign interrupts processors spreading) := by
  have hpos : 0 < processors.length := List.length_pos_iff.2 h
  unfold assign
  rw [dif_neg h]
  cases spreading with
  | all => exact .all
  | roundRobin =>
    refine .roundRobin (by simp) (fun n interrupt hn => ?_) fun place hplace => ?_
    · refine ⟨_, List.getElem?_eq_getElem (Nat.mod_lt n hpos), ?_⟩
      rw [List.getElem?_mapIdx, hn]
      rfl
    · rw [count_turns _ hplace]
      split
      · rename_i hlt
        right
        have hpred : (processors.length - 1) % processors.length = processors.length - 1 :=
          Nat.mod_eq_of_lt (by omega)
        have hzero : (processors.length - 1) / processors.length = 0 :=
          Nat.div_eq_of_lt (by omega)
        rw [Nat.add_div_eq_of_le_mod_add_mod (by omega) hpos, hzero, Nat.add_zero]
      · exact .inl rfl

end Affinity

namespace Layer.Interrupts

/-! ## Targets -/

/-- The target is the device at a place where there is a list that is not empty, with this list and
the spreading at the same place. -/
structure StandsAt (devices : List Device) (i : Tuning.Interrupts) (place : Nat) (t : Target) :
    Prop where
  device : devices[place]? = some t.device
  processors : (i.processors.getD [])[place]? = some t.processors
  listed : t.processors ≠ []
  spreading : t.spreading = ((i.spreadings.getD [])[place]?).getD .roundRobin

/-- The targets come in the order of their places, and none is left out. -/
theorem targets_stand (devices : List Device) (i : Tuning.Interrupts) : ∃ places : List Nat,
    places.Pairwise (· < ·) ∧ (∀ place, place ∈ places ↔ ∃ t, StandsAt devices i place t) ∧
    places.length = (targets devices i).length ∧
    ∀ (n : Nat) t, (targets devices i)[n]? = some t →
      ∃ place, places[n]? = some place ∧ StandsAt devices i place t := by
  let listed := (devices.zip (i.processors.getD [])).zipIdx.filter fun x => !x.1.2.isEmpty
  have hmem : ∀ d ps place, ((d, ps), place) ∈ listed ↔
      devices[place]? = some d ∧ (i.processors.getD [])[place]? = some ps ∧ ps ≠ [] := by
    intro d ps place
    rw [List.mem_filter, List.mem_zipIdx_iff_getElem?, List.getElem?_zip_eq_some]
    simp [and_assoc]
  refine ⟨listed.map Prod.snd, ?_, fun place => ⟨fun h => ?_, fun h => ?_⟩, ?_, fun n t hn => ?_⟩
  · have hall : ((devices.zip (i.processors.getD [])).zipIdx.map Prod.snd).Pairwise (· < ·) := by
      rw [List.zipIdx_map_snd]
      exact List.pairwise_lt_range'
    exact hall.sublist (List.filter_sublist.map Prod.snd)
  · obtain ⟨⟨⟨d, ps⟩, _⟩, hm, rfl⟩ := List.mem_map.1 h
    obtain ⟨hd, hps, hne⟩ := (hmem d ps _).1 hm
    exact ⟨⟨d, ps, spreadingFor i _⟩, hd, hps, hne, rfl⟩
  · obtain ⟨t, ht⟩ := h
    exact List.mem_map.2 ⟨_, (hmem _ _ place).2 ⟨ht.device, ht.processors, ht.listed⟩, rfl⟩
  · unfold targets
    rw [List.length_map, List.length_map]
  · unfold targets at hn
    rw [List.getElem?_map] at hn
    obtain ⟨⟨⟨d, ps⟩, place⟩, hx, rfl⟩ := Option.map_eq_some_iff.1 hn
    have hx : listed[n]? = some ((d, ps), place) := hx
    obtain ⟨hd, hps, hne⟩ := (hmem d ps place).1 (List.mem_of_getElem? hx)
    exact ⟨place, by rw [List.getElem?_map, hx]; rfl, hd, hps, hne, rfl⟩

end Layer.Interrupts

/-! ## Written processors -/

/-- The event is a command that gives an interrupt its processors. -/
def Event.isAssignment : Event → Bool
  | ran _ command => Text.begins "echo -n " command
  | _ => false

namespace Device

variable (d : Device)

theorem isAssignment_assignEvent (assignment : UInt32 × String) :
    (d.assignEvent assignment).isAssignment = true :=
  Command.begins_assignCommand assignment

theorem isAssignment_isUpEvents : ∀ e ∈ d.isUpEvents, e.isAssignment = false :=
  d.forall_isUpEvents fun _ _ hb => Text.begins_of_conflict hb (by decide)

theorem isAssignment_tableEvent : d.tableEvent.isAssignment = false :=
  show Text.begins "echo -n " "cat /proc/interrupts" = false by decide

theorem isAssignment_linkEvent (up : Bool) : (d.linkEvent up).isAssignment = false := by
  unfold linkEvent
  cases d.control with
  | memory address => rfl
  | commands => exact Text.begins_of_conflict (Command.begins_linkCommand d up) (by decide)

end Device

theorem Host.isAssignment_stopEvent (h : Host) : h.stopEvent.isAssignment = false :=
  show Text.begins "echo -n " "service irqbalance stop" = false by decide

namespace Layer.Interrupts

theorem Visited.filter_isAssignment {b : Bench} {v : Visit} {result : Except Fault Unit}
    (h : Visited b v result) : v.events.filter Event.isAssignment = v.writes := by
  have hwrites : v.writes.filter Event.isAssignment = v.writes := by
    refine List.filter_eq_self.2 fun e he => ?_
    obtain ⟨assignment, -, rfl⟩ := List.mem_map.1 (h.writes.mem (List.mem_reverse.2 he))
    exact v.device.isAssignment_assignEvent assignment
  have hlook : v.look.events.filter Event.isAssignment = [] := by
    refine List.filter_eq_nil_iff.2 fun e he => ?_
    rcases h.look.of_mem_events he with hup | rfl | ⟨up, rfl⟩
    · simp [v.device.isAssignment_isUpEvents e hup]
    · simp [v.device.isAssignment_tableEvent]
    · simp [v.device.isAssignment_linkEvent]
  have hbefore : v.before.filter Event.isAssignment = [] := by
    rcases h.before with hb | hb <;> simp [hb, Host.isAssignment_stopEvent]
  rw [Visit.events, List.filter_append, List.filter_append, hwrites, hlook, hbefore,
    List.append_nil, List.append_nil]

/-- The machine has all processors that passed their checks. -/
theorem lt_of_checkProcessors {count : Nat} {processors : List Int64} {ns : List UInt32}
    (h : Affinity.checkProcessors processors count = .ok ns) : ∀ n ∈ ns, n.toNat < count := by
  unfold Affinity.checkProcessors at h
  split at h
  · cases h
  · intro n hn
    obtain ⟨p, -, hp⟩ := Except.exists_of_mem_mapM h hn
    have hint := toInt_of_checkProcessor hp
    unfold Affinity.checkProcessor at hp
    split at hp
    · omega
    · cases hp

/-- A visit gave the interrupts of a target's device the processors of the target. -/
structure Pins (b : Bench) (t : Target) (v : Visit) (interrupts : List UInt32) : Prop where
  device : v.device = t.device
  spreading : v.pinning.spreading = t.spreading
  processors : v.pinning.processors.map (fun n => (n.toNat : Int)) = t.processors.map Int64.toInt
  look : Looks v.device (b.after v.before) v.look
  read : ∃ table, v.look.table = .ok table ∧
    interrupts = Report.Interrupts.ofDevice table v.device.name v.device.busInfo
  dealt : Affinity.Dealt interrupts v.pinning.processors v.pinning.spreading v.assignments
  writes : v.writes.reverse = v.assignments.map v.device.assignEvent

/-- A visit without a fault to a device that was accepted pins its interrupts. -/
theorem Visited.pins {b b' : Bench} {t : Target} {v : Visit} {output : Output} {count : Nat}
    (h : Visited b v (.ok ())) (ha : Accepts b' t v.pinning output count)
    (hlisted : t.processors ≠ []) : ∃ interrupts, Pins b t v interrupts := by
  have hints := toInt_of_checkProcessors ha.checked
  have hne : v.pinning.processors ≠ [] := by
    intro hnil
    rw [hnil, List.map_nil] at hints
    exact hlisted (List.map_eq_nil_iff.1 hints.symm)
  cases htable : v.look.table with
  | error fault => cases h.fails fault htable
  | ok table =>
    refine ⟨_, ha.device, ha.spreading, hints, h.look, ⟨table, htable, rfl⟩, ?_, h.complete rfl⟩
    rw [Visit.assignments, htable]
    exact Affinity.assign_dealt _ hne _

/-- In a run without a fault the visits pin one target after the other, which were checked in the
same order. -/
theorem Visits.pins_at {ts : List Target} (hlisted : ∀ t ∈ ts, t.processors ≠ []) {b : Bench}
    {pinnings : List Pinning} {earlier later : List Visit} {v : Visit} {last : List Event}
    (h : Visits (b.after (countEvents ts)) pinnings (earlier ++ v :: later) last (.ok ()))
    (hm : ts.mapM check b = (.ok pinnings, b.after (countEvents ts))) :
    ∃ t output count interrupts, ts[earlier.length]? = some t ∧
      Pins (b.after (journal earlier ++ countEvents ts)) t v interrupts ∧
      (b.after (countEvents (ts.take earlier.length))).reply t.device.netns "lscpu" = .ok output ∧
      Report.processorCount output.stdout = .ok count ∧
      ∀ n ∈ v.pinning.processors, n.toNat < count := by
  obtain ⟨-, hlength, haccepts⟩ := accepts_of_checks hm
  have hp : pinnings[earlier.length]? = some v.pinning := by simp [← h.pinnings_eq.2]
  have hlt : earlier.length < ts.length := hlength ▸ (List.getElem?_eq_some_iff.1 hp).1
  have ht : ts[earlier.length]? = some ts[earlier.length] := List.getElem?_eq_getElem hlt
  obtain ⟨output, count, ha⟩ := haccepts _ _ _ ht hp
  obtain ⟨mid, hv, hends⟩ := h.visited
  cases mid with
  | error fault => cases (hends fault rfl).2.2
  | ok =>
    rw [Bench.after_after] at hv
    obtain ⟨interrupts, hpins⟩ := hv.pins ha (hlisted _ (List.getElem_mem hlt))
    exact ⟨_, output, count, interrupts, ht, hpins, ha.asked, ha.read,
      lt_of_checkProcessors ha.checked⟩

/-- When the layer ends without a fault, the devices at the places with a list that is not empty
were visited in this order. At each there was one command for each interrupt, in the order of the
table, with processors from the list at the place, all of which the machine of the device has, and
there were no other such commands. The ledger tells just what was written. -/
theorem interrupts_are_pinned {devices : List Device} {i : Tuning.Interrupts} {b b' : Bench}
    {l l' : Ledger} (h : configure devices i (b, l) = (.ok (), b', l')) :
    ∃ (places : List Nat) (visits : List Visit),
    places.Pairwise (· < ·) ∧ (∀ place, place ∈ places ↔ ∃ t, StandsAt devices i place t) ∧
    visits.length = places.length ∧
    b' = b.after (journal visits ++ countEvents (targets devices i)) ∧
    (journal visits ++ countEvents (targets devices i)).filter Event.isAssignment =
      visits.reverse.flatMap Visit.writes ∧
    (∀ earlier v later, visits = earlier ++ v :: later → ∃ place t output count interrupts,
      places[earlier.length]? = some place ∧ StandsAt devices i place t ∧
      Pins (b.after (journal earlier ++ countEvents (targets devices i))) t v interrupts ∧
      (b.after (countEvents ((targets devices i).take earlier.length))).reply t.device.netns
        "lscpu" = .ok output ∧
      Report.processorCount output.stdout = .ok count ∧
      ∀ n ∈ v.pinning.processors, n.toNat < count) ∧
    (visits = [] → l' = l) ∧
    (visits ≠ [] → l.contains key = false ∧
      ∃ stopped, l' = l.insert key (.interrupts ⟨stopped, visits.map Visit.record⟩)) := by
  rcases configure_visits devices i b l with
    ⟨fault, asked, -, hc⟩ | ⟨pinnings, visits, last, result, s, hm, hvisits, hpinned, hc⟩
  · cases hc.symm.trans h
  · have hfree : ¬(visits ≠ [] ∧ l.contains key = true) := by
      intro hf
      rw [hc, if_pos hf] at h
      cases h
    rw [hc, if_neg hfree] at h
    obtain ⟨rfl, rfl, hledger⟩ : result = .ok () ∧ _ ∧ _ := ⟨congrArg Prod.fst h,
      congrArg (·.2.1) h, congrArg (·.2.2) h⟩
    obtain ⟨-, hlength, -⟩ := accepts_of_checks hm
    obtain ⟨places, horder, hplaces, hsame, hstands⟩ := targets_stand devices i
    have hlisted : ∀ t ∈ targets devices i, t.processors ≠ [] := by
      intro t ht
      obtain ⟨n, hn⟩ := List.mem_iff_getElem?.1 ht
      obtain ⟨place, -, hat⟩ := hstands n t hn
      exact hat.listed
    obtain ⟨rfl, hvisited⟩ := hvisits.pinnings_eq
    refine ⟨places, visits, horder, hplaces, ?_, rfl, ?_, ?_, fun hnil => ?_, fun hne => ?_⟩
    · rw [hsame, ← hlength, ← hvisited, List.length_map]
    · have hasked : (countEvents (targets devices i)).filter Event.isAssignment = [] :=
        filter_asked (fun _ => show Text.begins "echo -n " "lscpu" = false by decide)
          asksForProcessors_of_mem_countEvents
      rw [List.filter_append, hasked, List.append_nil]
      exact hvisits.filter_events (fun _ _ _ h => h.filter_isAssignment)
        Host.isAssignment_stopEvent
    · rintro earlier v later rfl
      obtain ⟨t, output, count, interrupts, ht, hpins, hanswer⟩ := hvisits.pins_at hlisted hm
      obtain ⟨place, hplace, hat⟩ := hstands earlier.length t ht
      exact ⟨place, t, output, count, interrupts, hplace, hat, hpins, hanswer⟩
    · exact hledger.symm.trans (if_pos (.inl hnil))
    · have hl : ¬l.contains key = true := fun hl => hfree ⟨hne, hl⟩
      refine ⟨Bool.eq_false_iff.2 hl, s.stopped, ?_⟩
      rw [← hpinned rfl]
      exact hledger.symm.trans (if_neg fun hn => hn.elim hne hl)

/-- Two machines that show their interrupts, of which the second has its device down. -/
def shownInterrupts : Bench :=
  ((((twoMachines.addRule "first" ⟨"ip -o link show dev eth0", .ok "2: eth0: <BROADCAST,UP> mtu"⟩)
    ).addRule "first" ⟨"cat /proc/interrupts", .ok "10: 5 eth0-rx\n11: 5 eth0-tx\n12: 1 eth0\n"⟩
    ).addRule "second" ⟨"ip -o link show dev eth2", .ok "3: eth2: <BROADCAST> mtu"⟩
    ).addRule "second" ⟨"cat /proc/interrupts", .ok "20: 7 eth1\n21: 7 eth2-rx\n22: 7 eth2-tx\n"⟩

/-- The device in the middle is left alone, and the last one has no spreading of its own. -/
def spreadLists : Tuning.Interrupts := ⟨some [[3, 1], [], [0, 1]], some [.roundRobin, .all]⟩

/-- The commands for both machines, of which the last one comes first. -/
def spreadWrites : List Event :=
  [.ran "second" "echo -n 1 > /proc/irq/22/smp_affinity_list",
    .ran "second" "echo -n 0 > /proc/irq/21/smp_affinity_list",
    .ran "first" "echo -n 3 > /proc/irq/12/smp_affinity_list",
    .ran "first" "echo -n 1 > /proc/irq/11/smp_affinity_list",
    .ran "first" "echo -n 3 > /proc/irq/10/smp_affinity_list"]

/-- The device that is left alone does not shift the lists and spreadings of the others. -/
theorem interrupts_are_pinned_on_two_machines :
    ∃ visits b' l',
      configure threeDevices spreadLists (shownInterrupts, .empty) = (.ok (), b', l') ∧
      b' = shownInterrupts.after
        (journal visits ++ countEvents (targets threeDevices spreadLists)) ∧
      visits.reverse.flatMap Visit.writes = spreadWrites ∧
      ∃ stopped, l' =
        Register.insert .empty key (.interrupts ⟨stopped, visits.map Visit.record⟩) := by
  have hok : (configure threeDevices spreadLists (shownInterrupts, .empty)).1 = .ok () := by
    decide +kernel
  have hwrites : (configure threeDevices spreadLists (shownInterrupts, .empty)).2.1.journal.filter
      Event.isAssignment = spreadWrites := by
    decide +kernel
  rcases hrun : configure threeDevices spreadLists (shownInterrupts, .empty) with ⟨result, b, l⟩
  rw [hrun] at hok hwrites
  dsimp only at hok hwrites
  subst hok
  obtain ⟨places, visits, -, -, -, hbench, hfilter, -, -, hentry⟩ := interrupts_are_pinned hrun
  have hnew : shownInterrupts.journal = [] := rfl
  have hjournal : b.journal =
      journal visits ++ countEvents (targets threeDevices spreadLists) := by
    rw [← List.append_nil (journal visits ++ _), ← hnew, hbench]
    rfl
  rw [hjournal, hfilter] at hwrites
  refine ⟨visits, b, l, rfl, hbench, hwrites, (hentry ?_).2⟩
  rintro rfl
  exact List.cons_ne_nil _ _ hwrites.symm

end Layer.Interrupts

end NicTuning
