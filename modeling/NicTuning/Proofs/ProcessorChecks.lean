import Mathlib.Data.Nat.Find
import NicTuning.Proofs.Admission

/-!
# Checks before changes

Main statement: a layer that refuses its parameters has asked machines for their processors at most,
and the layer that pins interrupts ends with the fault of the first target that a machine rejects,
wherever in the list that is, before anything is changed.
-/
namespace NicTuning

/-- A computation for each item fails if one of them does. -/
theorem Except.exists_mapM_eq_error_iff {ε α β : Type} {act : α → Except ε β} {xs : List α} :
    (∃ fault, xs.mapM act = .error fault) ↔ ∃ x ∈ xs, ∃ fault, act x = .error fault := by
  induction xs with
  | nil => simp [pure, Except.pure]
  | cons x rest ih =>
    rw [List.mapM_cons, List.exists_mem_cons_iff, ← ih]
    cases act x with
    | error fault => exact ⟨fun _ => .inl ⟨fault, rfl⟩, fun _ => ⟨fault, rfl⟩⟩
    | ok y => cases rest.mapM act <;> simp [bind, Except.bind, pure, Except.pure]

namespace Affinity

theorem checkProcessor_eq_error_iff {count : Nat} {processor : Int64} :
    (∃ fault, checkProcessor count processor = .error fault) ↔
      processor.toInt < 0 ∨ UInt32.size ≤ processor.toInt ∨ count ≤ processor.toInt := by
  unfold checkProcessor
  split
  · simp only [reduceCtorEq, exists_false, false_iff]
    omega
  · simp only [Except.error.injEq, exists_eq', true_iff]
    omega

/-- A list is accepted if the machine has any processors, and none of the list is negative or too
great. -/
theorem checkProcessors_eq_error_iff {processors : List Int64} {count : Nat} :
    (∃ fault, checkProcessors processors count = .error fault) ↔
      count = 0 ∨ ∃ p ∈ processors, p.toInt < 0 ∨ UInt32.size ≤ p.toInt ∨ count ≤ p.toInt := by
  unfold checkProcessors
  split
  · rename_i hcount
    simp [hcount]
  · rename_i hcount
    simp only [hcount, false_or, Except.exists_mapM_eq_error_iff, checkProcessor_eq_error_iff]

end Affinity

namespace Layer.Interrupts

/-- The question how many processors the machine of a target has. -/
def countEvent (t : Target) : Event := .ran t.device.netns.address "lscpu"

/-- The questions for some targets, the first of which is asked first. -/
def countEvents (ts : List Target) : List Event := (ts.map countEvent).reverse

theorem countEvents_cons (t : Target) (ts : List Target) :
    countEvents (t :: ts) = countEvents ts ++ [countEvent t] := by
  simp [countEvents]

/-- The machine of a target does not answer, what it prints cannot be understood, or it lacks one of
the processors. -/
inductive Rejects (b : Bench) (t : Target) : Fault → Prop
  | silent {fault} (asked : b.reply t.device.netns "lscpu" = .error fault) : Rejects b t fault
  | unclear {output fault} (asked : b.reply t.device.netns "lscpu" = .ok output)
      (read : Report.processorCount output.stdout = .error fault) : Rejects b t fault
  | lacking {output count fault} (asked : b.reply t.device.netns "lscpu" = .ok output)
      (read : Report.processorCount output.stdout = .ok count)
      (checked : Affinity.checkProcessors t.processors count = .error fault) : Rejects b t fault

/-- The machine of a target answers with a number by which it has the processors, and these are to
be used. -/
structure Accepts (b : Bench) (t : Target) (p : Pinning) (output : Output) (count : Nat) :
    Prop where
  asked : b.reply t.device.netns "lscpu" = .ok output
  read : Report.processorCount output.stdout = .ok count
  checked : Affinity.checkProcessors t.processors count = .ok p.processors
  device : p.device = t.device
  spreading : p.spreading = t.spreading

/-- A target is checked by asking its machine, and it is accepted or rejected. -/
theorem check_cases (t : Target) (b : Bench) :
    (∃ fault, Rejects b t fault ∧ check t b = (.error fault, b.after [countEvent t])) ∨
    ∃ p output count, Accepts b t p output count ∧ check t b = (.ok p, b.after [countEvent t]) := by
  unfold check
  rw [ActionM.bind_apply, Device.query_apply]
  cases hr : b.reply t.device.netns "lscpu" with
  | error fault => exact .inl ⟨fault, .silent hr, rfl⟩
  | ok output =>
    dsimp only [Except.map]
    rw [ActionM.bind_apply, ActionM.liftExcept_apply]
    cases hc : Report.processorCount output.stdout with
    | error fault => exact .inl ⟨fault, .unclear hr hc, rfl⟩
    | ok count =>
      dsimp only
      rw [ActionM.bind_apply, ActionM.liftExcept_apply]
      cases hp : Affinity.checkProcessors t.processors count with
      | error fault => exact .inl ⟨fault, .lacking hr hc hp, rfl⟩
      | ok processors =>
        exact .inr ⟨⟨t.device, processors, t.spreading⟩, output, count, ⟨hr, hc, hp, rfl, rfl⟩, rfl⟩

theorem Rejects.not_accepts {b : Bench} {t : Target} {fault : Fault} (h : Rejects b t fault)
    {p : Pinning} {output : Output} {count : Nat} : ¬Accepts b t p output count := by
  intro ha
  cases h with
  | silent asked => cases ha.asked.symm.trans asked
  | unclear asked read =>
    cases ha.asked.symm.trans asked
    cases ha.read.symm.trans read
  | lacking asked read checked =>
    cases ha.asked.symm.trans asked
    cases ha.read.symm.trans read
    cases ha.checked.symm.trans checked

theorem check_of_rejects {b : Bench} {t : Target} {fault : Fault} (h : Rejects b t fault) :
    check t b = (.error fault, b.after [countEvent t]) := by
  rcases check_cases t b with ⟨fault', hr, hc⟩ | ⟨p, output, count, ha, -⟩
  · suffices fault' = fault by rwa [this] at hc
    cases h with
    | silent asked => cases hr <;> simp_all
    | unclear asked read => cases hr <;> simp_all
    | lacking asked read checked => cases hr <;> simp_all
  · exact absurd ha h.not_accepts

/-- When the checks go through, each target has been accepted, in its turn. -/
theorem accepts_of_checks {ts : List Target} {pinnings : List Pinning} {b b' : Bench}
    (h : ts.mapM check b = (.ok pinnings, b')) :
    b' = b.after (countEvents ts) ∧ pinnings.length = ts.length ∧
    ∀ place t p, ts[place]? = some t → pinnings[place]? = some p →
      ∃ output count, Accepts (b.after (countEvents (ts.take place))) t p output count := by
  induction ts generalizing b pinnings with
  | nil =>
    cases h
    exact ⟨rfl, rfl, by simp⟩
  | cons t rest ih =>
    rw [List.mapM_cons, ActionM.bind_apply] at h
    rcases check_cases t b with ⟨fault, -, hc⟩ | ⟨p, output, count, ha, hc⟩ <;> rw [hc] at h
    · cases h
    · dsimp only at h
      rw [ActionM.bind_apply] at h
      rcases hr : rest.mapM check (b.after [countEvent t]) with ⟨fault | ps, m⟩ <;> rw [hr] at h
      · cases h
      · cases h
        obtain ⟨rfl, hlength, hothers⟩ := ih hr
        refine ⟨?_, congrArg Nat.succ hlength, fun place t' p' ht hp => ?_⟩
        · rw [countEvents_cons, ← Bench.after_after]
        · cases place with
          | zero =>
            cases ht
            cases hp
            exact ⟨output, count, ha⟩
          | succ place =>
            rw [List.take_succ_cons, countEvents_cons, ← Bench.after_after]
            exact hothers place t' p' ht hp

/-- What passed the checks are the devices of the targets. -/
theorem devices_of_checks {ts : List Target} {pinnings : List Pinning} {b b' : Bench}
    (h : ts.mapM check b = (.ok pinnings, b')) :
    pinnings.map Pinning.device = ts.map Target.device := by
  obtain ⟨-, hlength, haccepts⟩ := accepts_of_checks h
  refine List.ext_getElem (by simpa using hlength) fun place hp ht => ?_
  rw [List.length_map] at hp ht
  obtain ⟨output, count, ha⟩ := haccepts place _ _ (List.getElem?_eq_getElem ht)
    (List.getElem?_eq_getElem hp)
  simpa using ha.device

/-! ## The first rejected target -/

/-- When the machines are asked one after the other, the target at a place is the first that is
rejected. -/
structure FirstRejected (ts : List Target) (b : Bench) (place : Nat) (fault : Fault) : Prop where
  rejected : ∃ t, ts[place]? = some t ∧ Rejects (b.after (countEvents (ts.take place))) t fault
  earlier : ∀ before < place, ∀ t, ts[before]? = some t →
    ∀ fault, ¬Rejects (b.after (countEvents (ts.take before))) t fault

theorem exists_firstRejected {ts : List Target} {b : Bench} {place : Nat} {t : Target}
    {fault : Fault} (ht : ts[place]? = some t)
    (hr : Rejects (b.after (countEvents (ts.take place))) t fault) :
    ∃ first ≤ place, ∃ fault, FirstRejected ts b first fault := by
  classical
  have hex : ∃ place t, ts[place]? = some t ∧
      ∃ fault, Rejects (b.after (countEvents (ts.take place))) t fault := ⟨place, t, ht, fault, hr⟩
  obtain ⟨t', ht', fault', hr'⟩ := Nat.find_spec hex
  refine ⟨Nat.find hex, Nat.find_min' hex ⟨t, ht, fault, hr⟩, fault', ⟨t', ht', hr'⟩, ?_⟩
  intro before hlt t'' ht'' fault'' hr''
  exact Nat.find_min hex hlt ⟨t'', ht'', fault'', hr''⟩

/-- The checks end with the first rejected target. -/
theorem FirstRejected.checks {ts : List Target} {b : Bench} {place : Nat} {fault : Fault}
    (h : FirstRejected ts b place fault) :
    ts.mapM check b = (.error fault, b.after (countEvents (ts.take (place + 1)))) := by
  induction ts generalizing b place with
  | nil =>
    obtain ⟨t, ht, -⟩ := h.rejected
    cases ht
  | cons t rest ih =>
    rw [List.mapM_cons, ActionM.bind_apply]
    cases place with
    | zero =>
      obtain ⟨t', ht, hr⟩ := h.rejected
      obtain rfl : t = t' := Option.some.inj ht
      have hr : Rejects b t fault := hr
      rw [check_of_rejects hr]
      rfl
    | succ place =>
      have hnot := h.earlier 0 (Nat.succ_pos place) t rfl
      rcases check_cases t b with ⟨fault', hr, -⟩ | ⟨p, output, count, -, hc⟩
      · exact absurd hr (hnot fault')
      · -- Among the other targets the rejected one stands one place further to the left.
        have hrest : FirstRejected rest (b.after [countEvent t]) place fault := by
          constructor
          · obtain ⟨t', ht, hr⟩ := h.rejected
            refine ⟨t', ht, ?_⟩
            rwa [List.take_succ_cons, countEvents_cons, ← Bench.after_after] at hr
          · intro before hlt t' ht fault' hr
            refine h.earlier (before + 1) (Nat.succ_lt_succ hlt) t' ht fault' ?_
            rwa [List.take_succ_cons, countEvents_cons, ← Bench.after_after]
        rw [hc]
        dsimp only
        rw [ActionM.bind_apply, ih hrest, List.take_succ_cons, countEvents_cons,
          ← Bench.after_after]

/-- Checks that fail have come to a rejected target. -/
theorem firstRejected_of_checks {ts : List Target} {b b' : Bench} {fault : Fault}
    (h : ts.mapM check b = (.error fault, b')) : ∃ place, FirstRejected ts b place fault := by
  have hrejects : ∃ (place : Nat) (t : Target) (fault : Fault), ts[place]? = some t ∧
      Rejects (b.after (countEvents (ts.take place))) t fault := by
    induction ts generalizing b with
    | nil => cases h
    | cons t rest ih =>
      rcases check_cases t b with ⟨fault', hr, -⟩ | ⟨p, output, count, -, hc⟩
      · exact ⟨0, t, fault', rfl, hr⟩
      · rw [List.mapM_cons, ActionM.bind_apply, hc] at h
        dsimp only at h
        rw [ActionM.bind_apply] at h
        rcases hrest : rest.mapM check (b.after [countEvent t]) with ⟨fault' | ps, m⟩ <;>
          rw [hrest] at h <;> cases h
        obtain ⟨place, t', fault', ht, hr⟩ := ih hrest
        refine ⟨place + 1, t', fault', ht, ?_⟩
        rwa [List.take_succ_cons, countEvents_cons, ← Bench.after_after]
  obtain ⟨place, t, fault', ht, hr⟩ := hrejects
  obtain ⟨first, -, fault'', hfirst⟩ := exists_firstRejected ht hr
  obtain rfl : fault = fault'' := by
    cases h.symm.trans hfirst.checks
    rfl
  exact ⟨first, hfirst⟩

/-- The layer does nothing more once a target is rejected. -/
theorem FirstRejected.configure {devices : List Device} {i : Tuning.Interrupts} {b : Bench}
    {place : Nat} {fault : Fault} (h : FirstRejected (targets devices i) b place fault)
    (l : Ledger) : configure devices i (b, l) =
      (.error fault, b.after (countEvents ((targets devices i).take (place + 1))), l) := by
  rw [configure_apply, h.checks]

end Layer.Interrupts

/-! ## Layers that refuse their parameters -/

/-- The parameters are not to blame. -/
def Fault.SparesParameters (fault : Fault) : Prop := ¬fault.IsInvalidParameter

theorem Bench.FailsOperationally.covers {b : Bench} (hb : b.FailsOperationally) :
    Covers Fault.SparesParameters b.answer := by
  have hspares : ∀ fault : Fault, fault.IsOperational → fault.SparesParameters := by
    intro fault ho hp
    cases fault <;> first | exact ho | exact hp
  exact ⟨hspares, fun history address command =>
    (hb.answer history address command).mono hspares⟩

/-- A ledger that takes no note blames the layer that comes twice. -/
theorem Ledger.push_faultsIn (l : Ledger) (key name : String) (change : SettingChange) :
    FaultsIn Fault.SparesParameters (l.push key name change) := by
  unfold push settingsOrNone
  refine FaultsIn.map ?_ _
  split
  · exact .ok _
  · exact .ok _
  · exact .error id

theorem Confines.amend_of_faultsIn {σ : Type} {P : Fault → Prop} {answers : Answers}
    {f : σ → Except Fault σ} (h : ∀ s, FaultsIn P (f s)) :
    Confines P (Keeps answers fun _ => True) (NotingM.amend f) := by
  rintro ⟨b, s⟩ ⟨hb, -⟩
  have hf := h s
  cases hs : f s with
  | ok s' =>
    rw [NotingM.amend_ok b hs]
    exact ⟨⟨hb, trivial⟩, .ok ()⟩
  | error fault =>
    rw [hs] at hf
    rw [NotingM.amend_error b hs]
    exact ⟨⟨hb, trivial⟩, hf.of_error⟩

/-- The faults of an action whose notes are collected are its own, or the ledger takes no notes. -/
theorem Notebook.collect_sparesParameters {σ : Type} {n : Notebook σ} {act : NotingM σ Unit}
    {kept : σ → Prop} {b : Bench}
    (hact : Confines Fault.SparesParameters (Keeps b.answer kept) act) (hstart : kept n.start)
    (l : Ledger) : FaultsIn Fault.SparesParameters (n.collect act (b, l)).1 := by
  have hr := (hact (b, n.start) ⟨rfl, hstart⟩).2
  have hadd : ∀ entry, FaultsIn Fault.SparesParameters (l.add n.key entry) := by
    intro entry
    unfold Ledger.add
    split
    · exact .error id
    · exact .ok _
  rw [collect_apply]
  split
  · exact hr
  · have hentry := hadd (n.entry (act (b, n.start)).2.2)
    split
    · exact hr
    · rename_i hl
      rw [hl] at hentry
      exact hentry.of_error

namespace Layer

theorem changeSettings_sparesParameters {answers : Answers}
    (hP : Covers Fault.SparesParameters answers) (key name : String)
    (targets : List NicTuning.Target) :
    Confines Fault.SparesParameters (Keeps answers fun _ => True)
      (changeSettings key name targets) := by
  refine .forEach fun target _ => ?_
  obtain ⟨d, - | value⟩ := target
  · exact .pure ()
  · refine .bind (.ofBench (d.get_confines hP name)) fun previous => ?_
    refine .bind (.ofBench (d.set_confines hP name value)) fun _ => ?_
    exact .amend_of_faultsIn fun l => l.push_faultsIn key name _

/-- The event is the question how many processors a machine has. -/
def AsksForProcessors (e : Event) : Prop := ∃ address, e = .ran address "lscpu"

/-- A layer that refuses its parameters has at most asked machines for their processors. -/
theorem configure_of_isInvalidParameter {layer : Layer} {b b' : Bench} {l l' : Ledger}
    {fault : Fault} (hb : b.FailsOperationally) (hf : fault.IsInvalidParameter)
    (h : layer.configure (b, l) = (.error fault, b', l')) :
    l' = l ∧ ∃ events, b' = b.after events ∧ ∀ e ∈ events, AsksForProcessors e := by
  have hspared : ¬FaultsIn Fault.SparesParameters (layer.configure (b, l)).1 := by
    rw [h]
    exact fun hspares => hspares fault rfl hf
  cases hq : layer.requests? with
  | some requests =>
    rw [configure_of_requests? hq] at h hspared
    cases requests with
    | error fault' =>
      cases h
      exact ⟨rfl, [], rfl, by simp⟩
    | ok rs =>
      rw [changeAll_ok] at hspared
      have hchanges := Confines.forEach fun (r : String × List NicTuning.Target) (_ : r ∈ rs) =>
        changeSettings_sparesParameters hb.covers layer.key r.1 r.2
      exact absurd (hchanges (b, l) ⟨rfl, trivial⟩).2 hspared
  | none =>
    cases layer with
    | interrupts devices i =>
      change Interrupts.configure devices i (b, l) = _ at h
      change ¬FaultsIn _ (Interrupts.configure devices i (b, l)).1 at hspared
      rw [Interrupts.configure_apply] at h hspared
      have hchecks : Emits id AsksForProcessors
          ((Interrupts.targets devices i).mapM Interrupts.check) :=
        .mapM fun t _ => Interrupts.check_emits ⟨_, rfl⟩
      obtain ⟨events, hm, he⟩ := hchecks b
      rcases hc : (Interrupts.targets devices i).mapM Interrupts.check b with
        ⟨fault' | pinnings, m⟩ <;> rw [hc] at h hm hspared
      · cases h
        exact ⟨rfl, events, hm, he⟩
      · obtain rfl : m = b.after events := hm
        have hpins := Interrupts.pins_confines hb.covers pinnings
        exact absurd (Interrupts.notebook.collect_sparesParameters (b := b.after events) hpins
          Interrupts.stopsFirst_none l) hspared
    | qdisc devices streams =>
      refine absurd ?_ hspared
      change FaultsIn _ (Qdisc.configure devices streams (b, l)).1
      unfold Qdisc.configure
      split
      · exact Qdisc.notebook.collect_sparesParameters (Qdisc.changes_confines hb.covers devices)
          trivial l
      · exact .ok ()
    | queues devices counts =>
      exact absurd (Queues.notebook.collect_sparesParameters (Queues.changes_confines hb.covers _)
        trivial l) hspared
    | inert key => cases h
    | _ => cases hq

/-- A layer that refuses its parameters has changed nothing and left the ledger as it was. At most
it has asked machines for their processors. The layer that pins interrupts also changes nothing when
a machine rejects any of its targets: it ends with the fault of the first that is rejected. A list
of processors is rejected if the machine has none at all, or if one of the list is negative or too
great. -/
theorem invalid_parameters_change_nothing {b : Bench} (hb : b.FailsOperationally) (l : Ledger) :
    (∀ (layer : Layer) name explanation b' l',
      layer.configure (b, l) = (.error (.invalidParameter name explanation), b', l') →
      l' = l ∧ ∃ events, b' = b.after events ∧ ∀ e ∈ events, AsksForProcessors e) ∧
    (∀ devices i place t fault, (Interrupts.targets devices i)[place]? = some t →
      Interrupts.Rejects (b.after (Interrupts.countEvents
        ((Interrupts.targets devices i).take place))) t fault →
      ∃ first ≤ place, ∃ fault,
        Interrupts.FirstRejected (Interrupts.targets devices i) b first fault ∧
        (interrupts devices i).configure (b, l) = (.error fault, b.after (Interrupts.countEvents
          ((Interrupts.targets devices i).take (first + 1))), l)) ∧
    ∀ processors count, (∃ fault, Affinity.checkProcessors processors count = .error fault) ↔
      count = 0 ∨ ∃ p ∈ processors, p.toInt < 0 ∨ UInt32.size ≤ p.toInt ∨ count ≤ p.toInt := by
  refine ⟨fun layer name explanation b' l' h => ?_, fun devices i place t fault ht hr => ?_,
    fun processors count => Affinity.checkProcessors_eq_error_iff⟩
  · have hf : (Fault.invalidParameter name explanation).IsInvalidParameter := trivial
    exact configure_of_isInvalidParameter hb hf h
  · obtain ⟨first, hle, fault', hfirst⟩ := Interrupts.exists_firstRejected ht hr
    exact ⟨first, hle, fault', hfirst, hfirst.configure l⟩

namespace Interrupts

/-- Two machines, of which the second has fewer processors. -/
def twoMachines : Bench :=
  (Bench.quiet.addRule "first" ⟨"lscpu", .ok "CPU(s): 4\n"⟩).addRule "second"
    ⟨"lscpu", .ok "CPU(s): 2\n"⟩

def machineDevice (machine name : String) : Device :=
  ⟨name, ⟨machine, machine⟩, ⟨machine, machine⟩, none, .commands⟩

/-- The device in the middle is left alone, and the last one is to use a third processor. -/
def threeDevices : List Device :=
  [machineDevice "first" "eth0", machineDevice "second" "eth1", machineDevice "second" "eth2"]

def threeLists : Tuning.Interrupts := ⟨some [[3], [], [0, 2]], some [.all]⟩

/-- What is wrong with the third processor. -/
def thirdProcessorFault : Fault :=
  .invalidParameter "dev_intr_cpu_lists" "Invalid CPU value given: 2. Accepted values are: 0..1."

/-- Both machines have been asked when the last device turns out to be at odds with its machine. -/
theorem invalid_parameters_change_nothing_on_two_machines :
    twoMachines.FailsOperationally ∧
    (targets threeDevices threeLists)[1]? =
      some ⟨machineDevice "second" "eth2", [0, 2], .roundRobin⟩ ∧
    Rejects (twoMachines.after (countEvents ((targets threeDevices threeLists).take 1)))
      ⟨machineDevice "second" "eth2", [0, 2], .roundRobin⟩ thirdProcessorFault ∧
    FirstRejected (targets threeDevices threeLists) twoMachines 1 thirdProcessorFault ∧
    (interrupts threeDevices threeLists).configure (twoMachines, sampleLedger) =
      (.error thirdProcessorFault,
        twoMachines.after [.ran "second" "lscpu", .ran "first" "lscpu"], sampleLedger) ∧
    ∃ events, twoMachines.after [.ran "second" "lscpu", .ran "first" "lscpu"] =
      twoMachines.after events ∧ ∀ e ∈ events, AsksForProcessors e := by
  have hquiet : Bench.quiet.FailsOperationally :=
    Bench.failsOperationally_of_ok fun _ _ _ => ⟨_, rfl⟩
  have hb : twoMachines.FailsOperationally := (hquiet.addRule "first" _).addRule "second" _
  obtain ⟨hsame, hfirst, -⟩ := invalid_parameters_change_nothing hb sampleLedger
  have hrejects : Rejects (twoMachines.after
      (countEvents ((targets threeDevices threeLists).take 1)))
      ⟨machineDevice "second" "eth2", [0, 2], .roundRobin⟩ thirdProcessorFault := by
    have hasked : (twoMachines.after (countEvents ((targets threeDevices threeLists).take 1))).reply
        ⟨"second", "second"⟩ "lscpu" = .ok (.ok "CPU(s): 2\n") := rfl
    have hread : Report.processorCount (Output.ok "CPU(s): 2\n").stdout = .ok 2 := rfl
    exact .lacking hasked hread rfl
  obtain ⟨first, hle, fault, hrejected, hconfigure⟩ :=
    hfirst threeDevices threeLists 1 _ _ rfl hrejects
  -- The first device is accepted: otherwise its machine alone would have been asked.
  obtain rfl : first = 1 := by
    have hjournal := congrArg (fun r => r.2.1.journal.length) hconfigure
    have hboth : ((interrupts threeDevices threeLists).configure
      (twoMachines, sampleLedger)).2.1.journal.length = 2 := rfl
    rcases Nat.le_one_iff_eq_zero_or_eq_one.1 hle with rfl | rfl
    · cases hboth.symm.trans hjournal
    · rfl
  obtain rfl : fault = thirdProcessorFault := by
    have hfault : ((interrupts threeDevices threeLists).configure
      (twoMachines, sampleLedger)).1 = .error thirdProcessorFault := rfl
    rw [hconfigure] at hfault
    exact Except.error.inj hfault
  obtain ⟨-, events, he, hasks⟩ := hsame (interrupts threeDevices threeLists) _ _ _ _ hconfigure
  exact ⟨hb, rfl, hrejects, hrejected, hconfigure, events, he, hasks⟩

end Interrupts

end Layer

end NicTuning
