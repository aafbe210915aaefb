import NicTuning.Proofs.Effects

/-!
# Courses

A course is a stretch of what happens on a bench, told as the changes that are undone later, one
after the other, with quiet stretches between them. It does not mention how the changes came about,
and it says of every change what was read before it was made.
-/
namespace NicTuning

/-! ## Quiet stretches -/

/-- From one bench to another no change took effect, and the devices in memory are as they were. -/
def Quiet (b b' : Bench) : Prop :=
  ∃ events, b' = b.after events ∧ b.successes Event.isChange events = [] ∧ b'.memory = b.memory

namespace Quiet

variable {b b' b'' : Bench}

theorem refl (b : Bench) : Quiet b b := ⟨[], rfl, rfl, rfl⟩

theorem trans (h : Quiet b b') (h' : Quiet b' b'') : Quiet b b'' := by
  obtain ⟨older, rfl, hs, hm⟩ := h
  obtain ⟨newer, rfl, hs', hm'⟩ := h'
  refine ⟨newer ++ older, Bench.after_after _ _ _, ?_, hm'.trans hm⟩
  rw [Bench.successes_append, hs, hs', List.append_nil]

theorem of_untouched {events : List Event} (h : ∀ e ∈ events, e.touches = false) :
    Quiet b (b.after events) :=
  ⟨events, rfl, Bench.successes_eq_nil fun e he => Event.isChange_of_touches (h e he),
    Bench.memory_after_of_touches h⟩

/-- An action that only runs commands, none of which is a change. -/
theorem of_emits {S α : Type} {bench : S → Bench} {act : ActionM S α}
    (h : Emits bench (fun e => e.IsRun ∧ e.isChange = false) act) (s : S) :
    Quiet (bench s) (bench (act s).2) := by
  obtain ⟨events, hb, he⟩ := h s
  refine ⟨events, hb, Bench.successes_eq_nil fun e hm => (he e hm).2, ?_⟩
  rw [hb, Bench.memory_after_of_isRun fun e hm => (he e hm).1]

theorem get (d : Device) (name : String) (b : Bench) : Quiet b (d.get name b).2 := by
  rw [d.get_bench b name]
  exact of_untouched (d.touches_getEvents name)

theorem set_of_error {d : Device} {name : String} {value : Setting} {fault : Fault}
    (h : d.set name value b = (.error fault, b')) : Quiet b b' := by
  obtain ⟨hm, hs⟩ := Device.set_of_error h Event.isChange
  refine ⟨d.setEvents name value b, ?_, hs, hm⟩
  rw [← d.set_bench b name value, h]

theorem ran {command : String} (hc : Command.touches command = false) (b : Bench)
    (address : String) : Quiet b (b.after [.ran address command]) :=
  of_untouched (by simpa [Event.touches] using hc)

theorem query {h : Host} {command : String} (hc : Command.touches command = false) (b : Bench) :
    Quiet b (h.query command b).2 := by
  rw [h.query_apply command b]
  exact ran hc b h.address

theorem command_of_error {h : Host} {command : String} {fault : Fault}
    (he : h.command command b = (.error fault, b')) : Quiet b b' := by
  rw [h.command_apply command b] at he
  obtain ⟨hr, rfl⟩ := Prod.mk.inj he
  refine ⟨[.ran h.address command], rfl, ?_, rfl⟩
  cases hp : b.reply h command with
  | error fault => exact Bench.successes_of_reply_error hp
  | ok output =>
    rw [hp] at hr
    cases hr

theorem command_of_isChange {h : Host} {command : String}
    (hc : Command.isChange command = false) (b : Bench) : Quiet b (h.command command b).2 := by
  rw [h.command_apply command b]
  exact ⟨_, rfl, Bench.successes_eq_nil (by simpa [Event.isChange] using hc), rfl⟩

end Quiet

/-! ## Changes -/

/-- A change that is undone later, or the pinning of a device. -/
inductive Change
  | setting (name : String) (change : SettingChange)
  | queues (change : QueueChange)
  | qdisc (change : QdiscChange)
  | stop (host : Host)
  | pin (device : PinnedDevice)

/-- The key of the layer that has an attribute to itself. -/
def settingKey (name : String) : String :=
  if name = Layer.Mtu.name then Layer.Mtu.key
  else if name = Layer.HashFunction.name then Layer.HashFunction.key
  else if name = "rx_pause_frames" ∨ name = "tx_pause_frames" then Layer.PauseFrames.key
  else if Text.begins "nfc_rx_flow_hash_" name then Layer.FlowHash.key
  else if Text.begins "offload_" name then Layer.Offload.key
  else Layer.Coalescing.key

namespace Change

/-- The key of the layer that makes such changes. -/
def key : Change → String
  | setting name _ => settingKey name
  | queues _ => Layer.Queues.key
  | qdisc _ => Layer.Qdisc.key
  | stop _ | pin _ => Layer.Interrupts.key

/-- The event by which a change takes effect. Pinned interrupts are left where they are, so the
pinning of a device is no change that is undone. -/
def event? : Change → Option Event
  | setting name c => c.device.writeEvent? name c.configured
  | queues c => some (.ran c.device.netns.address (Layer.Queues.setCommand c.device c.configured))
  | qdisc c => some (.ran c.device.netns.address (Layer.Qdisc.replaceCommand c.device))
  | stop h => some (.ran h.address "service irqbalance stop")
  | pin _ => none

/-- The size of a packet is given as a number. -/
def IsPlain : Change → Prop
  | setting name c => name = "mtu" → ∃ n, c.configured = .number n
  | _ => True

end Change

/-- The commands succeed on a host one after the other. -/
inductive Succeeding (h : Host) : List String → Bench → Bench → Prop
  | nil {b} : Succeeding h [] b b
  | cons {command rest b b' b''} (run : h.command command b = (.ok (), b'))
      (others : Succeeding h rest b' b'') : Succeeding h (command :: rest) b b''

/-- A change takes effect, right after what it replaces was read. -/
inductive Takes : Bench → Change → Bench → Prop
  | setting {d name value previous b b' b''}
      (look : d.get name b = (.ok previous, b'))
      (write : d.set name value b' = (.ok (), b'')) :
      Takes b (.setting name ⟨d, previous, value⟩) b''
  | queues {d counts output channels b b' b''}
      (look : d.query ("ethtool -l " ++ d.name) b = (.ok output, b'))
      (read : Report.Channels.read output = .ok channels)
      (write : d.netns.command (Layer.Queues.setCommand d counts) b' = (.ok (), b'')) :
      Takes b (.queues ⟨d, channels.current, counts⟩) b''
  | qdisc {d output b b' b''}
      (look : d.query ("tc qdisc show dev " ++ d.name ++ " root") b = (.ok output, b'))
      (write : d.netns.command (Layer.Qdisc.replaceCommand d) b' = (.ok (), b'')) :
      Takes b (.qdisc ⟨d, Report.rootQdisc? output⟩) b''
  | stop {h b b'} (write : h.command "service irqbalance stop" b = (.ok (), b')) :
      Takes b (.stop h) b'
  | pin {p : Pinning} {interrupts b b' b''}
      (look : Layer.Interrupts.interruptsOf p.device b = (.ok interrupts, b'))
      (write : Succeeding p.device.netns
        ((Affinity.assign interrupts p.processors p.spreading).map
          Layer.Interrupts.assignCommand) b' b'') :
      Takes b (.pin { p with
        assignments := Affinity.assign interrupts p.processors p.spreading }) b''

/-- Changes take effect one after the other, and no others. -/
inductive Course : Bench → List Change → Bench → Prop
  | done {b b'} (quiet : Quiet b b') : Course b [] b'
  | step {b b' b'' b''' c cs} (quiet : Quiet b b') (takes : Takes b' c b'')
      (others : Course b'' cs b''') : Course b (c :: cs) b'''

namespace Course

variable {b b' b'' : Bench} {c : Change} {cs cs' : List Change}

theorem refl (b : Bench) : Course b [] b := .done (.refl b)

theorem single (h : Takes b c b') : Course b [c] b' := .step (.refl b) h (.refl b')

theorem quiet_append (hq : Quiet b b') (h : Course b' cs b'') : Course b cs b'' := by
  cases h with
  | done quiet => exact .done (hq.trans quiet)
  | step quiet takes others => exact .step (hq.trans quiet) takes others

theorem append (h : Course b cs b') (h' : Course b' cs' b'') : Course b (cs ++ cs') b'' := by
  induction h with
  | done quiet => exact quiet_append quiet h'
  | step quiet takes _ ih => exact .step quiet takes (ih h')

end Course

/-! ## What a course does -/

namespace Succeeding

variable {h : Host} {commands : List String} {b b' : Bench}

/-- Commands that are no changes leave everything that is undone later as it is. -/
theorem quiet (hs : Succeeding h commands b b')
    (hc : ∀ command ∈ commands, Command.isChange command = false) : Quiet b b' := by
  induction hs with
  | nil => exact .refl _
  | @cons command rest b b' b'' run others ih =>
    have hq := Quiet.command_of_isChange (h := h) (hc command (by simp)) b
    rw [run] at hq
    exact hq.trans (ih fun command hm => hc command (by simp [hm]))

end Succeeding

namespace Layer.Interrupts

theorem touches_table : Command.touches "cat /proc/interrupts" = false := by decide

/-- Reading the interrupts of a device asks for its link and may bring it up meanwhile. -/
theorem interruptsOf_emits {P : Event → Prop} {d : Device} (hup : ∀ e ∈ d.isUpEvents, P e)
    (hlink : ∀ up, ∀ e ∈ d.linkEvents up, P e)
    (htable : P (.ran d.netns.address "cat /proc/interrupts")) : Emits id P (interruptsOf d) := by
  refine (Emits.isUp hup).bind fun isUp => ?_
  split
  · exact .bind (Emits.query htable) fun _ => .pure _
  · refine .bind (Emits.setLink (hlink true)) fun _ => ?_
    refine .bind (.attempt (Emits.query htable)) fun table => ?_
    refine .bind (.attempt (Emits.setLink (hlink false))) fun taken => ?_
    exact .bind (.of_eq fun _ => rfl) fun _ => .bind (.of_eq fun _ => rfl) fun _ => .pure _

/-- Reading the interrupts of a device that is controlled by commands only runs commands. -/
theorem interruptsOf_emits_of_commands {d : Device} (hd : d.control = .commands) :
    Emits id (fun e => e.IsRun ∧ e.isChange = false) (interruptsOf d) := by
  refine interruptsOf_emits (fun e he => ?_) (fun up e he => ?_)
    ⟨⟨_, _, rfl⟩, Command.isChange_of_touches touches_table⟩
  · have ht := d.touches_isUpEvents e he
    simp only [Device.isUpEvents, hd, List.mem_singleton] at he
    exact ⟨⟨_, _, he⟩, Event.isChange_of_touches ht⟩
  · simp only [Device.linkEvents, hd, List.mem_singleton] at he
    rw [he]
    exact ⟨⟨_, _, rfl⟩, Command.isChange_linkCommand d up⟩

/-- A link that is down is down again once it has been brought up and taken down. -/
theorem quiet_of_link_round {b : Bench} {address : String} (hu : (b.memory address).up = false)
    (machine : String) : Quiet b (((b.after [.linked address true]).after
      [.ran machine "cat /proc/interrupts"]).after [.linked address false]) := by
  refine ⟨[.linked address false, .ran machine "cat /proc/interrupts", .linked address true],
    rfl, Bench.successes_eq_nil ?_, ?_⟩
  · have ht : Command.isChange "cat /proc/interrupts" = false :=
      Command.isChange_of_touches touches_table
    simp [Event.isChange, ht]
  · funext a
    by_cases ha : a = address
    · simp [Bench.after, Event.apply, ha, ← hu]
    · simp [Bench.after, Event.apply, ha]

/-- However the interrupts of a device are read, a device in memory is up afterwards only if it was
up before. -/
theorem interruptsOf_quiet (d : Device) (b : Bench) : Quiet b (interruptsOf d b).2 := by
  cases hd : d.control with
  | commands => exact Quiet.of_emits (interruptsOf_emits_of_commands hd) b
  | memory address =>
    have hup : d.isUp b = (.ok (b.memory address).up, b) := by
      unfold Device.isUp
      rw [hd]
    unfold interruptsOf
    rw [ActionM.bind_apply, hup]
    cases hu : (b.memory address).up with
    | true =>
      dsimp only
      rw [if_pos rfl, d.query_bind_bench b _ _ fun _ _ => rfl]
      exact Quiet.ran touches_table b d.netns.address
    | false =>
      have hlink : ∀ up b, d.setLink up b = (.ok (), b.after [.linked address up]) := by
        intro up b
        unfold Device.setLink
        rw [hd]
        rfl
      dsimp only
      rw [if_neg Bool.false_ne_true, ActionM.bind_apply, hlink]
      dsimp only
      rw [ActionM.bind_apply, attempt_apply]
      dsimp only
      rw [ActionM.bind_apply, attempt_apply, hlink, Device.query_apply]
      dsimp only
      cases (b.after [.linked address true]).reply d.netns "cat /proc/interrupts" with
      | error fault => exact quiet_of_link_round hu d.netns.address
      | ok output => exact quiet_of_link_round hu d.netns.address

end Layer.Interrupts

namespace Takes

variable {b b' : Bench} {c : Change}

/-- A change comes down to what was read before it, which is quiet, and to its event. -/
theorem split (h : Takes b c b') : ∃ m, Quiet b m ∧
    match c.event? with
    | some e => b' = m.after [e] ∧ m.accomplishes e = true ∧ e.touches = true ∧
        (c.IsPlain → e.isChange = true)
    | none => Quiet m b' := by
  cases h with
  | @setting d name value previous _ m _ look write =>
    have hq := Quiet.get d name b
    rw [look] at hq
    obtain ⟨e, hw, he⟩ := Device.writeEvent?_of_ok write
    have hc : Change.event? (.setting name ⟨d, previous, value⟩) = some e := hw
    rw [hc]
    exact ⟨m, hq, he⟩
  | @queues d counts output channels _ m _ look read write =>
    have hq := Quiet.query (h := d.netns) (Command.touches_channelsCommand d) b
    rw [show d.netns.query _ b = _ from look] at hq
    obtain ⟨rfl, ha⟩ := Host.command_ok write
    have hc := Command.isChange_setCommand d counts
    exact ⟨m, hq, rfl, ha, Command.touches_of_isChange hc, fun _ => hc⟩
  | @qdisc d output _ m _ look write =>
    have hq := Quiet.query (h := d.netns) (Command.touches_showCommand d) b
    rw [show d.netns.query _ b = _ from look] at hq
    obtain ⟨rfl, ha⟩ := Host.command_ok write
    have hc := Command.isChange_replaceCommand d
    exact ⟨m, hq, rfl, ha, Command.touches_of_isChange hc, fun _ => hc⟩
  | @stop h _ _ write =>
    obtain ⟨rfl, ha⟩ := Host.command_ok write
    have hc := Command.isChange_stopCommand
    exact ⟨b, .refl b, rfl, ha, Command.touches_of_isChange hc, fun _ => hc⟩
  | @pin p interrupts _ m _ look write =>
    have hq := Layer.Interrupts.interruptsOf_quiet p.device b
    rw [look] at hq
    refine ⟨m, hq, write.quiet fun command hm => ?_⟩
    obtain ⟨assignment, -, rfl⟩ := List.mem_map.1 hm
    exact Command.isChange_assignCommand assignment

/-- The event of a change is the only one of its stretch that took effect. -/
theorem successes (h : Takes b c b') (hp : c.IsPlain) :
    ∃ events, b' = b.after events ∧ b.successes Event.isChange events = c.event?.toList := by
  obtain ⟨m, ⟨older, rfl, hs, -⟩, h⟩ := h.split
  cases hc : c.event? with
  | none =>
    rw [hc] at h
    obtain ⟨newer, rfl, hn, -⟩ := h
    refine ⟨newer ++ older, Bench.after_after _ _ _, ?_⟩
    rw [Bench.successes_append, hs, hn]
    rfl
  | some e =>
    rw [hc] at h
    obtain ⟨rfl, ha, -, he⟩ := h
    refine ⟨[e] ++ older, Bench.after_after _ _ _, ?_⟩
    rw [Bench.successes_append, hs, List.append_nil]
    simp only [Bench.successes, Bench.after_nil, he hp, ha, Bool.and_true, if_true]
    rfl

/-- The devices in memory change by the event of a change alone. -/
theorem memory (h : Takes b c b') :
    b'.memory = c.event?.elim b.memory fun e => e.apply b.memory := by
  obtain ⟨m, ⟨older, rfl, -, hm⟩, h⟩ := h.split
  cases hc : c.event? with
  | none =>
    rw [hc] at h
    obtain ⟨newer, rfl, -, hn⟩ := h
    exact hn.trans hm
  | some e =>
    rw [hc] at h
    obtain ⟨rfl, -⟩ := h
    exact congrArg e.apply hm

end Takes

namespace Course

variable {b b' : Bench} {cs : List Change}

/-- The events that took effect in a course are those of its changes. -/
theorem successes (h : Course b cs b') (hp : ∀ c ∈ cs, c.IsPlain) : ∃ events,
    b' = b.after events ∧
      b.successes Event.isChange events = (cs.filterMap Change.event?).reverse := by
  induction h with
  | done quiet =>
    obtain ⟨events, rfl, hs, -⟩ := quiet
    exact ⟨events, rfl, hs⟩
  | @step b _ _ _ c cs quiet takes others ih =>
    obtain ⟨older, rfl, hs, -⟩ := quiet
    obtain ⟨events, rfl, he⟩ := takes.successes (hp c (by simp))
    obtain ⟨newer, rfl, hn⟩ := ih fun c hc => hp c (by simp [hc])
    refine ⟨newer ++ (events ++ older), by simp, ?_⟩
    rw [Bench.after_after] at hn
    rw [Bench.successes_append, Bench.successes_append, hs, he, hn, List.append_nil]
    cases hc : c.event? with
    | none => simp [hc]
    | some e => simp [hc]

end Course

end NicTuning
