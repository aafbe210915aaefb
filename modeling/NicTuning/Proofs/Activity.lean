import NicTuning.Proofs.Accounting

/-!
# What layers do on a bench

Whatever happens on a bench while layers are configured is for one of their intents. So a property
of all that layers do is a property of what intents involve.
-/
namespace NicTuning

/-- The event can be part of carrying out the intent. -/
def Intent.Involves (i : Intent) (e : Event) : Prop :=
  match i with
  | setting name d value => e ∈ d.getEvents name ∨ ∃ b, e ∈ d.setEvents name value b
  | queues d counts =>
    e = .ran d.netns.address ("ethtool -l " ++ d.name) ∨
      e = .ran d.netns.address (Layer.Queues.setCommand d counts)
  | qdisc d =>
    e = .ran d.netns.address ("tc qdisc show dev " ++ d.name ++ " root") ∨
      e = .ran d.netns.address (Layer.Qdisc.replaceCommand d)
  | pin d _ _ =>
    e = .ran d.netns.address "lscpu" ∨ e = .ran d.host.address "service irqbalance stop" ∨
      e ∈ d.isUpEvents ∨ (∃ up, e ∈ d.linkEvents up) ∨
      e = .ran d.netns.address "cat /proc/interrupts" ∨
      ∃ assignment, e = .ran d.netns.address (Layer.Interrupts.assignCommand assignment)

/-- How the commands begin that can be part of carrying out the intent. -/
def Intent.beginnings : Intent → List String
  | setting name _ _ => (Attribute.ofName? name).toList.flatMap fun a =>
      [Command.readBeginning a, Command.writeBeginning a]
  | queues .. => ["ethtool -l ", "ethtool -L "]
  | qdisc _ => ["tc qdisc show dev ", "tc qdisc replace dev "]
  | pin .. => ["lscpu", "service irqbalance stop", "ip -o link show dev ", Command.linkBeginning,
      "cat /proc/interrupts", "echo -n "]

/-- An event that is part of carrying out an intent is of a kind if what happens in memory is and
commands are that begin so. -/
theorem Intent.Involves.of_begins {P : Event → Prop} {i : Intent} {e : Event} (h : i.Involves e)
    (hread : ∀ address name, P (.read address name))
    (hwrote : ∀ name d value, i = .setting name d value →
      ∀ address taken, P (.wrote address name value taken))
    (hlinked : ∀ d processors spreading, i = .pin d processors spreading →
      ∀ address up, P (.linked address up))
    (hran : ∀ beginning ∈ i.beginnings, ∀ address command,
      Text.begins beginning command = true → P (.ran address command)) : P e := by
  cases i with
  | setting name d value =>
    rcases h with h | ⟨b, h⟩
    · refine d.forall_getEvents name (fun address => hread address name) (fun a ha => ?_) e h
      exact hran _ (by simp [beginnings, ha])
    · refine d.forall_setEvents name value b (hwrote name d value rfl) (fun a ha => ?_) e h
      exact hran _ (by simp [beginnings, ha])
  | queues d counts =>
    rcases h with rfl | rfl
    · exact hran "ethtool -l " (by simp [beginnings]) _ _ (Text.begins_front _ _)
    · exact hran "ethtool -L " (by simp [beginnings]) _ _ (Text.begins_front₃ _ _ _ _)
  | qdisc d =>
    rcases h with rfl | rfl
    · exact hran "tc qdisc show dev " (by simp [beginnings]) _ _
        (Text.begins_append (Text.begins_front _ _) _)
    · exact hran "tc qdisc replace dev " (by simp [beginnings]) _ _
        (Text.begins_append (Text.begins_front _ _) _)
  | pin d processors spreading =>
    rcases h with rfl | rfl | h | ⟨up, h⟩ | rfl | ⟨assignment, rfl⟩
    · exact hran "lscpu" (by simp [beginnings]) _ _ (Text.begins_front _ "")
    · exact hran "service irqbalance stop" (by simp [beginnings]) _ _ (Text.begins_front _ "")
    · exact d.forall_isUpEvents (hran _ (by simp [beginnings])) e h
    · exact d.forall_linkEvents (fun address => hlinked d _ _ rfl address up)
        (hran _ (by simp [beginnings])) e h
    · exact hran "cat /proc/interrupts" (by simp [beginnings]) _ _ (Text.begins_front _ "")
    · exact hran "echo -n " (by simp [beginnings]) _ _ (Command.begins_assignCommand assignment)

/-- The event is for one of some intents. -/
def Intent.OneInvolves (intents : List Intent) (e : Event) : Prop := ∃ i ∈ intents, i.Involves e

namespace Emits

variable {S α : Type} {bench : S → Bench} {P Q : Event → Prop}

theorem mono {act : ActionM S α} (h : Emits bench P act) (hpq : ∀ e, P e → Q e) :
    Emits bench Q act := by
  intro s
  obtain ⟨events, hb, he⟩ := h s
  exact ⟨events, hb, fun e hm => hpq e (he e hm)⟩

end Emits

namespace Layer

theorem collect_emits {σ : Type} {P : Event → Prop} (n : Notebook σ) {act : NotingM σ Unit}
    (h : Emits Prod.fst P act) : Emits Prod.fst P (n.collect act) := by
  refine (Emits.aside h).bind fun x => ?_
  obtain ⟨result, changes⟩ := x
  dsimp only
  split
  · exact .of_eq fun _ => rfl
  · exact (Emits.amend _).bind fun _ => .of_eq fun _ => rfl

theorem changeSetting_emits (key name : String) (d : Device) (value : Setting) :
    Emits Prod.fst (Intent.setting name d value).Involves (changeSetting key name d value) := by
  refine .bind (.ofBench (Emits.get fun e he => .inl he)) fun previous => ?_
  exact .bind (.ofBench (Emits.set fun b e he => .inr ⟨b, he⟩)) fun _ => .amend _

theorem changeSettings_emits (key name : String) (targets : List Target) :
    Emits Prod.fst (Intent.OneInvolves (settingIntents name targets))
      (changeSettings key name targets) := by
  refine .forEach fun target ht => ?_
  obtain ⟨d, - | value⟩ := target
  · exact .pure ()
  · refine (changeSetting_emits key name d value).mono fun e he => ⟨_, ?_, he⟩
    exact List.mem_filterMap.2 ⟨_, ht, rfl⟩

theorem changeAll_emits (key : String)
    (requests : Except Fault (List (String × List Target))) :
    Emits Prod.fst (Intent.OneInvolves (requestIntents requests)) (changeAll key requests) := by
  cases requests with
  | error fault => exact .of_eq fun _ => rfl
  | ok rs =>
    rw [show changeAll key (.ok rs) = _ from funext (changeAll_ok key rs)]
    refine .forEach fun r hr => (changeSettings_emits key r.1 r.2).mono ?_
    rintro e ⟨i, hi, he⟩
    exact ⟨i, List.mem_flatMap.2 ⟨r, hr, hi⟩, he⟩

theorem Queues.configure_emits (devices : List Device) (counts : Option (List (Dict UInt32))) :
    Emits Prod.fst (Intent.OneInvolves (intents devices counts)) (configure devices counts) := by
  refine collect_emits notebook (.forEach fun target ht => ?_)
  obtain ⟨d, counts⟩ := target
  have hi : Intent.queues d counts ∈ intents devices _ := List.mem_map.2 ⟨(d, counts), ht, rfl⟩
  refine .bind (.ofBench (Emits.query ⟨_, hi, .inl rfl⟩)) fun output => ?_
  refine .bind (.of_eq fun _ => rfl) fun channels => ?_
  exact .bind (.ofBench (Emits.command ⟨_, hi, .inr rfl⟩)) fun _ => .note _

theorem Qdisc.configure_emits (devices : List Device) (streams : Option UInt32) :
    Emits Prod.fst (Intent.OneInvolves (intents devices streams))
      (configure devices streams) := by
  unfold configure intents
  split
  · refine collect_emits notebook (.forEach fun d hd => ?_)
    have hi : Intent.qdisc d ∈ devices.map .qdisc := List.mem_map.2 ⟨d, hd, rfl⟩
    refine .bind (.ofBench (Emits.query ⟨_, hi, .inl rfl⟩)) fun output => ?_
    exact .bind (.ofBench (Emits.command ⟨_, hi, .inr rfl⟩)) fun _ => .note _
  · exact .pure ()

namespace Interrupts

theorem stopBalancer_emits {P : Event → Prop} {h : Host}
    (hp : P (.ran h.address "service irqbalance stop")) :
    Emits Prod.fst P (stopBalancer h) := by
  refine .bind .notes fun s => ?_
  split
  · exact .pure ()
  · exact .bind (.ofBench (Emits.command hp)) fun _ => .note _

theorem pin_emits (p : Pinning) : Emits Prod.fst (pinIntent p).Involves (pin p) := by
  refine (stopBalancer_emits (.inr (.inl rfl))).bind fun _ => ?_
  refine .bind (.ofBench (interruptsOf_emits (fun e he => ?_) (fun up e he => ?_) ?_))
    fun interrupts => .bind (.forEach fun a _ => ?_) fun _ => .note _
  · exact .inr (.inr (.inl he))
  · exact .inr (.inr (.inr (.inl ⟨up, he⟩)))
  · exact .inr (.inr (.inr (.inr (.inl rfl))))
  · exact .ofBench (Emits.command (.inr (.inr (.inr (.inr (.inr ⟨a, rfl⟩))))))

theorem configure_emits (devices : List Device) (i : Tuning.Interrupts) :
    Emits Prod.fst (Intent.OneInvolves (intents devices i)) (configure devices i) := by
  rintro ⟨b, l⟩
  have hchecks : Emits id (Intent.OneInvolves (intents devices i))
      ((targets devices i).mapM check) :=
    Emits.mapM fun t ht => check_emits ⟨_, List.mem_map.2 ⟨t, ht, rfl⟩, .inl rfl⟩
  obtain ⟨older, ho, hpo⟩ := hchecks b
  rw [configure_apply]
  rcases hm : (targets devices i).mapM check b with ⟨fault | pinnings, m⟩ <;> rw [hm] at ho
  · exact ⟨older, ho, hpo⟩
  · obtain rfl : m = b.after older := ho
    -- What is pinned are the devices that passed their checks, which are those of the intents.
    have hpins : Emits Prod.fst (Intent.OneInvolves (intents devices i))
        (NotingM.forEach pin pinnings) := by
      refine .forEach fun p hp => (pin_emits p).mono fun e he => ⟨pinIntent p, ?_, he⟩
      unfold intents
      rw [← pinIntents_of_checks hm]
      exact List.mem_map.2 ⟨p, hp, rfl⟩
    obtain ⟨newer, hn, hpn⟩ := collect_emits notebook hpins (b.after older, l)
    refine ⟨newer ++ older, hn.trans (Bench.after_after _ _ _), fun e he => ?_⟩
    rcases List.mem_append.mp he with he | he
    · exact hpn e he
    · exact hpo e he

end Interrupts

/-- All that happens while a layer is configured is for its intents. -/
theorem configure_emits (layer : Layer) :
    Emits Prod.fst (Intent.OneInvolves layer.intents) layer.configure := by
  cases hq : layer.requests? with
  | some requests =>
    rw [show layer.configure = changeAll layer.key requests from
      funext (configure_of_requests? hq), intents_of_requests? hq]
    exact changeAll_emits _ _
  | none =>
    cases layer with
    | interrupts devices i => exact Interrupts.configure_emits devices i
    | qdisc devices streams => exact Qdisc.configure_emits devices streams
    | queues devices counts => exact Queues.configure_emits devices counts
    | inert key => exact .pure ()
    | _ => cases hq

end Layer

namespace Stack

theorem configureLayer_emits (layer : Layer) :
    Emits Prod.fst (Intent.OneInvolves layer.intents) (configureLayer layer) := by
  rintro ⟨b, l⟩
  rw [configureLayer_apply]
  split
  · exact ⟨[], rfl, by simp⟩
  · exact layer.configure_emits (b, l)

/-- All that happens while a stack is configured is for the intents of its layers. -/
theorem configure_emits (s : Stack) :
    Emits Prod.fst (Intent.OneInvolves s.intents) s.configure := by
  refine .forEach fun layer hl => (configureLayer_emits layer).mono ?_
  rintro e ⟨i, hi, he⟩
  exact ⟨i, List.mem_flatMap.2 ⟨layer, hl, hi⟩, he⟩

end Stack

end NicTuning
