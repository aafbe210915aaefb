import NicTuning.Proofs.Activity
import NicTuning.Proofs.Restoring

/-!
# Services

Only the pinning of interrupts has to do with services of a machine, and only as far as it stops and
starts balancers. No other layer runs a command about a service, be it configured or restored.
-/
namespace NicTuning

namespace Command

/-- The command is about a service of the machine. -/
def isService (command : String) : Bool := Text.begins "service " command

theorem isService_of_begins {front command : String} (hf : Text.begins front command = true)
    (h : Text.conflict "service " front = true) : isService command = false :=
  Text.begins_of_conflict hf h

/-- No command about an attribute begins like one about a service. -/
theorem conflict_writeBeginning (a : Attribute) :
    Text.conflict "service " (writeBeginning a) = true := by
  have hq : ∀ beginning ∈ writeBeginnings, Text.conflict "service " beginning = true := by decide
  exact hq _ (writeBeginning_mem a)

theorem conflict_readBeginning (a : Attribute) :
    Text.conflict "service " (readBeginning a) = true := by
  have hq : ∀ beginning ∈ readBeginnings, Text.conflict "service " beginning = true := by decide
  exact hq _ (readBeginning_mem a)

theorem isService_writeCommand (d : Device) (arg : String) (a : Attribute) :
    isService (d.writeCommand arg a) = false :=
  isService_of_begins (begins_writeCommand d arg a) (conflict_writeBeginning a)

theorem isService_assignCommand (assignment : UInt32 × String) :
    isService (Layer.Interrupts.assignCommand assignment) = false :=
  isService_of_begins (begins_assignCommand assignment) (by decide)

theorem isService_setCommand (d : Device) (counts : Dict UInt32) :
    isService (Layer.Queues.setCommand d counts) = false :=
  isService_of_begins (Text.begins_front₃ "ethtool -L " _ _ _) (by decide)

theorem isService_replaceCommand (d : Device) :
    isService (Layer.Qdisc.replaceCommand d) = false :=
  isService_of_begins (Text.begins_append (Text.begins_front _ _) _) (by decide)

theorem isService_deleteCommand (d : Device) : isService (Layer.Qdisc.deleteCommand d) = false :=
  isService_of_begins (Text.begins_append (Text.begins_front _ _) _) (by decide)

end Command

namespace Event

/-- The event is a command about a service of a machine. -/
def isService : Event → Bool
  | ran _ command => Command.isService command
  | _ => false

end Event

/-- What happens is not about services. -/
abbrev OffService (e : Event) : Prop := e.isService = false

namespace Device

variable (d : Device)

theorem offService_setEvents (name : String) (value : Setting) (b : Bench) :
    ∀ e ∈ d.setEvents name value b, OffService e :=
  d.forall_setEvents name value b (fun _ _ => rfl) fun a _ _ _ hb =>
    Command.isService_of_begins hb (Command.conflict_writeBeginning a)

theorem offService_isUpEvents : ∀ e ∈ d.isUpEvents, OffService e :=
  d.forall_isUpEvents fun _ _ hb => Command.isService_of_begins hb (by decide)

theorem offService_linkEvents (up : Bool) : ∀ e ∈ d.linkEvents up, OffService e :=
  d.forall_linkEvents (fun _ => rfl) fun _ _ hb => Command.isService_of_begins hb (by decide)

end Device

/-- Only pinning is about services. -/
theorem Intent.Involves.offService {i : Intent} {e : Event} (h : i.Involves e)
    (hi : i.key ≠ Layer.Interrupts.key) : OffService e := by
  refine h.of_begins (fun _ _ => rfl) (fun _ _ _ _ _ _ => rfl) (fun _ _ _ _ _ _ => rfl) ?_
  intro beginning hm address command hb
  refine Command.isService_of_begins hb ?_
  cases i with
  | setting name d value =>
    obtain ⟨a, -, hm⟩ := List.mem_flatMap.1 hm
    rcases List.mem_pair.1 hm with rfl | rfl
    · exact Command.conflict_readBeginning a
    · exact Command.conflict_writeBeginning a
  | queues d counts =>
    have hq : ∀ beginning ∈ ["ethtool -l ", "ethtool -L "],
        Text.conflict "service " beginning = true := by decide
    exact hq _ hm
  | qdisc d =>
    have hq : ∀ beginning ∈ ["tc qdisc show dev ", "tc qdisc replace dev "],
        Text.conflict "service " beginning = true := by decide
    exact hq _ hm
  | pin d processors spreading => exact absurd rfl hi

namespace Layer

/-! ## Configuring -/

/-- The layer pins interrupts. -/
def IsInterrupts : Layer → Prop
  | interrupts .. => True
  | _ => False

/-- Only the layer that pins interrupts intends to do so. -/
theorem key_ne_of_mem_intents {layer : Layer} (h : ¬layer.IsInterrupts) {i : Intent}
    (hi : i ∈ layer.intents) : i.key ≠ Interrupts.key := by
  have hk : ∀ key ∈ [Offload.key, Mtu.key, Coalescing.key, Qdisc.key, PauseFrames.key, Queues.key,
      FlowHash.key, HashFunction.key], key ≠ Interrupts.key := by decide
  rw [key_of_mem_intents hi]
  cases layer with
  | interrupts devices i => exact absurd trivial h
  | inert key => cases hi
  | _ => exact hk _ (by simp [key])

theorem configure_offService {layer : Layer} (h : ¬layer.IsInterrupts) :
    Emits Prod.fst OffService layer.configure := by
  refine layer.configure_emits.mono ?_
  rintro e ⟨i, hi, he⟩
  exact he.offService (key_ne_of_mem_intents h hi)

/-! ## Restoring -/

theorem restoreSettings_offService (key : String) :
    Emits Prod.fst OffService (restoreSettings key) := by
  refine .bind .notes fun l => ?_
  cases l.settings? key with
  | none => exact .pure ()
  | some changes =>
    refine .tryEachNoting fun name _ => .bind (.takeNote _) fun taken => ?_
    cases taken with
    | none => exact .pure ()
    | some taken =>
      refine (Emits.note _).bind fun _ => .ofBench (.tryEach fun c _ => ?_)
      exact Emits.set (c.device.offService_setEvents name c.previous)

theorem restoreTaken_emits {α : Type} {P : Event → Prop} {look : Ledger → String → Option α}
    {key : String} {undo : α → BenchM Unit} (h : ∀ x, Emits id P (undo x)) :
    Emits Prod.fst P (restoreTaken look key undo) := by
  refine .bind (.takeNote _) fun taken => ?_
  cases taken with
  | none => exact .pure ()
  | some x => exact .ofBench (h x)

theorem restore_offService {layer : Layer} (h : ¬layer.IsInterrupts) :
    Emits Prod.fst OffService layer.restore := by
  cases hq : layer.requests? with
  | some requests =>
    rw [restore_of_requests? hq]
    exact restoreSettings_offService layer.key
  | none =>
    cases layer with
    | interrupts devices i => exact absurd trivial h
    | qdisc devices streams =>
      change Emits Prod.fst OffService Qdisc.restore
      rw [Qdisc.restore_eq]
      exact restoreTaken_emits fun changes => .tryEach fun c _ =>
        Qdisc.undo_emits (Command.isService_deleteCommand c.device)
    | queues devices counts =>
      change Emits Prod.fst OffService Queues.restore
      rw [Queues.restore_eq]
      exact restoreTaken_emits fun changes => .tryEach fun c _ =>
        Queues.undo_emits (Command.isService_setCommand c.device c.restoreCounts)
    | inert key => exact .pure ()
    | _ => cases hq

end Layer

end NicTuning
