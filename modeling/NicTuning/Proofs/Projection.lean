import NicTuning.Proofs.Deeds
import NicTuning.Proofs.Territory

/-!
# The deeds for one device

Devices that are apart share nothing that a deed could change, so the deeds for one of them are
possible without those for the others. Main statement: of an unbroken run the deeds for one device
are an unbroken run of their own, event by event the same (`Unbroken.only`), and such a run is
determined by what is intended (`Unbroken.unique`), as long as hosts answer steadily.
-/
namespace NicTuning

namespace Device

/-- The devices are different, and they are not the same one in memory. -/
structure Apart (d e : Device) : Prop where
  ne : d ≠ e
  memory : ∀ address, d.control = .memory address → e.control ≠ .memory address

theorem Apart.symm {d e : Device} (h : d.Apart e) : e.Apart d where
  ne := h.ne.symm
  memory address he hd := h.memory address hd he

end Device

namespace Change

/-- The device that is changed. A balancer belongs to no device. -/
def device? : Change → Option Device
  | setting _ c => some c.device
  | queues c => some c.device
  | qdisc c => some c.device
  | stop _ => none
  | pin d => some d.device

end Change

namespace Intent

/-- The device that is to be changed. -/
def device : Intent → Device
  | setting _ d _ => d
  | queues d _ => d
  | qdisc d => d
  | pin d _ _ => d

end Intent

theorem Change.device?_eq (c : Change) : c.device? = c.intent?.map Intent.device := by
  cases c <;> rfl

namespace Event

/-- What an event makes of a device in memory depends on that device alone. -/
theorem apply_congr (e : Event) {devices devices' : String → Memory} {address : String}
    (h : devices' address = devices address) :
    e.apply devices' address = e.apply devices address := by
  cases e with
  | wrote a name value done =>
    cases done with
    | false => exact h
    | true =>
      by_cases ha : address = a
      · subst ha
        simp [apply, h]
      · simp [apply, ha, h]
  | linked a up =>
    by_cases ha : address = a
    · subst ha
      simp [apply, h]
    · simp [apply, ha, h]
  | _ => exact h

/-- The event is a try to write an attribute of the device at an address. -/
def isWriteAt (address : String) : Event → Bool
  | wrote a .. => a = address
  | _ => false

theorem isWriteAt_of_isRun {e : Event} (h : e.IsRun) (address : String) :
    e.isWriteAt address = false := by
  obtain ⟨a, command, rfl⟩ := h
  rfl

theorem isWriteAt_of_touches {e : Event} (h : e.touches = false) (address : String) :
    e.isWriteAt address = false := by
  cases e with
  | wrote => cases h
  | _ => rfl

end Event

namespace Device

variable (d : Device) {e : Event}

theorem control_of_mem_setEvents {name : String} {value : Setting} {b : Bench}
    (he : e ∈ d.setEvents name value b) {address : String} (hw : e.isWriteAt address = true) :
    d.control = .memory address := by
  unfold setEvents at he
  cases hc : d.control with
  | memory a =>
    rw [hc, List.mem_singleton] at he
    subst he
    simpa [Event.isWriteAt] using hw
  | commands =>
    rw [hc] at he
    obtain ⟨a, -, rfl⟩ := Option.map_eq_some_iff.1 (Option.mem_toList.1 he)
    cases hw

theorem isWriteAt_of_mem_linkEvents {up : Bool} (he : e ∈ d.linkEvents up) (address : String) :
    e.isWriteAt address = false :=
  d.forall_linkEvents (P := fun e => e.isWriteAt address = false) (fun _ => rfl)
    (fun _ _ _ => rfl) e he

end Device

namespace Deed

/-- The deed is for a device. -/
def isFor (d : Device) (deed : Deed) : Bool := deed.change.device? = some d

/-- If the deed is for any device, it is for the given one or for one that is apart from it. -/
def Separate (d : Device) (deed : Deed) : Prop :=
  ∀ e, deed.change.device? = some e → e = d ∨ d.Apart e

end Deed

/-! ## Benches that are the same for a device -/

namespace Bench

/-- The hosts of the benches give the same answers, steadily, and the device is the same there if it
is in memory. -/
structure SameFor (d : Device) (b c : Bench) : Prop where
  steady : b.Steady
  answer : c.answer = b.answer
  memory : ∀ address, d.control = .memory address → c.memory address = b.memory address

namespace SameFor

variable {d : Device} {b b' c : Bench}

theorem symm (h : SameFor d b c) : SameFor d c b where
  steady := h.steady.congr h.answer
  answer := h.answer.symm
  memory address hd := (h.memory address hd).symm

theorem trans (h : SameFor d b b') (h' : SameFor d b' c) : SameFor d b c where
  steady := h.steady
  answer := h'.answer.trans h.answer
  memory address hd := (h'.memory address hd).trans (h.memory address hd)

theorem after (h : SameFor d b c) (events : List Event) :
    SameFor d (b.after events) (c.after events) where
  steady := h.steady
  answer := h.answer
  memory address hd := by
    induction events with
    | nil => exact h.memory address hd
    | cons e events ih => exact Event.apply_congr e ih

/-- Commands make no difference for any device. -/
theorem of_isRun (hb : b.Steady) {events : List Event} (h : ∀ e ∈ events, e.IsRun) :
    SameFor d b (b.after events) where
  steady := hb
  answer := rfl
  memory address _ := congrFun (memory_after_of_isRun h) address

end SameFor

/-- From two starts the same has happened, and the benches are the same for a device. -/
structure InStep (d : Device) (start start' b c : Bench) : Prop where
  same : SameFor d b c
  events : ∃ events, b = start.after events ∧ c = start'.after events

theorem inStep_isKinship (d : Device) (start start' : Bench) :
    IsKinship (InStep d start start') where
  after h events := by
    obtain ⟨before, rfl, rfl⟩ := h.events
    refine ⟨h.same.after events, events ++ before, ?_, ?_⟩
    · rw [after_after]
    · rw [after_after]
  reply_eq {b c} h host command := by
    unfold reply
    rw [h.same.answer, h.same.steady c.journal b.journal]

end Bench

/-- What is done from one state is done from another that is related to it. -/
theorem Congruent.along {S α : Type} {R : S → S → Prop} {act : ActionM S α} (h : Congruent R act)
    {s t s' : S} {r : Except Fault α} (hst : R s t) (hact : act s = (r, s')) :
    ∃ t', act t = (r, t') ∧ R s' t' := by
  obtain ⟨hr, hst'⟩ := h s t hst
  rw [hact] at hr hst'
  exact ⟨(act t).2, Prod.ext hr rfl, hst'⟩

/-! ## Single deeds -/

namespace Succeeding

variable {h : Host} {commands : List String} {b b' b'' c : Bench}

theorem along {R : Bench → Bench → Prop} (hR : Bench.IsKinship R)
    (hs : Succeeding h commands b b') (hbc : R b c) :
    ∃ c', Succeeding h commands c c' ∧ R b' c' := by
  induction hs generalizing c with
  | nil => exact ⟨c, .nil, hbc⟩
  | @cons command _ _ _ _ run _ ih =>
    obtain ⟨m, hrun, hm⟩ := (hR.command h command).along hbc run
    obtain ⟨c', hothers, hc'⟩ := ih hm
    exact ⟨c', .cons hrun hothers, hc'⟩

theorem isRun (hs : Succeeding h commands b b') :
    ∃ events, b' = b.after events ∧ ∀ e ∈ events, e.IsRun := by
  induction hs with
  | nil => exact ⟨[], rfl, by simp⟩
  | cons run _ ih =>
    obtain ⟨rfl, -⟩ := Host.command_ok run
    obtain ⟨events, rfl, hevents⟩ := ih
    refine ⟨events ++ [_], Bench.after_after _ _ _, ?_⟩
    intro e he
    rcases List.mem_append.1 he with he | he
    · exact hevents e he
    · exact ⟨_, _, List.mem_singleton.1 he⟩

theorem unique (hs : Succeeding h commands b b') (hs' : Succeeding h commands b b'') :
    b'' = b' := by
  induction hs with
  | nil =>
    cases hs'
    rfl
  | cons run _ ih =>
    cases hs' with
    | cons run' others' =>
      rw [run] at run'
      cases run'
      exact ih others'

end Succeeding

namespace Takes

variable {d : Device} {b b' b'' c : Bench} {x y : Change}

/-- A change of a device takes effect in the same way wherever the device is the same. -/
theorem along (h : Takes b x b') (hd : x.device? = some d) (hs : b.SameFor d c) :
    ∃ events, b' = b.after events ∧ Takes c x (c.after events) := by
  have hk := Bench.inStep_isKinship d b c
  have hstart : Bench.InStep d b c b c := ⟨hs, [], rfl, rfl⟩
  have hmemory : ∀ b' c', Bench.InStep d b c b' c' → ∀ address, d.control = .memory address →
      c'.memory address = b'.memory address :=
    fun _ _ h address hc => h.same.memory address hc
  cases h with
  | @setting d name value previous _ m _ look write =>
    cases hd
    have hget : Congruent (Bench.InStep d b c) (d.get name) := hk.get d fun b' c' h address hc => by
      rw [hmemory b' c' h address hc]
    have hset := hk.set d name value fun b' c' h address hc => by
      rw [hmemory b' c' h address hc]
    obtain ⟨m', look', hm⟩ := hget.along hstart look
    obtain ⟨c', write', hend⟩ := hset.along hm write
    obtain ⟨events, hb', rfl⟩ := hend.events
    exact ⟨events, hb', .setting look' write'⟩
  | @queues d _ _ _ _ m _ look read write =>
    cases hd
    obtain ⟨m', look', hm⟩ := (hk.query d.netns _).along hstart look
    obtain ⟨c', write', hend⟩ := (hk.command d.netns _).along hm write
    obtain ⟨events, hb', rfl⟩ := hend.events
    exact ⟨events, hb', .queues look' read write'⟩
  | @qdisc d _ _ m _ look write =>
    cases hd
    obtain ⟨m', look', hm⟩ := (hk.query d.netns _).along hstart look
    obtain ⟨c', write', hend⟩ := (hk.command d.netns _).along hm write
    obtain ⟨events, hb', rfl⟩ := hend.events
    exact ⟨events, hb', .qdisc look' write'⟩
  | stop write => cases hd
  | @pin p interrupts _ m _ look write =>
    cases hd
    have hinterrupts := hk.interruptsOf p.device fun b' c' h address hc => by
      rw [hmemory b' c' h address hc]
    obtain ⟨m', look', hm⟩ := hinterrupts.along hstart look
    obtain ⟨c', write', hend⟩ := write.along hk hm
    obtain ⟨events, hb', rfl⟩ := hend.events
    exact ⟨events, hb', .pin look' write'⟩

/-- What is intended and the bench before determine the change and the bench after. -/
theorem unique (h : Takes b x b') (h' : Takes b y b'') (hi : y.intent? = x.intent?)
    (hsome : x.intent?.isSome = true) : y = x ∧ b'' = b' := by
  cases h with
  | setting look write =>
    cases h' with
    | setting look' write' =>
      cases hi
      rw [look] at look'
      cases look'
      rw [write] at write'
      cases write'
      exact ⟨rfl, rfl⟩
    | _ => cases hi
  | queues look read write =>
    cases h' with
    | queues look' read' write' =>
      cases hi
      rw [look] at look'
      cases look'
      rw [read] at read'
      cases read'
      rw [write] at write'
      cases write'
      exact ⟨rfl, rfl⟩
    | _ => cases hi
  | qdisc look write =>
    cases h' with
    | qdisc look' write' =>
      cases hi
      rw [look] at look'
      cases look'
      rw [write] at write'
      cases write'
      exact ⟨rfl, rfl⟩
    | _ => cases hi
  | stop write => cases hsome
  | @pin p interrupts _ m _ look write =>
    cases h' with
    | @pin p' interrupts' _ m' _ look' write' =>
      obtain ⟨device, processors, spreading⟩ := p
      obtain ⟨device', processors', spreading'⟩ := p'
      simp only [Change.intent?, Option.some.injEq, Intent.pin.injEq] at hi
      obtain ⟨rfl, hprocessors, rfl⟩ := hi
      have hinjective : Function.Injective fun n : UInt32 => (n.toNat : Int) := fun n m h =>
        UInt32.toNat_inj.1 (Int.ofNat.inj h)
      obtain rfl := hinjective.list_map hprocessors
      rw [look] at look'
      cases look'
      exact ⟨rfl, write.unique write'⟩
    | _ => cases hi

/-- A change of another device makes no difference for a device that is apart. -/
theorem sameFor (h : Takes b x b') (hb : b.Steady)
    (hx : ∀ e, x.device? = some e → d.Apart e) : b.SameFor d b' where
  steady := hb
  answer := by
    obtain ⟨events, rfl⟩ := h.exists_events
    rfl
  memory address hd := by
    have hnone : ∀ name, x.intent?.bind (Intent.value? address name) = none := by
      intro name
      rw [x.device?_eq] at hx
      cases hi : x.intent? with
      | none => rfl
      | some i =>
        cases i with
        | setting n e value =>
          have hapart := hx e (by rw [hi]; rfl)
          have he : e.control ≠ .memory address := hapart.memory address hd
          simp [Intent.value?, he]
        | _ => rfl
    rw [h.memory_eq address]
    simp only [hnone, Option.none_or]

/-- Attributes in memory are written only on the device that is changed. -/
theorem writes (h : Takes b x b') : ∃ events, b' = b.after events ∧
    ∀ e ∈ events, ∀ address, e.isWriteAt address = true →
      ∃ d, x.device? = some d ∧ d.control = .memory address := by
  -- Nothing but the writing of an attribute writes one.
  have hnever : (∃ events, b' = b.after events ∧
      ∀ e ∈ events, ∀ address, e.isWriteAt address = false) →
      ∃ events, b' = b.after events ∧ ∀ e ∈ events, ∀ address, e.isWriteAt address = true →
        ∃ d, x.device? = some d ∧ d.control = .memory address := by
    rintro ⟨events, hb, hnone⟩
    refine ⟨events, hb, ?_⟩
    intro e he address hw
    rw [hnone e he address] at hw
    cases hw
  cases h with
  | @setting d name value previous _ m _ look write =>
    obtain rfl : m = b.after (d.getEvents name) := by rw [← d.get_bench b name, look]
    obtain rfl : b' = (b.after (d.getEvents name)).after (d.setEvents name value _) := by
      rw [← d.set_bench _ name value, write]
    refine ⟨_, Bench.after_after _ _ _, ?_⟩
    intro e he address hw
    refine ⟨d, rfl, ?_⟩
    rcases List.mem_append.1 he with he | he
    · exact d.control_of_mem_setEvents he hw
    · rw [Event.isWriteAt_of_touches (d.touches_getEvents name e he)] at hw
      cases hw
  | @queues d counts _ _ _ m _ look read write =>
    apply hnever
    obtain ⟨rfl, -⟩ := Host.command_ok write
    rw [d.query_apply] at look
    obtain rfl := (Prod.mk.inj look).2
    exact ⟨_, Bench.after_after _ _ _, by simp [Event.isWriteAt]⟩
  | @qdisc d _ _ m _ look write =>
    apply hnever
    obtain ⟨rfl, -⟩ := Host.command_ok write
    rw [d.query_apply] at look
    obtain rfl := (Prod.mk.inj look).2
    exact ⟨_, Bench.after_after _ _ _, by simp [Event.isWriteAt]⟩
  | stop write =>
    apply hnever
    obtain ⟨rfl, -⟩ := Host.command_ok write
    exact ⟨_, rfl, by simp [Event.isWriteAt]⟩
  | @pin p interrupts _ m _ look write =>
    apply hnever
    have hlook : Emits id (fun e => ∀ address, e.isWriteAt address = false)
        (Layer.Interrupts.interruptsOf p.device) := by
      refine Layer.Interrupts.interruptsOf_emits ?_ ?_ ?_
      · exact fun e he => Event.isWriteAt_of_touches (p.device.touches_isUpEvents e he)
      · exact fun up e he => p.device.isWriteAt_of_mem_linkEvents he
      · exact fun _ => rfl
    obtain ⟨older, hm, holder⟩ := hlook b
    rw [look] at hm
    obtain rfl : m = b.after older := hm
    obtain ⟨newer, rfl, hnewer⟩ := write.isRun
    refine ⟨newer ++ older, Bench.after_after _ _ _, ?_⟩
    intro e he
    rcases List.mem_append.1 he with he | he
    · exact Event.isWriteAt_of_isRun (hnewer e he)
    · exact holder e he

end Takes

/-! ## Runs -/

namespace Unbroken

variable {d : Device} {b b' b'' c : Bench} {deeds deeds' : List Deed}

/-- The deeds for one device are possible without those for devices that are apart from it. -/
theorem only (h : Unbroken b deeds b') (hs : b.SameFor d c)
    (hapart : ∀ deed ∈ deeds, deed.Separate d) :
    ∃ c', Unbroken c (deeds.filter (Deed.isFor d)) c' := by
  induction h generalizing c with
  | nil => exact ⟨c, .nil⟩
  | @cons b b' deed deeds takes others ih =>
    have hrest : ∀ deed ∈ deeds, deed.Separate d := fun deed hm => hapart deed (by simp [hm])
    by_cases hd : deed.change.device? = some d
    · obtain ⟨events, hevents, htakes⟩ := takes.along hd hs
      obtain rfl := Bench.after_injective b hevents
      obtain ⟨c', hc'⟩ := ih (hs.after deed.events) hrest
      rw [List.filter_cons_of_pos (by simpa [Deed.isFor] using hd)]
      exact ⟨c', .cons htakes hc'⟩
    · have hframe : b.SameFor d (b.after deed.events) := by
        refine takes.sameFor hs.steady ?_
        intro e he
        rcases hapart deed (by simp) e he with rfl | h
        · exact absurd he hd
        · exact h
      rw [List.filter_cons_of_neg (by simpa [Deed.isFor] using hd)]
      exact ih (hframe.symm.trans hs) hrest

/-- What is intended determines the deeds, if it is told of each. -/
theorem unique (h : Unbroken b deeds b') (h' : Unbroken b deeds' b'')
    (hi : deeds'.map (·.change.intent?) = deeds.map (·.change.intent?))
    (hsome : ∀ deed ∈ deeds, deed.change.intent?.isSome = true) : deeds' = deeds := by
  induction h generalizing deeds' with
  | nil => exact List.map_eq_nil_iff.1 hi
  | @cons b b' deed deeds takes others ih =>
    cases h' with
    | nil => cases hi
    | @cons _ _ deed' deeds' takes' others' =>
      obtain ⟨hhead, htail⟩ := List.cons.inj hi
      obtain ⟨hchange, hafter⟩ := takes.unique takes' hhead (hsome deed (by simp))
      have hevents := Bench.after_injective b hafter
      obtain rfl : deed' = deed := by
        cases deed
        cases deed'
        cases hchange
        cases hevents
        rfl
      rw [ih others' htail fun deed hm => hsome deed (by simp [hm])]

/-- The writes to a device in memory are those of the deeds for it, and the earlier ones. -/
theorem filter_isWriteAt (h : Unbroken b deeds b') {address : String}
    (hd : d.control = .memory address) (hapart : ∀ deed ∈ deeds, deed.Separate d) :
    b'.journal.filter (Event.isWriteAt address) =
      ((deeds.filter (Deed.isFor d)).reverse.flatMap Deed.events).filter
        (Event.isWriteAt address) ++ b.journal.filter (Event.isWriteAt address) := by
  induction h with
  | nil => simp
  | @cons b b' deed deeds takes others ih =>
    have hjournal : (b.after deed.events).journal.filter (Event.isWriteAt address) =
        deed.events.filter (Event.isWriteAt address) ++
          b.journal.filter (Event.isWriteAt address) :=
      List.filter_append ..
    rw [ih fun deed hm => hapart deed (by simp [hm]), hjournal]
    by_cases hfor : deed.change.device? = some d
    · rw [List.filter_cons_of_pos (by simpa [Deed.isFor] using hfor), List.reverse_cons,
        List.flatMap_append, List.filter_append]
      simp
    · have hnone : deed.events.filter (Event.isWriteAt address) = [] := by
        rw [List.filter_eq_nil_iff]
        intro e he hw
        obtain ⟨events, hevents, hwrites⟩ := takes.writes
        obtain rfl := Bench.after_injective b hevents
        obtain ⟨other, hother, hcontrol⟩ := hwrites e he address hw
        rcases hapart deed (by simp) other hother with rfl | h
        · exact hfor hother
        · exact h.memory address hd hcontrol
      rw [List.filter_cons_of_neg (by simpa [Deed.isFor] using hfor), hnone, List.nil_append]

end Unbroken

end NicTuning
