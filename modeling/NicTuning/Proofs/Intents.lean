import NicTuning.Proofs.Course
import NicTuning.Stack

/-!
# Intents

A line of a plan announces a change. An intent is what such a line says, and every change carries
one out except for the stopping of a balancer. `Follows` compares the changes of an action with what
was intended: they carry it out one by one, up to the point where the action stopped.
-/
namespace NicTuning

/-- A change that is planned. -/
inductive Intent
  | setting (name : String) (device : Device) (value : Setting)
  | queues (device : Device) (counts : Dict UInt32)
  | qdisc (device : Device)
  | pin (device : Device) (processors : List Int) (spreading : Spreading)
  deriving DecidableEq

namespace Intent

/-- The intent in words. -/
def line : Intent → String
  | setting name d value => Layer.planLine name d value
  | queues d counts => d.id ++ " queues -> " ++ Layer.Queues.countWords counts
  | qdisc d => d.id ++ " root qdisc -> mq"
  | pin d processors spreading =>
    d.id ++ " irqs -> cpu [" ++ ", ".intercalate (processors.map toString) ++ "] policy:" ++
      spreading.text

/-- The key of the layer that has such intents. -/
def key : Intent → String
  | setting name _ _ => settingKey name
  | queues .. => Layer.Queues.key
  | qdisc _ => Layer.Qdisc.key
  | pin .. => Layer.Interrupts.key

/-- The value that an attribute of the device at an address is to have. -/
def value? (address name : String) : Intent → Option Setting
  | setting n d value => if n = name ∧ d.control = .memory address then some value else none
  | _ => none

end Intent

namespace Change

/-- The intent that a change carries out. -/
def intent? : Change → Option Intent
  | setting name c => some (.setting name c.device c.configured)
  | queues c => some (.queues c.device c.configured)
  | qdisc c => some (.qdisc c.device)
  | stop _ => none
  | pin d => some (.pin d.device (d.processors.map fun n => n.toNat) d.spreading)

theorem key_of_intent? {c : Change} {i : Intent} (h : c.intent? = some i) : i.key = c.key := by
  cases c <;> cases h <;> rfl

end Change

namespace Layer

/-- What is intended for an attribute: the devices with a value get it. -/
def settingIntents (name : String) (targets : List Target) : List Intent :=
  targets.filterMap fun (d, value) => value.map (.setting name d)

theorem planSettings_eq (name : String) (targets : List Target) :
    planSettings name targets = (settingIntents name targets).map Intent.line := by
  unfold planSettings settingIntents
  rw [List.map_filterMap]
  refine List.filterMap_congr fun target _ => ?_
  rw [Option.map_map]
  rfl

theorem key_of_mem_settingIntents {name : String} {targets : List Target} {i : Intent}
    (h : i ∈ settingIntents name targets) : i.key = settingKey name := by
  obtain ⟨target, -, hi⟩ := List.mem_filterMap.1 h
  obtain ⟨value, -, rfl⟩ := Option.map_eq_some_iff.1 hi
  rfl

end Layer

/-- Changes carry out what was intended one by one, all of it unless there was a fault, and none of
them is made for a layer that intends nothing. -/
structure Follows (cs : List Change) (intents : List Intent) (result : Except Fault Unit) :
    Prop where
  begun : cs.filterMap Change.intent? <+: intents
  through : result = .ok () → cs.filterMap Change.intent? = intents
  grounded : ∀ c ∈ cs, ∃ i ∈ intents, i.key = c.key

namespace Follows

variable {cs cs' : List Change} {intents intents' : List Intent} {result : Except Fault Unit}

theorem nothing (result : Except Fault Unit) : Follows [] [] result :=
  ⟨List.prefix_refl _, fun _ => rfl, by simp⟩

theorem stopped (fault : Fault) (intents : List Intent) : Follows [] intents (.error fault) :=
  ⟨List.nil_prefix, nofun, by simp⟩

theorem single {c : Change} {i : Intent} (h : c.intent? = some i) (result : Except Fault Unit) :
    Follows [c] [i] result := by
  have he : [c].filterMap Change.intent? = [i] := by simp [h]
  exact ⟨he ▸ List.prefix_refl _, fun _ => he,
    fun c' hc => ⟨i, by simp, List.mem_singleton.1 hc ▸ Change.key_of_intent? h⟩⟩

/-- Nothing is done of what was to come after a fault. -/
theorem cut {fault : Fault} (h : Follows cs intents (.error fault)) (intents' : List Intent) :
    Follows cs (intents ++ intents') (.error fault) := by
  refine ⟨h.begun.trans (List.prefix_append _ _), nofun, fun c hc => ?_⟩
  obtain ⟨i, hi, hk⟩ := h.grounded c hc
  exact ⟨i, by simp [hi], hk⟩

theorem append (h : Follows cs intents (.ok ())) (h' : Follows cs' intents' result) :
    Follows (cs ++ cs') (intents ++ intents') result := by
  have hcs := h.through rfl
  refine ⟨?_, fun hr => ?_, fun c hc => ?_⟩
  · rw [List.filterMap_append, hcs]
    exact (List.prefix_append_right_inj _).2 h'.begun
  · rw [List.filterMap_append, hcs, h'.through hr]
  · rcases List.mem_append.mp hc with hc | hc
    · obtain ⟨i, hi, hk⟩ := h.grounded c hc
      exact ⟨i, by simp [hi], hk⟩
    · obtain ⟨i, hi, hk⟩ := h'.grounded c hc
      exact ⟨i, by simp [hi], hk⟩

/-- Changes that carry out no intent may come before those that do. -/
theorem prepend (h : Follows cs' intents result) (hc : ∀ c ∈ cs, c.intent? = none)
    (hg : ∀ c ∈ cs, ∃ i ∈ intents, i.key = c.key) : Follows (cs ++ cs') intents result := by
  have hn : cs.filterMap Change.intent? = [] := List.filterMap_eq_nil_iff.2 hc
  have he : (cs ++ cs').filterMap Change.intent? = cs'.filterMap Change.intent? := by
    rw [List.filterMap_append, hn, List.nil_append]
  refine ⟨he ▸ h.begun, fun hr => he.trans (h.through hr), fun c hm => ?_⟩
  rcases List.mem_append.mp hm with hm | hm
  · exact hg c hm
  · exact h.grounded c hm

end Follows

/-! ## What is left in memory -/

/-- A change gives the attribute that is intended its value and leaves all else in memory alone. -/
theorem Takes.memory_eq {b b' : Bench} {c : Change} (h : Takes b c b') (address : String) :
    b'.memory address = { b.memory address with
      values := fun name => (c.intent?.bind (Intent.value? address name)).or
        ((b.memory address).values name) } := by
  have hm := congrFun h.memory address
  cases h with
  | @setting d n value previous _ m _ look write =>
    rw [hm]
    have he : Change.event? (.setting n ⟨d, previous, value⟩) = d.writeEvent? n value := rfl
    have hi : ∀ name, ((Change.setting n ⟨d, previous, value⟩).intent?.bind
        (Intent.value? address name)) =
          if n = name ∧ d.control = .memory address then some value else none := fun _ => rfl
    rw [he]
    simp only [hi]
    unfold Device.writeEvent?
    cases hd : d.control with
    | commands => cases ha : Attribute.ofName? n <;> simp [Event.apply]
    | memory address' =>
      by_cases ha : address' = address
      · subst ha
        simp only [Event.apply, Option.elim_some, if_true, Memory.mk.injEq, and_true]
        funext name
        by_cases hn : name = n
        · simp [hn]
        · simp [hn, Ne.symm hn]
      · simp [Event.apply, ha, Ne.symm ha]
  | _ => exact hm

/-- After a course an attribute in memory has the value that was intended last, if there is one, and
all else is as it was. -/
theorem Course.memory_eq {b b' : Bench} {cs : List Change} (h : Course b cs b')
    (address : String) : b'.memory address = { b.memory address with
      values := fun name =>
        ((cs.filterMap Change.intent?).reverse.findSome? (Intent.value? address name)).or
          ((b.memory address).values name) } := by
  induction h with
  | done quiet =>
    obtain ⟨-, -, -, hm⟩ := quiet
    rw [hm]
    rfl
  | @step _ _ _ _ c _ quiet takes _ ih =>
    obtain ⟨-, -, -, hm⟩ := quiet
    rw [ih, takes.memory_eq address, hm]
    cases hi : c.intent? with
    | none => simp [hi]
    | some i => simp [hi, List.findSome?_append, Option.or_assoc]

end NicTuning
