import NicTuning.Proofs.Undoing

/-!
# Steps on attributes

What happens on a bench does not tell which attribute it was meant for: a command that sets a mode
may have been run for the mode, or for another attribute whose name spells the same key. A step
therefore has the attribute and the value for which it was made. Layers that change attributes make
a step for each of their intents, up to the first that fails, and taking changes back makes one for
each remedy.
-/
namespace NicTuning

/-- A step on an attribute of a device: the value that the attribute was to have, and all that
happened for it, the newest first. -/
structure Step where
  device : Device
  name : String
  value : Setting
  events : List Event

namespace Step

variable (s : Step)

def intent : Intent := .setting s.name s.device s.value

def remedy : Remedy := .write s.device s.name s.value

/-- On a bench the attribute was read and, unless that failed, written. -/
def Changes (b : Bench) (s : Step) : Prop :=
  s.events =
    match (s.device.get s.name b).1 with
    | .ok _ => s.device.setEvents s.name s.value (b.after (s.device.getEvents s.name)) ++
        s.device.getEvents s.name
    | .error _ => s.device.getEvents s.name

/-- On a bench the attribute was written. -/
def Writes (b : Bench) (s : Step) : Prop := s.events = s.device.setEvents s.name s.value b

/-- All that happened in some steps, of which the first is the oldest. -/
def journal (steps : List Step) : List Event := steps.reverse.flatMap events

theorem journal_cons (steps : List Step) : journal (s :: steps) = journal steps ++ s.events := by
  simp [journal]

theorem journal_append (steps steps' : List Step) :
    journal (steps ++ steps') = journal steps' ++ journal steps := by
  simp [journal]

end Step

/-- Steps are made one after the other, each on the bench that those before it have left. -/
inductive Walk (made : Bench → Step → Prop) : Bench → List Step → Prop
  | nil {b} : Walk made b []
  | cons {b s steps} (here : made b s) (others : Walk made (b.after s.events) steps) :
      Walk made b (s :: steps)

theorem Walk.append {made : Bench → Step → Prop} {b : Bench} {steps steps' : List Step}
    (h : Walk made b steps) (h' : Walk made (b.after (Step.journal steps)) steps') :
    Walk made b (steps ++ steps') := by
  induction h with
  | nil => exact h'
  | cons here others ih =>
    rw [Step.journal_cons, ← Bench.after_after] at h'
    exact .cons here (ih h')

/-! ## Steps that change -/

/-- On a bench a step is made for each intent, one after the other, up to a fault. -/
structure Pursues (b : Bench) (intents : List Intent) (result : Except Fault Unit)
    (steps : List Step) : Prop where
  walk : Walk Step.Changes b steps
  begun : steps.map Step.intent <+: intents
  through : result = .ok () → steps.map Step.intent = intents

namespace Pursues

variable {b : Bench} {intents intents' : List Intent} {result : Except Fault Unit}
  {steps steps' : List Step}

theorem nothing (h : result = .ok () → intents = []) : Pursues b intents result [] :=
  ⟨.nil, List.nil_prefix, fun hr => (h hr).symm⟩

/-- No step is made for what was to come after a fault. -/
theorem cut {fault : Fault} (h : Pursues b intents (.error fault) steps)
    (intents' : List Intent) : Pursues b (intents ++ intents') (.error fault) steps :=
  ⟨h.walk, h.begun.trans (List.prefix_append _ _), nofun⟩

theorem append (h : Pursues b intents (.ok ()) steps)
    (h' : Pursues (b.after (Step.journal steps)) intents' result steps') :
    Pursues b (intents ++ intents') result (steps ++ steps') where
  walk := h.walk.append h'.walk
  begun := by
    rw [List.map_append, h.through rfl]
    exact (List.prefix_append_right_inj _).2 h'.begun
  through hr := by rw [List.map_append, h.through rfl, h'.through hr]

end Pursues

/-- An action on sessions makes steps for some intents, and nothing else happens. -/
def Pursuing (intents : List Intent) (act : SessionM Unit) : Prop :=
  ∀ b l, ∃ steps, (act (b, l)).2.1 = b.after (Step.journal steps) ∧
    Pursues b intents (act (b, l)).1 steps

namespace Pursuing

variable {α : Type} {intents intents' : List Intent} {act next : SessionM Unit}

theorem pure : Pursuing [] (pure ()) := fun _ _ => ⟨[], rfl, .nothing fun _ => rfl⟩

theorem throw (fault : Fault) : Pursuing [] (throw fault) :=
  fun _ _ => ⟨[], rfl, .nothing fun _ => rfl⟩

theorem bind (h : Pursuing intents act) (hn : Pursuing intents' next) :
    Pursuing (intents ++ intents') (act >>= fun _ => next) := by
  intro b l
  obtain ⟨steps, hb, hs⟩ := h b l
  rw [ActionM.bind_apply]
  rcases ha : act (b, l) with ⟨fault | ⟨⟩, b', l'⟩ <;> rw [ha] at hb hs
  · exact ⟨steps, hb, hs.cut intents'⟩
  · obtain rfl : b' = b.after (Step.journal steps) := hb
    obtain ⟨steps', hb', hs'⟩ := hn (b.after (Step.journal steps)) l'
    refine ⟨steps ++ steps', ?_, hs.append hs'⟩
    rw [Step.journal_append, ← Bench.after_after]
    exact hb'

theorem forEach {act : α → SessionM Unit} {intents : α → List Intent} {xs : List α}
    (h : ∀ x ∈ xs, Pursuing (intents x) (act x)) :
    Pursuing (xs.flatMap intents) (NotingM.forEach act xs) := by
  induction xs with
  | nil => exact pure
  | cons x rest ih =>
    rw [List.flatMap_cons]
    exact bind (h x (by simp)) (ih fun y hy => h y (by simp [hy]))

end Pursuing

namespace Layer

theorem changeSetting_pursuing (key name : String) (d : Device) (value : Setting) :
    Pursuing [.setting name d value] (changeSetting key name d value) := by
  intro b l
  have hget : d.get name b = ((d.get name b).1, b.after (d.getEvents name)) :=
    Prod.ext rfl (d.get_bench b name)
  have hset := d.set_bench (b.after (d.getEvents name)) name value
  unfold changeSetting
  rw [NotingM.lift_bind_apply, hget]
  cases hread : (d.get name b).1 with
  | error fault =>
    refine ⟨[⟨d, name, value, d.getEvents name⟩], by simp [Step.journal], ?_, ?_, nofun⟩
    · refine .cons ?_ .nil
      simp only [Step.Changes, hread]
    · exact List.prefix_refl _
  | ok previous =>
    refine ⟨[⟨d, name, value, d.setEvents name value (b.after (d.getEvents name)) ++
      d.getEvents name⟩], ?_, ?_, List.prefix_refl _, fun _ => rfl⟩
    · dsimp only
      rw [NotingM.lift_bind_apply]
      rcases hwrite : d.set name value (b.after (d.getEvents name)) with ⟨fault | ⟨⟩, b'⟩ <;>
        rw [hwrite, Bench.after_after] at hset
      · simpa [Step.journal] using hset
      · dsimp only
        unfold NotingM.amend
        dsimp only
        split <;> simpa [Step.journal] using hset
    · refine .cons ?_ .nil
      simp only [Step.Changes, hread]

theorem changeSettings_pursuing (key name : String) (targets : List Target) :
    Pursuing (settingIntents name targets) (changeSettings key name targets) := by
  unfold settingIntents
  rw [List.filterMap_eq_flatMap_toList]
  refine .forEach fun target _ => ?_
  obtain ⟨d, - | value⟩ := target
  · exact .pure
  · exact changeSetting_pursuing key name d value

/-- A layer that changes attributes makes a step for each of its intents. -/
theorem configure_pursuing {layer : Layer}
    {requests : Except Fault (List (String × List Target))}
    (h : layer.requests? = some requests) : Pursuing layer.intents layer.configure := by
  rw [show layer.configure = changeAll layer.key requests from funext (configure_of_requests? h),
    intents_of_requests? h]
  cases requests with
  | error fault => exact .throw fault
  | ok rs =>
    rw [show changeAll layer.key (.ok rs) = _ from funext (changeAll_ok layer.key rs)]
    exact .forEach fun r _ => changeSettings_pursuing layer.key r.1 r.2

end Layer

/-! ## Steps that take back -/

/-- To try steps on attributes is to make them all, whatever becomes of each. -/
theorem Remedy.tryAll_steps {rs : List Remedy}
    (h : ∀ r ∈ rs, ∃ d name value, r = .write d name value) (b : Bench) :
    ∃ steps, (tryAll rs b).2 = b.after (Step.journal steps) ∧ Walk Step.Writes b steps ∧
      steps.map Step.remedy = rs := by
  induction rs generalizing b with
  | nil => exact ⟨[], rfl, .nil, rfl⟩
  | cons r rest ih =>
    obtain ⟨d, name, value, rfl⟩ := h r (by simp)
    have hset : (act (.write d name value) b).2 = b.after (d.setEvents name value b) :=
      d.set_bench b name value
    obtain ⟨steps, hb, hwalk, hsteps⟩ := ih (fun r hr => h r (by simp [hr]))
      (b.after (d.setEvents name value b))
    refine ⟨⟨d, name, value, d.setEvents name value b⟩ :: steps, ?_, .cons rfl hwalk, ?_⟩
    · rw [tryAll_cons, hset, hb, Step.journal_cons, Bench.after_after]
    · rw [List.map_cons, hsteps]
      rfl

/-! ## Steps in order -/

namespace Step

/-- Steps on attributes of one kind are made before those on attributes of another kind, and there
are no others. -/
def InOrder (first later : String → Prop) (steps : List Step) : Prop :=
  ∃ firsts laters, steps = firsts ++ laters ∧ (∀ s ∈ firsts, first s.name) ∧
    ∀ s ∈ laters, later s.name

theorem InOrder.nil (first later : String → Prop) : InOrder first later [] :=
  ⟨[], [], rfl, by simp, by simp⟩

/-- Steps that were begun in an order are in that order. -/
theorem InOrder.of_names {first later : String → Prop} {steps : List Step}
    {firsts laters : List String} (h : steps.map name <+: firsts ++ laters)
    (hf : ∀ name ∈ firsts, first name) (hl : ∀ name ∈ laters, later name) :
    InOrder first later steps := by
  obtain ⟨rest, h⟩ := h
  rcases List.append_eq_append_iff.1 h with ⟨more, hfirsts, -⟩ | ⟨begun, hnames, hlaters⟩
  · -- No step of the second kind was begun.
    refine ⟨steps, [], (List.append_nil _).symm, fun s hs => hf _ ?_, by simp⟩
    rw [hfirsts]
    exact List.mem_append_left _ (List.mem_map_of_mem hs)
  · obtain ⟨older, newer, hsteps, hold, hnew⟩ := List.map_eq_append_iff.1 hnames
    refine ⟨older, newer, hsteps, fun s hs => hf _ ?_, fun s hs => hl _ ?_⟩
    · rw [← hold]
      exact List.mem_map_of_mem hs
    · rw [hlaters, ← hnew]
      exact List.mem_append_left _ (List.mem_map_of_mem hs)

end Step

end NicTuning
