import NicTuning.Proofs.Activity

/-!
# Deeds

A deed is a change with all that happened for it: what was asked and what was written. Main
statement: if the configuring of a layer succeeds, then nothing happened but deeds, one right after
the other, and before them, where interrupts are pinned, the counting of processors. The deeds are
what the layer intends and the ledger has taken note of each.
-/
namespace NicTuning

/-- A change and all that happened for it, the newest first as in a journal. -/
structure Deed where
  change : Change
  events : List Event

/-- From one bench to another nothing happened but some deeds, one after the other. -/
inductive Unbroken : Bench → List Deed → Bench → Prop
  | nil {b} : Unbroken b [] b
  | cons {b b' deed deeds} (takes : Takes b deed.change (b.after deed.events))
      (others : Unbroken (b.after deed.events) deeds b') : Unbroken b (deed :: deeds) b'

/-- Whatever happens while a change takes effect is in the journal. -/
theorem Takes.exists_events {b b' : Bench} {c : Change} (h : Takes b c b') :
    ∃ events, b' = b.after events := by
  obtain ⟨m, ⟨older, rfl, -⟩, h⟩ := h.split
  cases hc : c.event? with
  | none =>
    rw [hc] at h
    obtain ⟨newer, rfl, -⟩ := h
    exact ⟨newer ++ older, Bench.after_after _ _ _⟩
  | some e =>
    rw [hc] at h
    exact ⟨[e] ++ older, h.1.trans (Bench.after_after _ _ _)⟩

namespace Unbroken

variable {b b' b'' : Bench} {deeds deeds' : List Deed}

theorem single {c : Change} (h : Takes b c b') : ∃ events, Unbroken b [⟨c, events⟩] b' := by
  obtain ⟨events, rfl⟩ := h.exists_events
  exact ⟨events, .cons h .nil⟩

theorem append (h : Unbroken b deeds b') (h' : Unbroken b' deeds' b'') :
    Unbroken b (deeds ++ deeds') b'' := by
  induction h with
  | nil => exact h'
  | cons takes _ ih => exact .cons takes (ih h')

end Unbroken

/-! ## Actions that succeed -/

/-- From one state to another some deeds were done and noted, and they are what was intended. -/
structure Carries {σ : Type} (note : σ → Change → σ) (kind : Change → Prop)
    (intents : List Intent) (s s' : Bench × σ) (deeds : List Deed) : Prop where
  unbroken : Unbroken s.1 deeds s'.1
  noted : s'.2 = (deeds.map Deed.change).foldl note s.2
  intended : (deeds.map Deed.change).filterMap Change.intent? = intents
  kinds : ∀ deed ∈ deeds, kind deed.change

/-- If the action succeeds, it has carried out what was intended and has done nothing else. -/
def Proceeds {σ : Type} (note : σ → Change → σ) (kind : Change → Prop) (intents : List Intent)
    (act : NotingM σ Unit) : Prop :=
  ∀ s s', act s = (.ok (), s') → ∃ deeds, Carries note kind intents s s' deeds

namespace Proceeds

variable {σ α : Type} {note : σ → Change → σ} {kind kind' : Change → Prop}
  {intents intents' : List Intent}

theorem done : Proceeds note kind [] (pure ()) := by
  rintro s s' h
  cases h
  exact ⟨[], .nil, rfl, rfl, by simp⟩

theorem mono {act : NotingM σ Unit} (h : Proceeds note kind intents act)
    (hk : ∀ c, kind c → kind' c) : Proceeds note kind' intents act := by
  intro s s' hok
  obtain ⟨deeds, hdeeds⟩ := h s s' hok
  exact ⟨deeds, { hdeeds with kinds := fun deed hm => hk _ (hdeeds.kinds deed hm) }⟩

theorem bind {act next : NotingM σ Unit} (h : Proceeds note kind intents act)
    (hn : Proceeds note kind intents' next) :
    Proceeds note kind (intents ++ intents') (act >>= fun _ => next) := by
  intro s s'' hok
  rw [ActionM.bind_apply] at hok
  rcases hact : act s with ⟨fault | ⟨⟩, s'⟩ <;> rw [hact] at hok
  · cases hok
  · obtain ⟨deeds, hdeeds⟩ := h s s' hact
    obtain ⟨deeds', hdeeds'⟩ := hn s' s'' hok
    refine ⟨deeds ++ deeds', hdeeds.unbroken.append hdeeds'.unbroken, ?_, ?_, ?_⟩
    · rw [List.map_append, List.foldl_append, ← hdeeds.noted]
      exact hdeeds'.noted
    · rw [List.map_append, List.filterMap_append, hdeeds.intended, hdeeds'.intended]
    · intro deed hm
      rcases List.mem_append.1 hm with hm | hm
      · exact hdeeds.kinds deed hm
      · exact hdeeds'.kinds deed hm

theorem forEach {act : α → NotingM σ Unit} {intents : α → List Intent} {xs : List α}
    (h : ∀ x ∈ xs, Proceeds note kind (intents x) (act x)) :
    Proceeds note kind (xs.flatMap intents) (NotingM.forEach act xs) := by
  induction xs with
  | nil => exact done
  | cons x rest ih =>
    rw [List.flatMap_cons]
    exact bind (h x (by simp)) (ih fun y hy => h y (by simp [hy]))

/-- A single change that was noted. -/
theorem of_takes {b b' : Bench} {c : Change} (h : Takes b c b') (hk : kind c) (s : σ) :
    ∃ deeds, Carries note kind c.intent?.toList (b, s) (b', note s c) deeds := by
  obtain ⟨events, hdeed⟩ := Unbroken.single h
  refine ⟨[⟨c, events⟩], hdeed, rfl, ?_, by simpa using hk⟩
  cases hi : c.intent? <;> simp [hi]

end Proceeds

theorem MakesOne.proceeds {σ : Type} {note : σ → Change → σ} {kind : Change → Prop}
    {intent : Intent} {act : NotingM σ Unit} (h : MakesOne note kind intent act) :
    Proceeds note kind [intent] act := by
  rintro ⟨b, s⟩ s' hok
  rcases h b s with ⟨fault, b', he, -⟩ | ⟨c, b', he, htakes, hkind, hintent⟩ <;> rw [he] at hok
  · cases hok
  · cases hok
    rw [← Option.toList_some, ← hintent]
    exact Proceeds.of_takes htakes hkind s

/-! ## Layers -/

namespace Layer

theorem changeSetting_proceeds {key name : String} (hk : settingKey name = key) (d : Device)
    (value : Setting) :
    Proceeds Ledger.note (·.key = key) [.setting name d value]
      (changeSetting key name d value) := by
  rintro ⟨b, l⟩ ⟨b', l'⟩ hok
  rcases changeSetting_cases key name d value b l with
    ⟨fault, m, he, -⟩ | ⟨previous, m, htakes, he⟩
  · rw [he] at hok
    cases hok
  · rw [he] at hok
    by_cases hl : l.TakesSettings key
    · rw [NotingM.amend_ok m (Ledger.push_eq_note hl hk _)] at hok
      cases hok
      exact Proceeds.of_takes htakes hk l
    · rw [NotingM.amend_error m (Ledger.push_of_not_takesSettings hl name _)] at hok
      cases hok

theorem changeSettings_proceeds {key name : String} (hk : settingKey name = key)
    (targets : List Target) :
    Proceeds Ledger.note (·.key = key) (settingIntents name targets)
      (changeSettings key name targets) := by
  unfold settingIntents
  rw [List.filterMap_eq_flatMap_toList]
  refine .forEach fun target _ => ?_
  obtain ⟨d, - | value⟩ := target
  · exact .done
  · exact changeSetting_proceeds hk d value

theorem collect_proceeds {σ : Type} {n : Notebook σ} {act : NotingM σ Unit}
    {intents : List Intent} (h : Proceeds n.note n.kind intents act) :
    Proceeds Ledger.note n.kind intents (n.collect act) := by
  rintro ⟨b, l⟩ ⟨b', l'⟩ hok
  rw [n.collect_apply] at hok
  rcases hact : act (b, n.start) with ⟨fault | ⟨⟩, m, s⟩ <;> rw [hact] at hok <;>
    dsimp only at hok
  · split at hok
    · cases hok
    · split at hok <;> cases hok
  · obtain ⟨deeds, hunbroken, hnoted, hintended, hkinds⟩ := h _ _ hact
    obtain rfl : s = (deeds.map Deed.change).foldl n.note n.start := hnoted
    have hkinds' : ∀ c ∈ deeds.map Deed.change, n.kind c := by simpa using hkinds
    have hempty := Notebook.isEmpty_foldl hkinds'
    refine ⟨deeds, ?_⟩
    -- Notes that come to nothing are those of no deeds at all.
    split at hok
    · rename_i hnothing
      cases hok
      rw [hempty, List.isEmpty_iff] at hnothing
      exact ⟨hunbroken, by rw [hnothing]; rfl, hintended, hkinds⟩
    · rename_i hsomething
      rw [hempty, List.isEmpty_iff] at hsomething
      by_cases hl : l.contains n.key = true
      · unfold Ledger.add at hok
        rw [hl] at hok
        cases hok
      · rw [Notebook.add_eq_foldl hkinds' hsomething (by simpa using hl)] at hok
        cases hok
        exact ⟨hunbroken, rfl, hintended, hkinds⟩

theorem Queues.configure_proceeds (devices : List Device)
    (counts : Option (List (Dict UInt32))) :
    Proceeds Ledger.note (·.key = key) (intents devices counts) (configure devices counts) := by
  refine .mono (collect_proceeds (n := notebook) ?_) notebook.key_of_kind
  unfold intents
  rw [List.map_eq_flatMap]
  exact .forEach fun target _ => (change_makesOne target).proceeds

theorem Qdisc.configure_proceeds (devices : List Device) (streams : Option UInt32) :
    Proceeds Ledger.note (·.key = key) (intents devices streams) (configure devices streams) := by
  unfold configure intents
  split
  · refine .mono (collect_proceeds (n := notebook) ?_) notebook.key_of_kind
    rw [List.map_eq_flatMap]
    exact .forEach fun d _ => (change_makesOne d).proceeds
  · exact .done

namespace Interrupts

theorem stopBalancer_proceeds (h : Host) :
    Proceeds InterruptChanges.note notebook.kind [] (stopBalancer h) := by
  rintro ⟨b, s⟩ ⟨b', s'⟩ hok
  rw [stopBalancer_apply] at hok
  split at hok
  · exact Proceeds.done _ _ hok
  · rcases hwrite : h.command "service irqbalance stop" b with ⟨fault | ⟨⟩, m⟩ <;>
      rw [hwrite] at hok
    · cases hok
    · cases hok
      exact Proceeds.of_takes (.stop hwrite) (.inl ⟨h, rfl⟩) s

theorem pin_proceeds (p : Pinning) :
    Proceeds InterruptChanges.note notebook.kind [pinIntent p] (pin p) := by
  rw [pin_eq, ← List.nil_append [pinIntent p]]
  refine .bind (stopBalancer_proceeds _) ?_
  exact (assignInterrupts_makesOne p).proceeds.mono fun _ => .inr

theorem pins_proceeds (pinnings : List Pinning) :
    Proceeds InterruptChanges.note notebook.kind (pinnings.map pinIntent)
      (NotingM.forEach pin pinnings) := by
  rw [List.map_eq_flatMap]
  exact .forEach fun p _ => pin_proceeds p

end Interrupts

/-- A layer that succeeds has done what it intends, deed by deed, and before that at most counted
processors. -/
theorem configure_proceeds (layer : Layer) {s s' : Bench × Ledger}
    (h : layer.configure s = (.ok (), s')) : ∃ counts deeds,
    (∀ e ∈ counts, ∃ address, e = .ran address "lscpu") ∧
    Carries Ledger.note (·.key = layer.key) layer.intents (s.1.after counts, s.2) s' deeds := by
  have hproceeds (hp : Proceeds Ledger.note (·.key = layer.key) layer.intents layer.configure) :
      ∃ counts deeds, (∀ e ∈ counts, ∃ address, e = .ran address "lscpu") ∧
        Carries Ledger.note (·.key = layer.key) layer.intents (s.1.after counts, s.2) s' deeds := by
    obtain ⟨deeds, hdeeds⟩ := hp s s' h
    exact ⟨[], deeds, by simp, hdeeds⟩
  cases hq : layer.requests? with
  | some requests =>
    apply hproceeds
    rw [show layer.configure = changeAll layer.key requests from
      funext (configure_of_requests? hq), intents_of_requests? hq]
    cases requests with
    | error fault =>
      intro s s' hok
      cases hok
    | ok rs =>
      rw [show changeAll layer.key (.ok rs) = _ from funext (changeAll_ok layer.key rs)]
      refine .forEach fun r hr => changeSettings_proceeds ?_ r.2
      exact (settingKey_of_requests? hq r hr).1
  | none =>
    cases layer with
    | interrupts devices i =>
      obtain ⟨b, l⟩ := s
      change Interrupts.configure devices i (b, l) = _ at h
      rw [Interrupts.configure_apply] at h
      have hchecks : Emits id (fun e => ∃ address, e = .ran address "lscpu")
          ((Interrupts.targets devices i).mapM Interrupts.check) :=
        Emits.mapM fun t _ => Interrupts.check_emits ⟨_, rfl⟩
      obtain ⟨counts, hbench, hcounts⟩ := hchecks b
      rcases hm : (Interrupts.targets devices i).mapM Interrupts.check b with
        ⟨fault | pinnings, m⟩ <;> rw [hm] at h hbench
      · cases h
      · obtain rfl : m = b.after counts := hbench
        have hpins := collect_proceeds (n := Interrupts.notebook)
          (Interrupts.pins_proceeds pinnings)
        rw [Interrupts.pinIntents_of_checks hm] at hpins
        obtain ⟨deeds, hdeeds⟩ := hpins.mono Interrupts.notebook.key_of_kind _ _ h
        exact ⟨counts, deeds, hcounts, hdeeds⟩
    | qdisc devices streams => exact hproceeds (Qdisc.configure_proceeds devices streams)
    | queues devices counts => exact hproceeds (Queues.configure_proceeds devices counts)
    | inert key => exact hproceeds .done
    | _ => cases hq

end Layer

end NicTuning
