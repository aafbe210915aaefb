import NicTuning.Proofs.Layers

/-!
# Accounts

Main statement: however the configuring of a stack ends, the ledger holds exactly the changes that
took effect, each with what was read before it and under the key of the layer that made it, and no
layer after the first fault does anything.
-/
namespace NicTuning

/-! ## The changes of an entry -/

namespace Entry

/-- The changes that an entry holds. -/
def changes : Entry → List Change
  | settings changes => changes.entries.flatMap fun e => e.2.map (.setting e.1)
  | queues changes => changes.map .queues
  | interrupts changes => changes.stopped.map .stop ++ changes.pinned.map .pin
  | qdiscs changes => changes.map .qdisc

/-- The entry is of the kind that stands under a key. -/
def Fits (key : String) : Entry → Prop
  | settings _ => key ∉ [Layer.Queues.key, Layer.Qdisc.key, Layer.Interrupts.key]
  | queues _ => key = Layer.Queues.key
  | interrupts _ => key = Layer.Interrupts.key
  | qdiscs _ => key = Layer.Qdisc.key

end Entry

/-- Entering one more value for a key keeps all others. -/
theorem perm_insertEntries {α : Type} (name : String) (x : α) (l : List (String × List α)) :
    ((Register.insertEntries name ((l.lookup name).getD [] ++ [x]) l).flatMap
        fun e => e.2.map (Prod.mk e.1)).Perm
      ((l.flatMap fun e => e.2.map (Prod.mk e.1)) ++ [(name, x)]) := by
  induction l with
  | nil => simp [Register.insertEntries]
  | cons e rest ih =>
    obtain ⟨k, xs⟩ := e
    by_cases h : name = k
    · subst h
      simp only [Register.insertEntries, if_true, List.lookup_cons_self, Option.getD_some,
        List.flatMap_cons, List.map_append, List.map_cons, List.map_nil, List.append_assoc]
      exact List.perm_append_comm.append_left _
    · have hl : ((k, xs) :: rest).lookup name = rest.lookup name := by
        rw [Pairs.lookup_cons_eq_ite, if_neg h]
      rw [hl, Register.insertEntries, if_neg h, List.flatMap_cons, List.flatMap_cons,
        List.append_assoc]
      exact ih.append_left _

namespace Change

theorem settingKey_not_mem (name : String) :
    settingKey name ∉ [Layer.Queues.key, Layer.Qdisc.key, Layer.Interrupts.key] := by
  unfold settingKey
  repeat' split
  all_goals decide

theorem settingKey_ne {name key : String}
    (h : key ∈ [Layer.Queues.key, Layer.Qdisc.key, Layer.Interrupts.key]) :
    settingKey name ≠ key :=
  fun e => settingKey_not_mem name (e ▸ h)

theorem enter_fits (c : Change) (former? : Option Entry) : (c.enter former?).Fits c.key := by
  cases c with
  | setting name change => exact settingKey_not_mem name
  | _ => rfl

theorem changes_enter_none (c : Change) : (c.enter none).changes = [c] := by
  cases c <;> rfl

/-- A change and an entry that is of the kind for it. -/
inductive Suits : Change → Entry → Prop
  | setting {name change changes} : Suits (.setting name change) (.settings changes)
  | queues {change changes} : Suits (.queues change) (.queues changes)
  | qdisc {change changes} : Suits (.qdisc change) (.qdiscs changes)
  | stop {host changes} : Suits (.stop host) (.interrupts changes)
  | pin {device changes} : Suits (.pin device) (.interrupts changes)

/-- Whatever stands under the key of a change is of the kind for it. -/
theorem suits_of_fits {c : Change} {entry : Entry} (h : entry.Fits c.key) : c.Suits entry := by
  cases entry with
  | settings changes =>
    cases c with
    | setting name change => exact .setting
    | _ => exact absurd h (by simp [Entry.Fits, key])
  | queues changes =>
    cases c with
    | queues change => exact .queues
    | setting name change => exact absurd h (settingKey_ne (by simp))
    | qdisc change => exact absurd (show Layer.Qdisc.key = Layer.Queues.key from h) (by decide)
    | stop _ | pin _ =>
      exact absurd (show Layer.Interrupts.key = Layer.Queues.key from h) (by decide)
  | qdiscs changes =>
    cases c with
    | qdisc change => exact .qdisc
    | setting name change => exact absurd h (settingKey_ne (by simp))
    | queues change => exact absurd (show Layer.Queues.key = Layer.Qdisc.key from h) (by decide)
    | stop _ | pin _ =>
      exact absurd (show Layer.Interrupts.key = Layer.Qdisc.key from h) (by decide)
  | interrupts changes =>
    cases c with
    | stop host => exact .stop
    | pin device => exact .pin
    | setting name change => exact absurd h (settingKey_ne (by simp))
    | queues change =>
      exact absurd (show Layer.Queues.key = Layer.Interrupts.key from h) (by decide)
    | qdisc change =>
      exact absurd (show Layer.Qdisc.key = Layer.Interrupts.key from h) (by decide)

/-- A change under the key of an entry is added to the changes that the entry holds. -/
theorem changes_enter_some {c : Change} {entry : Entry} (h : entry.Fits c.key) :
    (c.enter (some entry)).changes.Perm (entry.changes ++ [c]) := by
  cases suits_of_fits h with
  | @setting name change changes =>
    have hp := (perm_insertEntries name change changes.entries).map
      fun e => Change.setting e.1 e.2
    simpa [enter, Entry.changes, Entry.settings?, SettingChanges.push, Register.insert,
      Register.get?, List.map_flatMap, Function.comp_def] using hp
  | queues => simp [enter, Entry.changes, Entry.queues?]
  | qdisc => simp [enter, Entry.changes, Entry.qdiscs?]
  | @stop host changes =>
    have hp : (changes.stopped.map stop ++ ([stop host] ++ changes.pinned.map pin)).Perm
        (changes.stopped.map stop ++ (changes.pinned.map pin ++ [stop host])) :=
      List.perm_append_comm.append_left _
    simpa [enter, Entry.changes, Entry.interrupts?, InterruptChanges.note] using hp
  | pin => simp [enter, Entry.changes, Entry.interrupts?, InterruptChanges.note]

theorem changes_enterAll_some {key : String} (cs : List Change) (hk : ∀ c ∈ cs, c.key = key)
    (entry : Entry) (hf : entry.Fits key) :
    ∃ entry', enterAll (some entry) cs = some entry' ∧
      entry'.changes.Perm (entry.changes ++ cs) := by
  induction cs generalizing entry with
  | nil => exact ⟨entry, rfl, by simp⟩
  | cons c cs ih =>
    have hc := hk c (by simp)
    obtain ⟨entry', he, hp⟩ := ih (fun c hm => hk c (by simp [hm])) (c.enter (some entry))
      (hc ▸ enter_fits c _)
    refine ⟨entry', he, hp.trans ?_⟩
    have := (changes_enter_some (hc ▸ hf)).append_right cs
    rwa [List.append_assoc] at this

/-- The entry of a layer holds the changes that went to it and no others. -/
theorem changes_enterAll {cs : List Change} {key : String} (hk : ∀ c ∈ cs, c.key = key) :
    ((enterAll none cs).elim [] Entry.changes).Perm cs := by
  cases cs with
  | nil => exact .nil
  | cons c cs =>
    have hc := hk c (by simp)
    obtain ⟨entry', he, hp⟩ := changes_enterAll_some cs (fun c hm => hk c (by simp [hm]))
      (c.enter none) (hc ▸ enter_fits c _)
    have hs : enterAll none (c :: cs) = some entry' := he
    rw [hs]
    rw [changes_enter_none] at hp
    exact hp

end Change

/-! ## Turns -/

/-- The turns of the layers of a stack, up to the first fault: what each of them changed, with the
layer that changed it. -/
inductive Turns : Stack → Bench × Ledger → List (Layer × Change) → Except Fault Unit →
    Bench × Ledger → Prop
  | done {s} : Turns [] s [] (.ok ()) s
  | next {layer rest b l b' l' cs took result s}
      (turn : Stack.configureLayer layer (b, l) = (.ok (), b', l'))
      (course : Course b cs b') (others : Turns rest (b', l') took result s) :
      Turns (layer :: rest) (b, l) (cs.map (layer, ·) ++ took) result s
  | stop {layer rest b l b' l' cs fault}
      (turn : Stack.configureLayer layer (b, l) = (.error fault, b', l'))
      (course : Course b cs b') :
      Turns (layer :: rest) (b, l) (cs.map (layer, ·)) (.error fault) (b', l')

/-- The changes of the layers with a key. -/
def changesUnder (key : String) (took : List (Layer × Change)) : List Change :=
  (took.filter (·.1.key = key)).map Prod.snd

theorem changesUnder_eq {took : List (Layer × Change)} (h : ∀ t ∈ took, t.1.Owns t.2)
    (key : String) : changesUnder key took = (took.map Prod.snd).filter (·.key = key) := by
  unfold changesUnder
  rw [List.filter_map]
  congr 1
  refine List.filter_congr fun t ht => ?_
  simp only [Function.comp_apply, (h t ht).key_eq]

theorem plain_of_owns {took : List (Layer × Change)} (h : ∀ t ∈ took, t.1.Owns t.2) :
    ∀ c ∈ took.map Prod.snd, c.IsPlain := by
  intro c hc
  obtain ⟨t, ht, rfl⟩ := List.mem_map.1 hc
  exact (h t ht).plain

/-- The changes that a ledger holds under a key. -/
def Ledger.changes (l : Ledger) (key : String) : List Change := (l.get? key).elim [] Entry.changes

/-- An empty ledger that takes note of some changes holds under each key those that go there. -/
theorem Ledger.perm_changes_foldl_note (cs : List Change) (key : String) :
    (Ledger.changes (cs.foldl note .empty) key).Perm (cs.filter (·.key = key)) := by
  unfold changes
  rw [get?_foldl_note]
  exact Change.changes_enterAll fun c hc => by simpa using (List.mem_filter.1 hc).2

/-- Only layers of the stack have a turn. -/
theorem Turns.mem {s : Stack} {start end' : Bench × Ledger} {took : List (Layer × Change)}
    {result : Except Fault Unit} (h : Turns s start took result end') : ∀ t ∈ took, t.1 ∈ s := by
  induction h with
  | done => simp
  | next turn course others ih =>
    intro t ht
    rcases List.mem_append.mp ht with ht | ht
    · obtain ⟨c, -, rfl⟩ := List.mem_map.1 ht
      exact List.mem_cons_self
    · exact List.mem_cons_of_mem _ (ih t ht)
  | stop turn course =>
    intro t ht
    obtain ⟨c, -, rfl⟩ := List.mem_map.1 ht
    exact List.mem_cons_self

namespace Stack

theorem configureLayer_apply (layer : Layer) (b : Bench) (l : Ledger) :
    configureLayer layer (b, l) =
      if l.contains layer.key then (.error (.alreadyConfigured layer.key), b, l)
      else layer.configure (b, l) := by
  unfold configureLayer
  rw [ActionM.bind_apply]
  have hn : (NotingM.notes : SessionM Ledger) (b, l) = (.ok l, b, l) := rfl
  rw [hn]
  dsimp only
  split <;> rfl

/-- A layer changes what it intends in its turn and records it, and it changes nothing if it has an
entry. -/
theorem configureLayer_performs (layer : Layer) :
    Performs Ledger.note (fun _ => True) layer.Owns layer.intents (configureLayer layer) := by
  intro b l _
  rw [configureLayer_apply]
  split
  · exact ⟨[], .refl b, rfl, by simp, .stopped _ _⟩
  · rename_i hl
    exact layer.configure_performs b l (by simpa using hl)

theorem configure_cons (layer : Layer) (rest : Stack) (s : Bench × Ledger) :
    configure (layer :: rest) s =
      match configureLayer layer s with
      | (.ok (), s) => configure rest s
      | (.error fault, s) => (.error fault, s) := by
  change (configureLayer layer >>= fun _ => configure rest) s = _
  rw [ActionM.bind_apply]
  rcases configureLayer layer s with ⟨fault | ⟨⟩, s'⟩ <;> rfl

/-- What the layers of a stack intend to change, in order. -/
def intents (s : Stack) : List Intent := s.flatMap Layer.intents

/-- The changes of a stack are those of its turns. They are what its layers intended, up to the
first fault, and all of them are recorded. -/
theorem configure_follows (s : Stack) (b : Bench) (l : Ledger) :
    ∃ took, Turns s (b, l) took (s.configure (b, l)).1 (s.configure (b, l)).2 ∧
      Course b (took.map Prod.snd) (s.configure (b, l)).2.1 ∧
      (s.configure (b, l)).2.2 = (took.map Prod.snd).foldl Ledger.note l ∧
      (∀ t ∈ took, t.1.Owns t.2) ∧
      Follows (took.map Prod.snd) s.intents (s.configure (b, l)).1 := by
  induction s generalizing b l with
  | nil => exact ⟨[], .done, .refl b, rfl, by simp, .nothing _⟩
  | cons layer rest ih =>
    obtain ⟨cs, hc, hl, hk, hf⟩ := configureLayer_performs layer b l trivial
    have hsnd : (cs.map (layer, ·)).map Prod.snd = cs := by simp [Function.comp_def]
    have hown : ∀ t ∈ cs.map (layer, ·), t.1.Owns t.2 := by
      intro t ht
      obtain ⟨c, hm, rfl⟩ := List.mem_map.1 ht
      exact hk c hm
    have hintents : intents (layer :: rest) = layer.intents ++ intents rest := List.flatMap_cons
    rw [configure_cons, hintents]
    rcases hr : configureLayer layer (b, l) with ⟨fault | ⟨⟩, b', l'⟩ <;> rw [hr] at hc hl hf
    · exact ⟨cs.map (layer, ·), .stop hr hc, hsnd.symm ▸ hc, hsnd.symm ▸ hl, hown,
        hsnd.symm ▸ hf.cut _⟩
    · obtain ⟨took, ht, hc', hl', hk', hf'⟩ := ih b' l'
      refine ⟨cs.map (layer, ·) ++ took, .next hr hc ht, ?_, ?_, fun t hm => ?_, ?_⟩
      · rw [List.map_append, hsnd]
        exact hc.append hc'
      · rw [List.map_append, hsnd, List.foldl_append]
        obtain rfl : l' = cs.foldl Ledger.note l := hl
        exact hl'
      · rcases List.mem_append.mp hm with hm | hm
        · exact hown t hm
        · exact hk' t hm
      · rw [List.map_append, hsnd]
        exact hf.append hf'

theorem configure_turns (s : Stack) (b : Bench) (l : Ledger) :
    ∃ took, Turns s (b, l) took (s.configure (b, l)).1 (s.configure (b, l)).2 ∧
      Course b (took.map Prod.snd) (s.configure (b, l)).2.1 ∧
      (s.configure (b, l)).2.2 = (took.map Prod.snd).foldl Ledger.note l ∧
      ∀ t ∈ took, t.1.Owns t.2 := by
  obtain ⟨took, ht, hc, hl, hk, -⟩ := configure_follows s b l
  exact ⟨took, ht, hc, hl, hk⟩

/-- However the configuring of a stack ends, its layers had their turns up to the first fault, and
the entry under a key holds, in their order, the changes of the layers with this key, which are the
changes that took effect and no others. -/
theorem configure_accounts_for_changes (s : Stack) (b : Bench) :
    ∃ took events,
      Turns s (b, .empty) took (s.configure (b, .empty)).1 (s.configure (b, .empty)).2 ∧
      (s.configure (b, .empty)).2.1 = b.after events ∧
      b.successes Event.isChange events = (took.filterMap fun t => t.2.event?).reverse ∧
      ∀ key,
        (s.configure (b, .empty)).2.2.get? key = Change.enterAll none (changesUnder key took) ∧
        ((s.configure (b, .empty)).2.2.changes key).Perm (changesUnder key took) := by
  obtain ⟨took, ht, hc, hl, hk⟩ := configure_turns s b .empty
  obtain ⟨events, hb, hs⟩ := hc.successes (plain_of_owns hk)
  refine ⟨took, events, ht, hb, ?_, fun key => ?_⟩
  · rw [hs, List.filterMap_map]
    rfl
  · have hentry : (s.configure (b, .empty)).2.2.get? key =
        Change.enterAll none (changesUnder key took) := by
      rw [hl, Ledger.get?_foldl_note, changesUnder_eq hk]
      rfl
    have hkey : ∀ c ∈ changesUnder key took, c.key = key := by
      rw [changesUnder_eq hk]
      intro c hm
      simpa using (List.mem_filter.1 hm).2
    refine ⟨hentry, ?_⟩
    unfold Ledger.changes
    rw [hentry]
    exact Change.changes_enterAll hkey

end Stack

end NicTuning
