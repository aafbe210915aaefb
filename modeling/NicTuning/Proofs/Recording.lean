import NicTuning.Proofs.Intents

/-!
# Recording

What a layer changes is in the ledger, on every way out of it. An action records if, whatever comes
of it, the bench went through some changes and the notes are those that were there and these
changes. It performs if these changes also are what was intended, up to where the action stopped.
The ledger after the configuring of a stack is what its changes leave in it one by one.
-/
namespace NicTuning

/-! ## Entering changes -/

namespace Entry

def settings? : Entry → Option SettingChanges
  | settings changes => some changes
  | _ => none

def queues? : Entry → Option (List QueueChange)
  | queues changes => some changes
  | _ => none

def interrupts? : Entry → Option InterruptChanges
  | interrupts changes => some changes
  | _ => none

def qdiscs? : Entry → Option (List QdiscChange)
  | qdiscs changes => some changes
  | _ => none

end Entry

namespace InterruptChanges

/-- One more balancer that was stopped or device that was pinned. -/
def note (c : InterruptChanges) : Change → InterruptChanges
  | .stop h => { c with stopped := c.stopped ++ [h] }
  | .pin d => { c with pinned := c.pinned ++ [d] }
  | _ => c

end InterruptChanges

namespace Change

/-- The entry of a layer after one more change. -/
def enter (former? : Option Entry) (c : Change) : Entry :=
  match c with
  | setting name change => .settings (((former?.bind Entry.settings?).getD .empty).push name change)
  | queues change => .queues ((former?.bind Entry.queues?).getD [] ++ [change])
  | qdisc change => .qdiscs ((former?.bind Entry.qdiscs?).getD [] ++ [change])
  | stop h => .interrupts (((former?.bind Entry.interrupts?).getD .none).note (stop h))
  | pin d => .interrupts (((former?.bind Entry.interrupts?).getD .none).note (pin d))

/-- The entry that changes leave, one after the other, if there are any. -/
def enterAll (former? : Option Entry) (cs : List Change) : Option Entry :=
  cs.foldl (fun former? c => some (c.enter former?)) former?

end Change

namespace Register

variable {α : Type}

theorem insertEntries_insertEntries (k : String) (v w : α) : ∀ l : List (String × α),
    insertEntries k w (insertEntries k v l) = insertEntries k w l
  | [] => by simp [insertEntries]
  | (a, b) :: rest => by
    by_cases h : k = a
    · simp [insertEntries, h]
    · simp [insertEntries, h, insertEntries_insertEntries k v w rest]

/-- Of two values for a key the later one stays. -/
theorem insert_insert (r : Register α) (k : String) (v w : α) :
    (r.insert k v).insert k w = r.insert k w :=
  Register.ext (insertEntries_insertEntries k v w r.entries)

theorem contains_insert (r : Register α) (k k' : String) (v : α) :
    (r.insert k v).contains k' = (k' == k || r.contains k') := by
  unfold contains
  rw [get?_insert]
  by_cases h : k' = k <;> simp [h]

theorem get?_eq_none {r : Register α} {k : String} (h : r.contains k = false) :
    r.get? k = none := by
  simpa [contains] using h

end Register

namespace Ledger

/-- The ledger with one more change, under the key of the layer that makes such changes. -/
def note (l : Ledger) (c : Change) : Ledger := l.insert c.key (c.enter (l.get? c.key))

theorem get?_note (l : Ledger) (c : Change) (key : String) :
    (l.note c).get? key = if c.key = key then some (c.enter (l.get? key)) else l.get? key := by
  unfold note
  rw [Register.get?_insert]
  by_cases h : c.key = key
  · rw [if_pos h.symm, if_pos h, h]
  · rw [if_neg (Ne.symm h), if_neg h]

/-- The entry of a layer holds the changes under its key in their order. -/
theorem get?_foldl_note (cs : List Change) (l : Ledger) (key : String) :
    (cs.foldl note l).get? key = Change.enterAll (l.get? key) (cs.filter (·.key = key)) := by
  induction cs generalizing l with
  | nil => rfl
  | cons c cs ih =>
    rw [List.foldl_cons, ih, get?_note]
    by_cases h : c.key = key
    · rw [if_pos h, List.filter_cons_of_pos (by simpa using h)]
      rfl
    · rw [if_neg h, List.filter_cons_of_neg (by simpa using h)]

theorem contains_foldl_note (cs : List Change) (l : Ledger) (key : String) :
    (cs.foldl note l).contains key = (l.contains key || cs.any (·.key = key)) := by
  induction cs generalizing l with
  | nil => simp
  | cons c cs ih =>
    rw [List.foldl_cons, ih, List.any_cons]
    have hd : (key == c.key) = decide (c.key = key) := by
      rw [beq_eq_decide, decide_eq_decide]
      exact eq_comm
    unfold note
    rw [Register.contains_insert, hd, ← Bool.or_assoc, Bool.or_comm (decide _)]

/-- The entry of a layer, if it has one, is one of changed attributes. -/
def TakesSettings (l : Ledger) (key : String) : Prop :=
  ∀ entry, l.get? key = some entry → ∃ changes, entry = .settings changes

theorem takesSettings_of_contains {l : Ledger} {key : String} (h : l.contains key = false) :
    l.TakesSettings key := by
  intro entry he
  rw [Register.get?_eq_none h] at he
  cases he

theorem takesSettings_note {l : Ledger} {key : String} (h : l.TakesSettings key) (name : String)
    (change : SettingChange) : (l.note (.setting name change)).TakesSettings key := by
  intro entry he
  rw [get?_note] at he
  split at he
  · cases he
    exact ⟨_, rfl⟩
  · exact h entry he

/-- A changed attribute is entered wherever there is no entry of another kind. -/
theorem push_eq_note {l : Ledger} {key name : String} (h : l.TakesSettings key)
    (hk : settingKey name = key) (change : SettingChange) :
    l.push key name change = .ok (l.note (.setting name change)) := by
  subst hk
  unfold push settingsOrNone note
  cases he : l.get? (settingKey name) with
  | none =>
    simp only [Change.key, he]
    rfl
  | some entry =>
    obtain ⟨changes, rfl⟩ := h entry he
    simp only [Change.key, he]
    rfl

theorem push_of_not_takesSettings {l : Ledger} {key : String} (h : ¬l.TakesSettings key)
    (name : String) (change : SettingChange) :
    l.push key name change = .error (.alreadyConfigured key) := by
  unfold push settingsOrNone
  split
  · rename_i changes he
    refine absurd (fun entry h' => ?_) h
    exact ⟨changes, Option.some.inj (h'.symm.trans he)⟩
  · rename_i he
    refine absurd (fun entry h' => ?_) h
    rw [he] at h'
    cases h'
  · rfl

end Ledger

/-! ## Actions that record -/

/-- Whatever comes of the action, the bench went through changes of a kind, one after the other,
and each of them was noted. -/
def Records {σ : Type} (note : σ → Change → σ) (ready : σ → Prop) (kind : Change → Prop)
    (act : NotingM σ Unit) : Prop :=
  ∀ b s, ready s → ∃ cs, Course b cs (act (b, s)).2.1 ∧ (act (b, s)).2.2 = cs.foldl note s ∧
    ∀ c ∈ cs, kind c

/-- The action records, and its changes follow what was intended. -/
def Performs {σ : Type} (note : σ → Change → σ) (ready : σ → Prop) (kind : Change → Prop)
    (intents : List Intent) (act : NotingM σ Unit) : Prop :=
  ∀ b s, ready s → ∃ cs, Course b cs (act (b, s)).2.1 ∧ (act (b, s)).2.2 = cs.foldl note s ∧
    (∀ c ∈ cs, kind c) ∧ Follows cs intents (act (b, s)).1

namespace Performs

variable {σ α : Type} {note : σ → Change → σ} {ready : σ → Prop} {kind : Change → Prop}
  {intents intents' : List Intent}

theorem records {act : NotingM σ Unit} (h : Performs note ready kind intents act) :
    Records note ready kind act := by
  intro b s hs
  obtain ⟨cs, hc, hl, hk, -⟩ := h b s hs
  exact ⟨cs, hc, hl, hk⟩

theorem done : Performs note ready kind [] (pure ()) :=
  fun b _ _ => ⟨[], .refl b, rfl, by simp, .nothing _⟩

theorem mono {ready' : σ → Prop} {kind' : Change → Prop} {act : NotingM σ Unit}
    (h : Performs note ready kind intents act) (hr : ∀ s, ready' s → ready s)
    (hk : ∀ c, kind c → kind' c) : Performs note ready' kind' intents act := by
  intro b s hs
  obtain ⟨cs, hc, hl, hcs, hf⟩ := h b s (hr s hs)
  exact ⟨cs, hc, hl, fun c hm => hk c (hcs c hm), hf⟩

theorem ready_foldl (keeps : ∀ s c, ready s → kind c → ready (note s c)) {cs : List Change}
    {s : σ} (hs : ready s) (hc : ∀ c ∈ cs, kind c) : ready (cs.foldl note s) := by
  induction cs generalizing s with
  | nil => exact hs
  | cons c cs ih =>
    exact ih (keeps s c hs (hc c (by simp))) fun c' hm => hc c' (by simp [hm])

theorem bind (keeps : ∀ s c, ready s → kind c → ready (note s c)) {act next : NotingM σ Unit}
    (h : Performs note ready kind intents act) (hn : Performs note ready kind intents' next) :
    Performs note ready kind (intents ++ intents') (act >>= fun _ => next) := by
  intro b s hs
  obtain ⟨cs, hc, hl, hk, hf⟩ := h b s hs
  rw [ActionM.bind_apply]
  rcases hr : act (b, s) with ⟨fault | ⟨⟩, b', s'⟩ <;> rw [hr] at hc hl hf
  · exact ⟨cs, hc, hl, hk, hf.cut intents'⟩
  · obtain rfl : s' = cs.foldl note s := hl
    obtain ⟨cs', hc', hl', hk', hf'⟩ := hn b' _ (ready_foldl keeps hs hk)
    refine ⟨cs ++ cs', hc.append hc', ?_, fun c hm => ?_, hf.append hf'⟩
    · rw [List.foldl_append]
      exact hl'
    · rcases List.mem_append.mp hm with hm | hm
      · exact hk c hm
      · exact hk' c hm

theorem forEach (keeps : ∀ s c, ready s → kind c → ready (note s c)) {act : α → NotingM σ Unit}
    {intents : α → List Intent} {xs : List α}
    (h : ∀ x ∈ xs, Performs note ready kind (intents x) (act x)) :
    Performs note ready kind (xs.flatMap intents) (NotingM.forEach act xs) := by
  induction xs with
  | nil => exact done
  | cons x rest ih =>
    rw [List.flatMap_cons]
    exact bind keeps (h x (by simp)) (ih fun y hy => h y (by simp [hy]))

end Performs

/-- The action ends with a fault before anything was changed, or it makes a single change of a kind,
which carries out an intent, and notes it. -/
def MakesOne {σ : Type} (note : σ → Change → σ) (kind : Change → Prop) (intent : Intent)
    (act : NotingM σ Unit) : Prop :=
  ∀ b s, (∃ fault b', act (b, s) = (.error fault, b', s) ∧ Quiet b b') ∨
    ∃ c b', act (b, s) = (.ok (), b', note s c) ∧ Takes b c b' ∧ kind c ∧ c.intent? = some intent

theorem MakesOne.performs {σ : Type} {note : σ → Change → σ} {kind : Change → Prop}
    {intent : Intent} {act : NotingM σ Unit} (h : MakesOne note kind intent act) :
    Performs note (fun _ => True) kind [intent] act := by
  intro b s _
  rcases h b s with ⟨fault, b', he, hq⟩ | ⟨c, b', he, htakes, hkind, hintent⟩
  · rw [he]
    exact ⟨[], .done hq, rfl, by simp, .stopped fault _⟩
  · rw [he]
    exact ⟨[c], .single htakes, rfl, by simpa using hkind, .single hintent _⟩

/-! ## Changed attributes -/

namespace Layer

variable {key name : String} {d : Device} {value : Setting} {b : Bench} {l : Ledger}

/-- Reading and writing the attribute of a device, without any note. -/
def rewrite (name : String) (d : Device) (value : Setting) : BenchM Unit := do
  let _ ← d.get name
  d.set name value

/-- Either nothing changes, or the attribute is read and written and the change goes to the
ledger. -/
theorem changeSetting_cases (key name : String) (d : Device) (value : Setting) (b : Bench)
    (l : Ledger) :
    (∃ fault b', changeSetting key name d value (b, l) = (.error fault, b', l) ∧ Quiet b b' ∧
      rewrite name d value b = (.error fault, b')) ∨
    ∃ previous b', Takes b (.setting name ⟨d, previous, value⟩) b' ∧
      changeSetting key name d value (b, l) =
        NotingM.amend (·.push key name ⟨d, previous, value⟩) (b', l) := by
  have hq := Quiet.get d name b
  unfold changeSetting rewrite
  rw [NotingM.lift_bind_apply, ActionM.bind_apply]
  rcases hg : d.get name b with ⟨fault | previous, m⟩ <;> rw [hg] at hq
  · exact .inl ⟨fault, m, rfl, hq, rfl⟩
  · dsimp only
    rw [NotingM.lift_bind_apply]
    rcases hs : d.set name value m with ⟨fault | ⟨⟩, b'⟩
    · exact .inl ⟨fault, b', rfl, hq.trans (Quiet.set_of_error hs), rfl⟩
    · exact .inr ⟨previous, b', .setting hg hs, rfl⟩

/-- The changes of attributes of a layer. -/
def IsSettingOf (key : String) (c : Change) : Prop :=
  ∃ name change, c = .setting name change ∧ settingKey name = key ∧ c.IsPlain

theorem changeSetting_performs (hk : settingKey name = key)
    (hp : name = "mtu" → ∃ n, value = .number n) :
    Performs Ledger.note (·.TakesSettings key) (IsSettingOf key) [.setting name d value]
      (changeSetting key name d value) := by
  intro b l hl
  rcases changeSetting_cases key name d value b l with
    ⟨fault, b', he, hq, -⟩ | ⟨previous, b', ht, he⟩
  · rw [he]
    exact ⟨[], .done hq, rfl, by simp, .stopped fault _⟩
  · rw [he, NotingM.amend_ok b' (Ledger.push_eq_note hl hk _)]
    refine ⟨[_], .single ht, rfl, fun c hc => ?_, .single rfl _⟩
    rw [List.mem_singleton.1 hc]
    exact ⟨name, _, rfl, hk, hp⟩

theorem isSettingOf_keeps (l : Ledger) (c : Change) (hl : l.TakesSettings key)
    (hc : IsSettingOf key c) : (l.note c).TakesSettings key := by
  obtain ⟨name, change, rfl, -, -⟩ := hc
  exact Ledger.takesSettings_note hl name change

theorem changeSettings_performs {targets : List Target} (hk : settingKey name = key)
    (hp : name = "mtu" → ∀ target ∈ targets, ∀ value, target.2 = some value →
      ∃ n, value = .number n) :
    Performs Ledger.note (·.TakesSettings key) (IsSettingOf key) (settingIntents name targets)
      (changeSettings key name targets) := by
  unfold settingIntents
  rw [List.filterMap_eq_flatMap_toList]
  refine Performs.forEach isSettingOf_keeps fun target ht => ?_
  obtain ⟨d, - | value⟩ := target
  · exact .done
  · exact changeSetting_performs hk fun hm => hp hm _ ht value rfl

end Layer

/-! ## Changes that are entered together -/

/-- Notes of a layer that go to its entry once the layer is through, in whatever way. -/
structure Notebook (σ : Type) where
  key : String
  start : σ
  note : σ → Change → σ
  entry : σ → Entry
  isEmpty : σ → Bool
  kind : Change → Prop
  isEmpty_start : isEmpty start = true
  isEmpty_note : ∀ s c, kind c → isEmpty (note s c) = false
  enter_none : ∀ c, kind c → c.enter none = entry (note start c)
  enter_some : ∀ s c, kind c → c.enter (some (entry s)) = entry (note s c)
  key_of_kind : ∀ c, kind c → c.key = key
  plain_of_kind : ∀ c, kind c → c.IsPlain

namespace Notebook

variable {σ : Type} (n : Notebook σ)

/-- Carries out an action with notes of its own and enters these. -/
def collect (act : NotingM σ Unit) : SessionM Unit := do
  let (result, changes) ← NotingM.aside n.start act
  if n.isEmpty changes then pure () else NotingM.amend (·.add n.key (n.entry changes))
  result

theorem collect_apply (act : NotingM σ Unit) (b : Bench) (l : Ledger) :
    n.collect act (b, l) =
      if n.isEmpty (act (b, n.start)).2.2 then
        ((act (b, n.start)).1, (act (b, n.start)).2.1, l)
      else
        match l.add n.key (n.entry (act (b, n.start)).2.2) with
        | .ok l' => ((act (b, n.start)).1, (act (b, n.start)).2.1, l')
        | .error fault => (.error fault, (act (b, n.start)).2.1, l) := by
  unfold collect
  rw [ActionM.bind_apply]
  rcases ha : act (b, n.start) with ⟨r, b', s⟩
  have hd : (NotingM.aside n.start act : SessionM _) (b, l) = (.ok (r, s), b', l) := by
    unfold NotingM.aside
    dsimp only
    rw [ha]
  rw [hd]
  dsimp only
  by_cases he : n.isEmpty s = true
  · rw [if_pos he, if_pos he]
    rfl
  · rw [if_neg he, if_neg he, ActionM.bind_apply]
    cases hl : l.add n.key (n.entry s) with
    | ok l' =>
      rw [NotingM.amend_ok b' hl]
      rfl
    | error fault => rw [NotingM.amend_error b' hl]

theorem collect_bench (act : NotingM σ Unit) (b : Bench) (l : Ledger) :
    (n.collect act (b, l)).2.1 = (act (b, n.start)).2.1 := by
  rw [collect_apply]
  split
  · rfl
  · split <;> rfl

variable {n}

theorem isEmpty_foldl {cs : List Change} (hk : ∀ c ∈ cs, n.kind c) :
    n.isEmpty (cs.foldl n.note n.start) = cs.isEmpty := by
  rcases List.eq_nil_or_concat cs with rfl | ⟨before, c, rfl⟩
  · exact n.isEmpty_start
  · rw [List.concat_eq_append] at hk ⊢
    rw [List.foldl_append]
    simp [n.isEmpty_note _ c (hk c (by simp))]

theorem foldl_insert {cs : List Change} (hk : ∀ c ∈ cs, n.kind c) (l : Ledger) (s : σ) :
    cs.foldl Ledger.note (l.insert n.key (n.entry s)) =
      l.insert n.key (n.entry (cs.foldl n.note s)) := by
  induction cs generalizing s with
  | nil => rfl
  | cons c cs ih =>
    have hc := n.key_of_kind c (hk c (by simp))
    have he : Ledger.note (l.insert n.key (n.entry s)) c =
        l.insert n.key (n.entry (n.note s c)) := by
      unfold Ledger.note
      rw [hc, Register.get?_insert, if_pos rfl, n.enter_some s c (hk c (by simp)),
        Register.insert_insert]
    rw [List.foldl_cons, List.foldl_cons, he]
    exact ih (fun c hm => hk c (by simp [hm])) _

/-- Entering notes together is entering them one by one. -/
theorem add_eq_foldl {cs : List Change} (hk : ∀ c ∈ cs, n.kind c) (hn : cs ≠ []) {l : Ledger}
    (hl : l.contains n.key = false) :
    l.add n.key (n.entry (cs.foldl n.note n.start)) = .ok (cs.foldl Ledger.note l) := by
  cases cs with
  | nil => exact absurd rfl hn
  | cons c cs =>
    have hc := n.key_of_kind c (hk c (by simp))
    have he : Ledger.note l c = l.insert n.key (n.entry (n.note n.start c)) := by
      unfold Ledger.note
      rw [hc, Register.get?_eq_none hl, n.enter_none c (hk c (by simp))]
    rw [List.foldl_cons, List.foldl_cons, he,
      foldl_insert (fun c hm => hk c (by simp [hm]))]
    unfold Ledger.add
    rw [hl]
    rfl

theorem collect_performs {act : NotingM σ Unit} {intents : List Intent}
    (h : Performs n.note (fun _ => True) n.kind intents act) :
    Performs Ledger.note (fun l => l.contains n.key = false) n.kind intents (n.collect act) := by
  intro b l hl
  obtain ⟨cs, hc, hs, hk, hf⟩ := h b n.start trivial
  refine ⟨cs, ?_⟩
  rw [collect_apply, hs, isEmpty_foldl hk]
  cases cs with
  | nil => exact ⟨hc, rfl, hk, hf⟩
  | cons c cs =>
    rw [List.isEmpty_cons, if_neg Bool.false_ne_true, add_eq_foldl hk (by simp) hl]
    exact ⟨hc, rfl, hk, hf⟩

end Notebook

end NicTuning
