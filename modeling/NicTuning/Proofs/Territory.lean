import NicTuning.Proofs.Activity
import NicTuning.Proofs.Debts

/-!
# Territories

To every layer belong the attributes that are known by its key and its entry in the ledger, and to
the layer that pins interrupts the links of devices. Main statements: a layer leaves alone what does
not belong to it (`configure_frame`), and what comes of it depends only on what does
(`configure_congruent`), as long as hosts answer steadily.
-/
namespace NicTuning

/-! ## Benches -/

namespace Bench

/-- What a host answers does not depend on what has happened so far. -/
def Steady (b : Bench) : Prop := ∀ history history' address command,
  b.answer history address command = b.answer history' address command

theorem Steady.congr {b c : Bench} (h : b.Steady) (ha : c.answer = b.answer) : c.Steady := by
  intro history history' address command
  rw [ha]
  exact h history history' address command

/-- The benches differ at most in what does not belong to the layer with a key. -/
structure Alike (key : String) (b c : Bench) : Prop where
  steady : b.Steady
  answer : c.answer = b.answer
  readOnly : ∀ address, (c.memory address).readOnly = (b.memory address).readOnly
  values : ∀ address name, settingKey name = key →
    (c.memory address).values name = (b.memory address).values name
  up : key = Layer.Interrupts.key → ∀ address, (c.memory address).up = (b.memory address).up
  linkChanges : key = Layer.Interrupts.key → ∀ address,
    c.linkChanges address = b.linkChanges address

/-- What an event does to the link of the device at an address. -/
def linkChange? (address : String) : Event → Option Bool
  | .linked a up => if a = address then some up else none
  | _ => none

theorem linkChanges_after (b : Bench) (events : List Event) (address : String) :
    (b.after events).linkChanges address =
      b.linkChanges address ++ (events.filterMap (linkChange? address)).reverse := by
  have hl : ∀ b : Bench,
      b.linkChanges address = (b.journal.filterMap (linkChange? address)).reverse := by
    intro b
    unfold linkChanges
    congr 2
  rw [hl, hl, ← List.reverse_append, ← List.filterMap_append]
  rfl

theorem linkChanges_after_of_not_linked (b : Bench) {events : List Event}
    (h : ∀ address up, .linked address up ∉ events) (address : String) :
    (b.after events).linkChanges address = b.linkChanges address := by
  have hnone : events.filterMap (linkChange? address) = [] := by
    rw [List.filterMap_eq_nil_iff]
    intro e he
    cases e with
    | linked a up => exact absurd he (h a up)
    | _ => rfl
  rw [linkChanges_after, hnone, List.reverse_nil, List.append_nil]

namespace Alike

variable {key : String} {b c d : Bench}

theorem refl (hb : b.Steady) : b.Alike key b :=
  ⟨hb, rfl, fun _ => rfl, fun _ _ _ => rfl, fun _ _ => rfl, fun _ _ => rfl⟩

theorem symm (h : b.Alike key c) : c.Alike key b where
  steady := h.steady.congr h.answer
  answer := h.answer.symm
  readOnly address := (h.readOnly address).symm
  values address name hn := (h.values address name hn).symm
  up hk address := (h.up hk address).symm
  linkChanges hk address := (h.linkChanges hk address).symm

theorem trans (h : b.Alike key c) (h' : c.Alike key d) : b.Alike key d where
  steady := h.steady
  answer := h'.answer.trans h.answer
  readOnly address := (h'.readOnly address).trans (h.readOnly address)
  values address name hn := (h'.values address name hn).trans (h.values address name hn)
  up hk address := (h'.up hk address).trans (h.up hk address)
  linkChanges hk address := (h'.linkChanges hk address).trans (h.linkChanges hk address)

theorem reply_eq (h : b.Alike key c) (host : Host) (command : String) :
    c.reply host command = b.reply host command := by
  unfold Bench.reply
  rw [h.answer, h.steady c.journal b.journal]

end Alike

end Bench

namespace Event

/-- The event leaves alone what does not belong to the layer with a key. -/
def Within (key : String) : Event → Prop
  | wrote _ name _ _ => settingKey name = key
  | linked .. => key = Layer.Interrupts.key
  | _ => True

/-- What an event does to an attribute that is not written by it. -/
theorem apply_values {e : Event} {name : String}
    (h : ∀ address value, e ≠ .wrote address name value true) (devices : String → Memory)
    (address : String) :
    (e.apply devices address).values name = (devices address).values name := by
  cases e with
  | wrote a n value done =>
    cases done with
    | false => rfl
    | true =>
      have hn : name ≠ n := by
        rintro rfl
        exact h a value rfl
      by_cases ha : address = a
      · simp [apply, ha, hn]
      · simp [apply, ha]
  | linked a up =>
    by_cases ha : address = a
    · simp [apply, ha]
    · simp [apply, ha]
  | _ => rfl

end Event

namespace Bench

variable {key : String} {b c : Bench} {events : List Event}

/-- Events within one territory are none of the business of another. -/
theorem alike_after (hb : b.Steady) (he : ∀ e ∈ events, e.Within key) {key' : String}
    (hk : key' ≠ key) : b.Alike key' (b.after events) := by
  have hlinked : key' = Layer.Interrupts.key → ∀ address up, .linked address up ∉ events := by
    intro hi address up hm
    have hw : key = Layer.Interrupts.key := he _ hm
    exact hk (hi.trans hw.symm)
  refine ⟨hb, rfl, fun address => ?_, fun address name hn => ?_, fun hi address => ?_,
    fun hi => b.linkChanges_after_of_not_linked (hlinked hi)⟩
  · clear he hlinked
    induction events with
    | nil => rfl
    | cons e events ih => exact (Event.apply_readOnly e _ address).trans ih
  · clear hlinked
    induction events with
    | nil => rfl
    | cons e events ih =>
      refine (Event.apply_values ?_ _ address).trans (ih fun e hm => he e (by simp [hm]))
      rintro a value rfl
      have hw : settingKey name = key := he _ List.mem_cons_self
      exact hk (hn.symm.trans hw)
  · replace hlinked := hlinked hi
    clear he
    induction events with
    | nil => rfl
    | cons e events ih =>
      refine (Event.apply_up ?_ _ address).trans (ih fun a up hm => hlinked a up (by simp [hm]))
      rintro a up rfl
      exact hlinked a up List.mem_cons_self

/-- An event does the same to benches that are alike. -/
theorem Alike.note (h : b.Alike key c) (e : Event) : (b.after [e]).Alike key (c.after [e]) where
  steady := h.steady
  answer := h.answer
  readOnly address := by
    have hc : ((c.after [e]).memory address).readOnly = (c.memory address).readOnly :=
      e.apply_readOnly c.memory address
    have hb : ((b.after [e]).memory address).readOnly = (b.memory address).readOnly :=
      e.apply_readOnly b.memory address
    rw [hc, hb, h.readOnly]
  values address name hn := by
    change (e.apply c.memory address).values name = (e.apply b.memory address).values name
    cases e with
    | wrote a n value done =>
      cases done with
      | false => exact h.values address name hn
      | true =>
        by_cases ha : address = a
        · by_cases hname : name = n
          · simp [Event.apply, ha, hname]
          · simp [Event.apply, ha, hname, h.values a name hn]
        · simp [Event.apply, ha, h.values address name hn]
    | linked a up =>
      by_cases ha : address = a
      · simp [Event.apply, ha, h.values a name hn]
      · simp [Event.apply, ha, h.values address name hn]
    | _ => exact h.values address name hn
  up hk address := by
    change (e.apply c.memory address).up = (e.apply b.memory address).up
    cases e with
    | linked a up =>
      by_cases ha : address = a
      · simp [Event.apply, ha]
      · simp [Event.apply, ha, h.up hk address]
    | _ =>
      rw [Event.apply_up (by simp), Event.apply_up (by simp)]
      exact h.up hk address
  linkChanges hk address := by
    rw [linkChanges_after, linkChanges_after, h.linkChanges hk address]

theorem Alike.after (h : b.Alike key c) (events : List Event) :
    (b.after events).Alike key (c.after events) := by
  induction events with
  | nil => exact h
  | cons e events ih =>
    have hstep := ih.note e
    rw [Bench.after_after, Bench.after_after] at hstep
    exact hstep

end Bench

namespace Bench

/-- Benches that are related stay so whatever happens on both of them, and hosts give the same
answers there. -/
structure IsKinship (R : Bench → Bench → Prop) : Prop where
  after {b c : Bench} (h : R b c) (events : List Event) : R (b.after events) (c.after events)
  reply_eq {b c : Bench} (h : R b c) (host : Host) (command : String) :
    c.reply host command = b.reply host command

theorem alike_isKinship (key : String) : IsKinship (Alike key) where
  after := Alike.after
  reply_eq := Alike.reply_eq

end Bench

/-! ## Actions -/

/-- On states that are alike the action has the same result and leaves states that are alike. -/
def Congruent {S α : Type} (R : S → S → Prop) (act : ActionM S α) : Prop :=
  ∀ s t, R s t → (act t).1 = (act s).1 ∧ R (act s).2 (act t).2

/-- Benches that are alike, with notes that are. -/
structure Near {σ : Type} (key : String) (same : σ → σ → Prop) (s t : Bench × σ) : Prop where
  bench : s.1.Alike key t.1
  notes : same s.2 t.2

namespace Congruent

variable {S σ τ α β : Type} {R : S → S → Prop}

theorem of_except (r : Except Fault α) : Congruent R (liftM r : ActionM S α) :=
  fun _ _ h => ⟨rfl, h⟩

theorem pure (x : α) : Congruent R (Pure.pure x : ActionM S α) := fun _ _ h => ⟨rfl, h⟩

theorem throw (fault : Fault) : Congruent R (throw fault : ActionM S α) := fun _ _ h => ⟨rfl, h⟩

theorem bind {act : ActionM S α} {next : α → ActionM S β} (h : Congruent R act)
    (hn : ∀ x, Congruent R (next x)) : Congruent R (act >>= next) := by
  intro s t hst
  obtain ⟨hr, hst'⟩ := h s t hst
  rw [ActionM.bind_apply, ActionM.bind_apply]
  rcases hs : act s with ⟨fault | x, s'⟩ <;> rcases ht : act t with ⟨r, t'⟩ <;>
    rw [hs, ht] at hr hst' <;> obtain rfl : r = _ := hr
  · exact ⟨rfl, hst'⟩
  · exact hn x s' t' hst'

theorem mapM {act : α → ActionM S β} {xs : List α} (h : ∀ x ∈ xs, Congruent R (act x)) :
    Congruent R (xs.mapM act) := by
  induction xs with
  | nil => exact pure []
  | cons x rest ih =>
    rw [List.mapM_cons]
    exact (h x (by simp)).bind fun y => (ih fun z hz => h z (by simp [hz])).bind fun ys => pure _

theorem attempt {R : Bench → Bench → Prop} {act : BenchM α} (h : Congruent R act) :
    Congruent R (attempt act) := by
  intro b c hbc
  obtain ⟨hr, hbc'⟩ := h b c hbc
  exact ⟨congrArg Except.ok hr, hbc'⟩

/-- An action that causes the same events and gives the same result. -/
theorem of_events {R : Bench → Bench → Prop} (hR : Bench.IsKinship R) {act : BenchM α}
    (events : Bench → List Event) (he : ∀ b, (act b).2 = b.after (events b))
    (h : ∀ b c, R b c → (act c).1 = (act b).1 ∧ events c = events b) : Congruent R act := by
  intro b c hbc
  obtain ⟨hr, hevents⟩ := h b c hbc
  refine ⟨hr, ?_⟩
  rw [he b, he c, hevents]
  exact hR.after hbc _

/-! ### Actions that take notes -/

variable {key : String} {same : σ → σ → Prop}

theorem ofBench {act : BenchM α} (h : Congruent (Bench.Alike key) act) :
    Congruent (Near key same) (NotingM.ofBench act : NotingM σ α) := by
  rintro ⟨b, s⟩ ⟨c, t⟩ ⟨hbc, hst⟩
  obtain ⟨hr, hbc'⟩ := h b c hbc
  exact ⟨hr, hbc', hst⟩

theorem notes : Congruent (Near key Eq) (NotingM.notes : NotingM σ σ) := by
  rintro ⟨b, s⟩ ⟨c, t⟩ ⟨hbc, rfl⟩
  exact ⟨rfl, hbc, rfl⟩

theorem amend {f : σ → Except Fault σ} (h : ∀ s t, same s t →
    (∃ s' t', f s = .ok s' ∧ f t = .ok t' ∧ same s' t') ∨
      ∃ fault, f s = .error fault ∧ f t = .error fault) :
    Congruent (Near key same) (NotingM.amend f) := by
  rintro ⟨b, s⟩ ⟨c, t⟩ ⟨hbc, hst⟩
  rcases h s t hst with ⟨s', t', hs, ht, hst'⟩ | ⟨fault, hs, ht⟩
  · rw [NotingM.amend_ok b hs, NotingM.amend_ok c ht]
    exact ⟨rfl, hbc, hst'⟩
  · rw [NotingM.amend_error b hs, NotingM.amend_error c ht]
    exact ⟨rfl, hbc, hst⟩

theorem note (f : σ → σ) : Congruent (Near key Eq) (NotingM.note f) := by
  refine amend fun s t hst => .inl ⟨f s, f t, rfl, rfl, ?_⟩
  rw [hst]

theorem aside {start : τ} {act : NotingM τ Unit} (h : Congruent (Near key Eq) act) :
    Congruent (Near key same) (NotingM.aside start act : NotingM σ _) := by
  rintro ⟨b, s⟩ ⟨c, t⟩ ⟨hbc, hst⟩
  obtain ⟨hr, hbc', hnotes⟩ := h (b, start) (c, start) ⟨hbc, rfl⟩
  have hrun : ∀ b s, (NotingM.aside start act : NotingM σ _) (b, s) =
      (.ok ((act (b, start)).1, (act (b, start)).2.2), (act (b, start)).2.1, s) :=
    fun _ _ => rfl
  have hsame : (act (c, start)).2.2 = (act (b, start)).2.2 := hnotes.symm
  rw [hrun, hrun, hr, hsame]
  exact ⟨rfl, hbc', hst⟩

theorem forEach {act : α → NotingM σ Unit} {xs : List α}
    (h : ∀ x ∈ xs, Congruent (Near key same) (act x)) :
    Congruent (Near key same) (NotingM.forEach act xs) := by
  induction xs with
  | nil => exact pure ()
  | cons x rest ih => exact (h x (by simp)).bind fun _ => ih fun y hy => h y (by simp [hy])

end Congruent

/-! ## Hosts and devices -/

namespace Bench.IsKinship

variable {R : Bench → Bench → Prop} (hR : IsKinship R)

include hR

theorem query (h : Host) (command : String) : Congruent R (h.query command) := by
  refine .of_events hR _ (fun b => congrArg Prod.snd (h.query_apply command b)) fun b c hbc => ?_
  rw [h.query_apply, h.query_apply, hR.reply_eq hbc]
  exact ⟨rfl, rfl⟩

theorem command (h : Host) (command : String) : Congruent R (h.command command) := by
  refine .of_events hR _ (fun b => congrArg Prod.snd (h.command_apply command b))
    fun b c hbc => ?_
  rw [h.command_apply, h.command_apply, hR.reply_eq hbc]
  exact ⟨rfl, rfl⟩

theorem readAttribute (d : Device) (a : Attribute) : Congruent R (d.readAttribute a) := by
  cases a <;> exact (hR.query d.netns _).bind fun _ => .pure _

theorem get (d : Device) {name : String} (hv : ∀ b c, R b c → ∀ address,
      d.control = .memory address →
        (c.memory address).values name = (b.memory address).values name) :
    Congruent R (d.get name) := by
  unfold Device.get
  cases hc : d.control with
  | memory address =>
    refine .of_events hR (fun _ => [.read address name]) (fun b => rfl) fun b c hbc => ?_
    dsimp only
    rw [hv b c hbc address hc]
    exact ⟨rfl, rfl⟩
  | commands =>
    cases Attribute.ofName? name with
    | none => exact .throw _
    | some a =>
      refine (hR.readAttribute d a).bind fun value => ?_
      cases value with
      | none => exact .throw _
      | some value => exact .pure value

theorem set (d : Device) (name : String) (value : Setting) (hro : ∀ b c, R b c → ∀ address,
      d.control = .memory address → (c.memory address).readOnly = (b.memory address).readOnly) :
    Congruent R (d.set name value) := by
  refine .of_events hR _ (d.set_bench · name value) fun b c hbc => ?_
  unfold Device.set Device.setEvents
  cases hc : d.control with
  | memory address =>
    dsimp only
    rw [hro b c hbc address hc]
    refine ⟨?_, rfl⟩
    split <;> rfl
  | commands =>
    cases Attribute.ofName? name with
    | none => exact ⟨rfl, rfl⟩
    | some a =>
      dsimp only
      rw [Host.command_apply, Host.command_apply, hR.reply_eq hbc]
      exact ⟨rfl, rfl⟩

theorem setLink (d : Device) (up : Bool) : Congruent R (d.setLink up) := by
  unfold Device.setLink
  cases d.control with
  | memory address =>
    exact .of_events hR (fun _ => [.linked address up]) (fun b => rfl)
      fun b c hbc => ⟨rfl, rfl⟩
  | commands => exact hR.command d.netns _

theorem isUp (d : Device) (hup : ∀ b c, R b c → ∀ address,
      d.control = .memory address → (c.memory address).up = (b.memory address).up) :
    Congruent R d.isUp := by
  unfold Device.isUp
  cases hc : d.control with
  | memory address =>
    refine .of_events hR (fun _ => []) (fun b => rfl) fun b c hbc => ?_
    dsimp only
    rw [hup b c hbc address hc]
    exact ⟨rfl, rfl⟩
  | commands => exact (hR.query d.netns _).bind fun output => .of_except _

theorem interruptsOf (d : Device) (hup : ∀ b c, R b c → ∀ address,
      d.control = .memory address → (c.memory address).up = (b.memory address).up) :
    Congruent R (Layer.Interrupts.interruptsOf d) := by
  refine (hR.isUp d hup).bind fun isUp => ?_
  split
  · exact (hR.query d.netns _).bind fun _ => .pure _
  · refine (hR.setLink d true).bind fun _ => ?_
    refine (hR.query d.netns _).attempt.bind fun table => ?_
    refine (hR.setLink d false).attempt.bind fun taken => ?_
    exact .bind (.of_except table) fun _ => .bind (.of_except taken) fun _ => .pure _

end Bench.IsKinship

/-! ## Layers -/

variable {k name : String}

/-- The ledgers have the same entry under a key. -/
def Ledger.Alike (key : String) (l l' : Ledger) : Prop := l'.get? key = l.get? key

namespace Layer

theorem push_congruent (change : SettingChange) :
    Congruent (Near k (Ledger.Alike k)) (NotingM.amend (·.push k name change)) := by
  refine .amend fun l l' h => ?_
  have hs : l'.settingsOrNone k = l.settingsOrNone k := by
    unfold Ledger.settingsOrNone
    rw [show l'.get? k = l.get? k from h]
  unfold Ledger.push
  rw [hs]
  cases l.settingsOrNone k with
  | error fault => exact .inr ⟨fault, rfl, rfl⟩
  | ok changes =>
    refine .inl ⟨_, _, rfl, rfl, ?_⟩
    unfold Ledger.Alike
    rw [Register.get?_insert, Register.get?_insert, if_pos rfl, if_pos rfl]

theorem add_congruent (entry : Entry) :
    Congruent (Near k (Ledger.Alike k)) (NotingM.amend (·.add k entry)) := by
  refine .amend fun l l' h => ?_
  have hc : l'.contains k = l.contains k := congrArg Option.isSome h
  unfold Ledger.add
  rw [hc]
  cases l.contains k with
  | true => exact .inr ⟨_, rfl, rfl⟩
  | false =>
    refine .inl ⟨_, _, rfl, rfl, ?_⟩
    unfold Ledger.Alike
    rw [Register.get?_insert, Register.get?_insert, if_pos rfl, if_pos rfl]

theorem collect_congruent {σ : Type} (n : Notebook σ) {act : NotingM σ Unit}
    (h : Congruent (Near n.key Eq) act) :
    Congruent (Near n.key (Ledger.Alike n.key)) (n.collect act) := by
  refine (Congruent.aside h).bind fun x => ?_
  obtain ⟨result, changes⟩ := x
  dsimp only
  split
  · exact .of_except result
  · exact (add_congruent _).bind fun _ => .of_except result

theorem changeSettings_congruent (hn : settingKey name = k) (targets : List Target) :
    Congruent (Near k (Ledger.Alike k)) (changeSettings k name targets) := by
  refine .forEach fun target _ => ?_
  obtain ⟨d, - | value⟩ := target
  · exact .pure ()
  · have hk := Bench.alike_isKinship k
    have hget := hk.get d fun b c hbc address _ => hbc.values address name hn
    have hset := hk.set d name value fun b c hbc address _ => hbc.readOnly address
    exact .bind (.ofBench hget) fun _ => .bind (.ofBench hset) fun _ => push_congruent _

theorem Queues.configure_congruent (devices : List Device)
    (counts : Option (List (Dict UInt32))) :
    Congruent (Near key (Ledger.Alike key)) (configure devices counts) := by
  have hk := Bench.alike_isKinship key
  refine collect_congruent notebook (.forEach fun target _ => ?_)
  obtain ⟨d, counts⟩ := target
  refine .bind (.ofBench (hk.query d.netns _)) fun output => ?_
  refine .bind (.of_except _) fun channels => ?_
  exact .bind (.ofBench (hk.command d.netns _)) fun _ => .note _

theorem Qdisc.configure_congruent (devices : List Device) (streams : Option UInt32) :
    Congruent (Near key (Ledger.Alike key)) (configure devices streams) := by
  unfold configure
  split
  · have hk := Bench.alike_isKinship key
    refine collect_congruent notebook (.forEach fun d _ => ?_)
    refine .bind (.ofBench (hk.query d.netns _)) fun output => ?_
    exact .bind (.ofBench (hk.command d.netns _)) fun _ => .note _
  · exact .pure ()

namespace Interrupts

theorem check_congruent (t : Target) : Congruent (Bench.Alike k) (check t) := by
  refine ((Bench.alike_isKinship k).query t.device.netns _).bind fun output => ?_
  exact .bind (.of_except _) fun count => .bind (.of_except _) fun _ => .pure _

theorem stopBalancer_congruent (h : Host) : Congruent (Near k Eq) (stopBalancer h) := by
  refine Congruent.notes.bind fun s => ?_
  split
  · exact .pure ()
  · exact .bind (.ofBench ((Bench.alike_isKinship k).command h _)) fun _ => .note _

theorem pin_congruent (p : Pinning) : Congruent (Near key Eq) (pin p) := by
  have hk := Bench.alike_isKinship key
  have htable := hk.interruptsOf p.device fun b c hbc address _ => hbc.up rfl address
  refine (stopBalancer_congruent p.device.host).bind fun _ => ?_
  refine .bind (.ofBench htable) fun interrupts => ?_
  refine .bind (.forEach fun a _ => ?_) fun _ => .note _
  exact .ofBench (hk.command p.device.netns _)

theorem configure_congruent (devices : List Device) (i : Tuning.Interrupts) :
    Congruent (Near key (Ledger.Alike key)) (configure devices i) := by
  rintro ⟨b, l⟩ ⟨c, l'⟩ ⟨hbc, hl⟩
  have hchecks : Congruent (Bench.Alike key) ((targets devices i).mapM check) :=
    .mapM fun t _ => check_congruent t
  obtain ⟨hr, hbc'⟩ := hchecks b c hbc
  rw [configure_apply, configure_apply]
  rcases hb : (targets devices i).mapM check b with ⟨r, b'⟩
  rcases hc : (targets devices i).mapM check c with ⟨r', c'⟩
  rw [hb, hc] at hr hbc'
  obtain rfl : r' = r := hr
  cases r' with
  | error fault => exact ⟨rfl, hbc', hl⟩
  | ok pinnings =>
    have hpins : Congruent (Near key Eq) (NotingM.forEach pin pinnings) :=
      .forEach fun p _ => pin_congruent p
    exact collect_congruent notebook hpins (b', l) (c', l') ⟨hbc', hl⟩

end Interrupts

/-- What comes of a layer depends only on what belongs to it. -/
theorem configure_congruent (layer : Layer) :
    Congruent (Near layer.key (Ledger.Alike layer.key)) layer.configure := by
  cases hq : layer.requests? with
  | some requests =>
    rw [show layer.configure = changeAll layer.key requests from
      funext (configure_of_requests? hq)]
    cases requests with
    | error fault => exact .of_except (.error fault)
    | ok rs =>
      rw [show changeAll layer.key (.ok rs) = _ from funext (changeAll_ok layer.key rs)]
      refine .forEach fun r hr => changeSettings_congruent ?_ r.2
      exact (settingKey_of_requests? hq r hr).1
  | none =>
    cases layer with
    | interrupts devices i => exact Interrupts.configure_congruent devices i
    | qdisc devices streams => exact Qdisc.configure_congruent devices streams
    | queues devices counts => exact Queues.configure_congruent devices counts
    | inert key => exact .pure ()
    | _ => cases hq

end Layer

/-- Carrying out an intent stays within the territory of the layer that has it. -/
theorem Intent.Involves.within {i : Intent} {e : Event} (h : i.Involves e) : e.Within i.key := by
  refine h.of_begins (fun _ _ => trivial) ?_ ?_ fun _ _ _ _ _ => trivial
  · rintro name d value rfl address taken
    rfl
  · rintro d processors spreading rfl address up
    rfl

/-- A layer leaves alone what does not belong to it. -/
theorem Layer.configure_frame (layer : Layer) {b : Bench} {l : Ledger} (hb : b.Steady)
    (hl : l.contains layer.key = false) {k : String} (hk : k ≠ layer.key) :
    Near k (Ledger.Alike k) (b, l) (layer.configure (b, l)).2 := by
  constructor
  · obtain ⟨events, he, hi⟩ := layer.configure_emits (b, l)
    rw [he]
    refine Bench.alike_after hb (fun e hm => ?_) hk
    obtain ⟨i, hmem, hinvolves⟩ := hi e hm
    have hw := hinvolves.within
    rw [key_of_mem_intents hmem] at hw
    exact hw
  · obtain ⟨cs, -, hledger, howns, -⟩ := layer.configure_performs b l hl
    have hfilter : cs.filter (·.key = k) = [] := by
      rw [List.filter_eq_nil_iff]
      intro c hc
      have hkey : c.key ≠ k := (howns c hc).key_eq ▸ hk.symm
      simpa using hkey
    unfold Ledger.Alike
    rw [hledger, Ledger.get?_foldl_note, hfilter]
    rfl

end NicTuning
