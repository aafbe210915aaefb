import NicTuning.Proofs.Accounting

/-!
# Stacks that are configured twice

Main statement: a stack that left something in the ledger, whether it succeeded or not, refuses to
be configured on this ledger again, on any bench and before anything happens there. The layers
before the first one with an entry have their turn once more. They changed nothing the first time,
and that is decided by their parameters and devices alone: such a layer is idle on every bench.
-/
namespace NicTuning

namespace NotingM

variable {σ α : Type}

theorem forEach_eq_self {act : α → NotingM σ Unit} {xs : List α} {s : Bench × σ}
    (h : ∀ x ∈ xs, act x s = (.ok (), s)) : forEach act xs s = (.ok (), s) := by
  induction xs with
  | nil => rfl
  | cons x rest ih =>
    unfold forEach
    rw [ActionM.bind_apply, h x (by simp)]
    exact ih fun y hy => h y (by simp [hy])

end NotingM

namespace Layer

/-! ## Idle layers -/

/-- The layer has nothing to do, whatever the bench and the ledger. -/
def Idle (layer : Layer) : Prop := ∀ s, layer.configure s = (.ok (), s)

/-- The parameters of the layer contradict each other, and the layer refuses them at once. -/
def AtOdds (layer : Layer) : Prop := ∃ fault, layer.requests? = some (.error fault)

theorem AtOdds.configure_apply {layer : Layer} (h : layer.AtOdds) :
    ∃ fault, ∀ s, layer.configure s = (.error fault, s) := by
  obtain ⟨fault, hr⟩ := h
  exact ⟨fault, fun s => configure_of_requests? hr s⟩

/-- An attribute for which no device has a value is left alone. -/
theorem changeSettings_of_settingIntents_eq_nil {key name : String} {targets : List Target}
    (h : settingIntents name targets = []) (s : Bench × Ledger) :
    changeSettings key name targets s = (.ok (), s) := by
  refine NotingM.forEach_eq_self fun target ht => ?_
  obtain ⟨d, value⟩ := target
  have hv := List.filterMap_eq_nil_iff.1 h _ ht
  rw [Option.map_eq_none_iff] at hv
  subst hv
  rfl

/-- Nothing is entered where nothing was done. -/
theorem collect_of_eq_self {σ : Type} {n : Notebook σ} {act : NotingM σ Unit}
    (h : ∀ s, act s = (.ok (), s)) (s : Bench × Ledger) : n.collect act s = (.ok (), s) := by
  obtain ⟨b, l⟩ := s
  rw [n.collect_apply, h, if_pos n.isEmpty_start]

theorem idle_of_intents_eq_nil {layer : Layer} (hodds : ¬layer.AtOdds) (h : layer.intents = []) :
    layer.Idle := by
  intro s
  cases hr : layer.requests? with
  | some requests =>
    rw [intents_of_requests? hr] at h
    rw [configure_of_requests? hr]
    cases requests with
    | error fault => exact absurd ⟨fault, hr⟩ hodds
    | ok rs =>
      rw [changeAll_ok]
      refine NotingM.forEach_eq_self fun r hm => changeSettings_of_settingIntents_eq_nil ?_ s
      exact List.flatMap_eq_nil_iff.1 h r hm
  | none =>
    cases layer with
    | interrupts devices i =>
      obtain ⟨b, l⟩ := s
      have ht : Interrupts.targets devices i = [] := List.map_eq_nil_iff.1 h
      change Interrupts.configure devices i (b, l) = _
      rw [Interrupts.configure_apply, ht]
      exact collect_of_eq_self (fun _ => rfl) (b, l)
    | queues devices counts =>
      have ht : Queues.targets devices counts = [] := List.map_eq_nil_iff.1 h
      change Queues.notebook.collect (NotingM.forEach Queues.change _) s = _
      rw [ht]
      exact collect_of_eq_self (fun _ => rfl) s
    | qdisc devices streams =>
      change Qdisc.intents devices streams = [] at h
      change Qdisc.configure devices streams s = _
      unfold Qdisc.intents at h
      unfold Qdisc.configure
      split at h
      · rename_i hw
        rw [if_pos hw, List.map_eq_nil_iff.1 h]
        exact collect_of_eq_self (n := Qdisc.notebook) (fun _ => rfl) s
      · rename_i hw
        rw [if_neg hw]
        rfl
    | inert key => rfl
    | _ => cases hr

/-- Whether a layer is idle depends on its parameters and its devices alone. -/
theorem idle_iff (layer : Layer) : layer.Idle ↔ ¬layer.AtOdds ∧ layer.intents = [] := by
  constructor
  · intro h
    refine ⟨fun hodds => ?_, ?_⟩
    · obtain ⟨fault, hf⟩ := hodds.configure_apply
      have he := (hf (.quiet, .empty)).symm.trans (h (.quiet, .empty))
      cases he
    · obtain ⟨cs, -, hl, -, hf⟩ := layer.configure_performs .quiet .empty rfl
      rw [h] at hl hf
      have hcs : cs = [] := by
        by_contra hne
        obtain ⟨c, hc⟩ := List.exists_mem_of_ne_nil cs hne
        have hk := Ledger.contains_foldl_note cs .empty c.key
        rw [← hl, List.any_eq_true.2 ⟨c, hc, by simp⟩] at hk
        cases hk
      rw [← hf.through rfl, hcs]
      rfl
  · exact fun h => idle_of_intents_eq_nil h.1 h.2

end Layer

namespace Stack

/-! ## Turns on a ledger without an entry -/

/-- A layer that had its turn either has an entry now, or it left the ledger as it was, and if it
also succeeded it is idle. -/
theorem configureLayer_cases {layer : Layer} {b : Bench} {l : Ledger}
    (hl : l.contains layer.key = false) :
    (configureLayer layer (b, l)).2.2.contains layer.key = true ∨
    (configureLayer layer (b, l)).2.2 = l ∧
      ((configureLayer layer (b, l)).1 = .ok () → layer.Idle) := by
  rw [configureLayer_apply, hl, if_neg Bool.false_ne_true]
  obtain ⟨cs, -, he, hk, hf⟩ := layer.configure_performs b l hl
  cases cs with
  | nil =>
    refine .inr ⟨he, fun hr => layer.idle_iff.2 ⟨fun hodds => ?_, ?_⟩⟩
    · obtain ⟨fault, hfault⟩ := hodds.configure_apply
      rw [hfault] at hr
      cases hr
    · exact (hf.through hr).symm
  | cons c cs =>
    refine .inl ?_
    rw [he, Ledger.contains_foldl_note, List.any_cons, (hk c (by simp)).key_eq]
    simp

/-- Entries are only added while a stack is configured. -/
theorem contains_configure {s : Stack} {b : Bench} {l : Ledger} {key : String}
    (h : l.contains key = true) : (s.configure (b, l)).2.2.contains key = true := by
  obtain ⟨took, -, -, hl, -⟩ := configure_turns s b l
  rw [hl, Ledger.contains_foldl_note, h, Bool.true_or]

theorem configureLayer_of_contains {layer : Layer} {l : Ledger}
    (h : l.contains layer.key = true) (b : Bench) :
    configureLayer layer (b, l) = (.error (.alreadyConfigured layer.key), b, l) := by
  rw [configureLayer_apply, if_pos h]

theorem configureLayer_of_idle {layer : Layer} {l : Ledger} (hi : layer.Idle)
    (h : l.contains layer.key = false) (b : Bench) :
    configureLayer layer (b, l) = (.ok (), b, l) := by
  rw [configureLayer_apply, h, if_neg Bool.false_ne_true, hi]

/-- On this ledger the stack is refused for the first of its layers with an entry, and nothing is
done before that, whatever the bench. -/
def RefusedOutright (s : Stack) (l : Ledger) : Prop :=
  ∃ key, s.keys.find? l.contains = some key ∧
    ∀ b, s.configure (b, l) = (.error (.alreadyConfigured key), b, l)

namespace RefusedOutright

variable {layer : Layer} {rest : Stack} {l : Ledger}

theorem head (h : l.contains layer.key = true) : RefusedOutright (layer :: rest) l := by
  refine ⟨layer.key, List.find?_cons_of_pos h, fun b => ?_⟩
  rw [configure_cons, configureLayer_of_contains h]

theorem tail (hi : layer.Idle) (h : RefusedOutright rest l) :
    RefusedOutright (layer :: rest) l := by
  cases hl : l.contains layer.key with
  | true => exact head hl
  | false =>
    obtain ⟨key, hk, hc⟩ := h
    refine ⟨key, ?_, fun b => ?_⟩
    · exact (List.find?_cons_of_neg (by simpa using hl)).trans hk
    · rw [configure_cons, configureLayer_of_idle hi hl]
      exact hc b

end RefusedOutright

/-- A stack leaves the ledger as it was, or is refused outright on the one it leaves. -/
theorem refusedOutright_of_ne (s : Stack) (b : Bench) (l : Ledger)
    (h : (s.configure (b, l)).2.2 ≠ l) : RefusedOutright s (s.configure (b, l)).2.2 := by
  induction s generalizing b l with
  | nil => exact absurd rfl h
  | cons layer rest ih =>
    rw [configure_cons] at h ⊢
    cases hl : l.contains layer.key with
    | true =>
      rw [configureLayer_of_contains hl] at h
      exact absurd rfl h
    | false =>
      have hcases := configureLayer_cases (b := b) hl
      rcases ht : configureLayer layer (b, l) with ⟨fault | ⟨⟩, b', l'⟩ <;> rw [ht] at h hcases
      · -- The layer stopped the stack, so what is new in the ledger is its own entry.
        rcases hcases with hkey | ⟨hsame, -⟩
        · exact .head hkey
        · exact absurd hsame h
      · rcases hcases with hkey | ⟨hsame, hidle⟩
        · exact .head (contains_configure hkey)
        · obtain rfl : l' = l := hsame
          exact .tail (hidle rfl) (ih b' l' h)

/-- However the configuring of a stack ended, if it left anything in the ledger, the stack is
refused when it is configured again: for the first of its layers with an entry, on any bench, and
with bench and ledger as they were. -/
theorem configure_again_refused (s : Stack) (b : Bench)
    (h : (s.configure (b, .empty)).2.2.isEmpty = false) :
    ∃ key, s.keys.find? (s.configure (b, .empty)).2.2.contains = some key ∧
      ∀ b', s.configure (b', (s.configure (b, .empty)).2.2) =
        (.error (.alreadyConfigured key), b', (s.configure (b, .empty)).2.2) := by
  refine refusedOutright_of_ne s b .empty fun he => ?_
  rw [he] at h
  cases h

/-- A device in memory that has a transfer unit and no pause frames. -/
def mtuDevice : Device := ⟨"eth0", ⟨"", "lab"⟩, ⟨"", "lab"⟩, none, .memory "eth0"⟩

def mtuBench : Bench := Bench.quiet.setMemory "eth0"
  ⟨fun name => if name = "mtu" then some (.number 1500) else none, true, false⟩

/-- A stack that stops half-way on the device, with idle layers before the one that succeeds. -/
def halfwayStack : Stack :=
  unchecked { mtu := some 9000, pauseFrames.rx := some true } (.uniform [mtuDevice])

theorem configure_again_refused_after_fault :
    (halfwayStack.configure (mtuBench, .empty)).1 =
      .error (.unsupportedAttribute "lab.eth0" "rx_pause_frames") ∧
    (halfwayStack.configure (mtuBench, .empty)).2.2.isEmpty = false ∧
    ∀ b, halfwayStack.configure (b, (halfwayStack.configure (mtuBench, .empty)).2.2) =
      (.error (.alreadyConfigured "mtu"), b, (halfwayStack.configure (mtuBench, .empty)).2.2) := by
  have hl : (halfwayStack.configure (mtuBench, .empty)).2.2.isEmpty = false := by rfl
  obtain ⟨key, hk, hc⟩ := configure_again_refused halfwayStack mtuBench hl
  have hmtu : halfwayStack.keys.find? (halfwayStack.configure (mtuBench, .empty)).2.2.contains =
      some "mtu" := by rfl
  obtain rfl : key = "mtu" := Option.some.inj (hk.symm.trans hmtu)
  exact ⟨rfl, hl, hc⟩

end Stack

end NicTuning
