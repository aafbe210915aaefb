import NicTuning.Proofs.Accounting

/-!
# Planning

Main statement: if a stack is configured without a fault, its plan is what was changed, line by line
and in order. So a key is in the ledger exactly if a layer with this key plans something, and an
attribute in memory ends with the value that is planned for it last.
-/
namespace NicTuning

/-! ## Intents under a key -/

/-- The intents under a key are those that the changes under this key carry out. -/
theorem Change.filterMap_intent?_filter (cs : List Change) (key : String) :
    (cs.filter (·.key = key)).filterMap intent? =
      (cs.filterMap intent?).filter (·.key = key) := by
  induction cs with
  | nil => rfl
  | cons c cs ih =>
    rw [List.filter_cons, List.filterMap_cons]
    cases hi : c.intent? with
    | none =>
      split
      · rw [List.filterMap_cons, hi]
        exact ih
      · exact ih
    | some i =>
      rw [List.filter_cons, key_of_intent? hi]
      split
      · rw [List.filterMap_cons, hi]
        exact congrArg (i :: ·) ih
      · exact ih

namespace Stack

theorem filter_intents (s : Stack) (key : String) :
    s.intents.filter (·.key = key) = (s.filter (·.key = key)).flatMap Layer.intents := by
  induction s with
  | nil => rfl
  | cons layer rest ih =>
    have hintents : intents (layer :: rest) = layer.intents ++ intents rest := List.flatMap_cons
    rw [hintents, List.filter_append, ih, List.filter_cons]
    by_cases hk : layer.key = key
    · have hall : layer.intents.filter (·.key = key) = layer.intents :=
        List.filter_eq_self.2 fun i hi => by simp [Layer.key_of_mem_intents hi, hk]
      rw [hall, if_pos (by simpa using hk), List.flatMap_cons]
    · have hnone : layer.intents.filter (·.key = key) = [] :=
        List.filter_eq_nil_iff.2 fun i hi => by simp [Layer.key_of_mem_intents hi, hk]
      rw [hnone, if_neg (by simpa using hk), List.nil_append]

/-- The plan of a stack puts its intents into words. -/
theorem plan_eq (s : Stack) : s.plan = s.intents.map Intent.line := by
  unfold plan intents
  rw [List.map_flatMap]
  exact List.flatMap_congr fun layer _ => layer.plan_eq

theorem exists_mem_intents_iff {s : Stack} {key : String} :
    (∃ i ∈ s.intents, i.key = key) ↔ ∃ layer ∈ s, layer.key = key ∧ layer.plan ≠ [] := by
  constructor
  · rintro ⟨i, hi, rfl⟩
    obtain ⟨layer, hm, hl⟩ := List.mem_flatMap.1 hi
    refine ⟨layer, hm, (Layer.key_of_mem_intents hl).symm, fun hp => ?_⟩
    rw [layer.plan_eq, List.map_eq_nil_iff] at hp
    rw [hp] at hl
    cases hl
  · rintro ⟨layer, hm, rfl, hp⟩
    rw [layer.plan_eq, ne_eq, List.map_eq_nil_iff] at hp
    obtain ⟨i, hi⟩ := List.exists_mem_of_ne_nil _ hp
    exact ⟨i, List.mem_flatMap.2 ⟨layer, hm, hi⟩, Layer.key_of_mem_intents hi⟩

/-! ## The plan and its execution -/

/-- What is in the ledger after a stack was configured without a fault are the keys of the layers
that plan something. -/
theorem contains_iff_plan {s : Stack} {cs : List Change}
    (h : Follows cs s.intents (.ok ())) (key : String) :
    Register.contains (cs.foldl Ledger.note .empty) key = true ↔
      ∃ layer ∈ s, layer.key = key ∧ layer.plan ≠ [] := by
  rw [Ledger.contains_foldl_note, ← exists_mem_intents_iff]
  have hempty : Register.contains (.empty : Ledger) key = false := rfl
  rw [hempty, Bool.false_or, List.any_eq_true]
  constructor
  · rintro ⟨c, hc, hk⟩
    obtain ⟨i, hi, he⟩ := h.grounded c hc
    exact ⟨i, hi, he.trans (of_decide_eq_true hk)⟩
  · rintro ⟨i, hi, rfl⟩
    rw [← h.through rfl] at hi
    obtain ⟨c, hc, he⟩ := List.mem_filterMap.1 hi
    exact ⟨c, hc, decide_eq_true (Change.key_of_intent? he).symm⟩

/-- If a stack is configured without a fault, the changes that took effect, which are those in the
ledger, carry out its intents one by one and in order, and its plan puts the intents into words. So
a key is in the ledger exactly if a layer with this key plans something, which is the layer itself
if no other has its key. The devices in memory have the values that are planned last, and are as
they were in all else. -/
theorem plan_is_carried_out {s : Stack} {b b' : Bench} {l : Ledger}
    (h : s.configure (b, .empty) = (.ok (), b', l)) :
    ∃ took events,
      Turns s (b, .empty) took (.ok ()) (b', l) ∧
      b' = b.after events ∧
      b.successes Event.isChange events = (took.filterMap fun t => t.2.event?).reverse ∧
      (∀ key, l.get? key = Change.enterAll none (changesUnder key took) ∧
        (changesUnder key took).filterMap Change.intent? =
          (s.filter (·.key = key)).flatMap Layer.intents) ∧
      took.filterMap (fun t => t.2.intent?) = s.intents ∧
      s.plan = s.intents.map Intent.line ∧
      (∀ key, l.contains key = true ↔ ∃ layer ∈ s, layer.key = key ∧ layer.plan ≠ []) ∧
      (∀ layer ∈ s, (∀ other ∈ s, other.key = layer.key → other = layer) →
        (l.contains layer.key = true ↔ layer.plan ≠ [])) ∧
      ∀ address, b'.memory address = { b.memory address with
        values := fun name => (s.intents.reverse.findSome? (Intent.value? address name)).or
          ((b.memory address).values name) } := by
  obtain ⟨took, ht, hc, hl, hk, hf⟩ := configure_follows s b .empty
  rw [h] at ht hc hl hf
  obtain rfl : l = (took.map Prod.snd).foldl Ledger.note .empty := hl
  obtain ⟨events, hb, hs⟩ := hc.successes (plain_of_owns hk)
  have hintents := hf.through rfl
  have hcontains := contains_iff_plan hf
  refine ⟨took, events, ht, hb, ?_, fun key => ⟨?_, ?_⟩, ?_, s.plan_eq, hcontains, ?_, ?_⟩
  · rw [hs, List.filterMap_map]
    rfl
  · rw [Ledger.get?_foldl_note, changesUnder_eq hk]
    rfl
  · rw [changesUnder_eq hk, Change.filterMap_intent?_filter, hintents, filter_intents]
  · rw [← hintents, List.filterMap_map]
    rfl
  · intro layer hm halone
    rw [hcontains]
    constructor
    · rintro ⟨other, ho, hkey, hp⟩
      exact halone other ho hkey ▸ hp
    · exact fun hp => ⟨layer, hm, rfl, hp⟩
  · intro address
    rw [← hintents]
    exact hc.memory_eq address

/-- A device in memory whose attributes are all one. -/
def plainDevice : Device := ⟨"eth0", ⟨"lab", "lab"⟩, ⟨"lab", "lab"⟩, none, .memory "eth0"⟩

def plainBench : Bench :=
  { Bench.quiet with memory := fun _ => ⟨fun _ => some (.number 1), true, false⟩ }

/-- Two features whose attributes have one name, the size of a packet twice for one device, and
disciplines that are not wanted. -/
def plainStack : Stack :=
  [.offload [plainDevice] (some (.ofList [("rx-gro", .flag true), ("rx_gro", .word "off")])),
    .mtu [plainDevice, plainDevice] (some 9000), .qdisc [plainDevice] (some 1)]

/-- The later of the two features prevails. -/
theorem plan_is_carried_out_twice :
    plainStack.plan = ["lab.eth0 offload_rx_gro -> true", "lab.eth0 offload_rx_gro -> false",
      "lab.eth0 mtu -> 9000", "lab.eth0 mtu -> 9000"] ∧
    ∃ b' l, plainStack.configure (plainBench, .empty) = (.ok (), b', l) ∧
      (l.contains "parallel_stream_qdisc" = false) ∧
      (b'.memory "eth0").values "offload_rx_gro" = some (.flag false) ∧
      (b'.memory "eth0").values "rx_pause_frames" = some (.number 1) := by
  have h : plainStack.configure (plainBench, .empty) =
      (.ok (), (plainStack.configure (plainBench, .empty)).2.1,
        (plainStack.configure (plainBench, .empty)).2.2) := rfl
  obtain ⟨-, -, -, -, -, -, -, -, hcontains, -, hmemory⟩ := plan_is_carried_out h
  refine ⟨by decide, _, _, h, ?_, ?_, ?_⟩
  · rw [Bool.eq_false_iff, ne_eq, hcontains]
    rintro ⟨layer, hm, hk, hp⟩
    simp only [plainStack, List.mem_cons, List.not_mem_nil, or_false] at hm
    rcases hm with rfl | rfl | rfl
    · exact absurd hk (by decide)
    · exact absurd hk (by decide)
    · exact hp rfl
  · rw [hmemory]
    rfl
  · rw [hmemory]
    rfl

/-- Two layers with one key, of which the first has no size to give. -/
def sharedKeyStack : Stack := [.mtu [plainDevice] none, .mtu [plainDevice] (some 9000)]

/-- A layer may find its key in the ledger although it plans nothing, for the other layer with this
key has put it there. -/
theorem key_of_idle_layer_is_in_ledger :
    (sharedKeyStack.configure (plainBench, .empty)).1 = .ok () ∧
    ¬∀ layer ∈ sharedKeyStack,
      (sharedKeyStack.configure (plainBench, .empty)).2.2.contains layer.key = true ↔
        layer.plan ≠ [] := by
  refine ⟨rfl, fun h => ?_⟩
  exact (h (.mtu [plainDevice] none) (by simp [sharedKeyStack])).1 rfl rfl

end Stack

end NicTuning
