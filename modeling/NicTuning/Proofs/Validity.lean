import NicTuning.Stack

/-!
# What validation grants

Findings are valid if none of their parts is an error, so each examination is as good as a condition
on what it examines. A tuning and a roster make a stack exactly if all conditions hold.
-/
namespace NicTuning

namespace Findings

@[simp] theorem isValid_none : none.isValid = true := rfl

@[simp] theorem isValid_error (field message : String) : (error field message).isValid = false :=
  rfl

@[simp] theorem isValid_warning (field message : String) : (warning field message).isValid = true :=
  rfl

theorem isValid_join_iff {l : List Findings} :
    (join l).isValid = true ↔ ∀ f ∈ l, f.isValid = true := by
  induction l with
  | nil => simp [join]
  | cons f rest ih =>
    have hjoin : join (f :: rest) = f ++ join rest := rfl
    rw [hjoin, isValid_append, Bool.and_eq_true, ih, List.forall_mem_cons]

theorem check_eq_ok_iff {f : Findings} : f.check = .ok () ↔ f.isValid = true := by
  unfold check
  split
  · simp_all
  · simp_all

theorem isValid_positional_iff {field : String} {entries devices : Nat} :
    (positional field entries devices).isValid = true ↔ entries = devices := by
  unfold positional
  split <;> simp_all

theorem isValid_toolKey_iff {field key : String} : (toolKey field key).isValid = true ↔
    key.isEmpty = false ∧ ∀ c ∈ key.toList, isKeyChar c = true := by
  unfold toolKey
  split
  · simp_all
  · split <;> simp_all

end Findings

namespace Tuning

open Findings

theorem isValid_switchFindings {field key : String} {value : Setting} :
    (switchFindings field key value).isValid = value.asFlag?.isSome := by
  unfold switchFindings
  split <;> simp_all

/-- Features are keys of the tool, and their values are switches. -/
theorem isValid_offloadFindings_iff {settings : Settings} :
    (offloadFindings (some settings)).isValid = true ↔ ∀ e ∈ settings.entries,
      (toolKey "offload_settings" e.1).isValid = true ∧ e.2.asFlag?.isSome = true := by
  unfold offloadFindings
  rw [isValid_join_iff, List.forall_mem_map]
  simp only [isValid_append, isValid_switchFindings, Bool.and_eq_true]

namespace Coalescing

theorem isValid_settingFindings_iff {key : String} {value : Setting} :
    (settingFindings key value).isValid = true ↔ (toolKey settingsField key).isValid = true ∧
      (isToggleKey key = true → value.asFlag?.isSome = true) := by
  unfold settingFindings
  rw [isValid_append, Bool.and_eq_true]
  split <;> simp_all [isValid_switchFindings]

theorem isValid_toggleFindings_iff {given : List Settings} {t : Toggle} :
    (toggleFindings given t).isValid = true ↔
      (t.explicit.isSome = true → ∀ d ∈ given, d.contains t.key = false) := by
  unfold toggleFindings
  split <;> simp_all

/-- Settings go by keys of the tool, those for an adaptive mode are switches, and no mode is given
twice. -/
theorem isValid_findings_iff {c : Coalescing} : c.findings.isValid = true ↔
    ∀ given, c.settings = some given →
      (∀ d ∈ given.values, ∀ e ∈ d.entries, (settingFindings e.1 e.2).isValid = true) ∧
      ∀ t ∈ c.toggles, (toggleFindings given.values t).isValid = true := by
  unfold findings
  cases c.settings with
  | none => simp
  | some given =>
    simp only [isValid_append, Bool.and_eq_true, isValid_join_iff, List.forall_mem_map,
      Option.some.injEq, forall_eq']

theorem isValid_lengthFindings_iff {c : Coalescing} {devices : Nat} :
    (c.lengthFindings devices).isValid = true ↔
      ∀ list, c.settings = some (.each list) → list.length = devices := by
  unfold lengthFindings
  split
  · rename_i list hs
    rw [isValid_positional_iff, hs]
    simp
  · rename_i hne
    simp only [isValid_none, true_iff]
    intro list hs
    exact absurd hs (hne list)

end Coalescing

theorem Interrupts.isValid_lengthFindings_iff {i : Interrupts} {devices : Nat} :
    (i.lengthFindings devices).isValid = true ↔
      (∀ lists, i.processors = some lists → lists.length = devices) ∧
      ∀ list, i.spreadings = some list → list ≠ [] → list.length = devices := by
  unfold lengthFindings
  rw [isValid_append, Bool.and_eq_true]
  refine and_congr ?_ ?_
  · cases i.processors with
    | none => simp
    | some lists => simp [isValid_positional_iff]
  · split
    · simp_all
    · simp_all
    · rename_i list hne hs
      simp_all [isValid_positional_iff]

theorem isValid_queueLengthFindings_iff {queues : Option (List (Dict UInt32))} {devices : Nat} :
    (queueLengthFindings queues devices).isValid = true ↔
      ∀ list, queues = some list → list.length = devices := by
  cases queues with
  | none => simp [queueLengthFindings]
  | some list => simp [queueLengthFindings, isValid_positional_iff]

/-- Every number of queues goes by one of the types. -/
theorem isValid_queueFindings_iff {queues : Option (List (Dict UInt32))} :
    (queueFindings queues).isValid = true ↔
      ∀ counts ∈ queues.getD [], ∀ type ∈ counts.keys, type ∈ queueTypes := by
  unfold queueFindings
  simp only [isValid_join_iff, List.forall_mem_map]
  refine forall₂_congr fun counts _ => forall₂_congr fun type _ => ?_
  split <;> simp_all

theorem isValid_findings_iff {t : Tuning} : t.findings.isValid = true ↔
    (offloadFindings t.offload).isValid = true ∧ (mtuFindings t.mtu).isValid = true ∧
    t.coalescing.findings.isValid = true ∧ t.interrupts.findings.isValid = true ∧
    (streamFindings t.streams).isValid = true ∧ (queueFindings t.queues).isValid = true ∧
    t.flowHash.findings.isValid = true ∧ (hashFunctionFindings t.hashFunction).isValid = true := by
  unfold findings
  simp [isValid_join_iff]

end Tuning

/-- The tuning passes every examination against the roster. -/
structure Roster.Suits (r : Roster) (t : Tuning) : Prop where
  tuning : t.findings.isValid = true
  coalescing : (t.coalescing.lengthFindings r.coalescing.length).isValid = true
  interrupts : (t.interrupts.lengthFindings r.interrupts.length).isValid = true
  queues : (Tuning.queueLengthFindings t.queues r.queues.length).isValid = true

/-- There is a stack for the tuning exactly if it passes every examination, and then this stack is
the one that would be made without. -/
theorem Stack.standard_eq_ok_iff {t : Tuning} {r : Roster} {s : Stack} :
    standard t r = .ok s ↔ r.Suits t ∧ s = unchecked t r := by
  have hvalid : (t.findings ++ t.lengthFindings r.counts).isValid = true ↔ r.Suits t := by
    unfold Tuning.lengthFindings Roster.counts
    simp only [Findings.isValid_append, Bool.and_eq_true]
    constructor
    · rintro ⟨ht, ⟨hc, hi⟩, hq⟩
      exact ⟨ht, hc, hi, hq⟩
    · intro h
      exact ⟨h.tuning, ⟨h.coalescing, h.interrupts⟩, h.queues⟩
  have hcheck := Findings.check_eq_ok_iff (f := t.findings ++ t.lengthFindings r.counts)
  unfold standard
  cases hc : (t.findings ++ t.lengthFindings r.counts).check with
  | error fault =>
    rw [hc, hvalid] at hcheck
    constructor
    · intro h
      cases h
    · rintro ⟨hs, -⟩
      cases hcheck.2 hs
  | ok _ =>
    rw [hc, hvalid] at hcheck
    constructor
    · intro h
      cases h
      exact ⟨hcheck.1 rfl, rfl⟩
    · rintro ⟨-, rfl⟩
      rfl

end NicTuning
