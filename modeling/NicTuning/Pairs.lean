/-!
# Lists of pairs

Looking up a key in a list of pairs finds the value of the first pair with that key.
-/
namespace NicTuning.Pairs

variable {α : Type}

theorem lookup_cons_eq_ite (k k' : String) (v : α) (l : List (String × α)) :
    ((k, v) :: l).lookup k' = if k' = k then some v else l.lookup k' := by
  by_cases h : k' = k
  · simp [h]
  · simp [List.lookup_cons, beq_eq_false_iff_ne.2 h, h]

theorem lookup_eq_none_iff {k : String} : ∀ {l : List (String × α)},
    l.lookup k = none ↔ k ∉ l.map Prod.fst
  | [] => by simp
  | (a, b) :: rest => by
    by_cases h : k = a <;> simp [lookup_cons_eq_ite, h, lookup_eq_none_iff (l := rest)]

/-- Among pairs with distinct keys, looking up a key finds what the key is paired with. -/
theorem lookup_eq_some_iff {l : List (String × α)} (h : (l.map Prod.fst).Nodup) {k : String}
    {v : α} : l.lookup k = some v ↔ (k, v) ∈ l := by
  constructor
  · intro hv
    obtain ⟨before, after, rfl, -⟩ := List.lookup_eq_some_iff.1 hv
    simp
  · intro hm
    obtain ⟨before, after, rfl⟩ := List.append_of_mem hm
    refine List.lookup_eq_some_iff.2 ⟨before, after, rfl, fun p hp => bne_iff_ne.2 ?_⟩
    rw [List.map_append, List.nodup_append] at h
    exact (h.2.2 p.1 (List.mem_map_of_mem hp) k (by simp)).symm

theorem lookup_map {β : Type} (f : α → β) (k : String) (l : List (String × α)) :
    (l.map fun e => (e.1, f e.2)).lookup k = (l.lookup k).map f := by
  induction l with
  | nil => rfl
  | cons e l ih =>
    rw [List.map_cons, lookup_cons_eq_ite, lookup_cons_eq_ite, ih]
    split <;> rfl

end NicTuning.Pairs
