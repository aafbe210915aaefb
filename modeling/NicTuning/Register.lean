import NicTuning.Pairs

/-!
# Registers

A register holds one value for each of its keys and keeps the keys in the order in which they came.
`get?` is its view. Writing to a known key changes its value in place, writing to a new one adds it
at the end, and erasing leaves the others in their order.
-/
namespace NicTuning

/-- Pairs of which no two have the same key. -/
structure Register (α : Type) where
  entries : List (String × α)
  nodup : (entries.map Prod.fst).Nodup

namespace Register

open Pairs

variable {α : Type}

@[ext] theorem ext {r s : Register α} (h : r.entries = s.entries) : r = s := by
  cases r; cases s; cases h; rfl

def empty : Register α := ⟨[], .nil⟩

instance : Inhabited (Register α) := ⟨empty⟩

def keys (r : Register α) : List String := r.entries.map Prod.fst

def isEmpty (r : Register α) : Bool := r.entries.isEmpty

def size (r : Register α) : Nat := r.entries.length

def get? (r : Register α) (k : String) : Option α := r.entries.lookup k

def contains (r : Register α) (k : String) : Bool := (r.get? k).isSome

theorem contains_iff {r : Register α} {k : String} : r.contains k ↔ k ∈ r.keys := by
  unfold contains get? keys
  rw [Option.isSome_iff_ne_none, ne_eq, lookup_eq_none_iff, Decidable.not_not]

/-- Pairs with `v` as the value of `k`, which comes last if it is new. -/
def insertEntries (k : String) (v : α) : List (String × α) → List (String × α)
  | [] => [(k, v)]
  | (k', v') :: rest => if k = k' then (k, v) :: rest else (k', v') :: insertEntries k v rest

theorem keys_insertEntries (k : String) (v : α) : ∀ l : List (String × α),
    (insertEntries k v l).map Prod.fst =
      if k ∈ l.map Prod.fst then l.map Prod.fst else l.map Prod.fst ++ [k]
  | [] => by simp [insertEntries]
  | (a, b) :: rest => by
    by_cases h : k = a
    · simp [insertEntries, h]
    · by_cases hk : k ∈ rest.map Prod.fst <;>
        simp [insertEntries, h, keys_insertEntries k v rest, hk]

/-- The register with `v` as the value of `k`. -/
def insert (r : Register α) (k : String) (v : α) : Register α where
  entries := insertEntries k v r.entries
  nodup := by
    rw [keys_insertEntries]
    split
    · exact r.nodup
    · rename_i h
      refine List.nodup_append.2 ⟨r.nodup, List.pairwise_singleton _ _, fun a ha b hb => ?_⟩
      rw [List.mem_singleton.1 hb]
      exact fun e => h (e ▸ ha)

theorem keys_insert (r : Register α) (k : String) (v : α) :
    (r.insert k v).keys = if k ∈ r.keys then r.keys else r.keys ++ [k] :=
  keys_insertEntries k v r.entries

theorem lookup_insertEntries (k k' : String) (v : α) : ∀ l : List (String × α),
    (insertEntries k v l).lookup k' = if k' = k then some v else l.lookup k'
  | [] => lookup_cons_eq_ite k k' v []
  | (a, b) :: rest => by
    by_cases h : k = a
    · subst h
      by_cases h' : k' = k <;> simp [insertEntries, lookup_cons_eq_ite, h']
    · by_cases h' : k' = a
      · simp [insertEntries, h, h', Ne.symm h]
      · simp [insertEntries, lookup_cons_eq_ite, h, h', lookup_insertEntries k k' v rest]

theorem get?_insert (r : Register α) (k k' : String) (v : α) :
    (r.insert k v).get? k' = if k' = k then some v else r.get? k' :=
  lookup_insertEntries k k' v r.entries

/-- The register without `k`. -/
def erase (r : Register α) (k : String) : Register α where
  entries := r.entries.filter fun e => e.1 != k
  nodup := r.nodup.sublist (List.filter_sublist.map _)

theorem keys_erase (r : Register α) (k : String) :
    (r.erase k).keys = r.keys.filter (· != k) := by
  simp only [keys, erase, List.filter_map]
  rfl

theorem lookup_filter (k k' : String) : ∀ l : List (String × α),
    (l.filter fun e => e.1 != k).lookup k' = if k' = k then none else l.lookup k'
  | [] => by simp
  | (a, b) :: rest => by
    have ih := lookup_filter k k' rest
    by_cases h : a = k
    · subst h
      rw [List.filter_cons_of_neg (by simp), ih, lookup_cons_eq_ite]
      split <;> rfl
    · rw [List.filter_cons_of_pos (by simpa using h), lookup_cons_eq_ite, lookup_cons_eq_ite, ih]
      by_cases h' : k' = a <;> simp [h, h']

theorem get?_erase (r : Register α) (k k' : String) :
    (r.erase k).get? k' = if k' = k then none else r.get? k' :=
  lookup_filter k k' r.entries

end Register

end NicTuning
