import NicTuning.Pairs

/-!
# Dictionaries in key order

A dictionary holds one value for each of its keys, in the order of the keys: `entries` is strictly
increasing. `get?` is its view, and `get?_insert` says what insertion does to that view.
-/
namespace NicTuning

/-- Pairs whose keys increase strictly. -/
structure Dict (α : Type) where
  entries : List (String × α)
  increasing : entries.Pairwise fun a b => a.1 < b.1

namespace Dict

open Pairs

variable {α : Type}

@[ext] theorem ext {d e : Dict α} (h : d.entries = e.entries) : d = e := by
  cases d; cases e; cases h; rfl

instance [DecidableEq α] : DecidableEq (Dict α) := fun d e =>
  decidable_of_iff (d.entries = e.entries) ⟨ext, congrArg entries⟩

def empty : Dict α := ⟨[], .nil⟩

instance : Inhabited (Dict α) := ⟨empty⟩

def isEmpty (d : Dict α) : Bool := d.entries.isEmpty

def keys (d : Dict α) : List String := d.entries.map Prod.fst

def get? (d : Dict α) (k : String) : Option α := d.entries.lookup k

def contains (d : Dict α) (k : String) : Bool := (d.get? k).isSome

theorem lt_of_not {a b : String} (h : ¬a < b) (ne : a ≠ b) : b < a := by
  by_cases hba : b < a
  · exact hba
  · exact absurd (String.le_antisymm (String.not_lt.1 hba) (String.not_lt.1 h)) ne

/-- Entries with `k` bound to `v`, in order if the given ones are. -/
def insertEntries (k : String) (v : α) : List (String × α) → List (String × α)
  | [] => [(k, v)]
  | (k', v') :: rest =>
    if k < k' then (k, v) :: (k', v') :: rest
    else if k = k' then (k, v) :: rest
    else (k', v') :: insertEntries k v rest

theorem fst_mem_insertEntries {k : String} {v : α} {e : String × α} :
    ∀ {l : List (String × α)}, e ∈ insertEntries k v l → e.1 = k ∨ e ∈ l
  | [], h => by simp only [insertEntries, List.mem_singleton] at h; exact .inl (h ▸ rfl)
  | (k', v') :: rest, h => by
    unfold insertEntries at h
    split at h
    · rcases List.mem_cons.1 h with rfl | h
      · exact .inl rfl
      · exact .inr h
    · split at h
      · rcases List.mem_cons.1 h with rfl | h
        · exact .inl rfl
        · exact .inr (List.mem_cons_of_mem _ h)
      · rcases List.mem_cons.1 h with rfl | h
        · exact .inr List.mem_cons_self
        · exact (fst_mem_insertEntries h).imp_right (List.mem_cons_of_mem _)

theorem increasing_insertEntries (k : String) (v : α) : ∀ {l : List (String × α)},
    l.Pairwise (fun a b => a.1 < b.1) → (insertEntries k v l).Pairwise fun a b => a.1 < b.1
  | [], _ => List.pairwise_singleton _ _
  | (k', v') :: rest, h => by
    obtain ⟨first, later⟩ := List.pairwise_cons.1 h
    unfold insertEntries
    split
    · rename_i lt
      refine List.pairwise_cons.2 ⟨fun e he => ?_, h⟩
      rcases List.mem_cons.1 he with rfl | he
      · exact lt
      · exact String.lt_trans lt (first e he)
    · split
      · rename_i eq
        subst eq
        exact List.pairwise_cons.2 ⟨first, later⟩
      · rename_i nlt ne
        refine List.pairwise_cons.2 ⟨fun e he => ?_, increasing_insertEntries k v later⟩
        rcases fst_mem_insertEntries he with eq | he
        · rw [eq]; exact lt_of_not nlt ne
        · exact first e he

/-- The dictionary with `k` bound to `v`, whatever it was bound to before. -/
def insert (d : Dict α) (k : String) (v : α) : Dict α :=
  ⟨insertEntries k v d.entries, increasing_insertEntries k v d.increasing⟩

theorem lookup_insertEntries (k k' : String) (v : α) : ∀ l : List (String × α),
    (insertEntries k v l).lookup k' = if k' = k then some v else l.lookup k'
  | [] => lookup_cons_eq_ite k k' v []
  | (a, b) :: rest => by
    unfold insertEntries
    split
    · exact lookup_cons_eq_ite k k' v _
    · split
      · rename_i eq
        subst eq
        by_cases h : k' = k <;> simp [lookup_cons_eq_ite, h]
      · rename_i ne
        by_cases h : k' = a
        · simp [h, Ne.symm ne]
        · simp [lookup_cons_eq_ite, lookup_insertEntries k k' v rest, h]

/-- Insertion binds its key and leaves every other key alone. -/
theorem get?_insert (d : Dict α) (k k' : String) (v : α) :
    (d.insert k v).get? k' = if k' = k then some v else d.get? k' :=
  lookup_insertEntries k k' v d.entries

/-- The dictionary of some pairs: of two with one key the later counts. -/
def ofList (l : List (String × α)) : Dict α := l.foldl (fun d e => d.insert e.1 e.2) empty

end Dict

end NicTuning
