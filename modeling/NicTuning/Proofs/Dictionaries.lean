import Mathlib.Data.List.Sort
import NicTuning.Dict

/-!
# Dictionaries by their entries

A dictionary is determined by its view, and it holds a value under a key if it has the entry of the
two. So it can be made up from its entries in any order.
-/
namespace NicTuning

variable {α : Type}

namespace Dict

theorem nodup_keys (d : Dict α) : (d.entries.map Prod.fst).Nodup := by
  refine List.pairwise_map.2 (d.increasing.imp ?_)
  intro e e' hlt heq
  rw [heq] at hlt
  exact String.lt_irrefl _ hlt

theorem get?_eq_some_iff {d : Dict α} {k : String} {v : α} :
    d.get? k = some v ↔ (k, v) ∈ d.entries := Pairs.lookup_eq_some_iff d.nodup_keys

theorem mem_of_get? {d : Dict α} {k : String} {v : α} (h : d.get? k = some v) :
    (k, v) ∈ d.entries := get?_eq_some_iff.1 h

/-- Ordered entries are determined by which entries there are. -/
theorem eq_of_mem_iff {l l' : List (String × α)} (h : l.Pairwise fun e e' => e.1 < e'.1)
    (h' : l'.Pairwise fun e e' => e.1 < e'.1) (hm : ∀ e, e ∈ l ↔ e ∈ l') : l = l' := by
  have : Std.Irrefl fun e e' : String × α => e.1 < e'.1 := ⟨fun e => String.lt_irrefl e.1⟩
  have : Std.Antisymm fun e e' : String × α => e.1 < e'.1 :=
    ⟨fun e e' h h' => absurd (String.lt_trans h h') (String.lt_irrefl e.1)⟩
  exact List.Pairwise.eq_of_mem_iff h h' hm

/-- Dictionaries with one view are equal. -/
theorem ext_get? {d d' : Dict α} (h : ∀ k, d.get? k = d'.get? k) : d = d' := by
  apply ext
  apply eq_of_mem_iff d.increasing d'.increasing
  rintro ⟨k, v⟩
  rw [← get?_eq_some_iff, ← get?_eq_some_iff, h k]

/-- Looking up ordered keys goes through the entries that have one of them. -/
theorem filterMap_get? (d : Dict α) {ks : List String} (h : ks.Pairwise (· < ·)) :
    ks.filterMap (fun k => (d.get? k).map (Prod.mk k)) =
      d.entries.filter fun e => ks.contains e.1 := by
  apply eq_of_mem_iff
  · refine h.filterMap _ ?_
    intro k k' hlt e he e' he'
    obtain ⟨_, _, rfl⟩ := Option.map_eq_some_iff.1 he
    obtain ⟨_, _, rfl⟩ := Option.map_eq_some_iff.1 he'
    exact hlt
  · exact d.increasing.filter _
  · rintro ⟨k, v⟩
    simp only [List.mem_filterMap, Option.map_eq_some_iff, get?_eq_some_iff, List.mem_filter,
      List.contains_eq_mem, decide_eq_true_eq, Prod.mk.injEq]
    constructor
    · rintro ⟨k', hk, v', hv, rfl, rfl⟩
      exact ⟨hv, hk⟩
    · rintro ⟨hv, hk⟩
      exact ⟨k, hk, v, hv, rfl, rfl⟩

theorem mem_keys_iff {d : Dict α} {k : String} : k ∈ d.keys ↔ d.contains k = true := by
  unfold keys contains get?
  rw [Option.isSome_iff_ne_none, ne_eq, Pairs.lookup_eq_none_iff, Decidable.not_not]

theorem mem_keys_ofList {l : List (String × α)} {k : String} :
    k ∈ (ofList l).keys ↔ k ∈ l.map Prod.fst := by
  have hfold : ∀ (l : List (String × α)) (d : Dict α),
      (l.foldl (fun d e => d.insert e.1 e.2) d).contains k = true ↔
        d.contains k = true ∨ k ∈ l.map Prod.fst := by
    intro l
    induction l with
    | nil => simp
    | cons e rest ih =>
      intro d
      rw [List.foldl_cons, ih, List.map_cons, List.mem_cons]
      unfold contains
      rw [get?_insert]
      by_cases hk : k = e.1 <;> simp [hk]
  rw [mem_keys_iff]
  exact (hfold l empty).trans (or_iff_right (by simp [contains, get?, empty]))

/-- Of entries with distinct keys none is lost in a dictionary. -/
theorem get?_foldl_insert {l : List (String × α)} (h : (l.map Prod.fst).Nodup) (d : Dict α)
    (k : String) :
    (l.foldl (fun d e => d.insert e.1 e.2) d).get? k = (l.lookup k).or (d.get? k) := by
  induction l generalizing d with
  | nil => rfl
  | cons e l ih =>
    obtain ⟨hnot, hrest⟩ := List.nodup_cons.1 h
    rw [List.foldl_cons, ih hrest, get?_insert, Pairs.lookup_cons_eq_ite]
    by_cases hk : k = e.1
    · rw [if_pos hk, if_pos hk, Pairs.lookup_eq_none_iff.2 (hk ▸ hnot)]
      rfl
    · rw [if_neg hk, if_neg hk]

theorem get?_ofList {l : List (String × α)} (h : (l.map Prod.fst).Nodup) (k : String) :
    (ofList l).get? k = l.lookup k := by
  unfold ofList
  rw [get?_foldl_insert h]
  exact Option.or_none

/-- Entering the entries of a dictionary in any order makes up the dictionary. -/
theorem ofList_of_perm {l : List (String × α)} {d : Dict α} (h : l.Perm d.entries) :
    ofList l = d := by
  have hnodup : (l.map Prod.fst).Nodup := (h.map Prod.fst).nodup_iff.2 d.nodup_keys
  apply ext_get?
  intro k
  apply Option.ext
  intro v
  rw [get?_ofList hnodup, Pairs.lookup_eq_some_iff hnodup, get?_eq_some_iff, h.mem_iff]

theorem ofList_entries (d : Dict α) : ofList d.entries = d := ofList_of_perm (.refl _)

end Dict

end NicTuning
