import NicTuning.Proofs.Undoing

/-!
# Leftovers

A ledger can also hold what no layer would enter: an entry of another kind than that of the layer
with its key, or one of changed attributes without any. Restoring a stack does nothing for such an
entry and leaves it where it is, but reports its key as restored.

Main statement: of the keys that are reported as restored those with an entry that can be taken out
are gone, and all their steps succeeded; the others still have their entry.
-/
namespace NicTuning

theorem firstFault_eq_none_iff {results : List (Except Fault Unit)} :
    firstFault results = none ↔ ∀ r ∈ results, r = .ok () := by
  unfold firstFault
  rw [List.findSome?_eq_none_iff]
  refine forall_congr' fun r => imp_congr_right fun _ => ?_
  rcases r with fault | ⟨⟩
  · exact iff_of_false (fun h => by cases h) fun h => by cases h
  · exact iff_of_true rfl rfl

theorem Undoing.mem_restored_ofTries {tries : List (String × List (Except Fault Unit))}
    {key : String} : key ∈ (ofTries tries).restored ↔
      ∃ results, (key, results) ∈ tries ∧ ∀ r ∈ results, r = .ok () := by
  unfold ofTries
  simp [firstFault_eq_none_iff]

/-- What became of a key are the results of all its steps, on some bench on the way. -/
theorem Ledger.exists_of_mem_tryEntries {l : Ledger} {keys : List String} {b : Bench} {key : String}
    {results : List (Except Fault Unit)} (h : (key, results) ∈ (l.tryEntries keys b).1) :
    ∃ m, results = (Remedy.tryAll (l.remedies key) m).1 := by
  induction keys generalizing b with
  | nil => cases h
  | cons k rest ih =>
    rw [tryEntries_cons] at h
    rcases List.mem_cons.1 h with h | h
    · cases h
      exact ⟨b, rfl⟩
    · exact ih h

namespace Stack

/-- The keys of the entries that restoring takes out, in the order in which it does. -/
def dueOrder (s : Stack) (l : Ledger) : List String :=
  (s.keys.reverse.filter l.isDue).eraseDups

/-- What restoring layers leaves, if some entries are due and their steps were tried: these entries
are gone, and besides them the keys of all others are reported as restored. -/
structure Leaves (keys : List String) (u : Undoing) (l : Ledger)
    (tries : List (String × List (Except Fault Unit))) (u' : Undoing) (l' : Ledger) : Prop where
  get? : ∀ key, l'.get? key = if key ∈ keys ∧ l.isDue key = true then none else l.get? key
  failures : u'.failures = u.failures ++ (Undoing.ofTries tries).failures
  restored : ∀ key, key ∈ u'.restored ↔ key ∈ u.restored ∨ key ∈ (Undoing.ofTries tries).restored ∨
    key ∈ keys ∧ l.contains key = true ∧ l.isDue key = false

namespace Leaves

variable {keys : List String} {u u' : Undoing} {l l' : Ledger} {key : String}
  {tries : List (String × List (Except Fault Unit))}

theorem nil (u : Undoing) (l : Ledger) : Leaves [] u l [] u l where
  get? key := by rw [if_neg fun h => by cases h.1]
  failures := (List.append_nil _).symm
  restored key := by simp [Undoing.ofTries]

/-- Nothing is done for a key without an entry that is due, but it is reported if there is one. -/
theorem cons_of_not_due (hdue : l.isDue key = false)
    (h : Leaves keys
      (if l.contains key then { u with restored := u.restored ++ [key] } else u) l tries u' l') :
    Leaves (key :: keys) u l tries u' l' where
  get? k := by
    rw [h.get? k]
    refine if_congr ?_ rfl rfl
    rw [List.mem_cons, or_and_right, iff_or_self]
    rintro ⟨rfl, hk⟩
    rw [hdue] at hk
    cases hk
  failures := by
    rw [h.failures]
    split <;> rfl
  restored k := by
    rw [h.restored k, List.mem_cons]
    cases hc : l.contains key with
    | false =>
      rw [if_neg Bool.false_ne_true]
      refine or_congr_right (or_congr_right ?_)
      rw [or_and_right, iff_or_self]
      rintro ⟨rfl, hk, -⟩
      rw [hc] at hk
      cases hk
    | true =>
      rw [if_pos rfl, List.mem_append, List.mem_singleton, or_and_right]
      have hself : k = key ∧ l.contains k = true ∧ l.isDue k = false ↔ k = key := by
        refine and_iff_left_of_imp ?_
        rintro rfl
        exact ⟨hc, hdue⟩
      rw [hself]
      tauto

/-- The steps of an entry that is due are tried, and it is gone. -/
theorem cons_of_due (hdue : l.isDue key = true) {results : List (Except Fault Unit)}
    (h : Leaves keys (u.append (.ofTries [(key, results)])) (l.erase key) tries u' l') :
    Leaves (key :: keys) u l ((key, results) :: tries) u' l' where
  get? k := by
    rw [h.get? k, Ledger.isDue_erase, Register.get?_erase]
    by_cases hk : k = key
    · simp [hk, hdue]
    · simp [hk]
  failures := by
    rw [h.failures, Undoing.ofTries_cons (key, results) tries]
    exact List.append_assoc _ _ _
  restored k := by
    have hmem : k ∈ (u.append (.ofTries [(key, results)])).restored ↔
        k ∈ u.restored ∨ k ∈ (Undoing.ofTries [(key, results)]).restored := List.mem_append
    have hcons : k ∈ (Undoing.ofTries ((key, results) :: tries)).restored ↔
        k ∈ (Undoing.ofTries [(key, results)]).restored ∨ k ∈ (Undoing.ofTries tries).restored := by
      rw [Undoing.ofTries_cons (key, results) tries]
      exact List.mem_append
    rw [h.restored k, hmem, hcons, or_assoc, or_assoc, Register.contains_erase, Ledger.isDue_erase,
      List.mem_cons]
    by_cases hk : k = key
    · simp [hk, hdue]
    · simp [hk]

theorem gone (h : Leaves keys u l tries u' l') (hk : key ∈ keys) (hdue : l.isDue key = true) :
    l'.contains key = false := by
  have hget := h.get? key
  rw [if_pos ⟨hk, hdue⟩] at hget
  exact congrArg Option.isSome hget

theorem kept (h : Leaves keys u l tries u' l') (hdue : l.isDue key = false) :
    l'.get? key = l.get? key := by
  rw [h.get? key, if_neg]
  rintro ⟨-, hk⟩
  rw [hdue] at hk
  cases hk

end Leaves

/-- Restoring layers tries the steps of the entries that are due, key by key. -/
theorem restoreAll_leaves (layers : List Layer) (ht : ∀ layer ∈ layers, layer.IsTuning)
    (u : Undoing) (b : Bench) (l : Ledger) :
    let tries := l.tryDue (layers.map Layer.key) b
    (restoreAll u layers (b, l)).2.1 = tries.2 ∧
      Leaves (layers.map Layer.key) u l tries.1 (restoreAll u layers (b, l)).1
        (restoreAll u layers (b, l)).2.2 := by
  induction layers generalizing u b l with
  | nil => exact ⟨rfl, .nil u l⟩
  | cons layer rest ih =>
    have hlayer := ht layer (by simp)
    have hrest : ∀ layer ∈ rest, layer.IsTuning := fun other ho => ht other (by simp [ho])
    rw [restoreAll_step, List.map_cons]
    cases hdue : l.isDue layer.key with
    | false =>
      rw [restoreLayer_of_not_due hlayer hdue, Ledger.tryDue_cons_of_not_due hdue]
      obtain ⟨hbench, hleaves⟩ := ih hrest _ b l
      exact ⟨hbench, hleaves.cons_of_not_due hdue⟩
    | true =>
      rw [restoreLayer_of_due hlayer hdue, Ledger.tryDue_cons_of_due hdue]
      obtain ⟨hbench, hleaves⟩ := ih hrest
        (u.append (.ofTries [(layer.key, (Remedy.tryAll (l.remedies layer.key) b).1)]))
        (Remedy.tryAll (l.remedies layer.key) b).2 (l.erase layer.key)
      exact ⟨hbench, hleaves.cons_of_due hdue⟩

theorem mem_dueOrder {s : Stack} {l : Ledger} {key : String} :
    key ∈ s.dueOrder l ↔ key ∈ s.keys ∧ l.isDue key = true := by
  unfold dueOrder
  rw [List.mem_eraseDups, List.mem_filter, List.mem_reverse]

/-- What restoring a stack leaves. -/
theorem restore_leaves {s : Stack} (ht : ∀ layer ∈ s, layer.IsTuning) (l : Ledger) (b : Bench) :
    (s.restore (b, l)).2.1 = (l.tryEntries (s.dueOrder l) b).2 ∧
      Leaves s.keys.reverse .none l (l.tryEntries (s.dueOrder l) b).1 (s.restore (b, l)).1
        (s.restore (b, l)).2.2 := by
  have hall := restoreAll_leaves s.reverse (fun layer hm => ht layer (List.mem_reverse.1 hm))
    .none b l
  have hkeys : s.reverse.map Layer.key = s.keys.reverse := List.map_reverse
  rw [hkeys] at hall
  exact hall

/-- Whatever the ledger holds, restoring a stack tries the steps of the entries that are due and no
others. A key that is reported as restored had an entry. If that was due it is gone and all its
steps succeeded; otherwise it is there as it was, none of its steps was tried, and its key is
always reported. -/
theorem restore_keeps_leftovers {s : Stack} (ht : ∀ layer ∈ s, layer.IsTuning) (l : Ledger)
    (b : Bench) : ∃ tries b', l.tryEntries (s.dueOrder l) b = (tries, b') ∧
      (s.restore (b, l)).2.1 = b' ∧
      (s.restore (b, l)).1.failures = (Undoing.ofTries tries).failures ∧
      (∀ key ∈ (s.restore (b, l)).1.restored, ∃ entry, l.get? key = some entry ∧
        (entry.isDue key = true → (s.restore (b, l)).2.2.contains key = false ∧
          ∃ m, (key, (Remedy.tryAll (l.remedies key) m).1) ∈ tries ∧
            ∀ r ∈ (Remedy.tryAll (l.remedies key) m).1, r = .ok ()) ∧
        (entry.isDue key = false → (s.restore (b, l)).2.2.get? key = some entry ∧
          key ∉ tries.map Prod.fst)) ∧
      ∀ key ∈ s.keys, ∀ entry, l.get? key = some entry → entry.isDue key = false →
        key ∈ (s.restore (b, l)).1.restored := by
  obtain ⟨hbench, hleaves⟩ := restore_leaves ht l b
  refine ⟨_, _, rfl, hbench, hleaves.failures, fun key hkey => ?_, fun key hkey entry he hdue => ?_⟩
  · rcases (hleaves.restored key).1 hkey with hkey | hkey | ⟨-, hc, hdue⟩
    · cases hkey
    · obtain ⟨results, hmem, hok⟩ := Undoing.mem_restored_ofTries.1 hkey
      obtain ⟨m, rfl⟩ := Ledger.exists_of_mem_tryEntries hmem
      have horder := List.mem_map_of_mem (f := Prod.fst) hmem
      rw [Ledger.keys_tryEntries, mem_dueOrder] at horder
      obtain ⟨hkeys, hdue⟩ := horder
      obtain ⟨entry, he, hentry⟩ := (Option.any_eq_true _ _).1 hdue
      have hgone := hleaves.gone (List.mem_reverse.2 hkeys) hdue
      refine ⟨entry, he, fun _ => ⟨hgone, m, hmem, hok⟩, fun hnot => ?_⟩
      rw [hentry] at hnot
      cases hnot
    · obtain ⟨entry, he⟩ := Option.isSome_iff_exists.1 hc
      have hentry := (Ledger.isDue_of_get? he).symm.trans hdue
      refine ⟨entry, he, fun hnot => ?_, fun _ => ⟨(hleaves.kept hdue).trans he, ?_⟩⟩
      · rw [hentry] at hnot
        cases hnot
      · rw [Ledger.keys_tryEntries, mem_dueOrder, hdue]
        exact fun h => Bool.false_ne_true h.2
  · have hc : l.contains key = true := Option.isSome_iff_exists.2 ⟨entry, he⟩
    refine (hleaves.restored key).2 (.inr (.inr ⟨List.mem_reverse.2 hkey, hc, ?_⟩))
    rw [Ledger.isDue_of_get? he, hdue]

/-- One more changed size of a packet, on a device in memory. -/
def withChange (l : Ledger) (key device : String) : Ledger :=
  l.insert key (.settings (SettingChanges.push .empty "mtu"
    ⟨sampleDevice device, .number 1500, .number 9000⟩))

/-- The second change was entered under the key of the numbers of queues. -/
def mixedLedger : Ledger := withChange (withChange .empty "mtu" "eth0") Layer.Queues.key "eth1"

def mixedStack : Stack := [.mtu [sampleDevice "eth0"] (some 9000), .queues [] none]

/-- Of two keys that are reported as restored only the first one is gone. -/
theorem restore_keeps_leftovers_of_mixed_ledger :
    (∀ layer ∈ mixedStack, layer.IsTuning) ∧
    (mixedStack.restore (sampleBench false, mixedLedger)).1.restored = [Layer.Queues.key, "mtu"] ∧
    (mixedStack.restore (sampleBench false, mixedLedger)).2.2.contains "mtu" = false ∧
    (mixedStack.restore (sampleBench false, mixedLedger)).2.2.get? Layer.Queues.key =
      mixedLedger.get? Layer.Queues.key := by
  have ht : ∀ layer ∈ mixedStack, layer.IsTuning := by
    intro layer hm
    simp only [mixedStack, List.mem_cons, List.not_mem_nil, or_false] at hm
    rcases hm with rfl | rfl <;> trivial
  have hrestored : (mixedStack.restore (sampleBench false, mixedLedger)).1.restored =
      [Layer.Queues.key, "mtu"] := by decide +kernel
  obtain ⟨tries, b', -, -, -, hkeys, -⟩ :=
    restore_keeps_leftovers ht mixedLedger (sampleBench false)
  rw [hrestored] at hkeys
  obtain ⟨_, ⟨⟩, hdue, -⟩ := hkeys "mtu" (by simp)
  obtain ⟨_, ⟨⟩, -, hleft⟩ := hkeys Layer.Queues.key (by simp)
  exact ⟨ht, hrestored, (hdue rfl).1, (hleft rfl).1⟩

/-- An entry of attributes that was opened and in which none was ever changed is still there after
its key was reported as restored. -/
theorem empty_entry_reported_and_kept : ∃ l, Ledger.touch .empty "mtu" = .ok (.empty, l) ∧
    ¬∀ key ∈ (mixedStack.restore (sampleBench false, l)).1.restored,
      (mixedStack.restore (sampleBench false, l)).2.2.contains key = false := by
  refine ⟨_, rfl, fun h => ?_⟩
  have hgone := h "mtu" (by decide +kernel)
  revert hgone
  decide +kernel

end Stack

end NicTuning
