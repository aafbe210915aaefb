import NicTuning.Proofs.Restoring

/-!
# Runs

Main statement: after a run, whatever failed in it, every attribute in memory that was written has
the value from before the run if its device takes writes by then, every other attribute is as it was
left, and the ledger is empty.
-/
namespace NicTuning

/-- What a run does to the devices in memory: on the bench that was configured from the first one
with the given events, on the one that was left to be restored, and on the last one. -/
structure Undone (events : List Event) (b configured left restored : Bench) : Prop where
  configured_link : ∀ address, (configured.memory address).up = (b.memory address).up ∧
    (configured.memory address).readOnly = (b.memory address).readOnly
  configured_names : ∀ address name, ((configured.memory address).values name).isSome =
    ((b.memory address).values name).isSome
  configured_others : ∀ address name, ¬Bench.Wrote events address name →
    (configured.memory address).values name = (b.memory address).values name
  restored_link : ∀ address, (restored.memory address).up = (left.memory address).up
  restored_readOnly : ∀ address, (left.memory address).readOnly = true →
    restored.memory address = left.memory address
  restored_written : ∀ address name, (left.memory address).readOnly = false →
    Bench.Wrote events address name →
      ∃ value, (b.memory address).values name = some value ∧
        (restored.memory address).values name = some value
  restored_others : ∀ address name, ¬Bench.Wrote events address name →
    (restored.memory address).values name = (left.memory address).values name

/-- A course and the settling of what it owes undo each other. -/
theorem Course.undone {b configured left restored : Bench} {cs : List Change}
    {events : List Event} (h : Course b cs configured) (hp : ∀ c ∈ cs, c.IsPlain)
    (hb : configured = b.after events)
    (hr : Restores (fun address name => cs.findSome? (Change.found? address name)) left restored) :
    Undone events b configured left restored where
  configured_link := h.link_eq
  configured_names address name := by
    have hv := h.value_eq address name
    split at hv
    · rw [hv.1, hv.2]
      rfl
    · rw [hv]
  configured_others address name hn := by
    have hv := h.value_eq address name
    rw [h.wrote_iff hp hb, Option.not_isSome_iff_eq_none] at hn
    rw [hn] at hv
    exact hv
  restored_link address := (hr address).1
  restored_readOnly address hro := by
    obtain ⟨hup, hro', hv⟩ := hr address
    have hvalues : (restored.memory address).values = (left.memory address).values :=
      funext fun name => by rw [hv name, hro, if_pos rfl]
    calc restored.memory address
        = ⟨(restored.memory address).values, (restored.memory address).up,
            (restored.memory address).readOnly⟩ := rfl
      _ = ⟨(left.memory address).values, (left.memory address).up,
            (left.memory address).readOnly⟩ := by rw [hvalues, hup, hro']
      _ = left.memory address := rfl
  restored_written address name hro hw := by
    have hv := h.value_eq address name
    rw [h.wrote_iff hp hb, Option.isSome_iff_exists] at hw
    obtain ⟨value, hf⟩ := hw
    rw [hf] at hv
    refine ⟨value, hv.1, ?_⟩
    have hr := (hr address).2.2 name
    dsimp only at hr
    rw [hr, hro, hf]
    rfl
  restored_others address name hn := by
    rw [h.wrote_iff hp hb, Option.not_isSome_iff_eq_none] at hn
    have hr := (hr address).2.2 name
    dsimp only at hr
    rw [hr, hn]
    split <;> rfl

namespace Stack

/-- The bench as the body of a run leaves it, or the configuring if the body is not carried out. -/
def leftBy {α : Type} (s : Stack) (body : BenchM α) (b : Bench) : Bench :=
  match s.configure (b, .empty) with
  | (.ok (), b, _) => (body b).2
  | (.error _, b, _) => b

theorem run_apply {α : Type} (s : Stack) (body : BenchM α) (b : Bench) :
    s.run body (b, .empty) =
      (⟨(s.configure (b, .empty)).1 >>= fun _ => (body (s.configure (b, .empty)).2.1).1,
        (restore s (s.leftBy body b, (s.configure (b, .empty)).2.2)).1⟩,
        (restore s (s.leftBy body b, (s.configure (b, .empty)).2.2)).2) := by
  unfold run leftBy
  dsimp only
  rw [ActionM.bind_apply]
  rcases s.configure (b, .empty) with ⟨fault | ⟨⟩, b', l'⟩ <;> rfl

/-- Whatever entry there is after configuring, a layer of the stack undoes it. -/
theorem undoes_of_contains (s : Stack) (b : Bench) (key : String)
    (h : (s.configure (b, .empty)).2.2.contains key = true) :
    s.reverse.any (·.undoes key) = true := by
  obtain ⟨took, ht, -, hl, hk⟩ := configure_turns s b .empty
  rw [hl, Ledger.contains_foldl_note] at h
  have hc : (took.map Prod.snd).any (·.key = key) = true := h
  obtain ⟨c, hm, he⟩ := List.any_eq_true.1 hc
  obtain ⟨t, hmem, rfl⟩ := List.mem_map.1 hm
  refine List.any_eq_true.2 ⟨t.1, List.mem_reverse.2 (ht.mem t hmem), ?_⟩
  rw [← of_decide_eq_true he]
  exact (hk t hmem).undone

/-- After a run every attribute that was written has its old value if its device takes writes by
then, nothing else is changed by it, the ledger is empty, and the layers that had an entry are those
that were restored or failed to be. -/
theorem run_undoes_changes {α : Type} (s : Stack) (body : BenchM α) (b : Bench) :
    ∃ events, (s.configure (b, .empty)).2.1 = b.after events ∧
      Undone events b (s.configure (b, .empty)).2.1 (s.leftBy body b)
        (s.run body (b, .empty)).2.1 ∧
      (s.run body (b, .empty)).2.2 = .empty ∧
      (s.run body (b, .empty)).1.result =
        ((s.configure (b, .empty)).1 >>= fun _ => (body (s.configure (b, .empty)).2.1).1) ∧
      ∀ key, key ∈ (s.run body (b, .empty)).1.undoing.keys ↔
        (s.configure (b, .empty)).2.2.contains key = true := by
  obtain ⟨took, ht, hc, hl, hk⟩ := configure_turns s b .empty
  have hplain := plain_of_owns hk
  have hsound := s.sound_configure b
  have hundoes := s.undoes_of_contains b
  obtain ⟨events, hb, -⟩ := hc.successes hplain
  rw [run_apply]
  generalize hconf : s.configure (b, .empty) = configured at *
  obtain ⟨result, configured, l⟩ := configured
  obtain ⟨hr, hgone⟩ := restoreAll_restores s.reverse .none (s.leftBy body b) l hsound
  refine ⟨events, hb, ?_, ?_, rfl, fun key => ?_⟩
  · refine hc.undone hplain hb (hr.congr fun address name => ?_)
    have howed : l.owed address name =
        (took.map Prod.snd).findSome? (Change.found? address name) := by
      rw [show l = _ from hl, Ledger.owed_foldl_note]
      rfl
    rw [← howed]
    split
    · rfl
    · rename_i hn
      have hno : l.contains (settingKey name) = false :=
        Bool.eq_false_iff.2 fun h => hn (hundoes _ h)
      unfold Ledger.owed
      rw [Ledger.settings?_eq, Register.get?_eq_none hno]
      rfl
  · refine Register.eq_empty_of_get? fun key => ?_
    rw [show restore s _ = restoreAll .none s.reverse _ from rfl, hgone key]
    split
    · rfl
    · rename_i hn
      exact Register.get?_eq_none (Bool.eq_false_iff.2 fun h => hn (hundoes _ h))
  · rw [show restore s _ = restoreAll .none s.reverse _ from rfl,
      mem_keys_restoreAll _ _ _ _ hsound]
    constructor
    · rintro (h | h)
      · cases h
      · exact h.1
    · intro h
      obtain ⟨layer, hm, hu⟩ := List.any_eq_true.1 (hundoes _ h)
      exact .inr ⟨h, layer, hm, Layer.key_of_undoes hu⟩

end Stack

end NicTuning
