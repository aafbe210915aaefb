import NicTuning.Proofs.Rewriting

/-!
# Outstanding changes

Calls that change attributes and calls that take changes back, in any order and under any keys,
leave some changes outstanding. Main statement: undoing a key writes each of its outstanding changes
back once, attribute by attribute, the last one first, whatever fails, and removes the entry of the
key and no other.
-/
namespace NicTuning

/-! ## Histories -/

/-- A change of an attribute and the key under which it was noted. -/
structure Noted where
  key : String
  name : String
  change : SettingChange
  deriving DecidableEq

namespace Noted

/-- The step that takes the change back. -/
def takeBack (n : Noted) : Remedy := Layer.writeBack n.name n.change

/-- The changes under a key with their attributes. -/
def pairsUnder (key : String) (notes : List Noted) : List (String × SettingChange) :=
  (notes.filter (·.key = key)).map fun n => (n.name, n.change)

/-- The steps that take back what is noted under a key: the attributes from the last to the first,
in the order of their first changes, and the changes of each from the last to the first. -/
def takeBacks (key : String) (notes : List Noted) : List Remedy :=
  let names := ((notes.filter (·.key = key)).map Noted.name).eraseDups
  names.reverse.flatMap fun name =>
    (notes.filter fun n => n.key = key ∧ n.name = name).reverse.map takeBack

/-- The steps for one attribute, from the changes of it. -/
theorem map_writeBack_pairsUnder (key name : String) (notes : List Noted) :
    ((pairsUnder key notes).filterMap fun p => if p.1 = name then some p.2 else none).map
        (Layer.writeBack name) =
      (notes.filter fun n => n.key = key ∧ n.name = name).map takeBack := by
  induction notes with
  | nil => rfl
  | cons n rest ih =>
    unfold pairsUnder at ih ⊢
    by_cases hkey : n.key = key
    · by_cases hname : n.name = name
      · simpa [hkey, hname, takeBack] using ih
      · simpa [hkey, hname] using ih
    · simpa [hkey] using ih

end Noted

/-- A call that changes an attribute of some devices, or takes back all its changes under a key. The
bench is the one on which the call is made: anything may have happened since the call before. -/
inductive Call
  | change (key name : String) (targets : List Target) (bench : Bench)
  | restore (key name : String) (bench : Bench)

/-- The ledger after a call. -/
def Call.carryOut (l : Ledger) : Call → Ledger
  | change key name targets b => (Layer.changeSettings key name targets (b, l)).2.2
  | restore key name b => (Layer.restoreSetting key name (b, l)).2.2

/-- The changes that are outstanding after some calls, given those that were before, the oldest
first. They are told from what the calls did to the devices and not from any ledger. -/
inductive Outstanding : List Noted → List Call → List Noted → Prop
  | done {notes} : Outstanding notes [] notes
  | change {notes notes' key name targets b b' made result calls}
      (here : Rewrites b (rewrites name targets) made result b')
      (later : Outstanding (notes ++ made.map fun p => ⟨key, p.1, p.2⟩) calls notes') :
      Outstanding notes (.change key name targets b :: calls) notes'
  | restore {notes notes' key name b calls}
      (later : Outstanding (notes.filter fun n => ¬(n.key = key ∧ n.name = name)) calls notes') :
      Outstanding notes (.restore key name b :: calls) notes'

/-! ## Ledgers that hold a history -/

namespace SettingChanges

/-- Without an attribute there is what came of the changes of the others. -/
theorem erase_pushAll (pairs : List (String × SettingChange)) (changes : SettingChanges)
    (name : String) : (changes.pushAll pairs).erase name =
      pushAll (changes.erase name) (pairs.filter (·.1 ≠ name)) := by
  induction pairs generalizing changes with
  | nil => rfl
  | cons p rest ih =>
    have hcons : changes.pushAll (p :: rest) = (changes.push p.1 p.2).pushAll rest := rfl
    rw [hcons, ih]
    unfold push
    rw [Register.erase_insert]
    by_cases hp : p.1 = name
    · rw [if_pos hp, List.filter_cons_of_neg (by simpa using hp)]
    · have hget : Register.get? (Register.erase changes name) p.1 = changes.get? p.1 := by
        rw [Register.get?_erase, if_neg hp]
      rw [if_neg hp, List.filter_cons_of_pos (by simpa using hp), ← hget]
      rfl

/-- No change is lost and none is there twice. -/
theorem perm_pushAll (pairs : List (String × SettingChange)) (changes : SettingChanges) :
    ((changes.pushAll pairs).entries.flatMap fun e => e.2.map (Prod.mk e.1)).Perm
      ((changes.entries.flatMap fun e => e.2.map (Prod.mk e.1)) ++ pairs) := by
  induction pairs generalizing changes with
  | nil => simp [pushAll]
  | cons p rest ih =>
    have hone := perm_insertEntries p.1 p.2 changes.entries
    have hrest := (ih (changes.push p.1 p.2)).trans (hone.append_right rest)
    rw [List.append_assoc] at hrest
    exact hrest

end SettingChanges

/-- An attribute without changes under the key stays as it is. -/
theorem Layer.restoreSetting_of_none {l : Ledger} {key name : String}
    (h : (l.settingsOf key).get? name = none) (b : Bench) :
    restoreSetting key name (b, l) = (.ok (), b, l) := by
  have htake : l.takeSetting key name = (none, l) := by
    unfold Ledger.takeSetting
    unfold Ledger.settingsOf at h
    cases hs : l.settings? key with
    | none => rfl
    | some changes =>
      rw [hs, Option.getD_some] at h
      simp only [h]
  unfold restoreSetting
  rw [ActionM.bind_apply]
  unfold NotingM.takeNote
  dsimp only
  rw [htake]
  rfl

/-- Every change of an attribute can be taken back. -/
theorem Entry.filterMap_remedy?_settings (changes : SettingChanges) :
    (Entry.settings changes).changes.filterMap Change.remedy? =
      (changes.entries.flatMap fun e => e.2.map (Prod.mk e.1)).map
        fun p => Layer.writeBack p.1 p.2 := by
  unfold Entry.changes
  rw [List.filterMap_flatMap, List.map_flatMap]
  apply List.flatMap_congr
  intro e _
  rw [List.filterMap_map, List.map_map]
  exact List.filterMap_eq_map_iff_forall_eq_some.2 fun _ _ => rfl

namespace Ledger

/-- The entry for changes of attributes, if there are any. -/
def entryOf? (pairs : List (String × SettingChange)) : Option Entry :=
  if pairs = [] then none else some (.settings (SettingChanges.pushAll .empty pairs))

/-- The ledger has under each key what is noted there, and nothing else. -/
def Holds (l : Ledger) (notes : List Noted) : Prop :=
  ∀ key, l.get? key = entryOf? (Noted.pairsUnder key notes)

namespace Holds

variable {l : Ledger} {notes : List Noted} {key name : String}

theorem empty : Holds .empty [] := by
  intro key
  rfl

theorem get?_of_ne_nil (h : l.Holds notes) (hne : Noted.pairsUnder key notes ≠ []) :
    l.get? key = some (.settings (SettingChanges.pushAll .empty (Noted.pairsUnder key notes))) := by
  rw [h key, entryOf?, if_neg hne]

theorem get?_of_eq_nil (h : l.Holds notes) (hnil : Noted.pairsUnder key notes = []) :
    l.get? key = none := by
  rw [h key, entryOf?, if_pos hnil]

theorem settingsOf_eq (h : l.Holds notes) (key : String) :
    l.settingsOf key = SettingChanges.pushAll .empty (Noted.pairsUnder key notes) := by
  rw [Ledger.settingsOf_eq]
  by_cases hnil : Noted.pairsUnder key notes = []
  · rw [h.get?_of_eq_nil hnil, hnil]
    rfl
  · rw [h.get?_of_ne_nil hnil]
    rfl

theorem takesSettings (h : l.Holds notes) (key : String) : l.TakesSettings key := by
  intro entry he
  by_cases hnil : Noted.pairsUnder key notes = []
  · rw [h.get?_of_eq_nil hnil] at he
    cases he
  · rw [h.get?_of_ne_nil hnil] at he
    exact ⟨_, (Option.some.inj he).symm⟩

/-- What is written is noted last. -/
theorem pushAll (h : l.Holds notes) (key : String) (made : List (String × SettingChange)) :
    (l.pushAll key made).Holds (notes ++ made.map fun p => ⟨key, p.1, p.2⟩) := by
  intro k
  have hpairs : Noted.pairsUnder k (notes ++ made.map fun p => ⟨key, p.1, p.2⟩) =
      Noted.pairsUnder k notes ++ if k = key then made else [] := by
    unfold Noted.pairsUnder
    rw [List.filter_append, List.map_append, List.filter_map]
    by_cases hk : k = key
    · simp [hk, Function.comp_def]
    · simp [hk, Ne.symm hk, Function.comp_def]
  rw [get?_pushAll, hpairs]
  by_cases hk : k = key
  · subst hk
    by_cases hmade : made = []
    · rw [if_neg fun hc => hc.2 hmade, hmade, if_pos rfl, List.append_nil, h k]
    · rw [if_pos ⟨rfl, hmade⟩, if_pos rfl, h.settingsOf_eq, entryOf?,
        if_neg fun hc => hmade (List.append_eq_nil_iff.1 hc).2, SettingChanges.pushAll_append]
  · rw [if_neg fun hc => hk hc.1, if_neg hk, List.append_nil, h k]

theorem pairsUnder_filter (key name k : String) (notes : List Noted) :
    Noted.pairsUnder k (notes.filter fun n => ¬(n.key = key ∧ n.name = name)) =
      if k = key then (Noted.pairsUnder k notes).filter (·.1 ≠ name)
      else Noted.pairsUnder k notes := by
  unfold Noted.pairsUnder
  rw [List.filter_filter]
  by_cases hk : k = key
  · rw [if_pos hk, List.filter_map, List.filter_filter]
    congr 1
    apply List.filter_congr
    intro n _
    by_cases hn : n.key = key <;> simp [hk, hn]
  · rw [if_neg hk]
    congr 1
    apply List.filter_congr
    intro n _
    by_cases hn : n.key = k
    · simp [hn, hk]
    · simp [hn]

/-- What is taken back is not noted any more. -/
theorem restoreSetting (h : l.Holds notes) (key name : String) (b : Bench) :
    Holds (Layer.restoreSetting key name (b, l)).2.2
      (notes.filter fun n => ¬(n.key = key ∧ n.name = name)) := by
  intro k
  rw [pairsUnder_filter]
  cases htaken : (l.settingsOf key).get? name with
  | none =>
    -- There is nothing to take back, so nothing happens and nothing is filtered out.
    have hledger : (Layer.restoreSetting key name (b, l)).2.2 = l := by
      rw [Layer.restoreSetting_of_none htaken b]
    have hfilter : (Noted.pairsUnder key notes).filter (·.1 ≠ name) =
        Noted.pairsUnder key notes := by
      rw [h.settingsOf_eq] at htaken
      have hget := SettingChanges.get?_pushAll .empty (Noted.pairsUnder key notes) name
      rw [htaken] at hget
      rw [List.filter_eq_self]
      intro p hp
      have hnone := List.filterMap_eq_nil_iff.1 hget.symm p hp
      by_cases hname : p.1 = name
      · simp [hname] at hnone
      · simpa using hname
    rw [hledger, h k]
    by_cases hk : k = key
    · rw [if_pos hk, hk, hfilter]
    · rw [if_neg hk]
  | some taken =>
    have hne : Noted.pairsUnder key notes ≠ [] := by
      intro hnil
      rw [h.settingsOf_eq, hnil] at htaken
      cases htaken
    have hget := h.get?_of_ne_nil hne
    rw [h.settingsOf_eq] at htaken
    rw [Layer.restoreSetting_apply hget htaken]
    change (l.without key name _).get? k = _
    have hempty : Register.erase (.empty : SettingChanges) name = .empty := rfl
    rw [get?_without, SettingChanges.erase_pushAll, hempty, SettingChanges.isEmpty_pushAll]
    by_cases hk : k = key
    · rw [if_pos hk, if_pos hk, hk, entryOf?]
      simp only [List.isEmpty_iff]
    · rw [if_neg hk, if_neg hk, h k]

/-- Whatever calls were made, the ledger holds what they left outstanding. -/
theorem carryOut (h : l.Holds notes) (calls : List Call) :
    ∃ notes', Outstanding notes calls notes' ∧ Holds (calls.foldl Call.carryOut l) notes' := by
  induction calls generalizing l notes with
  | nil => exact ⟨notes, .done, h⟩
  | cons call rest ih =>
    cases call with
    | change key name targets b =>
      obtain ⟨made, hmade, hledger⟩ :=
        Layer.changeSettings_rewrites name targets b (h.takesSettings key)
      obtain ⟨notes', hout, hholds⟩ := ih (h.pushAll key made)
      rw [← hledger] at hholds
      exact ⟨notes', .change hmade hout, hholds⟩
    | restore key name b =>
      obtain ⟨notes', hout, hholds⟩ := ih (h.restoreSetting key name b)
      exact ⟨notes', .restore hout, hholds⟩

/-- The steps that the ledger leads to are those that its history asks for. -/
theorem remedies_eq (h : l.Holds notes) (key : String) :
    l.remedies key = Noted.takeBacks key notes := by
  by_cases hnil : Noted.pairsUnder key notes = []
  · rw [remedies_of_get? (h.get?_of_eq_nil hnil)]
    unfold Noted.takeBacks
    rw [List.map_eq_nil_iff.1 hnil]
    rfl
  · have hkeys : Register.keys (SettingChanges.pushAll .empty (Noted.pairsUnder key notes)) =
        ((notes.filter (·.key = key)).map Noted.name).eraseDups := by
      rw [SettingChanges.keys_pushAll]
      simp [Noted.pairsUnder, Register.keys, Register.empty, Function.comp_def]
    rw [Layer.remedies_of_settings (h.get?_of_ne_nil hnil), hkeys]
    apply List.flatMap_congr
    intro name _
    rw [SettingChanges.get?_pushAll, List.map_reverse, List.map_reverse]
    exact congrArg List.reverse (Noted.map_writeBack_pairsUnder key name notes)

/-- No step is left out and none is there twice. -/
theorem perm_takeBacks (h : l.Holds notes) (key : String) :
    (Noted.takeBacks key notes).Perm ((notes.filter (·.key = key)).map Noted.takeBack) := by
  rw [← h.remedies_eq key]
  by_cases hnil : Noted.pairsUnder key notes = []
  · rw [remedies_of_get? (h.get?_of_eq_nil hnil), List.map_eq_nil_iff.1 hnil]
    exact .nil
  · have hperm := (SettingChanges.perm_pushAll (Noted.pairsUnder key notes) .empty).map
      fun p => Layer.writeBack p.1 p.2
    have htakeBacks : (Noted.pairsUnder key notes).map (fun p => Layer.writeBack p.1 p.2) =
        (notes.filter (·.key = key)).map Noted.takeBack := by
      unfold Noted.pairsUnder
      rw [List.map_map]
      rfl
    rw [remedies_of_get? (h.get?_of_ne_nil hnil), Option.elim_some, ← htakeBacks]
    refine ((List.reverse_perm _).filterMap _).trans ?_
    rw [← Entry.filterMap_remedy?_settings] at hperm
    exact hperm

/-- There are steps to try wherever there is an entry. -/
theorem takeBacks_eq_nil_iff (h : l.Holds notes) (key : String) :
    Noted.takeBacks key notes = [] ↔ l.contains key = false := by
  have hperm := h.perm_takeBacks key
  rw [Register.contains, h key, entryOf?]
  by_cases hnil : Noted.pairsUnder key notes = []
  · rw [List.map_eq_nil_iff.1 hnil] at hperm
    simp [hnil, hperm.eq_nil]
  · have hne : Noted.takeBacks key notes ≠ [] := by
      intro hnone
      rw [hnone] at hperm
      apply hnil
      exact List.map_eq_nil_iff.2 (List.map_eq_nil_iff.1 hperm.symm.eq_nil)
    simp [hnil, hne]

/-- Undoing a key tries the steps that its history asks for, and removes its entry. -/
theorem restoreSettings (h : l.Holds notes) (key : String) (b : Bench) :
    Layer.restoreSettings key (b, l) =
      (verdict (Remedy.tryAll (Noted.takeBacks key notes) b).1,
        (Remedy.tryAll (Noted.takeBacks key notes) b).2, l.erase key) := by
  by_cases hnil : Noted.pairsUnder key notes = []
  · have hget := h.get?_of_eq_nil hnil
    have hcontains : l.contains key = false := by rw [Register.contains, hget]; rfl
    rw [(h.takeBacks_eq_nil_iff key).2 hcontains, Register.erase_of_get? hget,
      Layer.restoreSettings_apply, Ledger.settings?_eq, hget]
    rfl
  · have hget := h.get?_of_ne_nil hnil
    have hempty : (SettingChanges.pushAll .empty (Noted.pairsUnder key notes)).isEmpty = false := by
      rw [SettingChanges.isEmpty_pushAll, List.isEmpty_eq_false_iff]
      exact hnil
    obtain ⟨hresult, hbench⟩ := Layer.restoreSettings_tries_of_get? hget b
    obtain ⟨-, hledger⟩ := Layer.restoreSettings_of_get? hget hempty b
    rw [h.remedies_eq key] at hresult hbench
    exact Prod.ext hresult (Prod.ext hbench hledger)

end Holds

end Ledger

/-- Whatever calls were made on whatever benches, undoing a key tries every change that is
outstanding under it once: it writes back what the device had before, attribute by attribute from
the last to the first, and the last change of each first. All are tried whatever becomes of the
others, and the first fault is the fault of all. The entry of the key is gone then, and the others
are as they were. Where there is no entry there is nothing to try. -/
theorem Layer.restoreSettings_takes_back (calls : List Call) :
    let l := calls.foldl Call.carryOut .empty
    ∃ notes, Outstanding [] calls notes ∧ l.Holds notes ∧ ∀ key b, ∃ results b' l',
      Remedy.tryAll (Noted.takeBacks key notes) b = (results, b') ∧
      restoreSettings key (b, l) = (verdict results, b', l') ∧
      l'.entries = l.entries.filter (·.1 ≠ key) ∧
      (Noted.takeBacks key notes).Perm ((notes.filter (·.key = key)).map Noted.takeBack) ∧
      (Noted.takeBacks key notes = [] ↔ l.contains key = false) := by
  intro l
  obtain ⟨notes, hout, hholds⟩ := Ledger.Holds.empty.carryOut calls
  refine ⟨notes, hout, hholds, ?_⟩
  intro key b
  refine ⟨_, _, l.erase key, rfl, hholds.restoreSettings key b, ?_, hholds.perm_takeBacks key,
    hholds.takeBacks_eq_nil_iff key⟩
  unfold Register.erase
  apply List.filter_congr
  intro e _
  by_cases he : e.1 = key <;> simp [he]

end NicTuning
