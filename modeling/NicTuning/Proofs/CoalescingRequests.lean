import NicTuning.Proofs.ProcessorChecks

/-!
# What is requested of interrupt coalescing

The keys of all settings are merged into one ordered list, and for each of them every device is
looked up, by its place. For a device that comes to the same as going through its own settings in
key order: nothing of another device gets in between, and the adaptive modes are kept apart.
-/
namespace NicTuning

namespace Layer.Coalescing

open Tuning.Coalescing (Toggle isToggleKey)
open Tuning (Settings)

/-! ## Adaptive modes -/

/-- An adaptive mode is at odds with the settings of a device: they give it too although it is given
by itself, or what they give is no flag. -/
def ClashesWith (t : Toggle) (settings : Option Settings) : Prop :=
  ∃ value, settings.bind (·.get? t.key) = some value ∧
    (t.explicit.isSome = true ∨ value.asFlag? = none)

theorem toggleValue_of_clashesWith {t : Toggle} {settings : Option Settings}
    (h : ClashesWith t settings) : ∃ fault, toggleValue t settings = .error fault := by
  obtain ⟨value, hvalue, hodds⟩ := h
  unfold toggleValue
  rw [hvalue]
  cases he : t.explicit with
  | some on => exact ⟨_, rfl⟩
  | none =>
    rw [he] at hodds
    rcases hodds with hodds | hodds
    · cases hodds
    · dsimp only
      rw [hodds]
      exact ⟨_, rfl⟩

theorem toggleValue_of_not_clashesWith {t : Toggle} {settings : Option Settings}
    (h : ¬ClashesWith t settings) : toggleValue t settings = .ok (mode t settings) := by
  unfold toggleValue mode
  cases hvalue : settings.bind (·.get? t.key) with
  | none => cases t.explicit <;> rfl
  | some value =>
    cases he : t.explicit with
    | some on => exact absurd ⟨value, hvalue, .inl (by simp [he])⟩ h
    | none =>
      cases hflag : value.asFlag? with
      | none => exact absurd ⟨value, hvalue, .inr hflag⟩ h
      | some on => simp [hflag]

/-- The adaptive modes and the settings of some device are at odds. -/
def Clashes (devices : List Device) (c : Tuning.Coalescing) : Prop :=
  ∃ i : Fin devices.length, ∃ t ∈ c.toggles, ClashesWith t (settingsFor c i)

/-! ## Requests -/

/-- The attributes to change and their values, device by device. -/
def requestsAt (devices : List Device) (c : Tuning.Coalescing) :
    List (String × List NicTuning.Target) :=
  c.toggles.map (fun t =>
      (t.name, devices.zipIdx.map fun (d, i) => (d, mode t (settingsFor c i)))) ++
    (settingKeys c).map (settingRequest devices c)

variable {devices : List Device} {c : Tuning.Coalescing}

theorem requests_of_not_clashes (h : ¬Clashes devices c) :
    requests devices c = .ok (requestsAt devices c) := by
  have htoggles : c.toggles.mapM (toggleRequest devices c) = .ok (c.toggles.map fun t =>
      (t.name, devices.zipIdx.map fun (d, i) => (d, mode t (settingsFor c i)))) := by
    apply Except.mapM_eq_ok
    intro t ht
    have hvalue : ∀ p ∈ devices.zipIdx, (do
          let value ← toggleValue t (settingsFor c p.2)
          return ((p.1, value) : NicTuning.Target)) =
        .ok (p.1, mode t (settingsFor c p.2)) := by
      rintro ⟨d, i⟩ hp
      obtain ⟨hi, -⟩ := List.getElem?_eq_some_iff.1 (List.mem_zipIdx_iff_getElem?.1 hp)
      rw [toggleValue_of_not_clashesWith fun hc => h ⟨⟨i, hi⟩, t, ht, hc⟩]
      rfl
    unfold toggleRequest
    dsimp only
    rw [Except.mapM_eq_ok hvalue]
    rfl
  unfold requests
  rw [htoggles]
  rfl

theorem requests_of_clashes (h : Clashes devices c) :
    ∃ fault, requests devices c = .error fault := by
  obtain ⟨i, t, ht, hclash⟩ := h
  obtain ⟨fault, hvalue⟩ := toggleValue_of_clashesWith hclash
  have hrequest : ∃ fault, toggleRequest devices c t = .error fault := by
    have hat : (devices[i], i.1) ∈ devices.zipIdx := by
      rw [List.mem_zipIdx_iff_getElem?]
      exact List.getElem?_eq_getElem i.2
    have hone : (do
          let value ← toggleValue t (settingsFor c i)
          return ((devices[i], value) : NicTuning.Target)) = .error fault := by
      rw [hvalue]
      rfl
    have htargets : ∃ fault, (devices.zipIdx.mapM fun (d, i) => do
          let value ← toggleValue t (settingsFor c i)
          return ((d, value) : NicTuning.Target)) = .error fault :=
      Except.exists_mapM_eq_error_iff.2 ⟨_, hat, fault, hone⟩
    obtain ⟨fault', htargets⟩ := htargets
    refine ⟨fault', ?_⟩
    unfold toggleRequest
    rw [htargets]
    rfl
  obtain ⟨fault', htoggles⟩ := Except.exists_mapM_eq_error_iff.2 ⟨t, ht, hrequest⟩
  refine ⟨fault', ?_⟩
  unfold requests
  rw [htoggles]
  rfl

/-- Parameters that are at odds are refused. -/
theorem not_clashes_of_ok {s s' : Bench × Ledger}
    (h : configure devices c s = (.ok (), s')) : ¬Clashes devices c := by
  intro hc
  obtain ⟨fault, hrequests⟩ := requests_of_clashes hc
  unfold configure at h
  rw [hrequests] at h
  cases h

theorem map_fst_of_mem_requestsAt {r : String × List NicTuning.Target}
    (hr : r ∈ requestsAt devices c) : r.2.map Prod.fst = devices := by
  unfold requestsAt at hr
  rcases List.mem_append.1 hr with hr | hr
  · obtain ⟨t, -, rfl⟩ := List.mem_map.1 hr
    simp [Function.comp_def]
  · obtain ⟨k, -, rfl⟩ := List.mem_map.1 hr
    simp [settingRequest, Function.comp_def]

/-! ## Device by device -/

/-- What is asked of a device with the given settings: the adaptive modes, and then the other
settings in key order. -/
def asked (c : Tuning.Coalescing) (settings : Option Settings) : List (String × Setting) :=
  c.toggles.filterMap (fun t => (mode t settings).map (Prod.mk t.name)) ++
    ((settings.elim [] Dict.entries).filter fun e => !isToggleKey e.1).map
      fun e => (Attribute.coalescingName e.1, e.2)

/-- What some requests ask of the device at a place. -/
def askedAt (rs : List (String × List NicTuning.Target)) (i : Nat) : List (String × Setting) :=
  rs.filterMap fun r => (r.2[i]?.bind Prod.snd).map (Prod.mk r.1)

theorem mem_settingKeys {k : String} : k ∈ settingKeys c ↔
    (∃ settings ∈ (c.settings.map Allotment.values).getD [], k ∈ settings.keys) ∧
      isToggleKey k = false := by
  unfold settingKeys
  simp [Dict.mem_keys_ofList]

theorem settingKeys_increasing (c : Tuning.Coalescing) : (settingKeys c).Pairwise (· < ·) := by
  unfold settingKeys Dict.keys
  exact List.pairwise_map.2 (Dict.increasing _)

/-- Of the merged keys, those of a device with settings are its own but for the adaptive modes. -/
theorem filterMap_settingKeys (c : Tuning.Coalescing) (i : Nat) :
    (settingKeys c).filterMap
        (fun k => ((settingsFor c i).bind (·.get? k)).map (Prod.mk k)) =
      ((settingsFor c i).elim [] Dict.entries).filter fun e => !isToggleKey e.1 := by
  cases hs : settingsFor c i with
  | none => simp
  | some settings =>
    obtain ⟨allotment, ha, hm⟩ := mem_values_of_settingsFor hs
    have hlookup := settings.filterMap_get? (settingKeys_increasing c)
    simp only [Option.bind_some, Option.elim_some]
    rw [hlookup]
    apply List.filter_congr
    rintro ⟨k, v⟩ he
    have hk : k ∈ settings.keys := List.mem_map_of_mem he
    have hmem : k ∈ settingKeys c ↔ isToggleKey k = false := by
      rw [mem_settingKeys, ha]
      exact and_iff_right ⟨settings, hm, hk⟩
    rw [List.contains_eq_mem, Bool.eq_iff_iff]
    simp [hmem]

/-- The requests ask of each device what its own settings come to. -/
theorem askedAt_requestsAt (devices : List Device) (c : Tuning.Coalescing)
    (i : Fin devices.length) : askedAt (requestsAt devices c) i = asked c (settingsFor c i) := by
  unfold askedAt requestsAt asked
  rw [List.filterMap_append, ← filterMap_settingKeys, List.filterMap_map, List.filterMap_map,
    List.map_filterMap]
  congr 1
  · apply List.filterMap_congr
    intro t _
    simp
  · apply List.filterMap_congr
    intro k _
    simp [settingRequest, Option.map_map, Function.comp_def]

end Layer.Coalescing

end NicTuning
