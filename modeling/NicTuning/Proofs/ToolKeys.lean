import NicTuning.Findings
import NicTuning.Proofs.Effects

/-!
# Keys of tools

Main statement: a device that is controlled by commands hands every key to its tool with a hyphen
for each underscore. So the tool gets the very key that was given exactly if there is no underscore
in it, and two keys share an attribute exactly if they are handed over alike.
-/
namespace NicTuning

/-! ## Replacing a character -/

namespace Text

variable {a b : Char} {s t : String}

theorem toList_replaceChar (a b : Char) (s : String) :
    (replaceChar a b s).toList = s.toList.map fun c => if c = a then b else c :=
  String.toList_ofList

/-- What was replaced is of no account for replacing in the other direction. -/
theorem replaceChar_replaceChar (a b : Char) (s : String) :
    replaceChar b a (replaceChar a b s) = replaceChar b a s := by
  rw [← String.toList_inj, toList_replaceChar, toList_replaceChar, toList_replaceChar, List.map_map]
  refine List.map_congr_left fun c _ => ?_
  dsimp only [Function.comp_apply]
  by_cases ha : c = a
  · rw [if_pos ha, if_pos rfl, ha, ite_self]
  · rw [if_neg ha]

theorem replaceChar_eq_self_iff (h : a ≠ b) : replaceChar a b s = s ↔ a ∉ s.toList := by
  have hmap : s.toList.map (fun c => if c = a then b else c) = s.toList.map id ↔
      ∀ c ∈ s.toList, (if c = a then b else c) = c := List.map_eq_map_iff
  rw [List.map_id] at hmap
  rw [← String.toList_inj, toList_replaceChar, hmap]
  constructor
  · intro hs hm
    have hc := hs a hm
    rw [if_pos rfl] at hc
    exact h hc.symm
  · intro hm c hc
    refine if_neg ?_
    rintro rfl
    exact hm hc

/-- Texts that are alike after a replacement are so after the one in the other direction. -/
theorem replaceChar_eq_of_eq (h : replaceChar a b s = replaceChar a b t) :
    replaceChar b a s = replaceChar b a t := by
  rw [← replaceChar_replaceChar a b s, h, replaceChar_replaceChar]

end Text

/-! ## Names of attributes -/

namespace Attribute

/-- A key as it is handed to a tool. -/
def handed (key : String) : String := Text.replaceChar '_' '-' key

theorem handed_eq_self_iff {key : String} : handed key = key ↔ '_' ∉ key.toList :=
  Text.replaceChar_eq_self_iff (by decide)

theorem replaceChar_eq_iff_handed {key other : String} :
    Text.replaceChar '-' '_' key = Text.replaceChar '-' '_' other ↔ handed key = handed other :=
  ⟨Text.replaceChar_eq_of_eq, Text.replaceChar_eq_of_eq⟩

/-- A name with one of the long beginnings is parsed as a long name. -/
theorem ofName?_of_begins {front name : String} (hb : Text.begins front name = true)
    (hf : ["mtu", "adaptive_rx_coalescing", "adaptive_tx_coalescing", "rx_pause_frames",
      "tx_pause_frames", "rx_hash_function"].all (fun short => !Text.begins front short) = true) :
    ofName? name = ofLongName? name := by
  have hne := Text.ne_of_begins hb hf
  unfold ofName?
  split
  · exact absurd rfl (hne "mtu" (by simp))
  · exact absurd rfl (hne "adaptive_rx_coalescing" (by simp))
  · exact absurd rfl (hne "adaptive_tx_coalescing" (by simp))
  · exact absurd rfl (hne "rx_pause_frames" (by simp))
  · exact absurd rfl (hne "tx_pause_frames" (by simp))
  · exact absurd rfl (hne "rx_hash_function" (by simp))
  · rfl

theorem ofName?_coalescingName (key : String) :
    ofName? (coalescingName key) = some (coalescing (handed key)) := by
  have hb : Text.begins "coalescing_" (coalescingName key) = true := Text.begins_front _ _
  have hafter : Text.after? "coalescing_" (coalescingName key) =
      some (Text.replaceChar '-' '_' key) := Text.after?_append _ _
  rw [ofName?_of_begins hb (by decide)]
  unfold ofLongName?
  rw [hafter]
  exact congrArg (some ∘ coalescing) (Text.replaceChar_replaceChar '-' '_' key)

theorem ofName?_offloadName (key : String) :
    ofName? (offloadName key) = some (offload (handed key)) := by
  have hb : Text.begins "offload_" (offloadName key) = true := Text.begins_front _ _
  have hafter : Text.after? "offload_" (offloadName key) =
      some (Text.replaceChar '-' '_' key) := Text.after?_append _ _
  have hnone : ∀ beginning, Text.conflict beginning "offload_" = true →
      Text.after? beginning (offloadName key) = none := fun beginning hc =>
    if_neg (by rw [Text.begins_of_conflict hb hc]; exact Bool.false_ne_true)
  rw [ofName?_of_begins hb (by decide)]
  unfold ofLongName?
  rw [hnone "coalescing_" (by decide), hnone "nfc_rx_flow_hash_" (by decide), hafter]
  exact congrArg (some ∘ offload) (Text.replaceChar_replaceChar '-' '_' key)

theorem ofName?_flowHashName (type : String) :
    ofName? (flowHashName type) = some (flowHash type) := by
  have hb : Text.begins "nfc_rx_flow_hash_" (flowHashName type) = true := Text.begins_front _ _
  have hafter : Text.after? "nfc_rx_flow_hash_" (flowHashName type) = some type :=
    Text.after?_append _ _
  have hnone : Text.after? "coalescing_" (flowHashName type) = none :=
    if_neg (by rw [Text.begins_of_conflict hb (by decide)]; exact Bool.false_ne_true)
  rw [ofName?_of_begins hb (by decide)]
  unfold ofLongName?
  rw [hnone, hafter]

theorem offloadName_eq_iff {key other : String} :
    offloadName key = offloadName other ↔ handed key = handed other := by
  rw [← replaceChar_eq_iff_handed]
  exact String.append_right_inj _

theorem coalescingName_eq_iff {key other : String} :
    coalescingName key = coalescingName other ↔ handed key = handed other := by
  rw [← replaceChar_eq_iff_handed]
  exact String.append_right_inj _

theorem offloadName_ne_coalescingName (key other : String) :
    offloadName key ≠ coalescingName other := by
  intro h
  have hparse := ofName?_offloadName key
  rw [h, ofName?_coalescingName] at hparse
  cases hparse

end Attribute

/-! ## What the tool gets -/

namespace Device

open Attribute (offloadName coalescingName handed)

/-- The device hands a feature to the tool in a certain spelling. -/
structure SpellsFeature (d : Device) (key spelling : String) : Prop where
  set : ∀ value, d.set (offloadName key) value =
    d.netns.command ("ethtool -K " ++ d.name ++ " " ++ spelling ++ " " ++ value.arg)
  get : d.get (offloadName key) = do
    let output ← d.query ("ethtool -k " ++ d.name)
    match (Report.Features.read output).get? (Report.Features.longName spelling) with
    | none => throw (d.unsupported (offloadName key))
    | some on => return .flag on

/-- The device hands a setting of how interrupts are merged to the tool in a certain spelling. -/
structure SpellsSetting (d : Device) (key spelling : String) : Prop where
  set : ∀ value, d.set (coalescingName key) value =
    d.netns.command ("ethtool -C " ++ d.name ++ " " ++ spelling ++ " " ++ value.arg)
  get : d.get (coalescingName key) = do
    let output ← d.query ("ethtool -c " ++ d.name)
    match ((Report.Coalescing.read output).settings.get? spelling).join with
    | none => throw (d.unsupported (coalescingName key))
    | some text => return .ofOutput text

variable {d : Device} {key spelling : String}

theorem spellsFeature_handed (hd : d.control = .commands) (key : String) :
    d.SpellsFeature key (handed key) where
  set value := by
    unfold Device.set
    rw [hd, Attribute.ofName?_offloadName]
    rfl
  get := by
    unfold Device.get
    rw [hd, Attribute.ofName?_offloadName]
    dsimp only [readAttribute]
    rw [bind_assoc]
    refine bind_congr fun output => ?_
    rw [pure_bind]
    cases (Report.Features.read output).get? (Report.Features.longName (handed key)) <;> rfl

theorem spellsSetting_handed (hd : d.control = .commands) (key : String) :
    d.SpellsSetting key (handed key) where
  set value := by
    unfold Device.set
    rw [hd, Attribute.ofName?_coalescingName]
    rfl
  get := by
    unfold Device.get
    rw [hd, Attribute.ofName?_coalescingName]
    dsimp only [readAttribute]
    rw [bind_assoc]
    refine bind_congr fun output => ?_
    rw [pure_bind]
    cases ((Report.Coalescing.read output).settings.get? (handed key)).join <;> rfl

/-- Commands that do the same are the same. -/
theorem command_inj {h : Host} {command command' : String}
    (he : h.command command = h.command command') : command = command' := by
  have hb := congrArg (fun act : BenchM Unit => (act Bench.quiet).2) he
  simp only [Host.command_apply] at hb
  have hevents := Bench.after_injective _ hb
  simpa using hevents

/-- Commands for a tool that are alike have the same key. -/
theorem eq_of_toolCommand {front gap back spelling spelling' : String}
    (h : front ++ spelling ++ gap ++ back = front ++ spelling' ++ gap ++ back) :
    spelling = spelling' := by
  have hfront := (String.append_left_inj gap).1 ((String.append_left_inj back).1 h)
  exact (String.append_right_inj front).1 hfront

/-- There is one spelling only in which a feature is handed over. -/
theorem SpellsFeature.unique (hd : d.control = .commands) (h : d.SpellsFeature key spelling) :
    spelling = handed key := by
  have hset := (h.set (.flag true)).symm.trans ((spellsFeature_handed hd key).set (.flag true))
  exact eq_of_toolCommand (command_inj hset)

theorem SpellsSetting.unique (hd : d.control = .commands) (h : d.SpellsSetting key spelling) :
    spelling = handed key := by
  have hset := (h.set (.flag true)).symm.trans ((spellsSetting_handed hd key).set (.flag true))
  exact eq_of_toolCommand (command_inj hset)

/-- A device that is controlled by commands hands each key to its tool with hyphens for underscores,
whether it sets or reads the attribute, so the tool gets the key itself exactly if there is no
underscore in it. Two keys have one attribute exactly if they are handed over alike. -/
theorem keys_are_handed_over {d : Device} (hd : d.control = .commands) (key : String) :
    d.SpellsFeature key (handed key) ∧ d.SpellsSetting key (handed key) ∧
    (d.SpellsFeature key key ↔ '_' ∉ key.toList) ∧ (d.SpellsSetting key key ↔ '_' ∉ key.toList) ∧
    ∀ other, (offloadName key = offloadName other ↔ handed key = handed other) ∧
      (coalescingName key = coalescingName other ↔ handed key = handed other) ∧
      offloadName key ≠ coalescingName other := by
  have hfeature := spellsFeature_handed hd key
  have hsetting := spellsSetting_handed hd key
  refine ⟨hfeature, hsetting, ?_, ?_, fun other => ⟨Attribute.offloadName_eq_iff,
    Attribute.coalescingName_eq_iff, Attribute.offloadName_ne_coalescingName key other⟩⟩
  · rw [← Attribute.handed_eq_self_iff]
    constructor
    · exact fun h => (h.unique hd).symm
    · intro he
      rwa [he] at hfeature
  · rw [← Attribute.handed_eq_self_iff]
    constructor
    · exact fun h => (h.unique hd).symm
    · intro he
      rwa [he] at hsetting

/-- A device of a machine. -/
def machineDevice : Device := ⟨"eth0", ⟨"h", "host1"⟩, ⟨"h", "host1"⟩, none, .commands⟩

/-- Keys of hyphens alone reach the tool, and do not share an attribute. -/
theorem keys_are_handed_over_with_hyphens :
    machineDevice.control = .commands ∧
    machineDevice.SpellsFeature "hw-tc-offload" "hw-tc-offload" ∧
    machineDevice.SpellsSetting "rx-usecs" "rx-usecs" ∧
    offloadName "hw-tc-offload" ≠ offloadName "rx-gro-hw" := by
  have hfeature := (keys_are_handed_over (d := machineDevice) rfl "hw-tc-offload").2.2.1
  have hsetting := (keys_are_handed_over (d := machineDevice) rfl "rx-usecs").2.2.2.1
  have hname := ((keys_are_handed_over (d := machineDevice) rfl "hw-tc-offload").2.2.2.2
    "rx-gro-hw").1
  exact ⟨rfl, hfeature.2 (by decide), hsetting.2 (by decide), mt hname.1 (by decide)⟩

/-- A bench whose machine reports a feature with an underscore in its name. -/
def tunnelBench : Bench :=
  { Bench.quiet with
    answer := fun _ _ command =>
      .ok (.ok (if command = "ethtool -k eth0" then
        "Features for eth0:\ntx-udp_tnl-segmentation: off\n" else "")) }

/-- A key with an underscore is accepted, but the tool gets another one, and the feature is not
found in the report. Two keys that are accepted have one attribute. -/
theorem not_handed_over_with_underscore :
    (Findings.toolKey "offload_settings" "tx-udp_tnl-segmentation").isValid = true ∧
    (machineDevice.set (offloadName "tx-udp_tnl-segmentation") (.flag true) tunnelBench).2.commands
      "h" = ["ethtool -K eth0 tx-udp-tnl-segmentation on"] ∧
    (machineDevice.get (offloadName "tx-udp_tnl-segmentation") tunnelBench).1 =
      .error (.unsupportedAttribute "host1.eth0" "offload_tx_udp_tnl_segmentation") ∧
    ¬machineDevice.SpellsFeature "tx-udp_tnl-segmentation" "tx-udp_tnl-segmentation" ∧
    (Findings.toolKey "coalescing_settings" "rx_usecs").isValid = true ∧
    (Findings.toolKey "coalescing_settings" "rx-usecs").isValid = true ∧
    coalescingName "rx_usecs" = coalescingName "rx-usecs" := by
  refine ⟨by decide, by decide, by decide, fun h => ?_, by decide, by decide, by decide⟩
  exact absurd (h.unique rfl) (by decide)

end Device

end NicTuning
