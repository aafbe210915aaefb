import NicTuning.Proofs.Admission
import NicTuning.Proofs.ToolKeys
import NicTuning.Proofs.Undoing
import NicTuning.Proofs.Words

/-!
# Commands that write attributes

Main statement: for a validated tuning, the command that writes an attribute has the words that the
tool expects exactly if the device's name and the value are words. Validation grants that for every
value but that of a setting of how interrupts are merged, and what a tool reported grants it for
flags and numbers only.
-/
namespace NicTuning

open Text (IsWord)

/-! ## Words of a command -/

namespace Attribute

/-- The key, feature or type of flow that an attribute is about. -/
def keyword? : Attribute → Option String
  | coalescing key => some key
  | offload feature => some feature
  | flowHash type => some type
  | _ => none

end Attribute

namespace Device

/-- The words that the tool expects to write an attribute. -/
def writeWords (d : Device) (arg : String) : Attribute → List String
  | .mtu => ["ip", "link", "set", "dev", d.name, "mtu", arg]
  | .adaptiveCoalescing direction =>
    ["ethtool", "-C", d.name, "adaptive-" ++ direction.text, arg]
  | .coalescing key => ["ethtool", "-C", d.name, key, arg]
  | .pauseFrames direction => ["ethtool", "-A", d.name, direction.text, arg]
  | .offload feature => ["ethtool", "-K", d.name, feature, arg]
  | .hashFunction => ["ethtool", "-X", d.name, "hfunc", arg]
  | .flowHash type => ["ethtool", "-N", d.name, "rx-flow-hash", type, arg]

theorem writeCommand_eq (d : Device) (arg : String) (a : Attribute) :
    d.writeCommand arg a = " ".intercalate (d.writeWords arg a) := by
  have hC : "ethtool -C " = "ethtool" ++ " " ++ "-C" ++ " " := by decide
  have hA : "ethtool -A " = "ethtool" ++ " " ++ "-A" ++ " " := by decide
  have hK : "ethtool -K " = "ethtool" ++ " " ++ "-K" ++ " " := by decide
  have hX : "ethtool -X " = "ethtool" ++ " " ++ "-X" ++ " " := by decide
  have hN : "ethtool -N " = "ethtool" ++ " " ++ "-N" ++ " " := by decide
  unfold writeWords
  cases a <;> simp only [-String.reduceAppend, String.intercalate_cons_cons,
    String.intercalate_singleton, ← String.append_assoc] <;> unfold writeCommand
  case mtu =>
    have hip : "ip link set dev " =
        "ip" ++ " " ++ "link" ++ " " ++ "set" ++ " " ++ "dev" ++ " " := by decide
    have hmtu : " mtu " = " " ++ "mtu" ++ " " := by decide
    rw [hip, hmtu]
    simp only [-String.reduceAppend, ← String.append_assoc]
  case adaptiveCoalescing direction =>
    have hadaptive : " adaptive-" = " " ++ "adaptive-" := by decide
    rw [hC, hadaptive]
    simp only [-String.reduceAppend, ← String.append_assoc]
  case coalescing key => rw [hC]
  case pauseFrames direction => rw [hA]
  case offload feature => rw [hK]
  case hashFunction =>
    have hfunc : " hfunc " = " " ++ "hfunc" ++ " " := by decide
    rw [hX, hfunc]
    simp only [-String.reduceAppend, ← String.append_assoc]
  case flowHash type =>
    have hflow : " rx-flow-hash " = " " ++ "rx-flow-hash" ++ " " := by decide
    rw [hN, hflow]
    simp only [-String.reduceAppend, ← String.append_assoc]

theorem isWord_writeWords_iff (d : Device) (arg : String) (a : Attribute) :
    (∀ w ∈ d.writeWords arg a, IsWord w) ↔
      IsWord d.name ∧ (∀ k, a.keyword? = some k → IsWord k) ∧ IsWord arg := by
  have hconstant : ∀ w ∈ ["ip", "link", "set", "dev", "mtu", "ethtool", "-C", "-A", "-K", "-X",
      "-N", "hfunc", "rx-flow-hash", "adaptive-rx", "adaptive-tx", "rx", "tx"], IsWord w := by
    decide
  simp only [List.forall_mem_cons] at hconstant
  cases a with
  | adaptiveCoalescing direction =>
    cases direction <;> simp [writeWords, Attribute.keyword?, Direction.text, hconstant]
  | pauseFrames direction =>
    cases direction <;> simp [writeWords, Attribute.keyword?, Direction.text, hconstant]
  | _ => simp [writeWords, Attribute.keyword?, hconstant]

/-- The device writes the attribute with a name by one command, which has the words that the tool
expects under a condition and only then. -/
structure WritesBy (d : Device) (name : String) (value : Setting) (a : Attribute)
    (condition : Prop) : Prop where
  name_eq : Attribute.ofName? name = some a
  set_eq : d.set name value = d.netns.command (d.writeCommand value.arg a)
  words_iff : Text.words (d.writeCommand value.arg a) = d.writeWords value.arg a ↔ condition

variable {d : Device} {name : String} {value : Setting} {a : Attribute}

theorem writesBy (hd : d.control = .commands) (ha : Attribute.ofName? name = some a)
    (hk : ∀ k, a.keyword? = some k → IsWord k) :
    d.WritesBy name value a (IsWord d.name ∧ IsWord value.arg) where
  name_eq := ha
  set_eq := by
    unfold set
    rw [hd, ha]
  words_iff := by
    rw [writeCommand_eq, Text.words_intercalate_iff, isWord_writeWords_iff]
    exact and_congr_right fun _ => and_iff_right hk

theorem WritesBy.congr {p q : Prop} (h : d.WritesBy name value a p) (hpq : p ↔ q) :
    d.WritesBy name value a q where
  name_eq := h.name_eq
  set_eq := h.set_eq
  words_iff := h.words_iff.trans hpq

end Device

/-! ## What tools report -/

namespace Attribute

/-- The value of an attribute according to what the tool that knows it printed. -/
def reported? (a : Attribute) (output : String) : Option Setting :=
  match a with
  | mtu => some (.ofOutput output)
  | adaptiveCoalescing .rx => (Report.Coalescing.read output).adaptiveRx.map .flag
  | adaptiveCoalescing .tx => (Report.Coalescing.read output).adaptiveTx.map .flag
  | coalescing key => ((Report.Coalescing.read output).settings.get? key).join.map .ofOutput
  | pauseFrames direction =>
    (((Report.KeyValue.table output).get? direction.text).bind Report.flag?).map .flag
  | offload feature =>
    ((Report.Features.read output).get? (Report.Features.longName feature)).map .flag
  | hashFunction => (Report.Hashing.function? output).map .word
  | flowHash _ => some (.word (Report.Hashing.flowFields output))

/-- What the tool printed has a word in the place of the attribute's value. -/
def ReportsWord (a : Attribute) (output : String) : Prop :=
  match a with
  | mtu => IsWord (Text.trim output)
  | coalescing key => ∀ text, ((Report.Coalescing.read output).settings.get? key).join = some text →
      IsWord (Text.trim text)
  | hashFunction => ∀ function, Report.Hashing.function? output = some function → IsWord function
  | flowHash _ => (Report.Hashing.flowFields output).isEmpty = false
  | adaptiveCoalescing _ | pauseFrames _ | offload _ => True

theorem isWord_flowFields_iff {output : String} :
    IsWord (Report.Hashing.flowFields output) ↔
      (Report.Hashing.flowFields output).isEmpty = false := by
  have hletters : ∀ f ∈ Report.Hashing.fields, Text.isBlank f.2 = false := by decide
  constructor
  · exact And.left
  · intro h
    refine ⟨h, List.all_eq_true.2 fun c hc => ?_⟩
    unfold Report.Hashing.flowFields at hc
    rw [String.toList_ofList] at hc
    obtain ⟨f, hf, rfl⟩ := List.mem_map.1 hc
    simp [hletters f (List.mem_filter.1 hf).1]

/-- A reported value is a word as an argument exactly if there is a word in the report. -/
theorem isWord_reported?_iff {a : Attribute} {output : String} {value : Setting}
    (h : a.reported? output = some value) : IsWord value.arg ↔ a.ReportsWord output := by
  have hflag : ∀ {on? : Option Bool}, on?.map Setting.flag = some value →
      (IsWord value.arg ↔ True) := by
    intro on? ho
    obtain ⟨on, -, rfl⟩ := Option.map_eq_some_iff.1 ho
    exact iff_true_intro (Setting.isWord_arg_flag on)
  cases a with simp only [reported?] at h
  | mtu =>
    obtain rfl := Option.some.inj h
    exact Setting.isWord_arg_ofOutput_iff
  | adaptiveCoalescing direction => cases direction <;> exact hflag h
  | pauseFrames direction => exact hflag h
  | offload feature => exact hflag h
  | coalescing key =>
    obtain ⟨text, ht, rfl⟩ := Option.map_eq_some_iff.1 h
    simp only [ReportsWord, ht, Option.some.injEq, forall_eq']
    exact Setting.isWord_arg_ofOutput_iff
  | hashFunction =>
    obtain ⟨function, hf, rfl⟩ := Option.map_eq_some_iff.1 h
    simp only [ReportsWord, hf, Option.some.injEq, forall_eq']
    exact Iff.rfl
  | flowHash type =>
    cases h
    exact isWord_flowFields_iff

end Attribute

theorem Device.readAttribute_eq (d : Device) (a : Attribute) :
    d.readAttribute a = do return a.reported? (← d.query (d.readCommand a)) := by
  cases a with
  | adaptiveCoalescing direction => cases direction <;> rfl
  | _ => rfl

/-- The value of an attribute, which is unsupported if there is none. -/
def Device.answer (d : Device) (name : String) : Option Setting → Except Fault Setting
  | none => .error (d.unsupported name)
  | some value => .ok value

/-- A device asks the tool that knows the attribute and gives what is reported of it. -/
theorem Device.get_eq {d : Device} (hd : d.control = .commands) {name : String} {a : Attribute}
    (ha : Attribute.ofName? name = some a) (b : Bench) :
    d.get name b = ((d.query (d.readCommand a) b).1.bind fun output =>
      d.answer name (a.reported? output), (d.query (d.readCommand a) b).2) := by
  unfold get
  rw [hd, ha]
  dsimp only
  rw [readAttribute_eq, ActionM.bind_apply, ActionM.bind_apply]
  rcases d.query (d.readCommand a) b with ⟨fault | output, b'⟩
  · rfl
  · dsimp only
    change _ = (d.answer name (a.reported? output), b')
    cases a.reported? output <;> rfl

/-- A device that gives the value of an attribute was told it by its tool. -/
theorem Device.exists_output_of_get {d : Device} (hd : d.control = .commands) {name : String}
    {a : Attribute} (ha : Attribute.ofName? name = some a) {value : Setting} {b b' : Bench}
    (h : d.get name b = (.ok value, b')) : ∃ output,
      (d.query (d.readCommand a) b).1 = .ok output ∧ a.reported? output = some value := by
  rw [get_eq hd ha] at h
  have hvalue := congrArg Prod.fst h
  dsimp only at hvalue
  cases hq : (d.query (d.readCommand a) b).1 with
  | error fault =>
    rw [hq] at hvalue
    cases hvalue
  | ok output =>
    refine ⟨output, rfl, ?_⟩
    rw [hq] at hvalue
    change d.answer name (a.reported? output) = .ok value at hvalue
    cases hr : a.reported? output with
    | none =>
      rw [hr] at hvalue
      cases hvalue
    | some reported =>
      rw [hr] at hvalue
      cases hvalue
      rfl

/-! ## What validation grants -/

/-- The attribute goes by a word, and so does its value unless the attribute is a setting of how
interrupts are merged. -/
def Worded (name : String) (value : Setting) : Prop :=
  ∃ a, Attribute.ofName? name = some a ∧ (∀ k, a.keyword? = some k → IsWord k) ∧
    ((∀ key, a ≠ .coalescing key) → IsWord value.arg)

/-- Keys are handed to a tool as words. -/
theorem Attribute.isWord_handed {field key : String}
    (h : (Findings.toolKey field key).isValid = true) : IsWord (handed key) := by
  obtain ⟨hne, hkey⟩ := Findings.isValid_toolKey_iff.1 h
  have hblank : ∀ c, Findings.isKeyChar c = true → Text.isBlank c = false := by
    intro c hc
    simp only [Findings.isKeyChar, Bool.or_eq_true, beq_iff_eq] at hc
    rcases hc with ((hc | hc) | rfl) | rfl
    · exact Text.isBlank_of_isLower hc
    · exact Text.isBlank_of_isDigit hc
    · decide
    · decide
  unfold handed
  rw [Text.isWord_iff, Text.toList_replaceChar]
  constructor
  · simpa [String.isEmpty_eq_false_iff] using hne
  · intro c hm
    obtain ⟨k, hk, rfl⟩ := List.mem_map.1 hm
    split
    · decide
    · exact hblank k (hkey k hk)

namespace Worded

theorem mtu (n : Int64) : Worded "mtu" (.number n) :=
  ⟨.mtu, rfl, by simp [Attribute.keyword?], fun _ => Setting.isWord_arg_number n⟩

theorem offload {field feature : String} (h : (Findings.toolKey field feature).isValid = true)
    (on : Bool) : Worded (Attribute.offloadName feature) (.flag on) := by
  refine ⟨_, Attribute.ofName?_offloadName feature, ?_, fun _ => Setting.isWord_arg_flag on⟩
  rintro k hk
  cases hk
  exact Attribute.isWord_handed h

theorem coalescing {field key : String} (h : (Findings.toolKey field key).isValid = true)
    (value : Setting) : Worded (Attribute.coalescingName key) value := by
  refine ⟨_, Attribute.ofName?_coalescingName key, ?_, fun hne => absurd rfl (hne _)⟩
  rintro k hk
  cases hk
  exact Attribute.isWord_handed h

theorem mode {c : Tuning.Coalescing} {t : Tuning.Coalescing.Toggle} (ht : t ∈ c.toggles)
    (on : Bool) : Worded t.name (.flag on) := by
  rcases List.mem_pair.1 ht with rfl | rfl
  · exact ⟨.adaptiveCoalescing .rx, rfl, by simp [Attribute.keyword?],
      fun _ => Setting.isWord_arg_flag on⟩
  · exact ⟨.adaptiveCoalescing .tx, rfl, by simp [Attribute.keyword?],
      fun _ => Setting.isWord_arg_flag on⟩

theorem pauseFrames (direction : Direction) (on : Bool) :
    Worded (direction.text ++ "_pause_frames") (.flag on) := by
  refine ⟨.pauseFrames direction, ?_, by simp [Attribute.keyword?],
    fun _ => Setting.isWord_arg_flag on⟩
  cases direction <;> rfl

theorem hashFunction {function : String}
    (h : (Tuning.hashFunctionFindings (some function)).isValid = true) :
    Worded "rx_hash_function" (.word function) := by
  refine ⟨.hashFunction, rfl, by simp [Attribute.keyword?], fun _ => ?_⟩
  unfold Tuning.hashFunctionFindings at h
  dsimp only at h
  split at h
  · cases h
  · rename_i hword
    simp only [Bool.or_eq_true, not_or, Bool.not_eq_true] at hword
    rw [List.any_eq_false] at hword
    refine ⟨hword.1, List.all_eq_true.2 fun c hc => ?_⟩
    simpa using hword.2 c hc

theorem flowHash {f : Tuning.FlowHash} (h : f.findings.isValid = true) {type fields : String}
    (ht : f.type = some type) (hf : f.fields = some fields) :
    Worded (Attribute.flowHashName type) (.word fields) := by
  have htypes : ∀ type ∈ Tuning.FlowHash.types, IsWord type := by decide
  have hletters : IsWord Tuning.FlowHash.letters := by decide
  unfold Tuning.FlowHash.findings at h
  rw [ht, hf] at h
  dsimp only at h
  rw [Findings.isValid_append, Bool.and_eq_true] at h
  obtain ⟨htype, hfields⟩ := h
  refine ⟨.flowHash type, Attribute.ofName?_flowHashName type, ?_, fun _ => ?_⟩
  · rintro k hk
    cases hk
    split at htype
    · rename_i hm
      exact htypes type (List.contains_iff_mem.1 hm)
    · cases htype
  · split at hfields
    · cases hfields
    · rename_i hw
      simp only [Bool.or_eq_true, not_or, Bool.not_eq_true, Bool.not_eq_true', Bool.not_eq_false]
        at hw
      refine ⟨hw.1, List.all_eq_true.2 fun c hc => ?_⟩
      have hm := List.all_eq_true.1 hw.2 c hc
      simp [(Text.isWord_iff.1 hletters).2 c (List.contains_iff_mem.1 hm)]

end Worded

/-! ## Layers -/

namespace Layer

theorem mem_of_setting_mem_requestIntents {rs : List (String × List Target)} {name : String}
    {d : Device} {value : Setting}
    (h : Intent.setting name d value ∈ requestIntents (.ok rs)) :
    ∃ r ∈ rs, r.1 = name ∧ (d, some value) ∈ r.2 := by
  obtain ⟨r, hr, hi⟩ := List.mem_flatMap.1 h
  obtain ⟨⟨d', value?⟩, ht, he⟩ := List.mem_filterMap.1 hi
  obtain ⟨value', hv, hs⟩ := Option.map_eq_some_iff.1 he
  obtain rfl : value? = some value' := hv
  cases hs
  exact ⟨r, hr, rfl, ht⟩

theorem eq_some_of_mem_sharedTargets {devices : List Device} {value? : Option Setting}
    {d : Device} {value : Setting} (h : (d, some value) ∈ sharedTargets devices value?) :
    value? = some value := by
  obtain ⟨d', -, he⟩ := List.mem_map.1 h
  exact (Prod.mk.inj he).2

namespace Coalescing

variable {devices : List Device} {c : Tuning.Coalescing}

/-- An adaptive mode is set by a flag. -/
theorem flag_of_toggleValue {t : Tuning.Coalescing.Toggle} {settings : Option Tuning.Settings}
    {value : Setting} (h : toggleValue t settings = .ok (some value)) :
    ∃ on, value = .flag on := by
  unfold toggleValue at h
  split at h
  · cases h
  · cases h
    exact ⟨_, rfl⟩
  · split at h
    · cases h
      exact ⟨_, rfl⟩
    · cases h
  · cases h

theorem flag_of_mem_toggleRequest {t : Tuning.Coalescing.Toggle}
    {r : String × List NicTuning.Target} (h : toggleRequest devices c t = .ok r) {d : Device}
    {value : Setting} (hm : (d, some value) ∈ r.2) : ∃ on, value = .flag on := by
  unfold toggleRequest at h
  simp only [bind, Except.bind] at h
  split at h
  · cases h
  · rename_i targets htargets
    cases h
    obtain ⟨⟨d', i⟩, -, he⟩ := Except.exists_of_mem_mapM htargets hm
    cases hv : toggleValue t (settingsFor c i) with
    | error fault =>
      rw [hv] at he
      cases he
    | ok value? =>
      rw [hv] at he
      cases he
      exact flag_of_toggleValue hv

/-- Every setting that is no adaptive mode goes by a key of the tool. -/
theorem toolKey_of_mem_settingKeys (h : c.findings.isValid = true) {k : String}
    (hk : k ∈ settingKeys c) :
    (Findings.toolKey Tuning.Coalescing.settingsField k).isValid = true := by
  unfold settingKeys at hk
  obtain ⟨e, he, rfl⟩ := List.mem_map.1 (Dict.mem_keys_ofList.1 hk)
  obtain ⟨k, hm, rfl⟩ := List.mem_map.1 he
  obtain ⟨settings, hs, hkey⟩ := List.mem_flatMap.1 (List.mem_filter.1 hm).1
  cases hg : c.settings with
  | none =>
    rw [hg] at hs
    cases hs
  | some given =>
    rw [hg] at hs
    obtain ⟨e, hentry, rfl⟩ := List.mem_map.1 hkey
    have hvalid := (Tuning.Coalescing.isValid_findings_iff.1 h given hg).1 settings hs e hentry
    exact (Tuning.Coalescing.isValid_settingFindings_iff.1 hvalid).1

theorem worded (h : c.findings.isValid = true) {name : String} {d : Device} {value : Setting}
    (hi : .setting name d value ∈ (Layer.coalescing devices c).intents) : Worded name value := by
  change _ ∈ requestIntents (requests devices c) at hi
  cases hq : requests devices c with
  | error fault =>
    rw [hq] at hi
    cases hi
  | ok rs =>
    rw [hq] at hi
    obtain ⟨r, hr, rfl, hm⟩ := mem_of_setting_mem_requestIntents hi
    rcases mem_requests hq hr with ⟨t, ht, he⟩ | ⟨k, hk, rfl⟩
    · obtain ⟨on, rfl⟩ := flag_of_mem_toggleRequest he hm
      rw [toggleRequest_name he]
      exact .mode ht on
    · exact .coalescing (toolKey_of_mem_settingKeys h hk) value

end Coalescing

theorem Offload.worded {devices : List Device} {settings : Option Tuning.Settings}
    (h : (Tuning.offloadFindings settings).isValid = true) {name : String} {d : Device}
    {value : Setting} (hi : .setting name d value ∈ (Layer.offload devices settings).intents) :
    Worded name value := by
  obtain ⟨q, hq, rfl, hm⟩ := mem_of_setting_mem_requestIntents hi
  obtain ⟨p, hp, rfl⟩ := List.mem_map.1 hq
  obtain ⟨e, he, rfl⟩ := List.mem_map.1 hp
  obtain ⟨on, -, rfl⟩ := Option.map_eq_some_iff.1 (eq_some_of_mem_sharedTargets hm)
  cases settings with
  | none => cases he
  | some settings => exact .offload (Tuning.isValid_offloadFindings_iff.1 h e he).1 on

theorem Mtu.worded {devices : List Device} {size : Option UInt32} {name : String} {d : Device}
    {value : Setting} (hi : .setting name d value ∈ (Layer.mtu devices size).intents) :
    Worded name value := by
  obtain ⟨q, hq, rfl, hm⟩ := mem_of_setting_mem_requestIntents hi
  obtain rfl := List.mem_singleton.1 hq
  obtain ⟨n, -, rfl⟩ := Option.map_eq_some_iff.1 (eq_some_of_mem_sharedTargets hm)
  exact .mtu _

theorem PauseFrames.worded {devices : List Device} {p : Tuning.PauseFrames} {name : String}
    {d : Device} {value : Setting}
    (hi : .setting name d value ∈ (Layer.pauseFrames devices p).intents) : Worded name value := by
  obtain ⟨q, hq, rfl, hm⟩ := mem_of_setting_mem_requestIntents hi
  obtain ⟨request, hr, rfl⟩ := List.mem_map.1 hq
  have hvalue := eq_some_of_mem_sharedTargets hm
  rcases List.mem_pair.1 hr with rfl | rfl
  · obtain ⟨on, -, rfl⟩ := Option.map_eq_some_iff.1 hvalue
    exact .pauseFrames .rx on
  · obtain ⟨on, -, rfl⟩ := Option.map_eq_some_iff.1 hvalue
    exact .pauseFrames .tx on

theorem FlowHash.worded {devices : List Device} {f : Tuning.FlowHash}
    (h : f.findings.isValid = true) {name : String} {d : Device} {value : Setting}
    (hi : .setting name d value ∈ (Layer.flowHash devices f).intents) : Worded name value := by
  obtain ⟨q, hq, rfl, hm⟩ := mem_of_setting_mem_requestIntents hi
  obtain ⟨request, hr, rfl⟩ := List.mem_map.1 hq
  cases eq_some_of_mem_sharedTargets hm
  have hrequest := Option.mem_toList.1 hr
  unfold FlowHash.request? at hrequest
  split at hrequest
  · rename_i type fields htype hfields
    cases hrequest
    exact .flowHash h htype hfields
  · cases hrequest

theorem HashFunction.worded {devices : List Device} {function : Option String}
    (h : (Tuning.hashFunctionFindings function).isValid = true) {name : String} {d : Device}
    {value : Setting} (hi : .setting name d value ∈ (Layer.hashFunction devices function).intents) :
    Worded name value := by
  obtain ⟨q, hq, rfl, hm⟩ := mem_of_setting_mem_requestIntents hi
  obtain rfl := List.mem_singleton.1 hq
  obtain ⟨function, rfl, rfl⟩ := Option.map_eq_some_iff.1 (eq_some_of_mem_sharedTargets hm)
  exact .hashFunction h

/-- Layers with commands of their own are to change no attribute. -/
theorem setting_not_mem_intents {layer : Layer}
    (h : layer.key ∈ [Queues.key, Qdisc.key, Interrupts.key]) {name : String} {d : Device}
    {value : Setting} : .setting name d value ∉ layer.intents :=
  fun hi => Change.settingKey_ne h (key_of_mem_intents hi)

/-- Whatever attribute a layer of a validated tuning is to change goes by a word, and its value is
one unless it is a setting of how interrupts are merged. -/
theorem worded_of_mem_intents {t : Tuning} {r : Roster} (ht : t.findings.isValid = true)
    {layer : Layer} (hl : layer ∈ Stack.unchecked t r) {name : String} {d : Device}
    {value : Setting} (hi : .setting name d value ∈ layer.intents) : Worded name value := by
  obtain ⟨hoffload, -, hcoalescing, -, -, -, hflow, hhash⟩ := Tuning.isValid_findings_iff.1 ht
  simp only [Stack.unchecked, List.mem_cons, List.not_mem_nil, or_false] at hl
  rcases hl with rfl | rfl | rfl | rfl | rfl | rfl | rfl | rfl | rfl
  · exact Offload.worded hoffload hi
  · exact Mtu.worded hi
  · exact Coalescing.worded hcoalescing hi
  · exact absurd hi (setting_not_mem_intents (by simp [key]))
  · exact absurd hi (setting_not_mem_intents (by simp [key]))
  · exact PauseFrames.worded hi
  · exact absurd hi (setting_not_mem_intents (by simp [key]))
  · exact FlowHash.worded hflow hi
  · exact HashFunction.worded hhash hi

end Layer

/-! ## Stacks -/

namespace Stack

variable {s : Stack} {b : Bench}

/-- What is written back was read from the device, and something else was to be written. -/
theorem exists_get_of_write {key : String} {d : Device} {name : String} {value : Setting}
    (h : .write d name value ∈ (s.configure (b, .empty)).2.2.remedies key) :
    (∃ configured, .setting name d configured ∈ s.intents) ∧
      ∃ m m', d.get name m = (.ok value, m') := by
  obtain ⟨took, -, hc, hl, -, hf⟩ := configure_follows s b .empty
  obtain ⟨c, hm, hr⟩ := List.mem_filterMap.1 h
  rw [hl, List.mem_reverse] at hm
  have htook := (List.mem_filter.1 ((Ledger.perm_changes_foldl_note _ key).mem_iff.1 hm)).1
  cases c with
  | setting n change =>
    cases hr
    constructor
    · exact ⟨change.configured, hf.begun.subset (List.mem_filterMap.2 ⟨_, htook, rfl⟩)⟩
    · obtain ⟨m, m', ht⟩ := hc.exists_takes htook
      cases ht with
      | setting look write => exact ⟨_, _, look⟩
  | queues change =>
    unfold Change.remedy? at hr
    dsimp only at hr
    split at hr <;> cases hr
  | qdisc change =>
    unfold Change.remedy? at hr
    dsimp only at hr
    split at hr <;> cases hr
  | stop host => cases hr
  | pin device => cases hr

/-- All that happens while layers of a validated tuning are configured is for their intents, and all
that happens while they are restored takes back what the ledger holds. Every attribute of a device
that is controlled by commands is written by one command. While configuring, it has the words that
the tool expects exactly if the device's name is a word and, for a setting of how interrupts are
merged, the value is. While restoring, it does exactly if the device's name is a word and the tool
reported a word when the attribute was read. -/
theorem writes_have_words_iff {t : Tuning} {r : Roster} (ht : t.findings.isValid = true)
    (hs : ∀ layer ∈ s, layer ∈ unchecked t r) (b : Bench) :
    (∃ events, (s.configure (b, .empty)).2.1 = b.after events ∧
      ∀ e ∈ events, Intent.OneInvolves s.intents e) ∧
    (∀ name d value, d.control = .commands → .setting name d value ∈ s.intents → ∃ a,
      d.WritesBy name value a
        (IsWord d.name ∧ ∀ key, a = .coalescing key → IsWord value.arg)) ∧
    ∀ c, (∃ events, (s.restore (c, (s.configure (b, .empty)).2.2)).2.1 = c.after events ∧
        ∀ e ∈ events, ∃ key, ∃ remedy ∈ (s.configure (b, .empty)).2.2.remedies key,
          remedy.Involves e) ∧
      ∀ key name d value, d.control = .commands →
        .write d name value ∈ (s.configure (b, .empty)).2.2.remedies key → ∃ a output,
          (∃ m, (d.query (d.readCommand a) m).1 = .ok output) ∧
          a.reported? output = some value ∧
          d.WritesBy name value a (IsWord d.name ∧ a.ReportsWord output) := by
  have hworded : ∀ {name d value}, .setting name d value ∈ s.intents → Worded name value := by
    intro name d value hi
    obtain ⟨layer, hl, hi⟩ := List.mem_flatMap.1 hi
    exact Layer.worded_of_mem_intents ht (hs layer hl) hi
  refine ⟨configure_emits s (b, .empty), fun name d value hd hi => ?_, fun c => ⟨?_, ?_⟩⟩
  · obtain ⟨a, ha, hk, hv⟩ := hworded hi
    refine ⟨a, (Device.writesBy hd ha hk).congr (and_congr_right fun _ => ?_)⟩
    constructor
    · exact fun hw _ _ => hw
    · intro hw
      by_cases hkey : ∃ key, a = .coalescing key
      · obtain ⟨key, rfl⟩ := hkey
        exact hw key rfl
      · exact hv fun key he => hkey ⟨key, he⟩
  · exact restore_emits s c (sound_configure s b)
  · intro key name d value hd hw
    obtain ⟨⟨configured, hi⟩, m, m', hg⟩ := exists_get_of_write hw
    obtain ⟨a, ha, hk, -⟩ := hworded hi
    obtain ⟨output, ho, hr⟩ := Device.exists_output_of_get hd ha hg
    refine ⟨a, output, ⟨m, ho⟩, hr, (Device.writesBy hd ha hk).congr ?_⟩
    exact and_congr_right fun _ => Attribute.isWord_reported?_iff hr

/-- Parameters that pass validation, with a value of several words for a setting. -/
def spacedTuning : Tuning where
  coalescing.settings := some (.shared (.ofList [("rx-usecs", .word "64 tx-usecs 0")]))
  flowHash.type := some "udp4"
  flowHash.fields := some "sd"

/-- The tuning for a device that is controlled by commands. -/
def spacedStack : Stack := unchecked spacedTuning (.uniform [Device.machineDevice])

/-- The machine of the device reports that no field is hashed. -/
def unhashedBench : Bench :=
  (Bench.quiet.addRule "h" ⟨"ethtool -c eth0",
      .ok "Coalesce parameters for eth0:\nrx-usecs: 3\ntx-usecs: 3\n"⟩).addRule
    "h" ⟨"ethtool -n eth0", .ok "UDP over IPV4 flows use these fields:\n"⟩

/-- Fields of a flow are written by a command with its words, but a value of several words and fields
of which none was reported are not. -/
theorem writes_have_words_iff_of_spaced :
    spacedTuning.findings.isValid = true ∧
    (∃ a, Device.machineDevice.WritesBy "nfc_rx_flow_hash_udp4" (.word "sd") a True) ∧
    (∃ a, Device.machineDevice.WritesBy "coalescing_rx_usecs" (.word "64 tx-usecs 0") a False) ∧
    ∃ a, Device.machineDevice.WritesBy "nfc_rx_flow_hash_udp4" (.word "") a False := by
  have ht : spacedTuning.findings.isValid = true := by decide
  obtain ⟨-, hconfigure, hrestore⟩ := writes_have_words_iff ht
    (r := .uniform [Device.machineDevice]) (s := spacedStack) (fun _ hl => hl) unhashedBench
  have hname : IsWord Device.machineDevice.name := by decide
  constructor
  · exact ht
  constructor
  · have hi : .setting "nfc_rx_flow_hash_udp4" Device.machineDevice (.word "sd") ∈
        spacedStack.intents := by decide +kernel
    obtain ⟨a, ha⟩ := hconfigure _ _ _ rfl hi
    have hsd : IsWord (Setting.word "sd").arg := by decide
    exact ⟨a, ha.congr (iff_true_intro ⟨hname, fun _ _ => hsd⟩)⟩
  constructor
  · have hi : .setting "coalescing_rx_usecs" Device.machineDevice (.word "64 tx-usecs 0") ∈
        spacedStack.intents := by decide +kernel
    obtain ⟨a, ha⟩ := hconfigure _ _ _ rfl hi
    have hkey : a = .coalescing "rx-usecs" :=
      Option.some.inj (ha.name_eq.symm.trans (Attribute.ofName?_coalescingName "rx-usecs"))
    have hwords : ¬IsWord (Setting.word "64 tx-usecs 0").arg := by decide
    exact ⟨a, ha.congr (iff_false_intro fun h => hwords (h.2 _ hkey))⟩
  · have hw : .write Device.machineDevice "nfc_rx_flow_hash_udp4" (.word "") ∈
        (spacedStack.configure (unhashedBench, .empty)).2.2.remedies "dev_nfc_rx_flow_hash" := by
      decide +kernel
    obtain ⟨a, output, -, hr, ha⟩ := (hrestore unhashedBench).2 _ _ _ _ rfl hw
    have hempty : ¬IsWord (Setting.word "").arg := by decide
    exact ⟨a, ha.congr (iff_false_intro fun h =>
      hempty ((Attribute.isWord_reported?_iff hr).2 h.2))⟩

/-- A device with an accepted name may be written by a command that sets something else as well, or by
one that lacks its value. A name with a tab is accepted, too, and is two words. -/
theorem not_every_write_has_words :
    spacedTuning.findings.isValid = true ∧
    (Findings.interfaceName "name" Device.machineDevice.name).isValid = true ∧
    (spacedStack.configure (unhashedBench, .empty)).2.1.commands "h" =
      ["ethtool -c eth0", "ethtool -C eth0 rx-usecs 64 tx-usecs 0",
        "ethtool -n eth0 rx-flow-hash udp4", "ethtool -N eth0 rx-flow-hash udp4 sd"] ∧
    Text.words (Device.machineDevice.writeCommand "64 tx-usecs 0" (.coalescing "rx-usecs")) ≠
      Device.machineDevice.writeWords "64 tx-usecs 0" (.coalescing "rx-usecs") ∧
    (spacedStack.restore (unhashedBench,
        (spacedStack.configure (unhashedBench, .empty)).2.2)).2.1.commands "h" =
      ["ethtool -N eth0 rx-flow-hash udp4 ", "ethtool -C eth0 rx-usecs 3"] ∧
    Text.words (Device.machineDevice.writeCommand "" (.flowHash "udp4")) ≠
      Device.machineDevice.writeWords "" (.flowHash "udp4") ∧
    (Findings.interfaceName "name" "a\tb").isValid = true ∧
    Text.words "a\tb" ≠ ["a\tb"] := by
  have hconfigure : (spacedStack.configure (unhashedBench, .empty)).2.1.commands "h" =
      ["ethtool -c eth0", "ethtool -C eth0 rx-usecs 64 tx-usecs 0",
        "ethtool -n eth0 rx-flow-hash udp4", "ethtool -N eth0 rx-flow-hash udp4 sd"] := by
    decide +kernel
  have hrestore : (spacedStack.restore (unhashedBench,
        (spacedStack.configure (unhashedBench, .empty)).2.2)).2.1.commands "h" =
      ["ethtool -N eth0 rx-flow-hash udp4 ", "ethtool -C eth0 rx-usecs 3"] := by
    decide +kernel
  exact ⟨by decide, by decide, hconfigure, by decide +kernel, hrestore, by decide +kernel,
    by decide, by decide⟩

end Stack

end NicTuning
