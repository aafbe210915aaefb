import NicTuning.Proofs.Dictionaries
import NicTuning.Proofs.KeyValues
import NicTuning.Proofs.WriteCommands

/-!
# Attributes as they are printed

Four layouts, each with the state of a device that is printed in it. Every reader passes over the
lines that are not about its attributes, and enters those that are into a dictionary in which no two
of them meet.

Main statement: a device that is controlled by commands gives the value of an attribute that its tool
printed, and calls an attribute unsupported that the tool did not print.
-/
namespace NicTuning

open Text (IsGap IsLine IsWord)

/-! ## Layouts -/

namespace Printed

open Report (KeyValue)
open Setting (onOff)

/-- A key as it is printed: small letters, digits and hyphens. -/
def IsKey (s : String) : Prop :=
  s ≠ "" ∧ ∀ c ∈ s.toList, (c.isLower || c.isDigit || c == '-') = true

instance : DecidablePred IsKey := fun s =>
  decidable_of_iff
    (s ≠ "" ∧ s.toList.all (fun c => c.isLower || c.isDigit || c == '-') = true) (by simp [IsKey])

/-- How interrupts are merged: a title, the two adaptive modes, and a line for each other parameter,
among which may be empty lines. -/
structure Coalescing where
  title : String
  adaptive : Direction → Bool
  rows : List (Option (String × String))
  isLine_title : IsLine title
  isKey : ∀ e ∈ rows.filterMap id, IsKey e.1
  isWord : ∀ e ∈ rows.filterMap id, IsWord e.2
  distinct : ((rows.filterMap id).map Prod.fst).Nodup

namespace Coalescing

def modes (p : Coalescing) : String :=
  "Adaptive RX: " ++ onOff (p.adaptive .rx) ++ "  TX: " ++ onOff (p.adaptive .tx)

def row : Option (String × String) → String
  | none => ""
  | some (key, value) => KeyValue.line "" key " " value

def text (p : Coalescing) : String := Text.ofLines (p.title :: p.modes :: p.rows.map row)

/-- A value that is printed, unless it stands for none. -/
def value? (value : String) : Option String := if value = "n/a" then none else some value

/-- The parameters on some lines with their values. -/
def entries (rows : List (Option (String × String))) : List (String × Option String) :=
  (rows.filterMap id).map fun e => (e.1, value? e.2)

/-- The value of a parameter. -/
def setting? (p : Coalescing) (key : String) : Option Setting :=
  (((p.rows.filterMap id).lookup key).bind value?).map .ofOutput

end Coalescing

/-- Whether a device negotiates and uses pause frames. -/
structure Pauses where
  title : String
  negotiated : Bool
  flag : Direction → Bool
  isLine_title : IsLine title

namespace Pauses

/-- The lines below the title. -/
def lines (p : Pauses) : List String :=
  [KeyValue.line "" "Autonegotiate" "\t" (onOff p.negotiated),
    KeyValue.line "" "RX" "\t\t" (onOff (p.flag .rx)),
    KeyValue.line "" "TX" "\t\t" (onOff (p.flag .tx))]

def text (p : Pauses) : String := Text.ofLines (p.title :: p.lines)

end Pauses

/-- What may be remarked on a feature. -/
inductive Remark
  | nothing
  | fixed
  | requestedOn

def Remark.text : Remark → String
  | nothing => ""
  | fixed => " [fixed]"
  | requestedOn => " [requested on]"

structure Feature where
  name : String
  on : Bool
  indented : Bool
  remark : Remark
  isWord : IsWord name
  noColon : ':' ∉ name.toList

def Feature.line (f : Feature) : String :=
  KeyValue.line (if f.indented then "\t" else "") f.name " " (onOff f.on ++ f.remark.text)

/-- The offload features of a device. -/
structure Features where
  title : String
  features : List Feature
  isLine_title : IsLine title
  distinct : (features.map Feature.name).Nodup

namespace Features

def text (p : Features) : String := Text.ofLines (p.title :: p.features.map Feature.line)

/-- Whether a feature is on. -/
def flag? (p : Features) (name : String) : Option Bool :=
  (p.features.map fun f => (f.name, f.on)).lookup name

end Features

/-- How received packets are spread: some lines, and below a heading the hash functions. -/
structure Hashing where
  before : List String
  functions : List (String × Bool)
  isLine_before : ∀ line ∈ before, IsLine line
  noHeading : ∀ line ∈ before, Text.trim line ≠ "RSS hash function:"
  isWord : ∀ e ∈ functions, IsWord e.1
  noColon : ∀ e ∈ functions, ':' ∉ e.1.toList

namespace Hashing

def functionLine (e : String × Bool) : String := KeyValue.line "    " e.1 " " (onOff e.2)

def text (p : Hashing) : String :=
  Text.ofLines (p.before ++ "RSS hash function:" :: p.functions.map functionLine)

/-- The first hash function that is on. -/
def function? (p : Hashing) : Option String := (p.functions.find? (·.2)).map Prod.fst

end Hashing

/-! ## Readings -/

theorem isWord_onOff (on : Bool) : IsWord (onOff on) := by cases on <;> decide

theorem flag?_onOff (on : Bool) : Report.flag? (onOff on) = some on := by cases on <;> decide

theorem isPart_onOff (on : Bool) : KeyValue.IsPart (onOff on) :=
  KeyValue.isPart_of_isWord (isWord_onOff on)

theorem isKey_key {s : String} (h : IsKey s) : KeyValue.IsKey s := by
  obtain ⟨hne, hchars⟩ := h
  have hblank : ∀ c ∈ s.toList, Text.isBlank c = false := by
    intro c hc
    have hkey := hchars c hc
    simp only [Bool.or_eq_true, beq_iff_eq] at hkey
    rcases hkey with (hlower | hdigit) | rfl
    · exact Text.isBlank_of_isLower hlower
    · exact Text.isBlank_of_isDigit hdigit
    · decide
  apply KeyValue.isKey_of_isWord
  · exact Text.isWord_iff.2 ⟨by simpa using hne, hblank⟩
  · intro hcolon
    exact absurd (hchars ':' hcolon) (by decide)

namespace Coalescing

open Report.Coalescing (addLine)

variable {known : Report.Coalescing}

theorem addLine_modes (known : Report.Coalescing) (p : Coalescing) : known.addLine p.modes =
    { known with adaptiveRx := some (p.adaptive .rx), adaptiveTx := some (p.adaptive .tx) } := by
  unfold modes
  cases p.adaptive .rx <;> cases p.adaptive .tx <;> rfl

theorem addLine_row (known : Report.Coalescing) {e : String × String} (hkey : IsKey e.1)
    (hword : IsWord e.2) : known.addLine (row (some e)) =
      { known with settings := known.settings.insert e.1 (value? e.2) } := by
  have hread : KeyValue.ofLine? (row (some e)) = some ⟨e.1, e.2⟩ :=
    KeyValue.ofLine?_line (by decide) (isKey_key hkey) (by decide)
      (KeyValue.isPart_of_isWord hword)
  have hmode : e.1 ≠ "Adaptive RX" := by
    intro h
    exact absurd (hkey.2 'A' (by simp [h])) (by decide)
  unfold addLine
  rw [hread]
  dsimp only
  rw [if_neg hmode, if_neg (by simp [hword.1])]
  rfl

/-- Line by line the parameters are entered. -/
theorem foldl_rows {rows : List (Option (String × String))}
    (hkey : ∀ e ∈ rows.filterMap id, IsKey e.1) (hword : ∀ e ∈ rows.filterMap id, IsWord e.2)
    (known : Report.Coalescing) :
    (rows.map row).foldl addLine known = { known with
      settings := (entries rows).foldl (fun d e => d.insert e.1 e.2) known.settings } := by
  induction rows generalizing known with
  | nil => rfl
  | cons first rows ih =>
    cases first with
    | none => exact ih hkey hword known
    | some e =>
      obtain ⟨hkeyFirst, hkeyRest⟩ := List.forall_mem_cons.1 hkey
      obtain ⟨hwordFirst, hwordRest⟩ := List.forall_mem_cons.1 hword
      rw [List.map_cons, List.foldl_cons, addLine_row known hkeyFirst hwordFirst,
        ih hkeyRest hwordRest]
      rfl

theorem isLine_text (p : Coalescing) : ∀ line ∈ p.title :: p.modes :: p.rows.map row,
    IsLine line := by
  have hmodes : IsLine p.modes := by
    unfold modes
    cases p.adaptive .rx <;> cases p.adaptive .tx <;> decide
  rw [List.forall_mem_cons, List.forall_mem_cons, List.forall_mem_map]
  refine ⟨p.isLine_title, hmodes, ?_⟩
  intro row? hrow
  cases row? with
  | none => decide
  | some e =>
    have he : e ∈ p.rows.filterMap id := List.mem_filterMap.2 ⟨some e, hrow, rfl⟩
    exact KeyValue.isLine_line (by decide) (isKey_key (p.isKey e he)) (by decide)
      (KeyValue.isPart_of_isWord (p.isWord e he))

/-- What is read of a report is what was printed. -/
theorem read_text (p : Coalescing) : Report.Coalescing.read p.text =
    ⟨some (p.adaptive .rx), some (p.adaptive .tx), .ofList (entries p.rows)⟩ := by
  unfold Report.Coalescing.read text
  rw [Text.lines_ofLines p.isLine_text, List.drop_succ_cons, List.drop_zero, List.foldl_cons,
    addLine_modes, foldl_rows p.isKey p.isWord]
  rfl

theorem reported?_mode (p : Coalescing) (direction : Direction) :
    (Attribute.adaptiveCoalescing direction).reported? p.text =
      some (.flag (p.adaptive direction)) := by
  cases direction <;> simp [Attribute.reported?, p.read_text]

theorem reported?_setting (p : Coalescing) (key : String) :
    (Attribute.coalescing key).reported? p.text = p.setting? key := by
  have hdistinct : ((entries p.rows).map Prod.fst).Nodup := by
    unfold entries
    rw [List.map_map]
    exact p.distinct
  unfold Attribute.reported? setting?
  dsimp only
  rw [p.read_text, Dict.get?_ofList hdistinct, entries, Pairs.lookup_map]
  cases (p.rows.filterMap id).lookup key <;> rfl

end Coalescing

namespace Pauses

theorem isLine_lines (p : Pauses) : ∀ line ∈ p.lines, IsLine line := by
  unfold lines
  cases p.negotiated <;> cases p.flag .rx <;> cases p.flag .tx <;> decide

theorem entries_lines (p : Pauses) :
    ((p.lines.filterMap KeyValue.ofLine?).filter fun e => !e.value.isEmpty).map
      (fun e => (Text.lower e.key, e.value)) =
    [("autonegotiate", onOff p.negotiated), ("rx", onOff (p.flag .rx)),
      ("tx", onOff (p.flag .tx))] := by
  unfold lines
  cases p.negotiated <;> cases p.flag .rx <;> cases p.flag .tx <;> decide

/-- The lines of the flags come after the title, so whatever stands in that, they are found. -/
theorem get?_table (p : Pauses) (direction : Direction) :
    (KeyValue.table p.text).get? direction.text = some (onOff (p.flag direction)) := by
  have hlines : ∀ line ∈ p.title :: p.lines, IsLine line :=
    List.forall_mem_cons.2 ⟨p.isLine_title, p.isLine_lines⟩
  have hdistinct : ([("autonegotiate", onOff p.negotiated), ("rx", onOff (p.flag .rx)),
      ("tx", onOff (p.flag .tx))].map Prod.fst).Nodup := by
    have hkeys : ["autonegotiate", "rx", "tx"].Nodup := by decide
    exact hkeys
  unfold KeyValue.table text
  dsimp only
  -- The title may be read as an entry, too, so the look-up starts from any dictionary.
  rw [Text.lines_ofLines hlines, ← List.singleton_append, List.filterMap_append,
    List.filter_append, List.map_append, p.entries_lines, Dict.ofList, List.foldl_append,
    Dict.get?_foldl_insert hdistinct]
  cases direction <;> rfl

theorem reported?_flag (p : Pauses) (direction : Direction) :
    (Attribute.pauseFrames direction).reported? p.text = some (.flag (p.flag direction)) := by
  unfold Attribute.reported?
  dsimp only
  rw [p.get?_table, Option.bind_some, flag?_onOff]
  rfl

end Pauses

namespace Features

theorem isKey_name (f : Feature) : KeyValue.IsKey f.name :=
  KeyValue.isKey_of_isWord f.isWord f.noColon

theorem isGap_indentation (f : Feature) : IsGap (if f.indented then "\t" else "") := by
  split <;> decide

theorem isPart_flag (f : Feature) : KeyValue.IsPart (onOff f.on ++ f.remark.text) := by
  cases f.on <;> cases f.remark <;> decide

theorem flag?_flag (f : Feature) : Report.flag? (onOff f.on ++ f.remark.text) = some f.on := by
  cases f.on <;> cases f.remark <;> decide

theorem read_text (p : Features) :
    Report.Features.read p.text = .ofList (p.features.map fun f => (f.name, f.on)) := by
  have hlines : ∀ line ∈ p.title :: p.features.map Feature.line, IsLine line := by
    rw [List.forall_mem_cons, List.forall_mem_map]
    exact ⟨p.isLine_title, fun f _ =>
      KeyValue.isLine_line (isGap_indentation f) (isKey_name f) (by decide) (isPart_flag f)⟩
  have hentry : ∀ f : Feature, KeyValue.ofLine? f.line =
      some ⟨f.name, onOff f.on ++ f.remark.text⟩ := fun f =>
    KeyValue.ofLine?_line (isGap_indentation f) (isKey_name f) (by decide) (isPart_flag f)
  unfold Report.Features.read text
  rw [Text.lines_ofLines hlines, List.drop_succ_cons, List.drop_zero,
    KeyValue.filterMap_ofLine? fun f _ => hentry f]
  dsimp only
  rw [List.filterMap_map, ← List.filterMap_eq_map]
  congr 2
  funext f
  simp [flag?_flag]

theorem reported?_feature (p : Features) (feature : String) :
    (Attribute.offload feature).reported? p.text =
      (p.flag? (Report.Features.longName feature)).map .flag := by
  have hdistinct : ((p.features.map fun f => (f.name, f.on)).map Prod.fst).Nodup := by
    rw [List.map_map]
    exact p.distinct
  unfold Attribute.reported? flag?
  dsimp only
  rw [p.read_text, Dict.get?_ofList hdistinct]

end Features

namespace Hashing

theorem isKey_function (p : Hashing) {e : String × Bool} (he : e ∈ p.functions) :
    KeyValue.IsKey e.1 := KeyValue.isKey_of_isWord (p.isWord e he) (p.noColon e he)

theorem isLine_text (p : Hashing) :
    ∀ line ∈ p.before ++ "RSS hash function:" :: p.functions.map functionLine, IsLine line := by
  rw [List.forall_mem_append, List.forall_mem_cons, List.forall_mem_map]
  exact ⟨p.isLine_before, by decide, fun e he =>
    KeyValue.isLine_line (by decide) (p.isKey_function he) (by decide) (isPart_onOff e.2)⟩

/-- The lines below the heading are those of the functions. -/
theorem functionLines_text (p : Hashing) :
    Report.Hashing.functionLines p.text = p.functions.map functionLine := by
  have hbefore : ∀ line ∈ p.before, (Text.trim line != "RSS hash function:") = true := by
    intro line hline
    exact bne_iff_ne.2 (p.noHeading line hline)
  have hheading : Text.trim "RSS hash function:" = "RSS hash function:" := by decide
  have hblank : ∀ line ∈ p.functions.map functionLine,
      Report.Hashing.startsBlank line = true := by
    rw [List.forall_mem_map]
    intro e _
    simp [functionLine, KeyValue.line, Report.Hashing.startsBlank, Text.isBlank]
  unfold Report.Hashing.functionLines text
  dsimp only
  rw [Text.lines_ofLines p.isLine_text, List.dropWhile_append_of_pos hbefore,
    List.dropWhile_cons_of_neg (by simp [hheading]), List.drop_succ_cons, List.drop_zero,
    List.takeWhile_eq_self_iff.2 hblank]

theorem reported?_function (p : Hashing) :
    Attribute.hashFunction.reported? p.text = p.function?.map .word := by
  have hentry : ∀ e ∈ p.functions,
      KeyValue.ofLine? (functionLine e) = some ⟨e.1, onOff e.2⟩ := fun e he =>
    KeyValue.ofLine?_line (by decide) (p.isKey_function he) (by decide) (isPart_onOff e.2)
  unfold Attribute.reported? Report.Hashing.function? function?
  dsimp only
  rw [p.functionLines_text, KeyValue.filterMap_ofLine? hentry, List.find?_map]
  simp [Function.comp_def, flag?_onOff]

end Hashing

end Printed

/-! ## Attributes -/

namespace Device

variable {d : Device}

/-- An attribute has the value that is reported of it. -/
theorem get_of_query (hd : d.control = .commands) {name : String} {a : Attribute}
    (ha : Attribute.ofName? name = some a) {b : Bench} {output : String}
    (hq : (d.query (d.readCommand a) b).1 = .ok output) :
    (d.get name b).1 = d.answer name (a.reported? output) := by
  rw [get_eq hd ha, hq]
  rfl

/-- What a tool printed of a device is what the device gives for an attribute: the adaptive modes and
the parameters of merging interrupts, the flags for pause frames, the offload features by their long
or short names, and the hash function. -/
theorem get_printed (hd : d.control = .commands) (b : Bench) :
    (∀ p : Printed.Coalescing, (d.query ("ethtool -c " ++ d.name) b).1 = .ok p.text →
      (∀ direction : Direction,
        (d.get ("adaptive_" ++ direction.text ++ "_coalescing") b).1 =
          .ok (.flag (p.adaptive direction))) ∧
      ∀ key, '_' ∉ key.toList → (d.get (Attribute.coalescingName key) b).1 =
        d.answer (Attribute.coalescingName key) (p.setting? key)) ∧
    (∀ p : Printed.Pauses, (d.query ("ethtool -a " ++ d.name) b).1 = .ok p.text →
      ∀ direction : Direction,
        (d.get (direction.text ++ "_pause_frames") b).1 = .ok (.flag (p.flag direction))) ∧
    (∀ p : Printed.Features, (d.query ("ethtool -k " ++ d.name) b).1 = .ok p.text →
      ∀ feature, '_' ∉ feature.toList → (d.get (Attribute.offloadName feature) b).1 =
        d.answer (Attribute.offloadName feature)
          ((p.flag? (Report.Features.longName feature)).map .flag)) ∧
    (∀ p : Printed.Hashing, (d.query ("ethtool -x " ++ d.name) b).1 = .ok p.text →
      (d.get "rx_hash_function" b).1 =
        d.answer "rx_hash_function" (p.function?.map .word)) := by
  refine ⟨?_, ?_, ?_, ?_⟩
  · intro p hp
    constructor
    · intro direction
      have hname : Attribute.ofName? ("adaptive_" ++ direction.text ++ "_coalescing") =
          some (.adaptiveCoalescing direction) := by
        cases direction <;> decide
      rw [get_of_query hd hname hp, p.reported?_mode]
      rfl
    · intro key hkey
      have hname := Attribute.ofName?_coalescingName key
      rw [Attribute.handed_eq_self_iff.2 hkey] at hname
      rw [get_of_query hd hname hp, p.reported?_setting]
  · intro p hp direction
    have hname : Attribute.ofName? (direction.text ++ "_pause_frames") =
        some (.pauseFrames direction) := by
      cases direction <;> decide
    rw [get_of_query hd hname hp, p.reported?_flag]
    rfl
  · intro p hp feature hfeature
    have hname := Attribute.ofName?_offloadName feature
    rw [Attribute.handed_eq_self_iff.2 hfeature] at hname
    rw [get_of_query hd hname hp, p.reported?_feature]
  · intro p hp
    have hname : Attribute.ofName? "rx_hash_function" = some .hashFunction := by decide
    rw [get_of_query hd hname hp, p.reported?_function]

def printedCoalescing : Printed.Coalescing where
  title := "Coalesce parameters for eth0:"
  adaptive direction := direction == .rx
  rows := [some ("sample-interval", "n/a"), none, some ("rx-usecs", "3"), some ("rx-frames", "0")]
  isLine_title := by decide
  isKey := by decide
  isWord := by decide
  distinct := by decide

def printedPauses : Printed.Pauses where
  title := "Pause parameters for eth0:"
  negotiated := true
  flag direction := direction == .tx
  isLine_title := by decide

def printedFeatures : Printed.Features where
  title := "Features for eth0:"
  features := [⟨"tx-checksum-ipv4", false, true, .fixed, by decide, by decide⟩,
    ⟨"generic-receive-offload", false, false, .nothing, by decide, by decide⟩,
    ⟨"hw-tc-offload", true, false, .requestedOn, by decide, by decide⟩]
  isLine_title := by decide
  distinct := by decide

def printedHashing : Printed.Hashing where
  before := ["RX flow hash indirection table for eth0 with 4 RX ring(s):",
    "    0:      0     1     2     3", "RSS hash key:", "6d:5a:56:da"]
  functions := [("toeplitz", false), ("xor", true), ("crc32", false)]
  isLine_before := by decide
  noHeading := by decide
  isWord := by decide
  noColon := by decide

def printedDevice : Device := ⟨"eth0", ⟨"host1", "host1"⟩, ⟨"host1", "host1"⟩, none, .commands⟩

/-- A host whose tools print all four reports. -/
def printingBench : Bench where
  answer _ _ command := .ok (.ok (
    if command = "ethtool -c eth0" then printedCoalescing.text
    else if command = "ethtool -a eth0" then printedPauses.text
    else if command = "ethtool -k eth0" then printedFeatures.text
    else printedHashing.text))
  memory := fun _ => default
  journal := []

theorem get_printed_of_eth0 :
    printedDevice.control = .commands ∧
    (printedDevice.get "adaptive_tx_coalescing" printingBench).1 = .ok (.flag false) ∧
    (printedDevice.get (Attribute.coalescingName "rx-usecs") printingBench).1 = .ok (.number 3) ∧
    (printedDevice.get (Attribute.coalescingName "sample-interval") printingBench).1 =
      .error (printedDevice.unsupported (Attribute.coalescingName "sample-interval")) ∧
    (printedDevice.get "tx_pause_frames" printingBench).1 = .ok (.flag true) ∧
    (printedDevice.get (Attribute.offloadName "gro") printingBench).1 = .ok (.flag false) ∧
    (printedDevice.get (Attribute.offloadName "hw-tc-offload") printingBench).1 =
      .ok (.flag true) ∧
    (printedDevice.get (Attribute.offloadName "lro") printingBench).1 =
      .error (printedDevice.unsupported (Attribute.offloadName "lro")) ∧
    (printedDevice.get "rx_hash_function" printingBench).1 = .ok (.word "xor") := by
  obtain ⟨hcoalescing, hpauses, hfeatures, hhashing⟩ :=
    get_printed (rfl : printedDevice.control = .commands) printingBench
  obtain ⟨hmodes, hsettings⟩ := hcoalescing printedCoalescing rfl
  refine ⟨rfl, hmodes .tx, ?_, ?_, hpauses printedPauses rfl .tx, ?_, ?_, ?_, ?_⟩
  · exact (hsettings "rx-usecs" (by decide)).trans (by decide)
  · exact (hsettings "sample-interval" (by decide)).trans (by decide)
  · exact (hfeatures printedFeatures rfl "gro" (by decide)).trans (by decide)
  · exact (hfeatures printedFeatures rfl "hw-tc-offload" (by decide)).trans (by decide)
  · exact (hfeatures printedFeatures rfl "lro" (by decide)).trans (by decide)
  · exact (hhashing printedHashing rfl).trans (by decide)

end Device

end NicTuning
