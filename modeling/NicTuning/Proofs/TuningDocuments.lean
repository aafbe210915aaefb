import NicTuning.Proofs.Dictionaries
import NicTuning.Proofs.JsonTexts
import NicTuning.Tuning.Source

/-!
# Tunings read back

A tuning is written as a record that leaves out what is not given. Reading it takes the fields in
groups, but as no two fields have one name each group only meets its own entries, and each entry
gives its field the value it was written of. The two readings that are tried one after another, of
settings for all devices and of settings for each, never take one kind of document for the other.

Main statement: a tuning written as JSON is read back as the same tuning.
-/
namespace NicTuning

namespace Document

theorem mapM_map_eq_ok {α β : Type} {read : β → Shaped α} {write : α → β}
    (h : ∀ x, read (write x) = .ok x) (l : List α) : (l.map write).mapM read = .ok l := by
  induction l with
  | nil => rfl
  | cons x l ih =>
    rw [List.map_cons, List.mapM_cons, h, ih]
    rfl

theorem asListOf_map {α : Type} {item : Document → Shaped α} {document : α → Document}
    (h : ∀ x, item (document x) = .ok x) (l : List α) :
    asListOf item (.list (l.map document)) = .ok l :=
  mapM_map_eq_ok h l

theorem asDictOf_dictDocument {α : Type} {value : Document → Shaped α} {document : α → Document}
    (h : ∀ x, value (document x) = .ok x) (d : Dict α) :
    asDictOf value (Tuning.dictDocument document d) = .ok d := by
  have hmap : Tuning.dictDocument document d =
      map (d.entries.map fun e => (text e.1, document e.2)) := by
    simp [Tuning.dictDocument, record]
  rw [hmap, asDictOf, mapM_map_eq_ok]
  · exact congrArg Except.ok (Dict.ofList_entries d)
  · intro e
    dsimp only
    rw [h]
    rfl

theorem optionally_eq {α : Type} {value : Document → Shaped α} {d : Document} {x : α}
    (hd : d ≠ .null) (h : value d = .ok x) : optionally value d = .ok (some x) := by
  unfold optionally
  split
  · exact absurd rfl hd
  · rw [h]
    rfl

/-- The entries of a record each of whose fields is given or left out. -/
def given (fields : List (String × Option Document)) : List (String × Document) :=
  fields.filterMap fun (name, value) => value.map fun d => (name, d)

/-- Reads what is given of one field, if it belongs to the given fields. -/
def enter {σ : Type} (fields : Fields σ) (s : σ) : String × Option Document → Shaped σ
  | (_, none) => .ok s
  | (k, some d) => (fields.lookup k).elim (.ok s) fun set => set s d

/-- Where no two fields have one name, reading their entries is reading each field by itself. -/
theorem readFields_given {σ : Type} {fields : Fields σ} {seen : List String} {s : σ}
    {l : List (String × Option Document)} (hnd : (l.map Prod.fst).Nodup)
    (hseen : ∀ k ∈ l.map Prod.fst, k ∉ seen) :
    readFields fields seen s (given l) =
      (l.filter fun e => (fields.lookup e.1).isSome).foldlM (enter fields) s := by
  induction l generalizing seen s with
  | nil => rfl
  | cons e l ih =>
    obtain ⟨k, o⟩ := e
    obtain ⟨hk, hrest⟩ := List.nodup_cons.1 hnd
    have hlater : ∀ k ∈ l.map Prod.fst, k ∉ seen := fun x hx => hseen x (List.mem_cons_of_mem k hx)
    cases hset : fields.lookup k with
    | none =>
      rw [List.filter_cons_of_neg (by simp [hset]), ← ih hrest hlater]
      cases o with
      | none => rfl
      | some d =>
        have hgiven : given ((k, some d) :: l) = (k, d) :: given l := rfl
        simp [hgiven, readFields, hset]
    | some set =>
      rw [List.filter_cons_of_pos (by simp [hset]), List.foldlM_cons]
      cases o with
      | none => exact ih hrest hlater
      | some d =>
        have hgiven : given ((k, some d) :: l) = (k, d) :: given l := rfl
        have hnew : k ∉ seen := hseen k List.mem_cons_self
        have hboth : ∀ x ∈ l.map Prod.fst, x ∉ k :: seen := by
          intro x hx hmem
          rcases List.mem_cons.1 hmem with rfl | hmem
          · exact hk hx
          · exact hlater x hx hmem
        simp [hgiven, readFields, hset, hnew, enter, ih hrest hboth]

end Document

namespace Tuning

open Document

/-- What is written of each field of a tuning. -/
def parts (t : Tuning) : List (String × Option Document) :=
  [("offload_settings", t.offload.map settingsDocument),
    ("mtu", t.mtu.map fun n => .integer n.toNat),
    ("adaptive_rx_coalescing", t.coalescing.adaptiveRx.map .flag),
    ("adaptive_tx_coalescing", t.coalescing.adaptiveTx.map .flag),
    ("coalescing_settings", t.coalescing.settings.map allotmentDocument),
    ("dev_intr_cpu_lists", t.interrupts.processors.map fun lists =>
      .list (lists.map fun l => .list (l.map fun n => .integer n.toInt))),
    ("dev_intr_cpu_policies", t.interrupts.spreadings.map fun l =>
      .list (l.map Spreading.document)),
    ("perf_parallel_streams", t.streams.map fun n => .integer n.toNat),
    ("rx_pause_frames", t.pauseFrames.rx.map .flag),
    ("tx_pause_frames", t.pauseFrames.tx.map .flag),
    ("dev_queues", t.queues.map fun l =>
      .list (l.map (dictDocument fun n => .integer n.toNat))),
    ("nfc_rx_flow_hash_type", t.flowHash.type.map .text),
    ("nfc_rx_flow_hash_value", t.flowHash.fields.map .text),
    ("rx_hash_function", t.hashFunction.map .text)]

theorem entries_eq (t : Tuning) : t.entries = given t.parts := rfl

theorem readFields_entries (fields : Fields Tuning) (s t : Tuning) :
    readFields fields [] s t.entries =
      (t.parts.filter fun e => (fields.lookup e.1).isSome).foldlM (enter fields) s := by
  rw [entries_eq]
  apply readFields_given
  · simp [parts]
  · simp

/-- A field that is written of a value is read as that value. -/
theorem enter_map {β : Type} {fields : Fields Tuning} {k : String} {read : Document → Shaped β}
    {put : Tuning → Option β → Tuning} {document : β → Document} {o : Option β} {s s' : Tuning}
    {rest : List (String × Option Document)}
    (hset : fields.lookup k = some fun t d => do return put t (← optionally read d))
    (hread : ∀ x, optionally read (document x) = .ok (some x)) (hput : put s none = s)
    (hrest : rest.foldlM (enter fields) (put s o) = .ok s') :
    ((k, o.map document) :: rest).foldlM (enter fields) s = .ok s' := by
  rw [List.foldlM_cons, ← hrest]
  cases o with
  | none =>
    rw [hput]
    rfl
  | some x =>
    simp only [Option.map_some, enter, hset, Option.elim_some, hread]
    rfl

/-- The groups of fields are read one after another. -/
theorem foldlM_group {fields : Fields Tuning} {groups : List (Fields Tuning)} {s s' r t : Tuning}
    (h : (t.parts.filter fun e => (fields.lookup e.1).isSome).foldlM (enter fields) s = .ok s')
    (hrest : groups.foldlM (fun s fields => readFields fields [] s t.entries) s' = .ok r) :
    (fields :: groups).foldlM (fun s fields => readFields fields [] s t.entries) s = .ok r := by
  rw [List.foldlM_cons, readFields_entries, h]
  exact hrest

theorem ofDocument_document (s : Setting) : Setting.ofDocument s.document = .ok s := by
  cases s with
  | flag b => rfl
  | number n =>
    have hrange : Int64.minValue.toInt ≤ n.toInt ∧ n.toInt ≤ Int64.maxValue.toInt :=
      ⟨n.minValue_le_toInt, n.toInt_le⟩
    rw [Setting.document, Setting.ofDocument, Setting.ofDocument?, if_pos hrange,
      Int64.ofInt_toInt]
  | word s => rfl

theorem settingsOf_settingsDocument (s : Settings) : settingsOf (settingsDocument s) = .ok s :=
  asDictOf_dictDocument ofDocument_document s

theorem allotmentOf_allotmentDocument (a : Allotment Settings) :
    allotmentOf (allotmentDocument a) = .ok a := by
  cases a with
  | shared settings =>
    simp only [allotmentOf, allotmentDocument, settingsOf_settingsDocument]
  | each list =>
    have hlist : asListOf (optionally settingsOf)
        (.list (list.map fun o => o.elim .null settingsDocument)) = .ok list := by
      apply asListOf_map
      intro o
      cases o with
      | none => rfl
      | some s => exact optionally_eq nofun (settingsOf_settingsDocument s)
    -- A list is no map, so the first reading fails and the second one is tried.
    obtain ⟨text, hmap⟩ : ∃ text, settingsOf (allotmentDocument (.each list)) = .error text :=
      ⟨_, rfl⟩
    unfold allotmentOf
    rw [hmap]
    simp only [allotmentDocument, hlist]

theorem asUInt32_toNat (n : UInt32) : asUInt32 (.integer n.toNat) = .ok n := by
  have hsize : 0 ≤ (n.toNat : Int) ∧ (n.toNat : Int) < UInt32.size := by
    have h := n.toNat_lt_size
    omega
  rw [asUInt32, if_pos hsize, Int.toNat_natCast, UInt32.ofNat_toNat]

theorem asInt64_toInt (n : Int64) : asInt64 (.integer n.toInt) = .ok n := by
  have hrange : Int64.minValue.toInt ≤ n.toInt ∧ n.toInt ≤ Int64.maxValue.toInt :=
    ⟨n.minValue_le_toInt, n.toInt_le⟩
  rw [asInt64, if_pos hrange, Int64.ofInt_toInt]

theorem ofDocument_spreading (s : Spreading) : Spreading.ofDocument s.document = .ok s := by
  cases s <;> rfl

theorem ofEntries_entries (t : Tuning) : ofEntries t.entries = .ok t := by
  have number : ∀ n : UInt32, optionally asUInt32 (.integer n.toNat) = .ok (some n) :=
    fun n => optionally_eq nofun (asUInt32_toNat n)
  have flag : ∀ b, optionally asFlag (.flag b) = .ok (some b) := fun _ => rfl
  have text : ∀ s, optionally asText (.text s) = .ok (some s) := fun _ => rfl
  have settings : ∀ s, optionally settingsOf (settingsDocument s) = .ok (some s) :=
    fun s => optionally_eq nofun (settingsOf_settingsDocument s)
  have allotment : ∀ a, optionally allotmentOf (allotmentDocument a) = .ok (some a) := by
    intro a
    exact optionally_eq (by cases a <;> exact nofun) (allotmentOf_allotmentDocument a)
  have processors : ∀ lists : List (List Int64),
      optionally (asListOf (asListOf asInt64))
        (.list (lists.map fun l => .list (l.map fun n => .integer n.toInt))) = .ok (some lists) :=
    fun lists => optionally_eq nofun (asListOf_map (asListOf_map asInt64_toInt) lists)
  have spreadings : ∀ l : List Spreading,
      optionally (asListOf Spreading.ofDocument) (.list (l.map Spreading.document)) =
        .ok (some l) :=
    fun l => optionally_eq nofun (asListOf_map ofDocument_spreading l)
  have queues : ∀ l : List (Dict UInt32),
      optionally (asListOf (asDictOf asUInt32))
        (.list (l.map (dictDocument fun n => .integer n.toNat))) = .ok (some l) :=
    fun l => optionally_eq nofun (asListOf_map (asDictOf_dictDocument asUInt32_toNat) l)
  unfold ofEntries fieldGroups
  apply foldlM_group (enter_map rfl settings rfl rfl)
  apply foldlM_group (enter_map rfl number rfl rfl)
  apply foldlM_group
    (enter_map rfl flag rfl (enter_map rfl flag rfl (enter_map rfl allotment rfl rfl)))
  apply foldlM_group (enter_map rfl processors rfl (enter_map rfl spreadings rfl rfl))
  apply foldlM_group (enter_map rfl number rfl rfl)
  apply foldlM_group (enter_map rfl flag rfl (enter_map rfl flag rfl rfl))
  apply foldlM_group (enter_map rfl queues rfl rfl)
  apply foldlM_group (enter_map rfl text rfl (enter_map rfl text rfl rfl))
  apply foldlM_group (enter_map rfl text rfl rfl)
  rfl

theorem textEntries_map (l : List (String × Document)) :
    textEntries (l.map fun e => (text e.1, e.2)) = l := by
  induction l with
  | nil => rfl
  | cons e l ih => exact congrArg (e :: ·) ih

theorem isData_integer {depth : Nat} (n : Int64) : IsData depth (.integer n.toInt) := by
  have low := n.minValue_le_toInt
  have high := n.toInt_le
  apply IsData.integer
  · exact low
  · exact Int.lt_of_le_of_lt high (by decide)

theorem isData_natural {depth : Nat} (n : UInt32) : IsData depth (.integer n.toNat) := by
  have high : n.toNat < UInt64.size := Nat.lt_trans n.toNat_lt_size (by decide)
  apply IsData.integer
  · omega
  · exact Int.ofNat_lt.2 high

theorem isData_list {α : Type} {depth : Nat} {document : α → Document}
    (h : ∀ x, IsData depth (document x)) (l : List α) :
    IsData (depth + 1) (.list (l.map document)) := by
  apply IsData.list
  rw [List.forall_mem_map]
  intro x _
  exact h x

theorem isData_record {depth : Nat} {l : List (String × Document)}
    (h : ∀ e ∈ l, IsData depth e.2) : IsData (depth + 1) (.record l) := by
  apply IsData.map
  · rw [List.forall_mem_map]
    intro e _
    exact ⟨e.1, rfl⟩
  · rw [List.forall_mem_map]
    exact h

theorem isData_dictDocument {α : Type} {depth : Nat} {document : α → Document}
    (h : ∀ x, IsData depth (document x)) (d : Dict α) :
    IsData (depth + 1) (dictDocument document d) := by
  apply isData_record
  rw [List.forall_mem_map]
  intro e _
  exact h e.2

theorem isData_setting {depth : Nat} (s : Setting) : IsData depth s.document := by
  cases s with
  | flag b => exact .flag b
  | number n => exact isData_integer n
  | word s => exact .text s

theorem isData_spreading {depth : Nat} (s : Spreading) : IsData depth s.document := .text s.text

theorem isData_allotment {depth : Nat} (a : Allotment Settings) :
    IsData (depth + 2) (allotmentDocument a) := by
  cases a with
  | shared settings => exact isData_dictDocument isData_setting settings
  | each list =>
    apply isData_list
    intro o
    cases o with
    | none => exact .null
    | some settings => exact isData_dictDocument isData_setting settings

/-- A tuning is written with no number past 64 bits and with few containers in one another. -/
theorem isData_document (t : Tuning) : IsData Json.maxDepth t.document := by
  have hpart : ∀ {α : Type} {document : α → Document}, (∀ x, IsData 126 (document x)) →
      ∀ o : Option α, ∀ d ∈ o.map document, IsData 126 d := by
    intro α document h o d hd
    obtain ⟨x, -, rfl⟩ := Option.map_eq_some_iff.1 hd
    exact h x
  have hparts : ∀ p ∈ t.parts, ∀ d ∈ p.2, IsData 126 d := by
    have hflag : ∀ o : Option Bool, ∀ d ∈ o.map flag, IsData 126 d := hpart .flag
    have htext : ∀ o : Option String, ∀ d ∈ o.map text, IsData 126 d := hpart .text
    simp only [parts, List.forall_mem_cons]
    exact ⟨hpart (isData_dictDocument isData_setting) _, hpart isData_natural _, hflag _, hflag _,
      hpart isData_allotment _, hpart (isData_list (isData_list isData_integer)) _,
      hpart (isData_list isData_spreading) _, hpart isData_natural _, hflag _, hflag _,
      hpart (isData_list (isData_dictDocument isData_natural)) _, htext _, htext _, htext _, nofun⟩
  apply isData_record
  intro e he
  rw [entries_eq, given] at he
  obtain ⟨p, hp, hd⟩ := List.mem_filterMap.1 he
  obtain ⟨d, hsome, rfl⟩ := Option.map_eq_some_iff.1 hd
  exact hparts p hp d hsome

/-- A tuning is read back from what is written of it. -/
theorem ofJson_toJson (t : Tuning) : ofJson t.toJson = .ok t := by
  have hread := Json.value?_write (isData_document t)
  obtain ⟨cs, hcs⟩ := Json.toList_write_map (t.entries.map fun e => (text e.1, e.2))
  have hspace : Json.skipSpace t.toJson.toList = '\x7b' :: cs := by
    unfold toJson document record
    rw [hcs, Json.skipSpace_cons (by decide)]
  have htext : Json.value? Json.maxDepth ('\x7b' :: cs) = some (t.document, []) := by
    rw [← hcs]
    exact hread
  unfold ofJson
  split
  · rename_i h
    rw [hspace] at h
    cases h
  · rw [hspace, htext]
    simp only [document, record, textEntries_map, ofEntries_entries]
    rfl

end Tuning

end NicTuning
