import Mathlib.Data.List.Dedup
import NicTuning.Proofs.QueueCounts
import NicTuning.Proofs.Restoring
import NicTuning.Proofs.RootQdiscs

/-!
# Calls on a ledger

A ledger is a register that is only changed by a few calls. Next to it runs a chronicle: a plain map
of keys to values, and the list of all keys that were ever added, with a key as often as it was
added. After any calls on both, the ledger has the values of the chronicle, gave the same answers,
and lists the present keys by the last time they were added.

The changes within one entry are kept in the same way, by the names of their attributes; there no
change is lost and none is there twice.
-/
namespace NicTuning

/-! ## Chronicles -/

/-- What is under each key, and all keys that were added so far, the last one at the end. -/
structure Chronicle (α : Type) where
  value : String → Option α
  added : List String

namespace Chronicle

variable {α : Type}

def start : Chronicle α := ⟨fun _ => none, []⟩

def has (h : Chronicle α) (k : String) : Bool := (h.value k).isSome

/-- The keys with a value, each where it was added last. -/
def keys (h : Chronicle α) : List String := h.added.dedup.filter h.has

/-- A key without a value is added, the others are not moved. -/
def write (h : Chronicle α) (k : String) (v : α) : Chronicle α where
  value := Function.update h.value k (some v)
  added := if h.has k then h.added else h.added ++ [k]

def remove (h : Chronicle α) (k : String) : Chronicle α where
  value := Function.update h.value k none
  added := h.added

theorem has_write (h : Chronicle α) (k k' : String) (v : α) :
    (h.write k v).has k' = (k' == k || h.has k') := by
  unfold has write
  by_cases hk : k' = k
  · simp [hk]
  · simp [hk]

theorem has_remove (h : Chronicle α) (k k' : String) :
    (h.remove k).has k' = (k' != k && h.has k') := by
  unfold has remove
  by_cases hk : k' = k
  · simp [hk]
  · simp [hk]

/-- One more occurrence at the end is the last one of its key. -/
theorem filter_dedup_concat (p : String → Bool) {k : String} (hk : p k = true) (xs : List String) :
    (xs ++ [k]).dedup.filter p = xs.dedup.filter (fun x => x != k && p x) ++ [k] := by
  induction xs with
  | nil => simp [hk]
  | cons x xs ih =>
    rw [List.cons_append]
    by_cases hx : x = k
    · rw [List.dedup_cons_of_mem (by simp [hx]), ih]
      by_cases hmem : x ∈ xs
      · rw [List.dedup_cons_of_mem hmem]
      · rw [List.dedup_cons_of_notMem hmem, List.filter_cons_of_neg (by simp [hx])]
    · by_cases hmem : x ∈ xs
      · rw [List.dedup_cons_of_mem hmem, List.dedup_cons_of_mem (List.mem_append_left _ hmem), ih]
      · rw [List.dedup_cons_of_notMem hmem, List.dedup_cons_of_notMem (by simp [hmem, hx]),
          List.filter_cons, List.filter_cons, ih]
        by_cases hp : p x = true <;> simp [hp, hx]

theorem keys_write (h : Chronicle α) (k : String) (v : α) :
    (h.write k v).keys = if h.has k then h.keys else h.keys ++ [k] := by
  have hhas : (h.write k v).has = fun k' => k' == k || h.has k' := funext fun k' =>
    h.has_write k k' v
  unfold keys
  rw [hhas]
  by_cases hk : h.has k = true
  · have hadded : (h.write k v).added = h.added := if_pos hk
    rw [hadded, if_pos hk]
    apply List.filter_congr
    intro k' _
    by_cases hkk : k' = k <;> simp [hkk, hk]
  · have hadded : (h.write k v).added = h.added ++ [k] := if_neg hk
    rw [hadded, if_neg hk, filter_dedup_concat (fun k' => k' == k || h.has k') (by simp)]
    refine congrArg (· ++ [k]) (List.filter_congr fun k' _ => ?_)
    by_cases hkk : k' = k
    · simp [hkk, hk]
    · rw [bne_iff_ne.2 hkk, beq_false_of_ne hkk, Bool.true_and, Bool.false_or]

theorem keys_remove (h : Chronicle α) (k : String) :
    (h.remove k).keys = h.keys.filter (· != k) := by
  unfold keys
  rw [List.filter_filter]
  exact List.filter_congr fun k' _ => h.has_remove k k'

end Chronicle

/-! ## Registers that keep a chronicle -/

namespace Register

variable {α : Type} {r : Register α} {h : Chronicle α}

/-- The register has the values of the chronicle and lists its keys in their order. -/
structure Keeps (r : Register α) (h : Chronicle α) : Prop where
  get? : ∀ k, r.get? k = h.value k
  keys : r.keys = h.keys

theorem keeps_start : Keeps (.empty : Register α) .start := ⟨fun _ => rfl, rfl⟩

namespace Keeps

theorem contains (hr : r.Keeps h) (k : String) : r.contains k = h.has k :=
  congrArg Option.isSome (hr.get? k)

theorem write (hr : r.Keeps h) (k : String) (v : α) : (r.insert k v).Keeps (h.write k v) where
  get? k' := by
    rw [Register.get?_insert, hr.get?]
    exact (Function.update_apply h.value k (some v) k').symm
  keys := by
    rw [Register.keys_insert, Chronicle.keys_write, ← hr.keys, ← hr.contains]
    exact if_congr contains_iff.symm rfl rfl

theorem remove (hr : r.Keeps h) (k : String) : (r.erase k).Keeps (h.remove k) where
  get? k' := by
    rw [Register.get?_erase, hr.get?]
    exact (Function.update_apply h.value k none k').symm
  keys := by rw [Register.keys_erase, Chronicle.keys_remove, hr.keys]

end Keeps

/-- Erasing takes out the one pair of the key. -/
theorem exists_erase {k : String} {v : α} (hk : r.get? k = some v) :
    ∃ before after, r.entries = before ++ (k, v) :: after ∧
      (r.erase k).entries = before ++ after := by
  obtain ⟨before, after, hr⟩ := List.append_of_mem ((Pairs.lookup_eq_some_iff r.nodup).1 hk)
  refine ⟨before, after, hr, ?_⟩
  have hn := r.nodup
  rw [hr, List.map_append, List.map_cons, List.nodup_append'] at hn
  obtain ⟨-, hafter, hdisjoint⟩ := hn
  have hother : ∀ e ∈ before ++ after, (e.1 != k) = true := by
    rintro ⟨k', w⟩ he
    rw [bne_iff_ne]
    rintro rfl
    rcases List.mem_append.1 he with he | he
    · exact hdisjoint (List.mem_map.2 ⟨_, he, rfl⟩) List.mem_cons_self
    · exact (List.nodup_cons.1 hafter).1 (List.mem_map.2 ⟨_, he, rfl⟩)
  have hfilter := List.filter_eq_self.2 hother
  change r.entries.filter (fun e => e.1 != k) = before ++ after
  rw [hr, List.filter_append, List.filter_cons_of_neg (by simp), ← List.filter_append, hfilter]

end Register

/-! ## Entries with a key of their own -/

/-- The kinds of entries that are looked up under one fixed key. -/
inductive Kind
  | queues
  | interrupts
  | qdiscs

namespace Kind

def key : Kind → String
  | queues => Layer.Queues.key
  | interrupts => Layer.Interrupts.key
  | qdiscs => Layer.Qdisc.key

def accepts : Kind → Entry → Bool
  | queues, .queues _ => true
  | interrupts, .interrupts _ => true
  | qdiscs, .qdiscs _ => true
  | _, _ => false

/-- What the look-up for the kind finds, as an entry. -/
def find : Kind → Ledger → Option Entry
  | queues, l => (l.queues? Layer.Queues.key).map .queues
  | interrupts, l => (l.interrupts? Layer.Interrupts.key).map .interrupts
  | qdiscs, l => (l.qdiscs? Layer.Qdisc.key).map .qdiscs

/-- What the look-up for the kind takes out, as an entry, and the ledger without it. -/
def take : Kind → Ledger → Option Entry × Ledger
  | queues, l => (l.takeIf Ledger.queues? Layer.Queues.key).map (·.map .queues) id
  | interrupts, l => (l.takeIf Ledger.interrupts? Layer.Interrupts.key).map (·.map .interrupts) id
  | qdiscs, l => (l.takeIf Ledger.qdiscs? Layer.Qdisc.key).map (·.map .qdiscs) id

theorem find_eq (kind : Kind) (l : Ledger) : kind.find l = (l.get? kind.key).filter kind.accepts := by
  cases kind with
  | queues =>
    unfold find key
    dsimp only
    rw [Ledger.queues?_eq]
    rcases l.get? Layer.Queues.key with - | (_ | _ | _ | _) <;> rfl
  | interrupts =>
    unfold find key Ledger.interrupts?
    dsimp only
    rcases l.get? Layer.Interrupts.key with - | (_ | _ | _ | _) <;> rfl
  | qdiscs =>
    unfold find key
    dsimp only
    rw [Ledger.qdiscs?_eq]
    rcases l.get? Layer.Qdisc.key with - | (_ | _ | _ | _) <;> rfl

theorem map_takeIf {α : Type} (look : Ledger → String → Option α) (enter : α → Entry) (l : Ledger)
    (key : String) : (l.takeIf look key).map (·.map enter) id =
      match (look l key).map enter with
      | some entry => (some entry, l.erase key)
      | none => (none, l) := by
  unfold Ledger.takeIf
  cases look l key <;> rfl

theorem take_eq (kind : Kind) (l : Ledger) : kind.take l =
    match kind.find l with
    | some entry => (some entry, l.erase kind.key)
    | none => (none, l) := by
  cases kind with
  | queues => exact map_takeIf Ledger.queues? Entry.queues l Layer.Queues.key
  | interrupts => exact map_takeIf Ledger.interrupts? Entry.interrupts l Layer.Interrupts.key
  | qdiscs => exact map_takeIf Ledger.qdiscs? Entry.qdiscs l Layer.Qdisc.key

end Kind

/-! ## Calls -/

namespace Ledger

/-- A call on a ledger. In `revise` the entry of changed attributes, a new one if there is none, is
handed out and changed at will. -/
inductive Call
  | keys
  | get (key : String)
  | contains (key : String)
  | add (key : String) (entry : Entry)
  | take (key : String)
  | settings (key : String)
  | revise (key : String) (change : SettingChanges → SettingChanges)
  | push (key name : String) (change : SettingChange)
  | takeSetting (key name : String)
  | find (kind : Kind)
  | takeKind (kind : Kind)

/-- What a call gives. -/
inductive Answer
  | keys (keys : List String)
  | entry (entry : Option Entry)
  | whether (yes : Bool)
  | settings (changes : Option SettingChanges)
  | changes (changes : Option (List SettingChange))
  | done
  | refused (fault : Fault)

namespace Call

/-- A call on the ledger itself. -/
def run : Call → Ledger → Answer × Ledger
  | keys, l => (.keys l.keys, l)
  | get key, l => (.entry (l.get? key), l)
  | contains key, l => (.whether (l.contains key), l)
  | add key entry, l =>
    match l.add key entry with
    | .ok l' => (.done, l')
    | .error fault => (.refused fault, l)
  | take key, l => (l.take key).map .entry id
  | settings key, l => (.settings (l.settings? key), l)
  | revise key change, l =>
    match l.touch key with
    | .ok (changes, l') => (.settings changes, l'.insert key (.settings (change changes)))
    | .error fault => (.refused fault, l)
  | push key name change, l =>
    match l.push key name change with
    | .ok l' => (.done, l')
    | .error fault => (.refused fault, l)
  | takeSetting key name, l => (l.takeSetting key name).map .changes id
  | find kind, l => (.entry (kind.find l), l)
  | takeKind kind, l => (kind.take l).map .entry id

/-- The changed attributes that a call may work on: those of the entry, none if there is no entry
yet, and an entry of another kind is refused. -/
def open? (key : String) : Option Entry → Except Fault SettingChanges
  | none => .ok .empty
  | some (.settings changes) => .ok changes
  | some _ => .error (.alreadyConfigured key)

/-- The same call on a chronicle. -/
def recount : Call → Chronicle Entry → Answer × Chronicle Entry
  | keys, h => (.keys h.keys, h)
  | get key, h => (.entry (h.value key), h)
  | contains key, h => (.whether (h.has key), h)
  | add key entry, h =>
    if h.has key then (.refused (.alreadyConfigured key), h) else (.done, h.write key entry)
  | take key, h => (.entry (h.value key), h.remove key)
  | settings key, h => (.settings ((h.value key).bind Entry.settings?), h)
  | revise key change, h =>
    match open? key (h.value key) with
    | .ok changes => (.settings changes, h.write key (.settings (change changes)))
    | .error fault => (.refused fault, h)
  | push key name change, h =>
    match open? key (h.value key) with
    | .ok changes => (.done, h.write key (.settings (changes.push name change)))
    | .error fault => (.refused fault, h)
  | takeSetting key name, h =>
    match (h.value key).bind Entry.settings? with
    | none => (.changes none, h)
    | some changes =>
      match changes.get? name with
      | none => (.changes none, h)
      | some taken => (.changes taken, h.write key (.settings (changes.erase name)))
  | find kind, h => (.entry ((h.value kind.key).filter kind.accepts), h)
  | takeKind kind, h =>
    match (h.value kind.key).filter kind.accepts with
    | none => (.entry none, h)
    | some entry => (.entry entry, h.remove kind.key)

/-- The answers to calls one after the other, and what they leave. -/
def all {σ : Type} (step : Call → σ → Answer × σ) : List Call → σ → List Answer × σ
  | [], s => ([], s)
  | call :: rest, s =>
    let (answer, s) := step call s
    let (answers, s) := all step rest s
    (answer :: answers, s)

variable {l : Ledger} {h : Chronicle Entry}

theorem settingsOrNone_eq (l : Ledger) (key : String) :
    l.settingsOrNone key = open? key (l.get? key) := by
  unfold settingsOrNone
  rcases l.get? key with - | (_ | _ | _ | _) <;> rfl

theorem run_revise (l : Ledger) (key : String) (change : SettingChanges → SettingChanges) :
    (revise key change).run l = match open? key (l.get? key) with
      | .ok changes => (.settings changes, l.insert key (.settings (change changes)))
      | .error fault => (.refused fault, l) := by
  unfold run touch
  dsimp only
  rw [settingsOrNone_eq]
  cases open? key (l.get? key) with
  | error fault => rfl
  | ok changes =>
    dsimp only [Except.map]
    rw [Register.insert_insert]

theorem run_push (l : Ledger) (key name : String) (change : SettingChange) :
    (push key name change).run l = match open? key (l.get? key) with
      | .ok changes => (.done, l.insert key (.settings (changes.push name change)))
      | .error fault => (.refused fault, l) := by
  unfold run Ledger.push
  dsimp only
  rw [settingsOrNone_eq]
  cases open? key (l.get? key) <;> rfl

/-- One call keeps the chronicle and gives its answer. -/
theorem run_keeps (hl : l.Keeps h) (call : Call) :
    (call.run l).1 = (call.recount h).1 ∧ (call.run l).2.Keeps (call.recount h).2 := by
  cases call with
  | keys => exact ⟨congrArg Answer.keys hl.keys, hl⟩
  | get key => exact ⟨congrArg Answer.entry (hl.get? key), hl⟩
  | contains key => exact ⟨congrArg Answer.whether (hl.contains key), hl⟩
  | add key entry =>
    unfold run recount Ledger.add
    dsimp only
    rw [hl.contains]
    cases h.has key with
    | true => exact ⟨rfl, hl⟩
    | false => exact ⟨rfl, hl.write key entry⟩
  | take key => exact ⟨congrArg Answer.entry (hl.get? key), hl.remove key⟩
  | settings key =>
    refine ⟨?_, hl⟩
    unfold run recount
    dsimp only
    rw [settings?_eq, hl.get?]
  | revise key change =>
    rw [run_revise, hl.get?]
    unfold recount
    dsimp only
    cases open? key (h.value key) with
    | error fault => exact ⟨rfl, hl⟩
    | ok changes => exact ⟨rfl, hl.write key _⟩
  | push key name change =>
    rw [run_push, hl.get?]
    unfold recount
    dsimp only
    cases open? key (h.value key) with
    | error fault => exact ⟨rfl, hl⟩
    | ok changes => exact ⟨rfl, hl.write key _⟩
  | takeSetting key name =>
    unfold run recount Ledger.takeSetting
    dsimp only
    rw [settings?_eq, hl.get?]
    cases (h.value key).bind Entry.settings? with
    | none => exact ⟨rfl, hl⟩
    | some changes =>
      dsimp only
      cases changes.get? name with
      | none => exact ⟨rfl, hl⟩
      | some taken => exact ⟨rfl, hl.write key _⟩
  | find kind =>
    refine ⟨?_, hl⟩
    unfold run recount
    dsimp only
    rw [kind.find_eq, hl.get?]
  | takeKind kind =>
    unfold run recount
    dsimp only
    rw [kind.take_eq, kind.find_eq, hl.get?]
    cases (h.value kind.key).filter kind.accepts with
    | none => exact ⟨rfl, hl⟩
    | some entry => exact ⟨rfl, hl.remove kind.key⟩

/-- Any calls keep the chronicle and give its answers. -/
theorem all_run_keeps (calls : List Call) (hl : l.Keeps h) :
    (all run calls l).1 = (all recount calls h).1 ∧
      (all run calls l).2.Keeps (all recount calls h).2 := by
  induction calls generalizing l h with
  | nil => exact ⟨rfl, hl⟩
  | cons call rest ih =>
    obtain ⟨hanswer, hstep⟩ := run_keeps hl call
    obtain ⟨hanswers, hrest⟩ := ih hstep
    exact ⟨congrArg₂ List.cons hanswer hanswers, hrest⟩

/-- An entry of another kind is not handed out. -/
theorem open?_of_other {key : String} {entry : Entry} (hkind : entry.settings? = none) :
    open? key (some entry) = .error (.alreadyConfigured key) := by
  cases entry with
  | settings changes => cases hkind
  | _ => rfl

section

variable {key : String} {entry : Entry}

theorem run_add_of_contains (hkey : l.contains key = true) (entry : Entry) :
    (add key entry).run l = (.refused (.alreadyConfigured key), l) := by
  unfold run Ledger.add
  dsimp only
  rw [if_pos hkey]

theorem run_revise_of_other (hkey : l.get? key = some entry) (hkind : entry.settings? = none)
    (change : SettingChanges → SettingChanges) :
    (revise key change).run l = (.refused (.alreadyConfigured key), l) := by
  rw [run_revise, hkey, open?_of_other hkind]

theorem run_push_of_other (hkey : l.get? key = some entry) (hkind : entry.settings? = none)
    (name : String) (change : SettingChange) :
    (push key name change).run l = (.refused (.alreadyConfigured key), l) := by
  rw [run_push, hkey, open?_of_other hkind]

theorem run_takeKind_of_none {kind : Kind}
    (hnone : (l.get? kind.key).filter kind.accepts = none) :
    (takeKind kind).run l = (.entry none, l) := by
  unfold run
  dsimp only
  rw [kind.take_eq, kind.find_eq, hnone]
  rfl

theorem run_take_of_none (hnone : l.get? key = none) : (take key).run l = (.entry none, l) := by
  have herase : l.erase key = l := Register.erase_of_get? hnone
  unfold run Ledger.take
  dsimp only
  rw [hnone, herase]
  rfl

/-- What is taken is the one entry of the key, also by the look-up of its kind. -/
theorem exists_run_take (hkey : l.get? key = some entry) : ∃ before after l',
    l.entries = before ++ (key, entry) :: after ∧ l'.entries = before ++ after ∧
    (take key).run l = (.entry (some entry), l') ∧
    ∀ kind : Kind, kind.key = key → kind.accepts entry = true →
      (takeKind kind).run l = (.entry (some entry), l') := by
  obtain ⟨before, after, hentries, herase⟩ := Register.exists_erase hkey
  refine ⟨before, after, l.erase key, hentries, herase, ?_, ?_⟩
  · unfold run Ledger.take
    dsimp only
    rw [hkey]
    rfl
  · rintro kind rfl haccepts
    unfold run
    dsimp only
    rw [kind.take_eq, kind.find_eq, hkey, Option.filter_some_pos haccepts]
    rfl

end

end Call

end Ledger

/-! ## Changes within one entry -/

namespace SettingChanges

/-- A change of an attribute is recorded, or what is recorded of an attribute is taken out. -/
inductive Edit
  | push (name : String) (change : SettingChange)
  | take (name : String)

namespace Edit

/-- What is left after an edit. -/
def run (c : SettingChanges) : Edit → SettingChanges
  | push name change => c.push name change
  | take name => c.erase name

/-- The same edit of a chronicle. -/
def recount (h : Chronicle (List SettingChange)) : Edit → Chronicle (List SettingChange)
  | push name change => h.write name ((h.value name).getD [] ++ [change])
  | take name => h.remove name

/-- The change that is recorded for the attribute. -/
def pushed (name : String) : Edit → List SettingChange
  | push n change => if n = name then [change] else []
  | take _ => []

/-- The changes of the attribute that are taken out. -/
def taken (name : String) (c : SettingChanges) : Edit → List SettingChange
  | push _ _ => []
  | take n => if n = name then (c.get? name).getD [] else []

/-- The changes of the attribute that are taken out by edits one after the other. -/
def takenByAll (name : String) : SettingChanges → List Edit → List SettingChange
  | _, [] => []
  | c, edit :: rest => edit.taken name c ++ takenByAll name (edit.run c) rest

variable {c : SettingChanges} {h : Chronicle (List SettingChange)}

theorem run_keeps (hc : c.Keeps h) (edit : Edit) : (edit.run c).Keeps (edit.recount h) := by
  cases edit with
  | push name change =>
    have hvalue : (c.get? name).getD [] ++ [change] = (h.value name).getD [] ++ [change] := by
      rw [hc.get?]
    unfold run recount SettingChanges.push
    dsimp only
    rw [hvalue]
    exact hc.write name _
  | take name => exact hc.remove name

theorem foldl_run_keeps (edits : List Edit) (hc : c.Keeps h) :
    (edits.foldl run c).Keeps (edits.foldl recount h) := by
  induction edits generalizing c h with
  | nil => exact hc
  | cons edit rest ih => exact ih (run_keeps hc edit)

/-- What was there and what comes is what goes and what is there then, in this order. -/
theorem run_balances (c : SettingChanges) (name : String) (edit : Edit) :
    (c.get? name).getD [] ++ edit.pushed name =
      edit.taken name c ++ ((edit.run c).get? name).getD [] := by
  cases edit with
  | push n change =>
    unfold pushed taken run
    dsimp only
    rw [Ledger.get?_push, List.nil_append]
    by_cases hn : n = name
    · rw [if_pos hn, if_pos hn.symm, Option.getD_some]
    · rw [if_neg hn, if_neg (Ne.symm hn), List.append_nil]
  | take n =>
    unfold pushed taken run
    dsimp only
    rw [Register.get?_erase, List.append_nil]
    by_cases hn : n = name
    · rw [if_pos hn, if_pos hn.symm, Option.getD_none, List.append_nil]
    · rw [if_neg hn, if_neg (Ne.symm hn), List.nil_append]

theorem foldl_run_balances (name : String) (edits : List Edit) (c : SettingChanges) :
    (c.get? name).getD [] ++ edits.flatMap (pushed name) =
      takenByAll name c edits ++ ((edits.foldl run c).get? name).getD [] := by
  induction edits generalizing c with
  | nil => simp [takenByAll]
  | cons edit rest ih =>
    rw [List.flatMap_cons, ← List.append_assoc, run_balances, List.append_assoc, ih,
      ← List.append_assoc]
    rfl

end Edit

end SettingChanges

/-! ## Ledgers after any calls -/

open Ledger (Call Answer) in
/-- From the empty ledger any calls give the answers of the chronicle, and the keys that are there
then are distinct, in the order in which they were last added. Whatever a ledger holds: a key is not
added twice, and neither is an entry of another kind revised nor taken, and the ledger stays as it
is; what is taken is one entry, and the others stay in their order. Within an entry the names of the
attributes keep their order in the same way, and what is recorded for an attribute is either taken
out or still there, in the order in which it came. -/
theorem Ledger.calls_keep_chronicle :
    (∀ calls : List Call,
      (Call.all Call.run calls .empty).1 = (Call.all Call.recount calls .start).1 ∧
      (Call.all Call.run calls .empty).2.Keeps (Call.all Call.recount calls .start).2 ∧
      (Call.all Call.run calls .empty).2.keys.Nodup) ∧
    (∀ (l : Ledger) key entry, l.contains key = true →
      (Call.add key entry).run l = (.refused (.alreadyConfigured key), l)) ∧
    (∀ (l : Ledger) key entry, l.get? key = some entry → entry.settings? = none →
      (∀ change, (Call.revise key change).run l = (.refused (.alreadyConfigured key), l)) ∧
      ∀ name change, (Call.push key name change).run l =
        (.refused (.alreadyConfigured key), l)) ∧
    (∀ (l : Ledger) (kind : Kind), (l.get? kind.key).filter kind.accepts = none →
      (Call.takeKind kind).run l = (.entry none, l)) ∧
    (∀ (l : Ledger) key, l.get? key = none → (Call.take key).run l = (.entry none, l)) ∧
    (∀ (l : Ledger) key entry, l.get? key = some entry → ∃ before after l',
      l.entries = before ++ (key, entry) :: after ∧ l'.entries = before ++ after ∧
      (Call.take key).run l = (.entry (some entry), l') ∧
      ∀ kind : Kind, kind.key = key → kind.accepts entry = true →
        (Call.takeKind kind).run l = (.entry (some entry), l')) ∧
    ∀ edits : List SettingChanges.Edit,
      (edits.foldl SettingChanges.Edit.run .empty).Keeps
        (edits.foldl SettingChanges.Edit.recount .start) ∧
      (edits.foldl SettingChanges.Edit.run .empty).keys.Nodup ∧
      ∀ name, edits.flatMap (SettingChanges.Edit.pushed name) =
        SettingChanges.Edit.takenByAll name .empty edits ++
          ((edits.foldl SettingChanges.Edit.run .empty).get? name).getD [] := by
  refine ⟨fun calls => ?_, fun _ _ entry hkey => Call.run_add_of_contains hkey entry,
    fun _ _ _ hkey hkind => ⟨Call.run_revise_of_other hkey hkind, Call.run_push_of_other hkey hkind⟩,
    fun _ _ hnone => Call.run_takeKind_of_none hnone, fun _ _ hnone => Call.run_take_of_none hnone,
    fun _ _ _ hkey => Call.exists_run_take hkey, fun edits => ?_⟩
  · obtain ⟨hanswers, hkeeps⟩ := Call.all_run_keeps calls Register.keeps_start
    exact ⟨hanswers, hkeeps, Register.nodup _⟩
  · refine ⟨SettingChanges.Edit.foldl_run_keeps edits Register.keeps_start, Register.nodup _, ?_⟩
    exact fun name => SettingChanges.Edit.foldl_run_balances name edits .empty

/-- A key that was taken comes last when it is added again, and is refused when it is there. -/
example : (Ledger.Call.all Ledger.Call.run [.add "mtu" (.queues []), .revise "offloads" id,
    .takeKind .queues, .take "mtu", .add "mtu" (.qdiscs []), .add "offloads" (.queues [])]
      .empty).2.keys = ["offloads", "mtu"] := by decide

end NicTuning
