import NicTuning.Proofs.Rewriting

/-!
# Unwinding

Rounds of calls change attributes, each round under a key of its own; devices and attributes may
meet in several rounds and several times in one, and a call may fail on the way. Main statement:
undoing the last rounds, from the last one back, leaves the devices in memory as they were before
the first of them began.
-/
namespace NicTuning

/-! ## Rounds -/

/-- The bench on which just the devices in memory at some addresses take no writes. -/
def Bench.stick (b : Bench) (stuck : String → Bool) : Bench :=
  { b with memory := fun address => { b.memory address with readOnly := stuck address } }

/-- But for those at some addresses, the devices in memory are on one bench as on another. -/
def Bench.AlikeBut (stuck : String → Bool) (b b' : Bench) : Prop :=
  ∀ address, stuck address = false → (b'.memory address).up = (b.memory address).up ∧
    (b'.memory address).values = (b.memory address).values

/-- A call that changes an attribute, and the devices in memory that take no writes meanwhile. -/
structure Attempt where
  name : String
  targets : List Target
  stuck : String → Bool

/-- What the call leaves, whether it fails or not. -/
def Attempt.carryOut (key : String) (s : Bench × Ledger) (a : Attempt) : Bench × Ledger :=
  (Layer.changeSettings key a.name a.targets (s.1.stick a.stuck, s.2)).2

/-- Calls that change attributes under one key. -/
structure Round where
  key : String
  attempts : List Attempt

namespace Round

def carryOut (s : Bench × Ledger) (r : Round) : Bench × Ledger :=
  r.attempts.foldl (Attempt.carryOut r.key) s

/-- Undoes the changes under the key of the round while some devices take no writes. -/
def takeBack (stuck : String → Bool) (s : Bench × Ledger) (r : Round) : Bench × Ledger :=
  (Layer.restoreSettings r.key (s.1.stick stuck, s.2)).2

end Round

/-! ## Values found first -/

/-- The value that the first of some changes found for an attribute of the device at an address. -/
def foundFirst (pairs : List (String × SettingChange)) (address name : String) : Option Setting :=
  pairs.findSome? fun p => if p.1 = name then p.2.foundAt? address else none

theorem findSome?_foundAt? (pairs : List (String × SettingChange)) (address name : String) :
    (pairs.filterMap fun p => if p.1 = name then some p.2 else none).findSome?
      (SettingChange.foundAt? address) = foundFirst pairs address name := by
  induction pairs with
  | nil => rfl
  | cons p rest ih =>
    unfold foundFirst at ih ⊢
    by_cases hp : p.1 = name
    · simp only [List.filterMap_cons, List.findSome?_cons, hp, if_true, ih]
    · simp only [List.filterMap_cons, List.findSome?_cons, hp, if_false, ih]

/-- The changes led from one bench to another, so what they found first is what was there. -/
def Retraces (pairs : List (String × SettingChange)) (b b' : Bench) : Prop :=
  ∀ address, (b'.memory address).up = (b.memory address).up ∧
    ∀ name, (foundFirst pairs address name).or ((b'.memory address).values name) =
      (b.memory address).values name

namespace Retraces

variable {pairs pairs' : List (String × SettingChange)} {b b' b'' : Bench}

theorem refl (b : Bench) : Retraces [] b b := by
  intro address
  exact ⟨rfl, fun name => rfl⟩

theorem trans (h : Retraces pairs b b') (h' : Retraces pairs' b' b'') :
    Retraces (pairs ++ pairs') b b'' := by
  intro address
  obtain ⟨hup, hvalues⟩ := h address
  obtain ⟨hup', hvalues'⟩ := h' address
  refine ⟨hup'.trans hup, ?_⟩
  intro name
  unfold foundFirst at hvalues hvalues' ⊢
  rw [List.findSome?_append, Option.or_assoc, hvalues' name, hvalues name]

theorem of_rewrites {rs : List Rewrite} {result : Except Fault Unit}
    (h : Rewrites b rs pairs result b') : Retraces pairs b b' := by
  intro address
  have hcourse := h.course
  refine ⟨(hcourse.link_eq address).1, ?_⟩
  intro name
  have hvalue := hcourse.value_eq address name
  have hfirst : (pairs.map fun p => Change.setting p.1 p.2).findSome?
      (Change.found? address name) = foundFirst pairs address name := by
    rw [List.findSome?_map]
    rfl
  rw [hfirst] at hvalue
  cases hf : foundFirst pairs address name with
  | none =>
    rw [hf] at hvalue
    exact hvalue
  | some value =>
    rw [hf] at hvalue
    exact hvalue.1.symm

end Retraces

/-! ## One round -/

/-- Calls under a key whose entry is not of another kind lead on from the bench, and their changes
go into the entry. -/
theorem Attempt.carryOut_all (key : String) (attempts : List Attempt) (b : Bench) {l : Ledger}
    (h : l.TakesSettings key) : ∃ made,
      Retraces made b (attempts.foldl (carryOut key) (b, l)).1 ∧
      (attempts.foldl (carryOut key) (b, l)).2 = l.pushAll key made := by
  induction attempts generalizing b l with
  | nil => exact ⟨[], .refl b, rfl⟩
  | cons a rest ih =>
    obtain ⟨made, hmade, hledger⟩ :=
      Layer.changeSettings_rewrites a.name a.targets (b.stick a.stuck) h
    rcases hcall : carryOut key (b, l) a with ⟨b', l'⟩
    have hone : Retraces made b b' := by
      have hretraces := Retraces.of_rewrites hmade
      unfold carryOut at hcall
      dsimp only at hcall
      rw [hcall] at hretraces
      exact hretraces
    obtain rfl : l' = l.pushAll key made := by
      rw [← hledger]
      exact (congrArg Prod.snd hcall).symm
    obtain ⟨later, hlater, hledger'⟩ := ih b' (Ledger.takesSettings_pushAll h made)
    rw [List.foldl_cons, hcall]
    refine ⟨made ++ later, hone.trans hlater, ?_⟩
    rw [hledger', Ledger.pushAll_append]

/-- Undoing a key gives each attribute what the changes under it found first, and takes out what
they added to a ledger without an entry under the key. -/
theorem Layer.restoreSettings_pushAll {l : Ledger} {key : String} (hl : l.get? key = none)
    (pairs : List (String × SettingChange)) (b : Bench) :
    Restores (foundFirst pairs) b (restoreSettings key (b, l.pushAll key pairs)).2.1 ∧
      (restoreSettings key (b, l.pushAll key pairs)).2.2 = l := by
  have hget := Ledger.get?_pushAll pairs l key key
  by_cases hpairs : pairs = []
  · subst hpairs
    have hsame : restoreSettings key (b, l.pushAll key []) = (.ok (), b, l) := by
      rw [show l.pushAll key [] = l from rfl, restoreSettings_apply, Ledger.settings?_eq, hl]
      rfl
    rw [hsame]
    exact ⟨.of_memory_eq rfl, rfl⟩
  · rw [if_pos ⟨rfl, hpairs⟩, Ledger.settingsOf_eq, hl] at hget
    have hempty : (SettingChanges.pushAll .empty pairs).isEmpty = false := by
      rw [SettingChanges.isEmpty_pushAll, List.isEmpty_eq_false_iff]
      exact hpairs
    obtain ⟨hrestores, hledger⟩ := restoreSettings_of_get? hget hempty b
    constructor
    · refine hrestores.congr fun address name => ?_
      rw [SettingChanges.get?_pushAll]
      exact findSome?_foundAt? pairs address name
    · rw [hledger, Ledger.erase_pushAll, Register.erase_of_get? hl]

namespace Round

/-- A round leaves the ledger as it was but for the entry of its key. -/
theorem carryOut_retraces (r : Round) (b : Bench) {l : Ledger} (h : l.get? r.key = none) :
    ∃ made, Retraces made b (carryOut (b, l) r).1 ∧
      (carryOut (b, l) r).2 = l.pushAll r.key made := by
  apply Attempt.carryOut_all
  intro entry he
  rw [h] at he
  cases he

/-- Undoing a round right after it. -/
theorem takeBack_carryOut (stuck : String → Bool) (r : Round) {b : Bench} {s : Bench × Ledger}
    {l : Ledger} (h : l.get? r.key = none) (hbench : Bench.AlikeBut stuck (carryOut (b, l) r).1 s.1)
    (hledger : s.2 = (carryOut (b, l) r).2) :
    Bench.AlikeBut stuck b (takeBack stuck s r).1 ∧ (takeBack stuck s r).2 = l := by
  obtain ⟨made, hmade, hround⟩ := r.carryOut_retraces b h
  obtain ⟨hrestores, hl⟩ := Layer.restoreSettings_pushAll h made (s.1.stick stuck)
  rw [← hround, ← hledger] at hrestores hl
  refine ⟨?_, hl⟩
  intro address hfree
  obtain ⟨hup, -, hvalues⟩ := hrestores address
  obtain ⟨halikeUp, halikeValues⟩ := hbench address hfree
  obtain ⟨hroundUp, hroundValues⟩ := hmade address
  constructor
  · calc ((takeBack stuck s r).1.memory address).up
        = (s.1.memory address).up := hup
      _ = (b.memory address).up := halikeUp.trans hroundUp
  · funext name
    have hwritable : ((s.1.stick stuck).memory address).readOnly = false := hfree
    calc ((takeBack stuck s r).1.memory address).values name
        = (foundFirst made address name).or ((s.1.memory address).values name) := by
          have hname := hvalues name
          rw [hwritable, if_neg Bool.false_ne_true] at hname
          exact hname
      _ = (b.memory address).values name := by rw [halikeValues, hroundValues name]

theorem get?_carryOut (r : Round) (b : Bench) {l : Ledger} (h : l.get? r.key = none) {key : String}
    (hk : key ≠ r.key) : (carryOut (b, l) r).2.get? key = l.get? key := by
  obtain ⟨made, -, hround⟩ := r.carryOut_retraces b h
  rw [hround, Ledger.get?_pushAll, if_neg fun hc => hk hc.1]

/-- Rounds under other keys find no entries of theirs after a round. -/
theorem get?_carryOut_rest {r : Round} {rest : List Round} {l : Ledger}
    (hkeys : ((r :: rest).map Round.key).Nodup)
    (hfree : ∀ other ∈ r :: rest, l.get? other.key = none)
    (b : Bench) : ∀ other ∈ rest, (carryOut (b, l) r).2.get? other.key = none := by
  intro other ho
  obtain ⟨hnot, -⟩ := List.nodup_cons.1 hkeys
  have hne : other.key ≠ r.key := fun he => hnot (he ▸ List.mem_map_of_mem ho)
  rw [r.get?_carryOut b (hfree r (by simp)) hne]
  exact hfree other (by simp [ho])

/-- Undoing rounds under keys of their own, from the last one back. -/
theorem takeBack_all (stuck : String → Bool) (rounds : List Round) (b : Bench) (l : Ledger)
    (hkeys : (rounds.map Round.key).Nodup) (hfree : ∀ r ∈ rounds, l.get? r.key = none) :
    let s := rounds.reverse.foldl (takeBack stuck) (rounds.foldl carryOut (b, l))
    Bench.AlikeBut stuck b s.1 ∧ s.2 = l := by
  induction rounds generalizing b l with
  | nil => exact ⟨fun _ _ => ⟨rfl, rfl⟩, rfl⟩
  | cons r rest ih =>
    obtain ⟨-, hrest⟩ := List.nodup_cons.1 hkeys
    obtain ⟨hbench, hledger⟩ := ih (carryOut (b, l) r).1 (carryOut (b, l) r).2 hrest
      (get?_carryOut_rest hkeys hfree b)
    dsimp only
    rw [List.reverse_cons, List.foldl_append, List.foldl_cons, List.foldl_nil, List.foldl_cons]
    exact r.takeBack_carryOut stuck (hfree r (by simp)) hbench hledger

/-- Rounds do not touch the entries of other keys. -/
theorem get?_carryOut_all (rounds : List Round) (b : Bench) (l : Ledger)
    (hkeys : (rounds.map Round.key).Nodup) (hfree : ∀ r ∈ rounds, l.get? r.key = none)
    {key : String} (hk : key ∉ rounds.map Round.key) :
    (rounds.foldl carryOut (b, l)).2.get? key = l.get? key := by
  induction rounds generalizing b l with
  | nil => rfl
  | cons r rest ih =>
    obtain ⟨hnot, hrest⟩ := List.nodup_cons.1 hkeys
    obtain ⟨hne, hk'⟩ := not_or.1 (mt List.mem_cons.2 hk)
    have hr := hfree r (by simp)
    rw [List.foldl_cons, ← r.get?_carryOut b hr hne]
    exact ih (carryOut (b, l) r).1 (carryOut (b, l) r).2 hrest
      (get?_carryOut_rest hkeys hfree b) hk'

/-- However the calls of some rounds ended, undoing the last rounds from the last one back leaves
every device in memory that takes writes by then as it was before the first of them began, and so
it leaves the ledger. With no rounds before, that is the bench from which all began. -/
theorem takeBack_unwinds (before last : List Round)
    (hkeys : ((before ++ last).map Round.key).Nodup) (b : Bench) (stuck : String → Bool) :
    let began := before.foldl carryOut (b, .empty)
    let undone := last.reverse.foldl (takeBack stuck) (last.foldl carryOut began)
    Bench.AlikeBut stuck began.1 undone.1 ∧ undone.2 = began.2 := by
  rw [List.map_append, List.nodup_append] at hkeys
  obtain ⟨hbefore, hlast, hapart⟩ := hkeys
  apply takeBack_all stuck last _ _ hlast
  intro r hr
  have hnot : r.key ∉ before.map Round.key := by
    intro hm
    exact hapart r.key hm r.key (List.mem_map_of_mem hr) rfl
  rw [get?_carryOut_all before b .empty hbefore (fun _ _ => rfl) hnot]
  rfl

/-- A round that gives two devices a size of packets, of which the second takes no writes, and then
the first one a larger one. -/
def sampleRound (key : String) (size : Int64) : Round where
  key := key
  attempts :=
    [⟨"mtu", [(Stack.sampleDevice "eth0", some (.number size)),
        (Stack.sampleDevice "eth1", some (.number size))], fun address => address == "eth1"⟩,
      ⟨"mtu", [(Stack.sampleDevice "eth0", some (.number (size + 100)))], fun _ => false⟩]

theorem takeBack_unwinds_failed_calls :
    let before := [sampleRound "first" 2000]
    let last := [sampleRound "second" 3000, sampleRound "third" 4000]
    let began := before.foldl carryOut (Stack.sampleBench false, .empty)
    let changed := last.foldl carryOut began
    let undone := last.reverse.foldl (takeBack fun _ => false) changed
    ((before ++ last).map Round.key).Nodup ∧
    (changed.1.memory "eth0").values "mtu" = some (.number 4100) ∧
    (undone.1.memory "eth0").values "mtu" = some (.number 2100) ∧
    undone.2.keys = ["first"] := by
  intro before last began changed undone
  have hkeys : ((before ++ last).map Round.key).Nodup := by decide
  have hunwinds : Bench.AlikeBut (fun _ => false) began.1 undone.1 ∧ undone.2 = began.2 :=
    takeBack_unwinds before last hkeys (Stack.sampleBench false) fun _ => false
  have hvalue : (began.1.memory "eth0").values "mtu" = some (.number 2100) := rfl
  have hnames : began.2.keys = ["first"] := rfl
  refine ⟨hkeys, rfl, ?_, ?_⟩
  · rw [(hunwinds.1 "eth0" rfl).2, hvalue]
  · rw [hunwinds.2, hnames]

end Round

end NicTuning
