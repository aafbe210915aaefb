import NicTuning.Proofs.Territory
import NicTuning.Proofs.Undoing
import NicTuning.Bench.Script

/-!
# The order of layers

Main statement: where hosts answer steadily and no two layers have the same key, the order of the
layers does not matter. Every layer of a stack finds what belongs to it as it was at first, so it
does what it would do alone, and nobody touches that afterwards.
-/
namespace NicTuning

/-! ## Steady hosts -/

namespace Bench

theorem steady_quiet : quiet.Steady := by
  intro history history' address command
  rfl

theorem Steady.setMemory {b : Bench} (h : b.Steady) (address : String) (m : Memory) :
    (b.setMemory address m).Steady := h

theorem Steady.addRule {b : Bench} (h : b.Steady) (address : String) (rule : Rule) :
    (b.addRule address rule).Steady := by
  intro history history' a command
  change (if a = address ∧ Text.begins rule.beginning command then Except.ok rule.output
    else b.answer history a command) = if a = address ∧ Text.begins rule.beginning command then
      Except.ok rule.output else b.answer history' a command
  rw [h history history' a command]

/-- The devices in memory are the same, and so is what was done to their links. -/
structure SameDevices (b c : Bench) : Prop where
  memory : c.memory = b.memory
  linkChanges : ∀ address, c.linkChanges address = b.linkChanges address

/-- Benches that are alike to every layer have the same devices. -/
theorem sameDevices_of_alike {b c : Bench} (h : ∀ key, b.Alike key c) : b.SameDevices c := by
  constructor
  · funext address
    have hvalues : (c.memory address).values = (b.memory address).values := by
      funext name
      exact (h (settingKey name)).values address name rfl
    have hup := (h Layer.Interrupts.key).up rfl address
    have hreadOnly := (h Layer.Interrupts.key).readOnly address
    cases hc : c.memory address
    cases hb : b.memory address
    rw [hb, hc] at hvalues hup hreadOnly
    exact Memory.mk.injEq .. ▸ ⟨hvalues, hup, hreadOnly⟩
  · exact (h Layer.Interrupts.key).linkChanges rfl

end Bench

/-! ## Layers of a stack -/

namespace Near

variable {key : String} {s t u : Bench × Ledger}

theorem symm (h : Near key (Ledger.Alike key) s t) : Near key (Ledger.Alike key) t s :=
  ⟨h.bench.symm, Eq.symm h.notes⟩

theorem trans (h : Near key (Ledger.Alike key) s t) (h' : Near key (Ledger.Alike key) t u) :
    Near key (Ledger.Alike key) s u :=
  ⟨h.bench.trans h'.bench, Eq.trans h'.notes h.notes⟩

end Near

namespace Stack

/-- Every layer of a stack does what it would do alone: the stack succeeds if all of them would, and
then it leaves what belongs to a layer as that layer would leave it, and all else as it was. -/
theorem configure_each {s : Stack} (hk : s.keys.Nodup) {b : Bench} (c : Bench) (l : Ledger)
    (h : ∀ layer ∈ s, Near layer.key (Ledger.Alike layer.key) (b, .empty) (c, l))
    (hc : c.Steady) :
    ((s.configure (c, l)).1 = .ok () ↔
      ∀ layer ∈ s, (layer.configure (b, .empty)).1 = .ok ()) ∧
    ((s.configure (c, l)).1 = .ok () →
      (∀ layer ∈ s, Near layer.key (Ledger.Alike layer.key) (layer.configure (b, .empty)).2
        (s.configure (c, l)).2) ∧
      ∀ key, key ∉ s.keys → Near key (Ledger.Alike key) (c, l) (s.configure (c, l)).2) := by
  induction s generalizing c l with
  | nil =>
    refine ⟨⟨fun _ => by simp, fun _ => rfl⟩, fun _ => ⟨by simp, fun key _ => ?_⟩⟩
    exact ⟨.refl hc, rfl⟩
  | cons layer rest ih =>
    obtain ⟨hnot, hrest⟩ := List.nodup_cons.1 hk
    have hhead := h layer (by simp)
    have hl : l.contains layer.key = false := by
      have hentry : l.get? layer.key = none := hhead.notes
      simp [Register.contains, hentry]
    obtain ⟨hr, hnear⟩ := layer.configure_congruent (b, .empty) (c, l) hhead
    have hframe : ∀ {key}, key ≠ layer.key → Near key (Ledger.Alike key) (c, l)
        (layer.configure (c, l)).2 := fun hne => layer.configure_frame hc hl hne
    rw [configure_cons, configureLayer_apply, hl, if_neg Bool.false_ne_true, List.forall_mem_cons]
    rcases hrun : layer.configure (c, l) with ⟨fault | ⟨⟩, c', l'⟩ <;>
      rw [hrun] at hr hnear hframe
    · constructor
      · constructor
        · intro he
          cases he
        · intro hall
          rw [hall.1] at hr
          cases hr
      · intro he
        cases he
    · have hc' : c'.Steady := hnear.symm.bench.steady
      have hne : ∀ other ∈ rest, other.key ≠ layer.key := by
        intro other hm he
        exact hnot (he ▸ List.mem_map_of_mem hm)
      obtain ⟨hiff, hall⟩ := ih hrest c' l'
        (fun other hm => (h other (by simp [hm])).trans (hframe (hne other hm))) hc'
      refine ⟨⟨fun he => ⟨hr.symm, hiff.1 he⟩, fun he => hiff.2 he.2⟩, fun he => ?_⟩
      obtain ⟨heach, hothers⟩ := hall he
      constructor
      · intro other hm
        rcases List.mem_cons.1 hm with rfl | hm
        · exact hnear.trans (hothers _ hnot)
        · exact heach other hm
      · intro key hkey
        obtain ⟨hkey, hkeys⟩ := not_or.1 (mt List.mem_cons.2 hkey)
        exact (hframe hkey).trans (hothers key hkeys)

/-- In whatever order they are configured, layers with different keys leave the same. -/
theorem near_of_perm {s s' : Stack} (hp : s.Perm s') (hk : s.keys.Nodup) {b : Bench}
    (hb : b.Steady) :
    ((s.configure (b, .empty)).1 = .ok () ↔ (s'.configure (b, .empty)).1 = .ok ()) ∧
    ((s.configure (b, .empty)).1 = .ok () → ∀ key, Near key (Ledger.Alike key)
      (s.configure (b, .empty)).2 (s'.configure (b, .empty)).2) := by
  have hkeys : s.keys.Perm s'.keys := hp.map Layer.key
  have hstart : ∀ key, Near key (Ledger.Alike key) (b, Register.empty) (b, .empty) :=
    fun key => ⟨.refl hb, rfl⟩
  obtain ⟨hiff, hall⟩ := configure_each hk b .empty (fun layer _ => hstart layer.key) hb
  obtain ⟨hiff', hall'⟩ := configure_each (hkeys.nodup hk) b .empty
    (fun layer _ => hstart layer.key) hb
  have hsame : (s.configure (b, .empty)).1 = .ok () ↔ (s'.configure (b, .empty)).1 = .ok () := by
    rw [hiff, hiff']
    exact ⟨fun h layer hm => h layer (hp.mem_iff.2 hm), fun h layer hm => h layer (hp.mem_iff.1 hm)⟩
  refine ⟨hsame, fun h key => ?_⟩
  obtain ⟨heach, hothers⟩ := hall h
  obtain ⟨heach', hothers'⟩ := hall' (hsame.1 h)
  by_cases hkey : key ∈ s.keys
  · obtain ⟨layer, hm, rfl⟩ := List.mem_map.1 hkey
    exact (heach layer hm).symm.trans (heach' layer (hp.mem_iff.1 hm))
  · exact (hothers key hkey).symm.trans (hothers' key (mt hkeys.mem_iff.2 hkey))

end Stack

/-! ## Restoring -/

/-- A change that found a value on a device in memory found it on one that takes writes. -/
theorem Takes.writable {b b' : Bench} {c : Change} (h : Takes b c b') {address name : String}
    (hf : (c.found? address name).isSome = true) : (b.memory address).readOnly = false := by
  cases h with
  | @setting d n value previous _ m _ look write =>
    have hc : d.control = .memory address := by
      unfold Change.found? SettingChange.foundAt? at hf
      by_contra hc
      simp [hc] at hf
    have hq := Quiet.get d n b
    rw [look] at hq
    obtain ⟨-, -, -, hm⟩ := hq
    have hm' : m.memory = b.memory := hm
    unfold Device.set at write
    rw [hc] at write
    dsimp only at write
    rw [hm'] at write
    split at write
    · cases write
    · simpa using ‹¬(b.memory address).readOnly = true›
  | _ => cases hf

theorem Course.writable {b b' : Bench} {cs : List Change} (h : Course b cs b')
    {address name : String} (hf : (cs.findSome? (Change.found? address name)).isSome = true) :
    (b.memory address).readOnly = false := by
  induction h with
  | done quiet => cases hf
  | @step b m b'' _ c _ quiet takes others ih =>
    obtain ⟨-, -, -, hm⟩ := quiet
    have hm' : m.memory = b.memory := hm
    rw [List.findSome?_cons] at hf
    cases hc : c.found? address name with
    | some value =>
      have hw := takes.writable (hc ▸ rfl : (c.found? address name).isSome = true)
      rwa [hm'] at hw
    | none =>
      rw [hc] at hf
      have hro : (b''.memory address).readOnly = (m.memory address).readOnly := by
        rw [takes.memory_eq address]
      rw [← hm', ← hro]
      exact ih hf

namespace Stack

/-- What is owed to the devices after configuring a stack is settled when it is restored. -/
theorem restore_restores (s : Stack) (b c : Bench) :
    Restores (fun address name => (s.configure (b, .empty)).2.2.owed address name) c
      (s.restore (c, (s.configure (b, .empty)).2.2)).2.1 := by
  obtain ⟨hr, -⟩ := restoreAll_restores s.reverse .none c _ (s.sound_configure b)
  refine hr.congr fun address name => ?_
  split
  · rfl
  · rename_i hn
    have hno : (s.configure (b, .empty)).2.2.contains (settingKey name) = false :=
      Bool.eq_false_iff.2 fun h => hn (s.undoes_of_contains b _ h)
    unfold Ledger.owed
    rw [Ledger.settings?_eq, Register.get?_eq_none hno]
    rfl

/-- Restoring leaves alone what was done to links. -/
theorem linkChanges_restore (s : Stack) (b c : Bench) (address : String) :
    (s.restore (c, (s.configure (b, .empty)).2.2)).2.1.linkChanges address =
      c.linkChanges address := by
  obtain ⟨events, he, hi⟩ := s.restore_emits c (s.sound_configure b)
  rw [he]
  refine c.linkChanges_after_of_not_linked (fun a up hm => ?_) address
  obtain ⟨key, r, -, hr⟩ := hi _ hm
  cases r with
  | command h command => cases hr
  | write d name value =>
    obtain ⟨b', hr⟩ := hr
    refine d.forall_setEvents name value b' (P := (· ≠ .linked a up)) ?_ ?_ _ hr rfl
    · exact fun _ _ => by simp
    · exact fun _ _ _ _ _ => by simp

end Stack

namespace Restores

variable {owed : String → String → Option Setting} {b b' c c' : Bench}

/-- What is owed and the bench before determine the bench after. -/
theorem unique (h : Restores owed b b') (h' : Restores owed c c') (hm : c.memory = b.memory) :
    c'.memory = b'.memory := by
  funext address
  obtain ⟨hup, hro, hv⟩ := h address
  obtain ⟨hup', hro', hv'⟩ := h' address
  rw [hm] at hup' hro' hv'
  have hvalues : (c'.memory address).values = (b'.memory address).values := by
    funext name
    rw [hv name, hv' name]
  calc c'.memory address
      = ⟨(c'.memory address).values, (c'.memory address).up, (c'.memory address).readOnly⟩ := rfl
    _ = ⟨(b'.memory address).values, (b'.memory address).up, (b'.memory address).readOnly⟩ := by
        rw [hvalues, hup, hup', hro, hro']
    _ = b'.memory address := rfl

end Restores

/-- Restoring right after configuring brings every device in memory back to where it was. -/
theorem Stack.memory_restore (s : Stack) (b : Bench) :
    (s.restore (s.configure (b, .empty)).2).2.1.memory = b.memory := by
  have hr := s.restore_restores b (s.configure (b, .empty)).2.1
  obtain ⟨took, -, hc, hl, -⟩ := configure_turns s b .empty
  have howed : ∀ address name, (s.configure (b, .empty)).2.2.owed address name =
      (took.map Prod.snd).findSome? (Change.found? address name) := by
    intro address name
    rw [hl, Ledger.owed_foldl_note]
    rfl
  funext address
  obtain ⟨hup, hro, hv⟩ := hr address
  have hlink := hc.link_eq address
  have hvalues : ((s.restore (s.configure (b, .empty)).2).2.1.memory address).values =
      (b.memory address).values := by
    funext name
    refine (hv name).trans ?_
    have hvalue := hc.value_eq address name
    dsimp only
    rw [howed]
    cases hf : (took.map Prod.snd).findSome? (Change.found? address name) with
    | none =>
      rw [hf] at hvalue
      rw [Option.none_or, ite_self]
      exact hvalue
    | some value =>
      rw [hf] at hvalue
      have hw := hc.writable (hf ▸ rfl :
        ((took.map Prod.snd).findSome? (Change.found? address name)).isSome = true)
      rw [hlink.2, hw, if_neg Bool.false_ne_true, Option.some_or]
      exact hvalue.1.symm
  calc (s.restore (s.configure (b, .empty)).2).2.1.memory address
      = ⟨_, _, _⟩ := rfl
    _ = ⟨(b.memory address).values, (b.memory address).up, (b.memory address).readOnly⟩ := by
        rw [hvalues, ← hlink.1, ← hlink.2]
        exact congrArg₂ (Memory.mk _) hup hro
    _ = b.memory address := rfl

namespace Stack

/-- Of two orders of layers with different keys one succeeds exactly if the other does. Then every
device in memory is the same afterwards, what was done to its link included, and so is the entry
under every key. Restoring either undoes the same, also if the devices changed meanwhile, and brings
them back to where they were if they did not. -/
theorem configure_perm {s s' : Stack} (hp : s.Perm s') (hk : s.keys.Nodup) {b : Bench}
    (hb : b.Steady) :
    ((s.configure (b, .empty)).1 = .ok () ↔ (s'.configure (b, .empty)).1 = .ok ()) ∧
    ((s.configure (b, .empty)).1 = .ok () →
      (s.configure (b, .empty)).2.1.SameDevices (s'.configure (b, .empty)).2.1 ∧
      (∀ key, (s'.configure (b, .empty)).2.2.get? key = (s.configure (b, .empty)).2.2.get? key) ∧
      (∀ c c', Bench.SameDevices c c' →
        (s.restore (c, (s.configure (b, .empty)).2.2)).2.1.SameDevices
          (s'.restore (c', (s'.configure (b, .empty)).2.2)).2.1) ∧
      (s.restore (s.configure (b, .empty)).2).2.1.memory = b.memory ∧
      (s'.restore (s'.configure (b, .empty)).2).2.1.memory = b.memory) := by
  obtain ⟨hiff, hnear⟩ := near_of_perm hp hk hb
  refine ⟨hiff, fun h => ?_⟩
  have hentries : ∀ key, (s'.configure (b, .empty)).2.2.get? key =
      (s.configure (b, .empty)).2.2.get? key := fun key => (hnear h key).notes
  refine ⟨Bench.sameDevices_of_alike fun key => (hnear h key).bench, hentries, ?_,
    s.memory_restore b, s'.memory_restore b⟩
  intro c c' hc
  constructor
  · have howed : ∀ address name, (s'.configure (b, .empty)).2.2.owed address name =
        (s.configure (b, .empty)).2.2.owed address name := by
      intro address name
      rw [Ledger.owed_eq, Ledger.owed_eq, hentries]
    exact (s.restore_restores b c).unique ((s'.restore_restores b c').congr howed) hc.memory
  · intro address
    rw [linkChanges_restore, linkChanges_restore]
    exact hc.linkChanges address

/-- A device in memory that is down, on a machine with two processors. -/
def sharedDevice : Device := ⟨"eth0", ⟨"", "lab"⟩, ⟨"", "lab"⟩, none, .memory "eth0"⟩

def sharedBench : Bench :=
  (Bench.quiet.setMemory "eth0" ⟨fun _ => some (.number 1500), false, false⟩).addRule ""
    ⟨"lscpu", .ok "CPU(s): 2"⟩

def pinFirst : Stack :=
  [.interrupts [sharedDevice] ⟨some [[0]], none⟩, .mtu [sharedDevice] (some 9000),
    .pauseFrames [sharedDevice] ⟨some false, none⟩]

def pauseFirst : Stack :=
  [.pauseFrames [sharedDevice] ⟨some false, none⟩,
    .interrupts [sharedDevice] ⟨some [[0]], none⟩, .mtu [sharedDevice] (some 9000)]

theorem configure_perm_on_shared_device :
    pinFirst.Perm pauseFirst ∧ pinFirst.keys.Nodup ∧ sharedBench.Steady ∧
    (pauseFirst.configure (sharedBench, .empty)).1 = .ok () ∧
    (pauseFirst.configure (sharedBench, .empty)).2.1.linkChanges "eth0" = [true, false] ∧
    ((pauseFirst.configure (sharedBench, .empty)).2.1.memory "eth0").values "mtu" =
      some (.number 9000) ∧
    (pinFirst.restore (pinFirst.configure (sharedBench, .empty)).2).2.1.SameDevices
      (pauseFirst.restore (pauseFirst.configure (sharedBench, .empty)).2).2.1 ∧
    (pauseFirst.restore (pauseFirst.configure (sharedBench, .empty)).2).2.1.memory =
      sharedBench.memory := by
  have hp : pinFirst.Perm pauseFirst := List.perm_append_singleton _ [_, _]
  have hk : pinFirst.keys.Nodup := by decide
  have hb : sharedBench.Steady := (Bench.steady_quiet.setMemory _ _).addRule _ _
  have hok : (pinFirst.configure (sharedBench, .empty)).1 = .ok () := by rfl
  obtain ⟨hiff, hall⟩ := configure_perm hp hk hb
  obtain ⟨hdevices, -, hrestored, -, hmemory⟩ := hall hok
  have hlinks : (pinFirst.configure (sharedBench, .empty)).2.1.linkChanges "eth0" =
      [true, false] := by rfl
  have hmtu : ((pinFirst.configure (sharedBench, .empty)).2.1.memory "eth0").values "mtu" =
      some (.number 9000) := by rfl
  refine ⟨hp, hk, hb, hiff.1 hok, ?_, ?_, hrestored _ _ hdevices, hmemory⟩
  · rw [hdevices.linkChanges, hlinks]
  · rw [hdevices.memory, hmtu]

end Stack

end NicTuning
