import NicTuning.Proofs.CoalescingRequests
import NicTuning.Proofs.Undoing

/-!
# Writing attributes of coalescing

Attributes of coalescing are adaptive modes or other settings. On a device that is controlled by
commands only `ethtool -C` writes them, and nothing but an attribute of coalescing is written by it:
neither what goes under another key nor what takes it back involves such a write.
-/
namespace NicTuning

namespace Layer.Coalescing

open Tuning.Coalescing (Toggle)

/-! ## Names -/

/-- The attribute is an adaptive mode. -/
def IsMode (name : String) : Prop :=
  name = "adaptive_rx_coalescing" ∨ name = "adaptive_tx_coalescing"

/-- The attribute is one of the other settings. -/
def IsSetting (name : String) : Prop := Text.begins "coalescing_" name = true

theorem isMode_of_mem_toggles {c : Tuning.Coalescing} {t : Toggle} (h : t ∈ c.toggles) :
    IsMode t.name := by
  rcases List.mem_pair.1 h with rfl | rfl
  · exact .inl rfl
  · exact .inr rfl

theorem isSetting_coalescingName (k : String) : IsSetting (Attribute.coalescingName k) :=
  Text.begins_front _ _

theorem settingKey_of_isMode {name : String} (h : IsMode name) : settingKey name = key := by
  rcases h with rfl | rfl <;> decide

theorem settingKey_of_isSetting {name : String} (h : IsSetting name) : settingKey name = key := by
  rw [settingKey_of_begins h (by decide),
    Text.begins_of_conflict h (by decide), if_neg Bool.false_ne_true,
    Text.begins_of_conflict h (by decide), if_neg Bool.false_ne_true]

end Layer.Coalescing

open Layer.Coalescing (IsMode IsSetting settingKey_of_isMode settingKey_of_isSetting)

/-- The command that writes an attribute of coalescing writes no other attribute. -/
theorem Attribute.isCoalescing_of_ofName? {name : String} {a : Attribute}
    (h : ofName? name = some a) (hw : Command.writeBeginning a = "ethtool -C ") :
    IsMode name ∨ IsSetting name := by
  unfold ofName? at h
  split at h
  · cases h
    exact absurd hw (by decide)
  · exact .inl (.inl rfl)
  · exact .inl (.inr rfl)
  · cases h
    exact absurd hw (by decide)
  · cases h
    exact absurd hw (by decide)
  · cases h
    exact absurd hw (by decide)
  · unfold ofLongName? at h
    split at h
    · rename_i hafter
      refine .inr ?_
      unfold IsSetting
      by_contra hnot
      rw [Text.after?, if_neg hnot] at hafter
      cases hafter
    · split at h
      · cases h
        exact absurd hw (by simp [Command.writeBeginning])
      · obtain ⟨feature, -, rfl⟩ := Option.map_eq_some_iff.1 h
        exact absurd hw (by simp [Command.writeBeginning])

namespace Event

/-- The event is a try to write an attribute of coalescing. -/
def WritesCoalescing : Event → Prop
  | ran _ command => Text.begins "ethtool -C " command = true
  | wrote _ name _ _ => IsMode name ∨ IsSetting name
  | _ => False

theorem not_writesCoalescing_of_begins {front command : String}
    (hf : Text.begins front command = true) (h : Text.conflict "ethtool -C " front = true)
    (address : String) : ¬(ran address command).WritesCoalescing := by
  change ¬Text.begins "ethtool -C " command = true
  rw [Text.begins_of_conflict hf h]
  exact Bool.false_ne_true

end Event

open Event (not_writesCoalescing_of_begins)

/-- Where an attribute is not one of coalescing, its command begins otherwise. -/
theorem Attribute.conflict_writeBeginning {name : String} {a : Attribute}
    (ha : ofName? name = some a) (hname : ¬(IsMode name ∨ IsSetting name)) :
    Text.conflict "ethtool -C " (Command.writeBeginning a) = true := by
  have hq : ∀ beginning ∈ [Command.linkBeginning, "ethtool -A ", "ethtool -K ", "ethtool -X ",
      "ethtool -N "], Text.conflict "ethtool -C " beginning = true := by decide
  refine hq _ ?_
  cases a with
  | adaptiveCoalescing | coalescing => exact absurd (isCoalescing_of_ofName? ha rfl) hname
  | _ => simp [Command.writeBeginning]

/-- What goes under another key writes no attribute of coalescing. -/
theorem Intent.Involves.not_writesCoalescing {i : Intent} {e : Event} (h : i.Involves e)
    (hi : i.key ≠ Layer.Coalescing.key) : ¬e.WritesCoalescing := by
  have hname : ∀ {name d value}, i = .setting name d value → ¬(IsMode name ∨ IsSetting name) := by
    rintro name d value rfl hn
    exact hi (hn.elim settingKey_of_isMode settingKey_of_isSetting)
  refine h.of_begins (P := fun e => ¬e.WritesCoalescing) (fun _ _ => id)
    (fun _ _ _ hs _ _ => hname hs) (fun _ _ _ _ _ _ => id) ?_
  intro beginning hm address command hb
  refine not_writesCoalescing_of_begins hb ?_ address
  cases i with
  | setting name d value =>
    obtain ⟨a, ha, hm⟩ := List.mem_flatMap.1 hm
    rcases List.mem_pair.1 hm with rfl | rfl
    · have hq : ∀ beginning ∈ Command.readBeginnings,
          Text.conflict "ethtool -C " beginning = true := by decide
      exact hq _ (Command.readBeginning_mem a)
    · exact Attribute.conflict_writeBeginning (Option.mem_toList.1 ha) (hname rfl)
  | queues d counts =>
    have hq : ∀ beginning ∈ ["ethtool -l ", "ethtool -L "],
        Text.conflict "ethtool -C " beginning = true := by decide
    exact hq _ hm
  | qdisc d =>
    have hq : ∀ beginning ∈ ["tc qdisc show dev ", "tc qdisc replace dev "],
        Text.conflict "ethtool -C " beginning = true := by decide
    exact hq _ hm
  | pin d processors spreading =>
    have hq : ∀ beginning ∈ ["lscpu", "service irqbalance stop", "ip -o link show dev ",
        Command.linkBeginning, "cat /proc/interrupts", "echo -n "],
        Text.conflict "ethtool -C " beginning = true := by decide
    exact hq _ hm

/-- Nor does what takes it back. -/
theorem Remedy.Involves.not_writesCoalescing {c : Change} {r : Remedy} {e : Event}
    (h : r.Involves e) (hr : c.remedy? = some r) (hc : c.key ≠ Layer.Coalescing.key) :
    ¬e.WritesCoalescing := by
  cases c with
  | setting name change =>
    cases hr
    obtain ⟨b, h⟩ := h
    have hname : ¬(IsMode name ∨ IsSetting name) := fun hn =>
      hc (hn.elim settingKey_of_isMode settingKey_of_isSetting)
    refine change.device.forall_setEvents name change.previous b
      (P := fun e => ¬e.WritesCoalescing) (fun _ _ => hname) ?_ e h
    intro a ha address command hb
    exact not_writesCoalescing_of_begins hb (Attribute.conflict_writeBeginning ha hname) address
  | queues change =>
    obtain ⟨-, hr⟩ := Option.ite_none_left_eq_some.1 hr
    cases hr
    cases h
    exact not_writesCoalescing_of_begins (Text.begins_front₃ "ethtool -L " _ _ _) (by decide) _
  | qdisc change =>
    obtain ⟨-, hr⟩ := Option.ite_none_left_eq_some.1 hr
    cases hr
    cases h
    exact not_writesCoalescing_of_begins
      (Text.begins_append (Text.begins_front "tc qdisc del dev " _) _) (by decide) _
  | stop host =>
    cases hr
    cases h
    exact not_writesCoalescing_of_begins (Text.begins_front "service irqbalance start" "")
      (by decide) _
  | pin device => cases hr

end NicTuning
