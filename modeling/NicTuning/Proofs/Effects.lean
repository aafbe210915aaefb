import NicTuning.Proofs.Journal
import Mathlib.Data.List.Infix

/-!
# Events that took effect

Which commands change a device or a host, by how they begin and end, and which events of a journal
did what they were meant to do. An action is quiet if nothing that has to be undone came of it.
-/
namespace NicTuning

/-! ## Commands -/

namespace Text

/-- Neither text begins with the other, so nothing begins with both. -/
def conflict (s t : String) : Bool := !begins s t && !begins t s

theorem begins_append {beginning s : String} (h : begins beginning s = true) (t : String) :
    begins beginning (s ++ t) = true := by
  unfold begins at h ⊢
  rw [List.isPrefixOf_iff_prefix] at h ⊢
  rw [String.toList_append]
  exact h.trans (List.prefix_append _ _)

theorem begins_front (front rest : String) : begins front (front ++ rest) = true := by
  simp [begins, List.isPrefixOf_iff_prefix]

theorem begins_front₃ (front r s t : String) : begins front (front ++ r ++ s ++ t) = true :=
  begins_append (begins_append (begins_front front r) s) t

theorem begins_front₅ (front r s t u v : String) :
    begins front (front ++ r ++ s ++ t ++ u ++ v) = true :=
  begins_append (begins_append (begins_front₃ front r s t) u) v

theorem begins_of_conflict {beginning front s : String} (hf : begins front s = true)
    (h : conflict beginning front = true) : begins beginning s = false := by
  unfold conflict begins at h
  unfold begins at hf ⊢
  rw [Bool.eq_false_iff, ne_eq]
  intro hb
  rw [List.isPrefixOf_iff_prefix] at hf hb
  rcases List.prefix_or_prefix_of_prefix hf hb with hp | hp <;>
    simp [List.isPrefixOf_iff_prefix.2 hp] at h

/-- A text differs from those that lack its beginning. -/
theorem ne_of_begins {front s : String} (hf : begins front s = true) {others : List String}
    (ho : others.all (fun other => !begins front other) = true) : ∀ other ∈ others, s ≠ other := by
  rintro other hm rfl
  have hs := List.all_eq_true.1 ho s hm
  rw [hf] at hs
  cases hs

end Text

namespace Command

/-- The command ends with the given text. -/
def ends (ending command : String) : Bool := ending.toList.isSuffixOf command.toList

def linkBeginning : String := "ip link set dev "

/-- The command brings a link up or takes it down. -/
def isLinkChange (command : String) : Bool :=
  Text.begins linkBeginning command && (ends " up" command || ends " down" command)

def changeBeginnings : List String :=
  ["ethtool -C ", "ethtool -A ", "ethtool -K ", "ethtool -X ", "ethtool -N ", "ethtool -L ",
    "tc qdisc replace ", "service irqbalance stop"]

/-- The command changes something that is undone later: an attribute, numbers of queues, a root
queueing discipline, or whether a balancer runs. -/
def isChange (command : String) : Bool :=
  changeBeginnings.any (Text.begins · command) ||
    Text.begins linkBeginning command && !isLinkChange command

def touchBeginnings : List String :=
  linkBeginning :: "echo -n " :: "service irqbalance " :: changeBeginnings

/-- The command changes the state of a device or of a host in any way. -/
def touches (command : String) : Bool := touchBeginnings.any (Text.begins · command)

/-- A command that begins like none that touches anything. -/
theorem touches_of_begins {front command : String} (hf : Text.begins front command = true)
    (h : touchBeginnings.all (Text.conflict · front) = true) : touches command = false := by
  unfold touches
  rw [List.any_eq_false]
  intro beginning hm
  rw [Text.begins_of_conflict hf (List.all_eq_true.1 h beginning hm)]
  exact Bool.false_ne_true

theorem touches_of_isChange {command : String} (h : isChange command = true) :
    touches command = true := by
  unfold isChange at h
  unfold touches touchBeginnings
  rcases Bool.or_eq_true_iff.1 h with h | h
  · simp [h]
  · simp [(Bool.and_eq_true_iff.1 h).1]

theorem isChange_of_touches {command : String} (h : touches command = false) :
    isChange command = false := by
  by_contra hc
  rw [touches_of_isChange (by simpa using hc)] at h
  cases h

/-- No text ends with a numeral and with something whose last character is no digit. -/
theorem ends_numeral {ending : String} {c : Char} (hc : ending.toList.getLast? = some c)
    (hd : c.isDigit = false) (front : String) (n : Nat) :
    ends ending (front ++ n.repr) = false := by
  unfold ends
  rw [Bool.eq_false_iff, ne_eq, List.isSuffixOf_iff_suffix]
  rintro ⟨before, hb⟩
  have hl : (before ++ ending.toList).getLast? = some c := by simp [List.getLast?_append, hc]
  rw [hb, String.toList_append, Nat.toList_repr, List.getLast?_append] at hl
  cases hg : (Nat.toDigits 10 n).getLast? with
  | none => exact Nat.toDigits_ne_nil (List.getLast?_eq_none_iff.1 hg)
  | some digit =>
    rw [hg, Option.some_or, Option.some.injEq] at hl
    have := Nat.isDigit_of_mem_toDigits (by decide) (by decide) (List.mem_of_getLast? hg)
    rw [hl, hd] at this
    cases this

theorem ends_integer {ending : String} {c : Char} (hc : ending.toList.getLast? = some c)
    (hd : c.isDigit = false) (front : String) (i : Int) :
    ends ending (front ++ toString i) = false := by
  rw [Int.toString_eq_repr, Int.repr_eq_if]
  split
  · exact ends_numeral hc hd front _
  · rw [← String.append_assoc]
    exact ends_numeral hc hd _ _

theorem ends_append (front ending : String) : ends ending (front ++ ending) = true := by
  simp [ends, List.isSuffixOf_iff_suffix]

/-- How the command that reads an attribute begins. -/
def readBeginning : Attribute → String
  | .mtu => "cat /sys/class/net/"
  | .adaptiveCoalescing _ | .coalescing _ => "ethtool -c "
  | .pauseFrames _ => "ethtool -a "
  | .offload _ => "ethtool -k "
  | .hashFunction => "ethtool -x "
  | .flowHash _ => "ethtool -n "

def readBeginnings : List String :=
  ["cat /sys/class/net/", "ethtool -c ", "ethtool -a ", "ethtool -k ", "ethtool -x ",
    "ethtool -n "]

theorem readBeginning_mem (a : Attribute) : readBeginning a ∈ readBeginnings := by
  cases a <;> simp [readBeginning, readBeginnings]

theorem begins_readCommand (d : Device) (a : Attribute) :
    Text.begins (readBeginning a) (d.readCommand a) = true := by
  cases a with
  | mtu => exact Text.begins_append (Text.begins_front _ _) _
  | flowHash type => exact Text.begins_front₃ _ _ _ _
  | _ => exact Text.begins_front _ _

/-- How the command that writes an attribute begins. -/
def writeBeginning : Attribute → String
  | .mtu => linkBeginning
  | .adaptiveCoalescing _ | .coalescing _ => "ethtool -C "
  | .pauseFrames _ => "ethtool -A "
  | .offload _ => "ethtool -K "
  | .hashFunction => "ethtool -X "
  | .flowHash _ => "ethtool -N "

def writeBeginnings : List String :=
  [linkBeginning, "ethtool -C ", "ethtool -A ", "ethtool -K ", "ethtool -X ", "ethtool -N "]

theorem writeBeginning_mem (a : Attribute) : writeBeginning a ∈ writeBeginnings := by
  cases a <;> simp [writeBeginning, writeBeginnings]

theorem begins_writeCommand (d : Device) (arg : String) (a : Attribute) :
    Text.begins (writeBeginning a) (d.writeCommand arg a) = true := by
  cases a with
  | mtu => exact Text.begins_front₃ _ _ _ _
  | hashFunction => exact Text.begins_front₃ _ _ _ _
  | _ => exact Text.begins_front₅ _ _ _ _ _ _

theorem begins_linkCommand (d : Device) (up : Bool) :
    Text.begins linkBeginning (d.linkCommand up) = true :=
  Text.begins_append (Text.begins_front _ _) _

theorem isLinkChange_linkCommand (d : Device) (up : Bool) :
    isLinkChange (d.linkCommand up) = true := by
  unfold isLinkChange
  rw [begins_linkCommand d up, Bool.true_and, Bool.or_eq_true]
  cases up
  · exact .inr (ends_append _ _)
  · exact .inl (ends_append _ _)

theorem isChange_linkCommand (d : Device) (up : Bool) : isChange (d.linkCommand up) = false := by
  unfold isChange
  rw [isLinkChange_linkCommand, Bool.not_true, Bool.and_false, Bool.or_false, List.any_eq_false]
  intro beginning hm
  rw [Text.begins_of_conflict (begins_linkCommand d up) (by revert beginning; decide)]
  exact Bool.false_ne_true

theorem isChange_of_begins {beginning command : String} (hm : beginning ∈ changeBeginnings)
    (h : Text.begins beginning command = true) : isChange command = true := by
  unfold isChange
  rw [List.any_eq_true.2 ⟨beginning, hm, h⟩, Bool.true_or]

/-- A command that writes an attribute changes it. The size of a packet has to be a number there,
for a word could look like a change of the link. -/
theorem isChange_writeCommand (d : Device) (value : Setting) (a : Attribute)
    (h : a = .mtu → ∃ n, value = .number n) : isChange (d.writeCommand value.arg a) = true := by
  have hb := begins_writeCommand d value.arg a
  cases a with
  | mtu =>
    obtain ⟨n, rfl⟩ := h rfl
    have he : isLinkChange (d.writeCommand (Setting.number n).arg .mtu) = false := by
      unfold isLinkChange Device.writeCommand Setting.arg
      rw [ends_integer (show " up".toList.getLast? = some 'p' by decide) (by decide),
        ends_integer (show " down".toList.getLast? = some 'n' by decide) (by decide)]
      exact Bool.and_false _
    unfold isChange
    rw [he, show Text.begins linkBeginning _ = true from hb]
    exact Bool.or_true _
  | _ => exact isChange_of_begins (by simp [writeBeginning, changeBeginnings]) hb

theorem touches_writeCommand (d : Device) (arg : String) (a : Attribute) :
    touches (d.writeCommand arg a) = true := by
  refine List.any_eq_true.2 ⟨writeBeginning a, ?_, begins_writeCommand d arg a⟩
  cases a <;> simp [writeBeginning, touchBeginnings, changeBeginnings]

theorem isChange_setCommand (d : Device) (counts : Dict UInt32) :
    isChange (Layer.Queues.setCommand d counts) = true :=
  isChange_of_begins (by simp [changeBeginnings]) (Text.begins_front₃ "ethtool -L " _ _ _)

theorem isChange_replaceCommand (d : Device) :
    isChange (Layer.Qdisc.replaceCommand d) = true :=
  isChange_of_begins (by simp [changeBeginnings])
    (Text.begins_append (Text.begins_append
      (show Text.begins "tc qdisc replace " "tc qdisc replace dev " = true by decide) _) _)

theorem isChange_stopCommand : isChange "service irqbalance stop" = true := by decide

theorem touches_channelsCommand (d : Device) : touches ("ethtool -l " ++ d.name) = false :=
  touches_of_begins (Text.begins_front _ _) (by decide)

theorem touches_showCommand (d : Device) :
    touches ("tc qdisc show dev " ++ d.name ++ " root") = false :=
  touches_of_begins (Text.begins_append (Text.begins_front _ _) _) (by decide)

theorem begins_assignCommand (assignment : UInt32 × String) :
    Text.begins "echo -n " (Layer.Interrupts.assignCommand assignment) = true :=
  Text.begins_append (Text.begins_front₃ _ _ _ _) _

theorem isChange_assignCommand (assignment : UInt32 × String) :
    isChange (Layer.Interrupts.assignCommand assignment) = false := by
  have hb := begins_assignCommand assignment
  unfold isChange
  rw [Text.begins_of_conflict hb (show Text.conflict linkBeginning _ = true by decide),
    Bool.false_and, Bool.or_false, List.any_eq_false]
  intro beginning hm
  rw [Text.begins_of_conflict hb (by revert beginning; decide)]
  exact Bool.false_ne_true

end Command

/-! ## Events -/

namespace Event

/-- The event is a try to change something that is undone later. -/
def isChange : Event → Bool
  | ran _ command => Command.isChange command
  | wrote .. => true
  | _ => false

/-- The event is a try to change the state of a device or of a host. -/
def touches : Event → Bool
  | ran _ command => Command.touches command
  | wrote .. | linked .. => true
  | _ => false

end Event

namespace Bench

/-- An event does what it is meant to do: a write is taken, a command succeeds. -/
def accomplishes (b : Bench) : Event → Bool
  | .ran address command => b.succeeds address command
  | .wrote _ _ _ done => done
  | _ => true

/-- Those of some events that are of a kind and did what they were meant to do, the newest first
as in a journal. -/
def successes (b : Bench) (kind : Event → Bool) : List Event → List Event
  | [] => []
  | e :: earlier =>
    if kind e && (b.after earlier).accomplishes e then e :: b.successes kind earlier
    else b.successes kind earlier

variable {b : Bench} {kind : Event → Bool}

theorem successes_append (newer older : List Event) :
    b.successes kind (newer ++ older) =
      (b.after older).successes kind newer ++ b.successes kind older := by
  induction newer with
  | nil => rfl
  | cons e newer ih =>
    simp only [List.cons_append, successes, after_after, ih]
    split <;> rfl

theorem successes_eq_nil {events : List Event} (h : ∀ e ∈ events, kind e = false) :
    b.successes kind events = [] := by
  induction events with
  | nil => rfl
  | cons e events ih =>
    rw [successes, h e (by simp), Bool.false_and]
    exact ih fun e he => h e (by simp [he])

theorem successes_of_reply_error {h : Host} {command : String} {fault : Fault}
    (hr : b.reply h command = .error fault) :
    b.successes kind [.ran h.address command] = [] := by
  simp only [successes, after_nil, accomplishes, not_succeeds_of_reply hr, Bool.and_false]
  rfl

end Bench

/-! ## Events of single operations -/

/-- A command that succeeded did what it was meant to do. -/
theorem Host.command_ok {h : Host} {command : String} {b b' : Bench}
    (hc : h.command command b = (.ok (), b')) :
    b' = b.after [.ran h.address command] ∧ b.accomplishes (.ran h.address command) = true := by
  rw [h.command_apply command b] at hc
  obtain ⟨hr, rfl⟩ := Prod.mk.inj hc
  refine ⟨rfl, ?_⟩
  cases hp : b.reply h command with
  | ok output => exact Bench.succeeds_of_reply hp
  | error fault =>
    rw [hp] at hr
    cases hr

theorem Attribute.eq_of_ofName?_mtu {name : String} (h : ofName? name = some .mtu) :
    name = "mtu" := by
  unfold ofName? at h
  split at h
  · rfl
  all_goals try cases h
  unfold ofLongName? at h
  split at h
  · cases h
  · split at h
    · cases h
    · obtain ⟨feature, -, hf⟩ := Option.map_eq_some_iff.1 h
      cases hf

namespace Event

theorem isChange_of_touches {e : Event} (h : e.touches = false) : e.isChange = false := by
  cases e with
  | ran address command => exact Command.isChange_of_touches h
  | wrote => cases h
  | _ => rfl

theorem apply_of_touches {e : Event} (h : e.touches = false) (devices : String → Memory) :
    e.apply devices = devices := by
  cases e with
  | wrote | linked => cases h
  | _ => rfl

end Event

theorem Bench.memory_after_of_touches {b : Bench} {events : List Event}
    (h : ∀ e ∈ events, e.touches = false) : (b.after events).memory = b.memory := by
  induction events with
  | nil => rfl
  | cons e events ih =>
    have he := Event.apply_of_touches (h e (by simp)) (b.after events).memory
    exact he.trans (ih fun e he => h e (by simp [he]))

namespace Device

variable (d : Device) (name : String) (value : Setting) (b : Bench)

/-! What happens is of a kind if what happens in memory is and commands are that begin so. -/

theorem forall_getEvents {P : Event → Prop} (hread : ∀ address, P (.read address name))
    (hran : ∀ a, Attribute.ofName? name = some a → ∀ address command,
      Text.begins (Command.readBeginning a) command = true → P (.ran address command)) :
    ∀ e ∈ d.getEvents name, P e := by
  unfold getEvents
  cases d.control with
  | memory address => simpa using hread address
  | commands =>
    intro e he
    obtain ⟨a, ha, rfl⟩ := Option.map_eq_some_iff.1 (Option.mem_toList.1 he)
    exact hran a ha _ _ (Command.begins_readCommand d a)

theorem forall_setEvents {P : Event → Prop}
    (hwrote : ∀ address taken, P (.wrote address name value taken))
    (hran : ∀ a, Attribute.ofName? name = some a → ∀ address command,
      Text.begins (Command.writeBeginning a) command = true → P (.ran address command)) :
    ∀ e ∈ d.setEvents name value b, P e := by
  unfold setEvents
  cases d.control with
  | memory address => simpa using hwrote address _
  | commands =>
    intro e he
    obtain ⟨a, ha, rfl⟩ := Option.map_eq_some_iff.1 (Option.mem_toList.1 he)
    exact hran a ha _ _ (Command.begins_writeCommand d value.arg a)

theorem forall_isUpEvents {P : Event → Prop}
    (hran : ∀ address command, Text.begins "ip -o link show dev " command = true →
      P (.ran address command)) : ∀ e ∈ d.isUpEvents, P e := by
  unfold isUpEvents
  cases d.control with
  | memory address => simp
  | commands => simpa using hran _ _ (Text.begins_front _ _)

theorem forall_linkEvents {P : Event → Prop} {up : Bool}
    (hlinked : ∀ address, P (.linked address up))
    (hran : ∀ address command, Text.begins Command.linkBeginning command = true →
      P (.ran address command)) : ∀ e ∈ d.linkEvents up, P e := by
  unfold linkEvents
  cases d.control with
  | memory address => simpa using hlinked address
  | commands => simpa using hran _ _ (Command.begins_linkCommand d up)

theorem touches_getEvents : ∀ e ∈ d.getEvents name, e.touches = false := by
  have hq : ∀ beginning ∈ Command.readBeginnings,
      Command.touchBeginnings.all (Text.conflict · beginning) = true := by decide
  exact d.forall_getEvents name (fun _ => rfl) fun a _ _ _ hb =>
    Command.touches_of_begins hb (hq _ (Command.readBeginning_mem a))

theorem touches_isUpEvents : ∀ e ∈ d.isUpEvents, e.touches = false :=
  d.forall_isUpEvents fun _ _ hb => Command.touches_of_begins hb (by decide)

/-- What happens when an attribute is written and the write is taken. -/
def writeEvent? (name : String) (value : Setting) : Option Event :=
  match d.control with
  | .commands =>
    (Attribute.ofName? name).map fun a => .ran d.netns.address (d.writeCommand value.arg a)
  | .memory address => some (.wrote address name value true)

variable {d name value b} {b' : Bench}

/-- A write that was taken is a single event that did what it was meant to do. -/
theorem writeEvent?_of_ok (h : d.set name value b = (.ok (), b')) :
    ∃ e, d.writeEvent? name value = some e ∧ b' = b.after [e] ∧ b.accomplishes e = true ∧
      e.touches = true ∧ ((name = "mtu" → ∃ n, value = .number n) → e.isChange = true) := by
  have hb : b' = b.after (d.setEvents name value b) := by
    rw [← d.set_bench b name value, h]
  unfold setEvents at hb
  unfold set at h
  unfold writeEvent?
  cases hc : d.control with
  | memory address =>
    rw [hc] at h hb
    dsimp only at h hb ⊢
    split at h
    · cases h
    · rename_i hr
      rw [Bool.eq_false_iff.2 hr] at hb
      exact ⟨_, rfl, hb, rfl, rfl, fun _ => rfl⟩
  | commands =>
    rw [hc] at h hb
    cases ha : Attribute.ofName? name with
    | none =>
      rw [ha] at h
      cases h
    | some a =>
      rw [ha] at h hb
      dsimp only at h
      rw [Host.command_apply] at h
      cases hr : b.reply d.netns (d.writeCommand value.arg a) with
      | error fault =>
        rw [hr] at h
        cases h
      | ok output =>
        refine ⟨_, rfl, hb, Bench.succeeds_of_reply hr, Command.touches_writeCommand d _ a,
          fun hv => ?_⟩
        exact Command.isChange_writeCommand d value a fun he =>
          hv (Attribute.eq_of_ofName?_mtu (he ▸ ha))

/-- A write that was not taken leaves everything as it is. -/
theorem set_of_error {fault : Fault} (h : d.set name value b = (.error fault, b'))
    (kind : Event → Bool) :
    b'.memory = b.memory ∧
      b.successes kind (d.setEvents name value b) = [] := by
  have hb : b' = b.after (d.setEvents name value b) := by
    rw [← d.set_bench b name value, h]
  rw [hb]
  unfold set at h
  unfold setEvents
  cases hc : d.control with
  | memory address =>
    rw [hc] at h
    dsimp only at h ⊢
    split at h
    · rename_i hr
      rw [hr]
      refine ⟨rfl, ?_⟩
      simp only [Bench.successes, Bench.accomplishes, Bool.not_true, Bool.and_false]
      rfl
    · cases h
  | commands =>
    rw [hc] at h
    cases ha : Attribute.ofName? name with
    | none => exact ⟨rfl, rfl⟩
    | some a =>
      rw [ha] at h
      dsimp only at h
      rw [Host.command_apply] at h
      refine ⟨rfl, ?_⟩
      cases hr : b.reply d.netns (d.writeCommand value.arg a) with
      | ok output =>
        rw [hr] at h
        cases h
      | error fault => exact Bench.successes_of_reply_error hr

end Device

end NicTuning
