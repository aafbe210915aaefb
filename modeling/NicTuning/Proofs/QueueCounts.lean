import NicTuning.Proofs.ChannelReports
import NicTuning.Proofs.DeviceTools
import NicTuning.Proofs.Validity

/-!
# Numbers of queues come back

A record keeps the numbers that a device had right before a change, so where a device comes more
than once the later records hold what the earlier changes left. Undone in the reverse order, the
numbers come back all the same: what undoing a change leaves to the earlier ones is what these left.

Main statement: on hosts that keep numbers of queues for each device, configuring and then restoring
sets back the types that were set and had a number, and if nothing fails on the way back every
number is what it was.
-/
namespace NicTuning

open Text (IsGap IsLine IsWord words)

namespace Dict

variable {α β : Type}

/-- A key has the value that its own value gives. -/
theorem get?_filterMap (f : String → α → Option β) (d : Dict α) (k : String) :
    (d.filterMap f).get? k = (d.get? k).bind (f k) := by
  apply Option.ext
  intro y
  rw [get?_eq_some_iff, Option.bind_eq_some_iff]
  unfold filterMap
  simp only [List.mem_filterMap, Option.map_eq_some_iff, Prod.mk.injEq, get?_eq_some_iff]
  constructor
  · rintro ⟨e, he, y', hy, rfl, rfl⟩
    exact ⟨e.2, he, hy⟩
  · rintro ⟨v, hv, hy⟩
    exact ⟨(k, v), hv, y, hy, rfl, rfl⟩

end Dict

theorem Ledger.queues?_eq (l : Ledger) (key : String) :
    l.queues? key = (l.get? key).bind Entry.queues? := by
  unfold Ledger.queues?
  cases l.get? key with
  | none => rfl
  | some entry => cases entry <;> rfl

/-- The types of queues. -/
inductive QueueType
  | rx
  | tx
  | other
  | combined
  deriving DecidableEq

namespace QueueType

/-- The type as it is spelled in a tuning. -/
def text : QueueType → String
  | rx => "rx"
  | tx => "tx"
  | other => "other"
  | combined => "combined"

/-- The type as it is printed. -/
def label : QueueType → String
  | rx => "RX"
  | tx => "TX"
  | other => "Other"
  | combined => "Combined"

def all : List QueueType := [rx, tx, other, combined]

theorem mem_all (type : QueueType) : type ∈ all := by cases type <;> decide

theorem text_inj {type type' : QueueType} : type.text = type'.text ↔ type = type' := by
  constructor
  · cases type <;> cases type' <;> decide
  · rintro rfl
    rfl

theorem lower_label (type : QueueType) : Text.lower type.label = type.text := by
  cases type <;> decide

theorem isKey_label (type : QueueType) : Report.KeyValue.IsKey type.label := by
  cases type <;> decide

theorem isWord_text (type : QueueType) : IsWord type.text := by
  cases type <;> decide

/-- A tuning that was examined sets numbers of these types alone. -/
theorem exists_of_mem_queueTypes {k : String} (h : k ∈ Tuning.queueTypes) :
    ∃ type : QueueType, k = type.text := by
  simp only [Tuning.queueTypes, List.mem_cons, List.not_mem_nil, or_false] at h
  rcases h with rfl | rfl | rfl | rfl
  · exact ⟨rx, rfl⟩
  · exact ⟨tx, rfl⟩
  · exact ⟨other, rfl⟩
  · exact ⟨combined, rfl⟩

end QueueType

/-- How many queues of each type a device has, or none for a type that it lacks. -/
abbrev ChannelTable := QueueType → Option UInt32

/-! ## What is printed of numbers -/

namespace Report.Channels

/-- The line of a type of queues. -/
def countLine (gap : QueueType → String) (counts : ChannelTable) (type : QueueType) : String :=
  KeyValue.line "" type.label (gap type) (countText (counts type))

/-- The report of a device with its greatest possible and its current numbers. -/
def text (name : String) (gap : QueueType → String) (maximums current : ChannelTable) : String :=
  Text.ofLines (("Channel parameters for " ++ name ++ ":") ::
    (("Pre-set maximums:" :: QueueType.all.map (countLine gap maximums)) ++
      ("Current hardware settings:" :: QueueType.all.map (countLine gap current))))

/-- The counts of some types, added to those known. -/
def enter (known : Channels) (counts : ChannelTable) (opened : Section)
    (types : List QueueType) : Channels :=
  types.foldl (fun c type => c.insert type.text (counts type) opened) known

variable {gap : QueueType → String} {counts : ChannelTable}

theorem isLine_countLine (hgap : ∀ type, IsGap (gap type)) (type : QueueType) :
    IsLine (countLine gap counts type) :=
  KeyValue.isLine_line (by decide) type.isKey_label (hgap type)
    (KeyValue.isPart_of_isWord (isWord_countText _))

/-- A section is read line by line. -/
theorem readLines_section (hgap : ∀ type, IsGap (gap type)) (counts : ChannelTable)
    (opened : Section) (types : List QueueType) (known : Channels) (rest : List String) :
    readLines known (some opened) (types.map (countLine gap counts) ++ rest) =
      readLines (known.enter counts opened types) (some opened) rest :=
  readLines_rows _ (fun type _ => ⟨type.isKey_label, hgap type, type.lower_label⟩) known opened rest

theorem get?_enter (types : List QueueType) (known : Channels) (type : QueueType) :
    (known.enter counts .current types).current.get? type.text =
      if type ∈ types then some (counts type) else known.current.get? type.text := by
  unfold enter
  induction types generalizing known with
  | nil => simp
  | cons first types ih =>
    have hinsert : (known.insert first.text (counts first) .current).current.get? type.text =
        if type = first then some (counts first) else known.current.get? type.text := by
      simp [insert, Dict.get?_insert, QueueType.text_inj]
    rw [List.foldl_cons, ih, hinsert]
    by_cases hmem : type ∈ types
    · simp [hmem]
    · by_cases hfirst : type = first
      · simp [hfirst]
      · simp [hmem, hfirst]

/-- What stands below the title is read section by section. -/
theorem readLines_sections (hgap : ∀ type, IsGap (gap type)) (maximums current : ChannelTable)
    (types : List QueueType) :
    readLines none .none (("Pre-set maximums:" :: types.map (countLine gap maximums)) ++
      ("Current hardware settings:" :: types.map (countLine gap current))) =
      .ok ((none.enter maximums .maximums types).enter current .current types) := by
  have hcurrent := readLines_section hgap current .current types
    (none.enter maximums .maximums types) []
  rw [List.append_nil] at hcurrent
  have hmaximums : Text.trim "Pre-set maximums:" = Section.maximums.heading := by decide
  have hsettings : Text.trim "Current hardware settings:" = Section.current.heading := by decide
  rw [List.cons_append, readLines_of_heading hmaximums, readLines_section hgap,
    readLines_of_heading hsettings, hcurrent, readLines]

theorem isLine_title {name : String} (h : IsWord name) :
    IsLine ("Channel parameters for " ++ name ++ ":") := by
  unfold Text.IsLine
  rw [String.toList_append, String.toList_append, List.getLast?_append]
  simp [Text.newline_not_mem_of_isWord h]

/-- The current numbers are read from the report. -/
theorem exists_read_text {name : String} (hname : IsWord name) (hgap : ∀ type, IsGap (gap type))
    (maximums current : ChannelTable) : ∃ channels, read (text name gap maximums current) =
      .ok channels ∧ ∀ type : QueueType, channels.current.get? type.text = some (current type) := by
  have hlines : ∀ line ∈ ("Channel parameters for " ++ name ++ ":") ::
      (("Pre-set maximums:" :: QueueType.all.map (countLine gap maximums)) ++
        ("Current hardware settings:" :: QueueType.all.map (countLine gap current))),
      IsLine line := by
    simp only [List.forall_mem_append, List.forall_mem_cons, List.forall_mem_map]
    exact ⟨isLine_title hname, ⟨by decide, fun type _ => isLine_countLine hgap type⟩, by decide,
      fun type _ => isLine_countLine hgap type⟩
  have hread := readLines_sections hgap maximums current QueueType.all
  generalize none.enter maximums .maximums QueueType.all = known at hread
  refine ⟨known.enter current .current QueueType.all, ?_, ?_⟩
  · unfold read text
    rw [Text.lines_ofLines hlines, List.drop_succ_cons, List.drop_zero]
    exact hread
  · intro type
    rw [get?_enter, if_pos type.mem_all]

end Report.Channels

/-! ## The tool -/

namespace Layer.Queues

/-- Words in pairs. -/
def pairs : List String → List (String × String)
  | type :: n :: rest => (type, n) :: pairs rest
  | _ => []

/-- The number that a command gives to a type. -/
def numberSet? (command : String) (type : QueueType) : Option UInt32 :=
  ((pairs ((words command).drop 3)).lookup type.text).bind Numeral.uint32?

/-- The tool that shows and sets numbers of queues. -/
def tool : Tool ChannelTable where
  showCommand name := "ethtool -l " ++ name
  Prints name table output := ∃ gap maximums, (∀ type, IsGap (gap type)) ∧
    output = Report.Channels.text name gap maximums table
  effect address command tables place type :=
    if place.1 = address ∧ (words command).take 3 = ["ethtool", "-L", place.2] then
      (numberSet? command type).or (tables place type)
    else tables place type

theorem effect_eq (address command : String) (tables : Place → ChannelTable) (place : Place)
    (type : QueueType) : tool.effect address command tables place type =
      if place.1 = address ∧ (words command).take 3 = ["ethtool", "-L", place.2] then
        (numberSet? command type).or (tables place type)
      else tables place type := rfl

/-- Numbers by type that a tuning may ask for. -/
def IsCounts (counts : Dict UInt32) : Prop := ∀ k ∈ counts.keys, k ∈ Tuning.queueTypes

/-- Types and their numbers as words. -/
def countArgs (counts : Dict UInt32) : List String :=
  counts.entries.flatMap fun e => [e.1, toString e.2]

theorem words_countWords {counts : Dict UInt32} (h : IsCounts counts) :
    words (countWords counts) = countArgs counts := by
  unfold countWords countArgs
  rw [Text.words_intercalate, List.flatMap_map]
  apply List.flatMap_congr
  intro e he
  obtain ⟨type, htype⟩ := QueueType.exists_of_mem_queueTypes (h e.1 (List.mem_map_of_mem he))
  have hnumber : words (toString e.2) = [toString e.2] :=
    Text.words_of_isWord (Text.isWord_repr e.2.toNat)
  dsimp only
  rw [Text.words_append_space, htype, Text.words_of_isWord type.isWord_text, hnumber]
  rfl

theorem words_setCommand {d : Device} {counts : Dict UInt32} (hd : IsWord d.name)
    (h : IsCounts counts) :
    words (setCommand d counts) = ["ethtool", "-L", d.name] ++ countArgs counts := by
  have hfront : "ethtool -L " ++ d.name = " ".intercalate ["ethtool", "-L"] ++ " " ++ d.name := by
    apply String.toList_injective
    simp [-String.reduceAppend]
  unfold setCommand
  rw [Text.words_append_space, words_countWords h, hfront, Text.words_append_space,
    Text.words_intercalate_iff.2 (by decide), Text.words_of_isWord hd]
  rfl

theorem pairs_countArgs (counts : Dict UInt32) :
    pairs (countArgs counts) = counts.entries.map fun e => (e.1, toString e.2) := by
  unfold countArgs
  induction counts.entries with
  | nil => rfl
  | cons e entries ih =>
    rw [List.flatMap_cons, List.map_cons, ← ih]
    rfl

/-- A command sets the numbers that it was made of. -/
theorem numberSet?_setCommand {d : Device} {counts : Dict UInt32} (hd : IsWord d.name)
    (h : IsCounts counts) (type : QueueType) :
    numberSet? (setCommand d counts) type = counts.get? type.text := by
  unfold numberSet?
  rw [words_setCommand hd h]
  simp only [List.cons_append, List.nil_append, List.drop_succ_cons, List.drop_zero,
    pairs_countArgs, Pairs.lookup_map]
  change ((counts.get? type.text).map toString).bind Numeral.uint32? = counts.get? type.text
  cases counts.get? type.text with
  | none => rfl
  | some n => exact Numeral.uint32?_toString n

/-- The setting of numbers of a device, as an event. -/
def setEvent (d : Device) (counts : Dict UInt32) : Event :=
  .ran d.netns.address (setCommand d counts)

theorem apply_setEvent {d : Device} {counts : Dict UInt32} (hd : IsWord d.name)
    (h : IsCounts counts) (tables : Place → ChannelTable) (place : Place) (type : QueueType) :
    tool.apply (setEvent d counts) tables place type =
      if place = d.place then (counts.get? type.text).or (tables place type)
      else tables place type := by
  have hplace : (place.1 = d.netns.address ∧
      (words (setCommand d counts)).take 3 = ["ethtool", "-L", place.2]) ↔ place = d.place := by
    rw [words_setCommand hd h]
    simp [Prod.ext_iff, Device.place, eq_comm]
  unfold setEvent Tool.apply
  dsimp only
  rw [effect_eq, numberSet?_setCommand hd h]
  simp only [hplace]

theorem words_showCommand (name : String) :
    words ("ethtool -l " ++ name) = "ethtool" :: "-l" :: words name := by
  have hcommand : "ethtool -l " ++ name = " ".intercalate ["ethtool", "-l"] ++ " " ++ name := by
    apply String.toList_injective
    simp [-String.reduceAppend]
  rw [hcommand, Text.words_append_space, Text.words_intercalate_iff.2 (by decide)]
  rfl

theorem effect_show (address name : String) (tables : Place → ChannelTable) :
    tool.effect address ("ethtool -l " ++ name) tables = tables := by
  funext place type
  rw [effect_eq, words_showCommand, if_neg]
  simp

/-- Each device is shown and then gets its numbers. -/
def exchange : Exchange ChannelTable (Device × Dict UInt32) QueueChange where
  tool := tool
  device := Prod.fst
  command target := setCommand target.1 target.2
  record target output :=
    (Report.Channels.read output).map fun c => ⟨target.1, c.current, target.2⟩
  effect_show := effect_show
  isChange_show name :=
    Command.isChange_of_touches (Command.touches_of_begins (Text.begins_front _ _) (by decide))
  isChange_command target := Command.isChange_setCommand target.1 target.2

theorem change_eq : change = exchange.change := by
  funext target s
  obtain ⟨b, notes⟩ := s
  have hshow : exchange.tool.showCommand target.1.name = "ethtool -l " ++ target.1.name := rfl
  unfold change Exchange.change
  dsimp only [exchange] at hshow ⊢
  rw [NotingM.lift_bind_apply, NotingM.lift_bind_apply, hshow]
  rcases target.1.query ("ethtool -l " ++ target.1.name) b with ⟨fault | output, b'⟩
  · rfl
  · dsimp only
    rw [ActionM.bind_apply, ActionM.bind_apply, ActionM.liftExcept_apply,
      ActionM.liftExcept_apply]
    cases Report.Channels.read output <;> rfl

/-! ## Going back -/

variable {c : QueueChange} {tables tables' u : Place → ChannelTable}
  {done : List ((Device × Dict UInt32) × QueueChange)}

theorem get?_restoreCounts (c : QueueChange) (k : String) : c.restoreCounts.get? k =
    (c.configured.get? k).bind fun _ => (c.previous.get? k).join := Dict.get?_filterMap _ _ k

/-- Only types that were set and had a number are set back. -/
theorem of_mem_restoreCounts {e : String × UInt32} (h : e ∈ c.restoreCounts.entries) :
    e.1 ∈ c.configured.keys ∧ c.previous.get? e.1 = some (some e.2) := by
  obtain ⟨e', he', hsome⟩ := List.mem_filterMap.1 h
  obtain ⟨n, hn, rfl⟩ := Option.map_eq_some_iff.1 hsome
  exact ⟨List.mem_map.2 ⟨e', he', rfl⟩, Option.join_eq_some_iff.1 hn⟩

theorem isCounts_restoreCounts (h : IsCounts c.configured) : IsCounts c.restoreCounts := by
  intro k hk
  obtain ⟨e, he, rfl⟩ := List.mem_map.1 hk
  exact h e.1 (of_mem_restoreCounts he).1

/-- The command that undoes a change, if there is one. -/
def undoCommand? (c : QueueChange) : Option (Host × String) :=
  if c.restoreCounts.isEmpty then none
  else some (c.device.netns, setCommand c.device c.restoreCounts)

theorem undo_eq_command (c : QueueChange) :
    undo c = (undoCommand? c).elim (pure ()) fun p => p.1.command p.2 := by
  unfold undo undoCommand?
  split <;> rfl

/-- The changes that can be set back, each as the event of doing so. -/
def restoreEvents (cs : List QueueChange) : List Event :=
  (cs.filter fun c => !c.restoreCounts.isEmpty).map fun c => setEvent c.device c.restoreCounts

theorem restoreEvents_eq (cs : List QueueChange) :
    (cs.filterMap undoCommand?).map (fun p => .ran p.1.address p.2) = restoreEvents cs := by
  unfold restoreEvents
  induction cs with
  | nil => rfl
  | cons c cs ih =>
    by_cases hempty : c.restoreCounts.isEmpty = true
    · rw [List.filterMap_cons_none (by simp [undoCommand?, hempty]),
        List.filter_cons_of_neg (by simp [hempty]), ih]
    · rw [List.filterMap_cons_some (by simp [undoCommand?, hempty]; rfl),
        List.filter_cons_of_pos (by simpa using hempty), List.map_cons, List.map_cons, ih]
      rfl

/-- Every number of the first tables is in the others. -/
def Regains (tables u : Place → ChannelTable) : Prop :=
  ∀ place type n, tables place type = some n → u place type = some n

/-- Where the numbers after a change have come back, undoing this change brings back those before:
a type that was set gets its number, and all others are as the change left them. -/
theorem Regains.step (hd : IsWord c.device.name) (hcounts : IsCounts c.configured)
    (hprevious : ∀ type : QueueType,
      c.previous.get? type.text = some (tables c.device.place type))
    (h : Regains (tool.apply (setEvent c.device c.configured) tables) u) :
    Regains tables fun place type =>
      if place = c.device.place then (c.restoreCounts.get? type.text).or (u place type)
      else u place type := by
  intro place type n hn
  have hlater := h place type n
  rw [apply_setEvent hd hcounts] at hlater
  dsimp only
  by_cases hplace : place = c.device.place
  · subst hplace
    rw [if_pos rfl] at hlater ⊢
    rw [get?_restoreCounts, hprevious, hn]
    rw [hn] at hlater
    cases hset : c.configured.get? type.text with
    | none =>
      -- The change left this type alone, so undoing what came later has brought it back.
      rw [hset] at hlater
      exact hlater rfl
    | some m => rfl
  · rw [if_neg hplace] at hlater ⊢
    exact hlater hn

theorem apply_restoreEvents (hd : IsWord c.device.name) (hcounts : IsCounts c.configured)
    (cs : List QueueChange) (u : Place → ChannelTable) :
    (restoreEvents (c :: cs)).foldr tool.apply u = fun place type =>
      if place = c.device.place then
        (c.restoreCounts.get? type.text).or ((restoreEvents cs).foldr tool.apply u place type)
      else (restoreEvents cs).foldr tool.apply u place type := by
  funext place type
  unfold restoreEvents
  by_cases hempty : c.restoreCounts.isEmpty = true
  · have hnone : c.restoreCounts.get? type.text = none := by
      unfold Dict.get?
      rw [List.isEmpty_iff.1 hempty]
      rfl
    rw [List.filter_cons_of_neg (by simp [hempty]), hnone, Option.none_or, ite_self]
  · rw [List.filter_cons_of_pos (by simpa using hempty), List.map_cons, List.foldr_cons,
      apply_setEvent hd (isCounts_restoreCounts hcounts)]

/-- What is recorded of a change. -/
theorem record_eq {target : Device × Dict UInt32} {output : String}
    (h : exchange.record target output = .ok c) : ∃ channels,
      Report.Channels.read output = .ok channels ∧ c = ⟨target.1, channels.current, target.2⟩ := by
  have hmap : (Report.Channels.read output).map
      (fun channels => (⟨target.1, channels.current, target.2⟩ : QueueChange)) = .ok c := h
  cases hread : Report.Channels.read output with
  | error fault =>
    rw [hread] at hmap
    cases hmap
  | ok channels =>
    rw [hread] at hmap
    cases hmap
    exact ⟨channels, rfl, rfl⟩

theorem previous_of_prints {target : Device × Dict UInt32} {output : String} {table : ChannelTable}
    (hd : IsWord target.1.name) (prints : tool.Prints target.1.name table output)
    (h : exchange.record target output = .ok c) (type : QueueType) :
    c.previous.get? type.text = some (table type) := by
  obtain ⟨gap, maximums, hgap, rfl⟩ := prints
  obtain ⟨channels, hread, rfl⟩ := record_eq h
  obtain ⟨printed, hprinted, hcurrent⟩ :=
    Report.Channels.exists_read_text hd hgap maximums table
  rw [hread] at hprinted
  cases hprinted
  exact hcurrent type

/-- Undone in the reverse order, changes leave every number that there was before them: what undoing
the later ones has to leave to an earlier one is what this one left to them. -/
theorem regains_of_chain (h : exchange.Chain tables done tables')
    (hw : ∀ e ∈ done, IsWord e.1.1.name ∧ IsCounts e.1.2) (hu : Regains tables' u) :
    Regains tables ((restoreEvents (done.map Prod.snd)).foldr tool.apply u) := by
  induction h with
  | nil => exact hu
  | @cons tables tables' target c output done prints record others ih =>
    -- The first change is undone last, on what undoing the others made of the final numbers.
    obtain ⟨hd, hcounts⟩ := hw (target, c) List.mem_cons_self
    have hlater := ih (fun e he => hw e (List.mem_cons_of_mem _ he)) hu
    have hprevious := previous_of_prints hd prints record
    obtain ⟨channels, -, rfl⟩ := record_eq record
    rw [List.map_cons, apply_restoreEvents hd hcounts]
    exact Regains.step hd hcounts hprevious hlater

/-- The records of changes tell which devices got which numbers. -/
theorem targets_of_chain (h : exchange.Chain tables done tables') :
    (done.map Prod.snd).map (fun c => (c.device, c.configured)) = done.map Prod.fst := by
  induction h with
  | nil => rfl
  | cons prints record others ih =>
    obtain ⟨channels, -, rfl⟩ := record_eq record
    rw [List.map_cons, List.map_cons, List.map_cons, ih]

theorem setEvents_of_chain (h : exchange.Chain tables done tables') :
    (done.map Prod.snd).map (fun c => setEvent c.device c.configured) =
      done.map fun e => exchange.event e.1 := by
  calc (done.map Prod.snd).map (fun c => setEvent c.device c.configured)
    _ = ((done.map Prod.snd).map fun c => (c.device, c.configured)).map
          fun target => setEvent target.1 target.2 := by simp
    _ = (done.map Prod.fst).map fun target => setEvent target.1 target.2 := by
      rw [targets_of_chain h]
    _ = done.map fun e => exchange.event e.1 := by
      rw [List.map_map]
      rfl

theorem configure_eq (devices : List Device) (queues : Option (List (Dict UInt32))) :
    configure devices queues =
      notebook.collect (NotingM.forEach exchange.change (targets devices queues)) := by
  rw [← change_eq]
  rfl

/-- What was examined is what the tool takes. -/
theorem of_mem_targets {devices : List Device} (hw : ∀ d ∈ devices, IsWord d.name)
    {queues : Option (List (Dict UInt32))} (hq : (Tuning.queueFindings queues).isValid = true)
    {target : Device × Dict UInt32} (h : target ∈ targets devices queues) :
    IsWord target.1.name ∧ IsCounts target.2 := by
  obtain ⟨hdevice, hcounts⟩ := List.of_mem_zip (List.mem_filter.1 h).1
  exact ⟨hw target.1 hdevice, Tuning.isValid_queueFindings_iff.1 hq target.2 hcounts⟩

/-- The command that sets a device back names types that were set and had a number, each with this
number, and nothing else. -/
structure SetsBack (c : QueueChange) : Prop where
  args : words (setCommand c.device c.restoreCounts) =
    ["ethtool", "-L", c.device.name] ++ countArgs c.restoreCounts
  types : ∀ e ∈ c.restoreCounts.entries,
    e.1 ∈ c.configured.keys ∧ c.previous.get? e.1 = some (some e.2)

/-- Whatever fails while numbers of queues are set, the devices that were changed are set back in the
reverse order, each by the types that were set and had a number. Where nothing fails on the way back,
every number is what it was before. -/
theorem numbers_come_back {b : Bench} (hb : b.Obeys tool tables) {devices : List Device}
    (hw : ∀ d ∈ devices, IsWord d.name) {queues : Option (List (Dict UInt32))}
    (hq : (Tuning.queueFindings queues).isValid = true) {l : Ledger}
    (hl : l.contains key = false) :
    let configured := configure devices queues (b, l)
    let recorded := (configured.2.2.queues? key).getD []
    ∃ made, recorded.map (fun c => (c.device, c.configured)) <+: targets devices queues ∧
      (configured.1 = .ok () →
        recorded.map (fun c => (c.device, c.configured)) = targets devices queues) ∧
      configured.2.1 = b.after made ∧
      b.successes Event.isChange made =
        (recorded.map fun c => setEvent c.device c.configured).reverse ∧
      (restore configured.2).2.1 = (b.after made).after (restoreEvents recorded) ∧
      (∀ c ∈ recorded, SetsBack c) ∧
      ((b.after made).successes (fun _ => true) (restoreEvents recorded) =
          restoreEvents recorded →
        Regains tables (b.track tool tables (restoreEvents recorded ++ made))) := by
  obtain ⟨made, done, hrun, hbeginning, hall, hsuccesses, hchain⟩ :=
    exchange.changes_chain hb (fun target htarget => (of_mem_targets hw hq htarget).1) []
  obtain ⟨hresult, hbench, hrecorded, hrestore⟩ :=
    Notebook.undo_collect notebook rfl (Ledger.queues?_eq · key) (fun _ => rfl) undo_eq_command
      hl hrun
  have hnames : ∀ e ∈ done, IsWord e.1.1.name ∧ IsCounts e.1.2 := by
    intro e he
    exact of_mem_targets hw hq (hbeginning.subset (List.mem_map_of_mem he))
  have hdone := targets_of_chain hchain
  rw [List.nil_append] at hrecorded hrestore
  rw [restoreEvents_eq] at hrestore
  dsimp only
  rw [configure_eq, show (Ledger.queues? _ key).getD [] = done.map Prod.snd from hrecorded, hdone]
  refine ⟨made, hbeginning, ?_, hbench, ?_, ?_, ?_, ?_⟩
  · intro hok
    exact hall (hresult ▸ hok)
  · rw [hsuccesses, setEvents_of_chain hchain]
  · rw [restore_eq]
    exact hrestore
  · intro c hc
    have htarget : (c.device, c.configured) ∈ done.map Prod.fst :=
      hdone ▸ List.mem_map_of_mem hc
    obtain ⟨hd, hcounts⟩ := of_mem_targets hw hq (hbeginning.subset htarget)
    exact ⟨words_setCommand hd (isCounts_restoreCounts hcounts), fun e => of_mem_restoreCounts⟩
  · intro hworks
    rw [Bench.track_append, Bench.track_of_successes hworks]
    exact regains_of_chain hchain hnames fun place type n hn => hn

/-- A device that comes twice with types in common, one that is left alone, and one that cannot be
looked at. -/
def sampleDevices : List Device := ["eth0", "eth1", "eth0", "eth2"].map sampleDevice

def sampleQueues : Option (List (Dict UInt32)) :=
  some ([[("combined", 8), ("other", 2)], [], [("combined", 4), ("rx", 2)], [("tx", 1)]].map
    Dict.ofList)

def sampleTables : Place → ChannelTable
  | _, .rx => some 4
  | _, .tx => some 4
  | _, .other => none
  | _, .combined => some 16

/-- A host with numbers of queues on which one device does not show its own. -/
def sampleBench : Bench :=
  tool.bench sampleTables (fun _ _ command => command = "ethtool -l eth2")
    fun name table => Report.Channels.text name (fun _ => "\t\t") (fun _ => some 32) table

theorem sampleBench_obeys : sampleBench.Obeys tool sampleTables := by
  apply Tool.bench_obeys (P := fun _ => True)
  · exact fun _ => trivial
  · exact fun _ _ _ _ _ => trivial
  · intro name table _
    have hgap : IsGap "\t\t" := by decide
    exact ⟨fun _ => "\t\t", fun _ => some 32, fun _ => hgap, rfl⟩
  · intro name name' h
    have hcommand : "ethtool -l " ++ name = "ethtool -l " ++ name' := h
    apply String.toList_injective
    simpa using congrArg String.toList hcommand
  · intro name hname
    have hshow := words_showCommand name
    rw [Text.words_of_isWord hname] at hshow
    exact hshow ▸ by simp

/-- The second change of a device is set back to what the first left, and then the first to what
there was before, where one type is out of use. -/
theorem numbers_come_back_on_repeated_device :
    sampleBench.Obeys tool sampleTables ∧ (∀ d ∈ sampleDevices, IsWord d.name) ∧
    (Tuning.queueFindings sampleQueues).isValid = true ∧
    (Register.empty : Ledger).contains key = false ∧
    let configured := configure sampleDevices sampleQueues (sampleBench, .empty)
    let back := [setEvent (sampleDevice "eth0") (.ofList [("combined", 16)]),
      setEvent (sampleDevice "eth0") (.ofList [("combined", 8), ("rx", 4)])]
    ∃ made, configured.1 ≠ .ok () ∧ configured.2.1 = sampleBench.after made ∧
      (restore configured.2).2.1 = (sampleBench.after made).after back ∧
      Regains sampleTables (sampleBench.track tool sampleTables (back ++ made)) := by
  have hnames : ∀ d ∈ sampleDevices, IsWord d.name := by decide
  have hvalid : (Tuning.queueFindings sampleQueues).isValid = true := by decide +kernel
  obtain ⟨made, -, -, hmade, -, hrestore, -, hregains⟩ :=
    numbers_come_back sampleBench_obeys hnames hvalid
      (rfl : (Register.empty : Ledger).contains key = false)
  have hrun : (configure sampleDevices sampleQueues (sampleBench, .empty)).1 ≠ .ok () ∧
      restoreEvents (((configure sampleDevices sampleQueues
        (sampleBench, .empty)).2.2.queues? key).getD []) =
          [setEvent (sampleDevice "eth0") (.ofList [("combined", 16)]),
            setEvent (sampleDevice "eth0") (.ofList [("combined", 8), ("rx", 4)])] ∧
      (configure sampleDevices sampleQueues (sampleBench, .empty)).2.1.successes (fun _ => true)
        [setEvent (sampleDevice "eth0") (.ofList [("combined", 16)]),
          setEvent (sampleDevice "eth0") (.ofList [("combined", 8), ("rx", 4)])] =
        [setEvent (sampleDevice "eth0") (.ofList [("combined", 16)]),
          setEvent (sampleDevice "eth0") (.ofList [("combined", 8), ("rx", 4)])] := by
    decide +kernel
  obtain ⟨hfault, hback, hworks⟩ := hrun
  rw [hback] at hrestore hregains
  rw [hmade] at hworks
  exact ⟨sampleBench_obeys, hnames, hvalid, rfl, made, hfault, hmade, hrestore, hregains hworks⟩

end Layer.Queues

end NicTuning
