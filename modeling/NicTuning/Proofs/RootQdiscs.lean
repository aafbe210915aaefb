import NicTuning.Proofs.DeviceTools
import NicTuning.Proofs.PrintedLines

/-!
# Root queueing disciplines come back

The first change of a device records the discipline that it had, every later one records the
discipline that the first put in place. So of all its records only the first can ask for a removal.

Main statement: on hosts that keep a root discipline for each device, configuring and then restoring
removes the discipline once from each device that was changed and lacked it before, in the reverse
order of the first changes, and goes on where a removal fails.
-/
namespace NicTuning

open Text (IsWord words)

theorem Ledger.qdiscs?_eq (l : Ledger) (key : String) :
    l.qdiscs? key = (l.get? key).bind Entry.qdiscs? := by
  unfold Ledger.qdiscs?
  cases l.get? key with
  | none => rfl
  | some entry => cases entry <;> rfl

namespace Report

/-- What is printed of a root discipline of a kind: a line that begins with it, or nothing. -/
def PrintsRoot : Option String → String → Prop
  | none, output => output = ""
  | some kind, output => IsWord kind ∧ ∃ more, output = "qdisc " ++ kind ++ " " ++ more

/-- The kind that is printed is read. -/
theorem rootQdisc?_of_prints {kind : Option String} {output : String}
    (h : PrintsRoot kind output) : rootQdisc? output = kind := by
  cases kind with
  | none =>
    rw [show output = "" from h]
    rfl
  | some kind =>
    obtain ⟨hkind, more, rfl⟩ := h
    have hline : Text.IsLine ("qdisc " ++ kind ++ " ") := by
      unfold Text.IsLine
      rw [String.toList_append, String.toList_append, List.getLast?_append]
      simp [Text.newline_not_mem_of_isWord hkind]
    obtain ⟨rest, hrest⟩ := Text.head?_lines hline (by simp) more
    have hwords : words ("qdisc " ++ kind ++ " " ++ rest) = "qdisc" :: kind :: words rest := by
      rw [Text.words_append_space, show "qdisc " = "qdisc" ++ " " from rfl,
        Text.words_append_space, Text.words_of_isWord hkind]
      rfl
    simp only [rootQdisc?, hrest, Option.map_some, hwords]

end Report

namespace Layer.Qdisc

def replaceWords (name : String) : List String :=
  ["tc", "qdisc", "replace", "dev", name, "root", "mq"]

def deleteWords (name : String) : List String := ["tc", "qdisc", "del", "dev", name, "root"]

theorem replaceWords_inj {name name' : String} :
    replaceWords name = replaceWords name' ↔ name = name' := by
  simp only [replaceWords, List.cons.injEq, true_and, and_true]

theorem deleteWords_inj {name name' : String} :
    deleteWords name = deleteWords name' ↔ name = name' := by
  simp only [deleteWords, List.cons.injEq, true_and, and_true]

/-- The third word tells what a command does. -/
theorem ne_of_third {ws ws' : List String} (h : ws[2]? ≠ ws'[2]?) : ws ≠ ws' := by
  rintro rfl
  exact h rfl

/-- The tool that shows and changes root disciplines. Removing one leaves the default of the
device. -/
def tool (fallback : Place → Option String) : Tool (Option String) where
  showCommand name := "tc qdisc show dev " ++ name ++ " root"
  Prints _ := Report.PrintsRoot
  effect address command kinds place :=
    if place.1 = address ∧ words command = replaceWords place.2 then some "mq"
    else if place.1 = address ∧ words command = deleteWords place.2 then fallback place
    else kinds place

theorem effect_eq (fallback : Place → Option String) (address command : String)
    (kinds : Place → Option String) (place : Place) :
    (tool fallback).effect address command kinds place =
      if place.1 = address ∧ words command = replaceWords place.2 then some "mq"
      else if place.1 = address ∧ words command = deleteWords place.2 then fallback place
      else kinds place := rfl

theorem words_replaceCommand {d : Device} (h : IsWord d.name) :
    words (replaceCommand d) = replaceWords d.name := by
  have hcommand : replaceCommand d = " ".intercalate (replaceWords d.name) := by
    unfold replaceCommand
    apply String.toList_injective
    simp [-String.reduceAppend, replaceWords]
  have hwords : ∀ w ∈ ["tc", "qdisc", "replace", "dev", "root", "mq"], IsWord w := by decide
  rw [hcommand, Text.words_intercalate_iff]
  simp_all [replaceWords]

/-- The removal of the root discipline at a place, as an event. -/
def deleteEvent (place : Place) : Event :=
  .ran place.1 ("tc qdisc del dev " ++ place.2 ++ " root")

theorem words_delete {name : String} (h : IsWord name) :
    words ("tc qdisc del dev " ++ name ++ " root") = deleteWords name := by
  have hcommand : "tc qdisc del dev " ++ name ++ " root" = " ".intercalate (deleteWords name) := by
    apply String.toList_injective
    simp [-String.reduceAppend, deleteWords]
  have hwords : ∀ w ∈ ["tc", "qdisc", "del", "dev", "root"], IsWord w := by decide
  rw [hcommand, Text.words_intercalate_iff]
  simp_all [deleteWords]

theorem words_showCommand (name : String) :
    words ("tc qdisc show dev " ++ name ++ " root") =
      ["tc", "qdisc", "show", "dev"] ++ (words name ++ ["root"]) := by
  have hcommand : "tc qdisc show dev " ++ name ++ " root" =
      " ".intercalate ["tc", "qdisc", "show", "dev"] ++ " " ++ (name ++ " " ++ "root") := by
    apply String.toList_injective
    simp [-String.reduceAppend]
  rw [hcommand, Text.words_append_space, Text.words_append_space,
    Text.words_intercalate_iff.2 (by decide), Text.words_of_isWord (by decide : IsWord "root")]

theorem effect_show (fallback : Place → Option String) (address name : String)
    (kinds : Place → Option String) :
    (tool fallback).effect address ("tc qdisc show dev " ++ name ++ " root") kinds = kinds := by
  funext place
  rw [effect_eq, words_showCommand, if_neg, if_neg]
  · rintro ⟨-, h⟩
    exact ne_of_third (by simp [deleteWords]) h
  · rintro ⟨-, h⟩
    exact ne_of_third (by simp [replaceWords]) h

theorem effect_replace (fallback : Place → Option String) {d : Device} (h : IsWord d.name)
    (kinds : Place → Option String) (place : Place) :
    (tool fallback).effect d.netns.address (replaceCommand d) kinds place =
      if place = d.place then some "mq" else kinds place := by
  rw [effect_eq, words_replaceCommand h]
  by_cases hplace : place = d.place
  · subst hplace
    rw [if_pos rfl, if_pos ⟨rfl, rfl⟩]
  · rw [if_neg hplace, if_neg, if_neg]
    · rintro ⟨-, hwords⟩
      exact ne_of_third (by simp [replaceWords, deleteWords]) hwords
    · rintro ⟨haddress, hwords⟩
      exact hplace (Prod.ext haddress (replaceWords_inj.1 hwords).symm)

theorem apply_delete (fallback : Place → Option String) {removed : Place}
    (h : IsWord removed.2) (kinds : Place → Option String) (place : Place) :
    (tool fallback).apply (deleteEvent removed) kinds place =
      if place = removed then fallback place else kinds place := by
  unfold deleteEvent Tool.apply
  dsimp only
  rw [effect_eq, words_delete h, if_neg]
  · by_cases hplace : place = removed
    · subst hplace
      rw [if_pos rfl, if_pos ⟨rfl, rfl⟩]
    · rw [if_neg hplace, if_neg]
      rintro ⟨haddress, hwords⟩
      exact hplace (Prod.ext haddress (deleteWords_inj.1 hwords).symm)
  · rintro ⟨-, hwords⟩
    exact ne_of_third (by simp [replaceWords, deleteWords]) hwords

/-- Each device is shown and then gets the discipline. -/
def exchange (fallback : Place → Option String) : Exchange (Option String) Device QdiscChange where
  tool := tool fallback
  device := id
  command := replaceCommand
  record d output := .ok ⟨d, Report.rootQdisc? output⟩
  effect_show := effect_show fallback
  isChange_show := by
    intro name
    apply Command.isChange_of_touches
    exact Command.touches_of_begins (Text.begins_append (Text.begins_front _ _) _) (by decide)
  isChange_command := Command.isChange_replaceCommand

theorem change_eq (fallback : Place → Option String) : change = (exchange fallback).change := by
  funext d
  rfl

variable {fallback kinds kinds' : Place → Option String} {done : List (Device × QdiscChange)}

/-- The command that undoes a change, if there is one. -/
def undoCommand? (c : QdiscChange) : Option (Host × String) :=
  if c.previousKind = some "mq" then none else some (c.device.netns, deleteCommand c.device)

theorem undo_eq_command (c : QdiscChange) :
    undo c = (undoCommand? c).elim (pure ()) fun p => p.1.command p.2 := by
  unfold undo undoCommand?
  split <;> rfl

/-- Devices that were changed have the discipline, the others what they had. -/
theorem kinds_of_chain (h : (exchange fallback).Chain kinds done kinds')
    (hw : ∀ e ∈ done, IsWord e.1.name) (place : Place) :
    kinds' place = if place ∈ done.map (·.1.place) then some "mq" else kinds place := by
  induction h with
  | nil => simp
  | @cons kinds kinds' d c output done prints record others ih =>
    have hd := hw (d, c) List.mem_cons_self
    rw [ih fun e he => hw e (List.mem_cons_of_mem _ he)]
    have hkinds : (exchange fallback).tool.apply ((exchange fallback).event d) kinds place =
        if place = d.place then some "mq" else kinds place := effect_replace fallback hd kinds place
    rw [hkinds, List.map_cons]
    by_cases hmem : place ∈ done.map (·.1.place)
    · simp [hmem]
    · simp [hmem]

/-- A device is deleted by the record of its first change alone: the later records show the
discipline that the first change put in place. -/
theorem commands_of_chain (h : (exchange fallback).Chain kinds done kinds')
    (hw : ∀ e ∈ done, IsWord e.1.name) :
    ((done.map Prod.snd).filterMap undoCommand?).map (fun p => Event.ran p.1.address p.2) =
      ((done.map (·.1.place)).filter (kinds · ≠ some "mq")).eraseDups.map deleteEvent := by
  induction h with
  | nil => rfl
  | @cons kinds kinds' d c output done prints record others ih =>
    have hd := hw (d, c) List.mem_cons_self
    have hrest := ih fun e he => hw e (List.mem_cons_of_mem _ he)
    obtain rfl : ⟨d, Report.rootQdisc? output⟩ = c := Except.ok.inj record
    have hprevious : Report.rootQdisc? output = kinds d.place := Report.rootQdisc?_of_prints prints
    have hkinds : (exchange fallback).tool.apply ((exchange fallback).event d) kinds =
        fun place => if place = d.place then some "mq" else kinds place :=
      funext (effect_replace fallback hd kinds)
    -- After the change the device has the discipline, so no later record asks for its removal.
    have hfilter : ∀ places : List Place,
        places.filter (fun place => (if place = d.place then some "mq" else kinds place) ≠ some "mq") =
          (places.filter (kinds · ≠ some "mq")).filter (fun place => !place == d.place) := by
      intro places
      rw [List.filter_filter]
      congr 1
      funext place
      by_cases hplace : place = d.place <;> simp [hplace]
    rw [hkinds, hfilter] at hrest
    rw [List.map_cons, List.map_cons]
    by_cases hmq : kinds d.place = some "mq"
    -- The device had the discipline before: it is removed by no record, the first one included.
    · have hnone : undoCommand? ⟨d, Report.rootQdisc? output⟩ = none := if_pos (hprevious.trans hmq)
      have hother : ∀ place ∈ (done.map (·.1.place)).filter (kinds · ≠ some "mq"),
          (!place == d.place) = true := by
        intro place hplace
        have hkind := (List.mem_filter.1 hplace).2
        by_contra hsame
        simp_all
      rw [List.filterMap_cons_none hnone, hrest, List.filter_eq_self.2 hother,
        List.filter_cons_of_neg (by simp [hmq])]
    · have hsome : undoCommand? ⟨d, Report.rootQdisc? output⟩ = some (d.netns, deleteCommand d) := by
        apply if_neg
        rw [hprevious]
        exact hmq
      rw [List.filterMap_cons_some hsome, List.map_cons, hrest,
        List.filter_cons_of_pos (by simp [hmq]), List.eraseDups_cons, List.map_cons]
      rfl

/-- Removals at some places leave the defaults of these places and nothing else. -/
theorem kinds_of_deletes {places : List Place} (hw : ∀ p ∈ places, IsWord p.2) (place : Place) :
    (places.map deleteEvent).foldr (tool fallback).apply kinds place =
      if place ∈ places then fallback place else kinds place := by
  induction places with
  | nil => simp
  | cons removed places ih =>
    rw [List.map_cons, List.foldr_cons, apply_delete fallback (hw removed List.mem_cons_self),
      ih fun p hp => hw p (List.mem_cons_of_mem _ hp)]
    by_cases hsame : place = removed <;> simp [hsame]

/-- Root disciplines that were replaced are removed once for each device that lacked the discipline
before, in the reverse order in which the devices were first changed and whatever fails on the way;
where nothing fails, these devices are left with their default and all others with what they had. -/
theorem roots_removed_once {b : Bench} (hb : b.Obeys (tool fallback) kinds) {devices : List Device}
    (hw : ∀ d ∈ devices, IsWord d.name) {streams : UInt32} (hs : 1 < streams) {l : Ledger}
    (hl : l.contains key = false) :
    let configured := configure devices (some streams) (b, l)
    ∃ changed made removed, changed <+: devices ∧
      (configured.1 = .ok () → changed = devices) ∧
      configured.2.1 = b.after made ∧
      b.successes Event.isChange made =
        (changed.map fun d => .ran d.netns.address (replaceCommand d)).reverse ∧
      (restore configured.2).2.1 = (b.after made).after removed ∧
      removed =
        ((changed.map Device.place).filter (kinds · ≠ some "mq")).eraseDups.map deleteEvent ∧
      ((b.after made).successes (fun _ => true) removed = removed → ∀ place,
        b.track (tool fallback) kinds (removed ++ made) place =
          if place ∈ changed.map Device.place ∧ kinds place ≠ some "mq" then fallback place
          else kinds place) := by
  obtain ⟨made, done, hrun, hbeginning, hall, hsuccesses, hchain⟩ :=
    (exchange fallback).changes_chain hb hw []
  have hwanted : configure devices (some streams) =
      notebook.collect (NotingM.forEach (exchange fallback).change devices) :=
    if_pos (by simpa [isWanted] using hs)
  obtain ⟨hresult, hbench, -, hrestore⟩ :=
    Notebook.undo_collect notebook rfl (Ledger.qdiscs?_eq · key) (fun _ => rfl) undo_eq_command
      hl hrun
  have hnames : ∀ e ∈ done, IsWord e.1.name := by
    intro e he
    exact hw e.1 (hbeginning.subset (List.mem_map_of_mem he))
  have hplaces : (done.map Prod.fst).map Device.place = done.map (·.1.place) := by simp
  dsimp only
  rw [hwanted]
  refine ⟨done.map Prod.fst, made, _, hbeginning, ?_, hbench, ?_, ?_, rfl, ?_⟩
  · intro hok
    exact hall (hresult ▸ hok)
  · rw [hsuccesses]
    simp [exchange, Exchange.event]
  · rw [restore_eq, hplaces, ← commands_of_chain hchain hnames]
    exact hrestore
  · intro hworks place
    have hdeleted : ∀ p ∈ ((done.map (·.1.place)).filter (kinds · ≠ some "mq")).eraseDups,
        IsWord p.2 := by
      intro p hp
      obtain ⟨e, he, rfl⟩ := List.mem_map.1 (List.mem_filter.1 (List.mem_eraseDups.1 hp)).1
      exact hnames e he
    have hmade : b.track (tool fallback) kinds made place =
        if place ∈ done.map (·.1.place) then some "mq" else kinds place :=
      kinds_of_chain hchain hnames place
    rw [Bench.track_append, Bench.track_of_successes hworks, hplaces, kinds_of_deletes hdeleted,
      hmade]
    have hmem : place ∈ ((done.map (·.1.place)).filter (kinds · ≠ some "mq")).eraseDups ↔
        place ∈ done.map (·.1.place) ∧ kinds place ≠ some "mq" := by
      rw [List.mem_eraseDups, List.mem_filter, decide_eq_true_iff]
    by_cases hremoved : place ∈ done.map (·.1.place) ∧ kinds place ≠ some "mq"
    · rw [if_pos (hmem.2 hremoved), if_pos hremoved]
    · rw [if_neg (mt hmem.1 hremoved), if_neg hremoved]
      split
      · rename_i hchanged
        exact (not_not.1 fun hother => hremoved ⟨hchanged, hother⟩).symm
      · rfl

/-- A device that comes twice, one that has the discipline already, and one that refuses it. -/
def sampleDevices : List Device := ["eth0", "eth1", "eth0", "eth2"].map sampleDevice

def sampleKinds (place : Place) : Option String :=
  some (if place.2 = "eth1" then "mq" else "fq_codel")

/-- A host with queueing disciplines on which one device refuses to be changed. -/
def sampleBench : Bench :=
  (tool fun _ => some "pfifo_fast").bench sampleKinds
    (fun _ _ command => command = replaceCommand (sampleDevice "eth2"))
    fun _ kind => kind.elim "" fun kind => "qdisc " ++ kind ++ " 0: root\n"

theorem sampleBench_obeys : sampleBench.Obeys (tool fun _ => some "pfifo_fast") sampleKinds := by
  have hwords : ∀ kind ∈ ["mq", "fq_codel", "pfifo_fast"], IsWord kind := by decide
  have hword : ∀ kind ∈ ["mq", "fq_codel", "pfifo_fast"], ∀ k ∈ some kind, IsWord k := by
    simpa using hwords
  apply Tool.bench_obeys (P := fun kind => ∀ k ∈ kind, IsWord k)
  · intro place
    unfold sampleKinds
    split
    · exact hword "mq" (by simp)
    · exact hword "fq_codel" (by simp)
  · intro address command kinds hkinds place
    rw [effect_eq]
    split
    · exact hword "mq" (by simp)
    · split
      · exact hword "pfifo_fast" (by simp)
      · exact hkinds place
  · intro name kind hkind
    cases kind with
    | none => rfl
    | some kind => exact ⟨hkind kind rfl, "0: root\n", by simp [String.append_assoc]⟩
  · intro name name' h
    have hcommand : "tc qdisc show dev " ++ name ++ " root" =
        "tc qdisc show dev " ++ name' ++ " root" := h
    apply String.toList_injective
    simpa using congrArg String.toList hcommand
  · intro name hname
    have hshow := words_showCommand name
    rw [Text.words_of_isWord hname] at hshow
    exact hshow ▸ by simp

/-- A device that comes twice is given back once, although the last device could not be changed. -/
theorem roots_removed_once_on_repeated_device :
    sampleBench.Obeys (tool fun _ => some "pfifo_fast") sampleKinds ∧
    (∀ d ∈ sampleDevices, IsWord d.name) ∧ (1 : UInt32) < 2 ∧
    (Register.empty : Ledger).contains key = false ∧
    let configured := configure sampleDevices (some 2) (sampleBench, .empty)
    ∃ made, configured.1 ≠ .ok () ∧ configured.2.1 = sampleBench.after made ∧
      (restore configured.2).2.1 = (sampleBench.after made).after [deleteEvent ("server", "eth0")] ∧
      ∀ place, sampleBench.track (tool fun _ => some "pfifo_fast") sampleKinds
        (deleteEvent ("server", "eth0") :: made) place =
          if place = ("server", "eth0") then some "pfifo_fast" else sampleKinds place := by
  have hnames : ∀ d ∈ sampleDevices, IsWord d.name := by decide
  obtain ⟨changed, made, removed, hbeginning, -, hmade, hsuccesses, hremoved, rfl, hkinds⟩ :=
    roots_removed_once sampleBench_obeys hnames (by decide : (1 : UInt32) < 2)
      (rfl : (Register.empty : Ledger).contains key = false)
  have hjournal : made = (configure sampleDevices (some 2) (sampleBench, .empty)).2.1.journal := by
    rw [hmade]
    exact (List.append_nil made).symm
  have hchanged : changed = ["eth0", "eth1", "eth0"].map sampleDevice := by
    have hlength : changed.length = 3 := by
      have h := congrArg List.length hsuccesses
      rw [List.length_reverse, List.length_map, hjournal] at h
      rw [← h]
      decide +kernel
    have htake := List.prefix_iff_eq_take.1 hbeginning
    rw [hlength] at htake
    exact htake
  have hplaces : ((changed.map Device.place).filter (sampleKinds · ≠ some "mq")).eraseDups =
      [("server", "eth0")] := by
    rw [hchanged]
    decide
  have hworks : (sampleBench.after made).successes (fun _ => true)
      [deleteEvent ("server", "eth0")] = [deleteEvent ("server", "eth0")] := by
    rw [← hmade]
    decide +kernel
  rw [hplaces] at hremoved hkinds
  refine ⟨sampleBench_obeys, hnames, by decide, rfl, made, ?_, hmade, hremoved, fun place => ?_⟩
  · decide +kernel
  · have hplace : (place ∈ changed.map Device.place ∧ sampleKinds place ≠ some "mq") ↔
        place = ("server", "eth0") := by
      rw [← List.mem_singleton, ← hplaces, List.mem_eraseDups, List.mem_filter, decide_eq_true_iff]
    have hfinal := hkinds hworks place
    simp only [hplace] at hfinal
    exact hfinal

end Layer.Qdisc

end NicTuning
