import NicTuning.Proofs.Restoring
import NicTuning.Proofs.Words

/-!
# Tools that keep what they show

A tool keeps a state of each device on each host, shows it, and changes it by commands that either
succeed or change nothing. The states at any time are a function of the states at the start and of
the commands that succeeded since.

Main statement: a layer that looks at one device after the other and then changes it records of
each device what it showed right before its change, and undoing the layer runs one command for each
record that asks for one, the last record first, whatever becomes of these commands.
-/
namespace NicTuning

/-- Where a device is: the address that its commands are run at, and its name there. -/
abbrev Place := String × String

def Device.place (d : Device) : Place := (d.netns.address, d.name)

/-- A tool shows a state of the device with a name, and its commands change the states at the
address that they are run at. -/
structure Tool (α : Type) where
  showCommand : String → String
  Prints : String → α → String → Prop
  effect : String → String → (Place → α) → Place → α

/-- What an event that did what it was meant to do makes of the states. -/
def Tool.apply {α : Type} (t : Tool α) : Event → (Place → α) → Place → α
  | .ran address command, s => t.effect address command s
  | _, s => s

namespace Bench

variable {α : Type} (b : Bench) (t : Tool α) (s : Place → α)

/-- The states after some events, of which the newest comes first. -/
def track (events : List Event) : Place → α :=
  (b.successes (fun _ => true) events).foldr t.apply s

/-- Whatever has happened, the tool shows the states that have come of it. -/
def Obeys : Prop :=
  ∀ events (h : Host) name output, Text.IsWord name →
    (b.after events).reply h (t.showCommand name) = .ok output →
    t.Prints name (b.track t s events (h.address, name)) output.stdout

theorem track_append (newer older : List Event) :
    b.track t s (newer ++ older) = (b.after older).track t (b.track t s older) newer := by
  unfold track
  rw [successes_append, List.foldr_append]

theorem track_ran (address command : String) : b.track t s [.ran address command] =
    if b.succeeds address command then t.effect address command s else s := by
  unfold track successes
  simp only [Bool.true_and, after_nil, accomplishes, successes]
  split <;> rfl

variable {b t s}

theorem Obeys.after (h : b.Obeys t s) (events : List Event) :
    (b.after events).Obeys t (b.track t s events) := by
  intro newer host name output hname hr
  rw [after_after] at hr
  rw [← track_append]
  exact h _ host name output hname hr

/-- Where nothing failed, the states are those that all the events together make. -/
theorem track_of_successes {events : List Event}
    (h : b.successes (fun _ => true) events = events) :
    b.track t s events = events.foldr t.apply s := by
  unfold track
  rw [h]

end Bench

/-! ## A bench for a tool -/

/-- A device with a name on the host of a sample bench. -/
def sampleDevice (name : String) : Device :=
  ⟨name, ⟨"server", "server"⟩, ⟨"server", "server"⟩, none, .commands⟩

namespace Tool

variable {α : Type} (t : Tool α) (start : Place → α) (refuses : List Event → String → String → Bool)

/-- The states after some events on hosts that refuse some commands and obey all others. -/
def states : List Event → Place → α
  | [] => start
  | .ran address command :: earlier =>
    if refuses earlier address command then states earlier
    else t.effect address command (states earlier)
  | _ :: earlier => states earlier

/-- The device that a command is to show, which is one of its words. -/
def shown? (command : String) : Option String :=
  (Text.words command).find? fun name => t.showCommand name = command

/-- A bench of hosts that refuse some commands and obey all others. -/
def bench (print : String → α → String) : Bench where
  answer history address command :=
    if refuses history address command then .ok (.failed 1 "")
    else .ok (.ok ((t.shown? command).elim "" fun name =>
      print name (t.states start refuses history (address, name))))
  memory := fun _ => default
  journal := []

variable {t start refuses} {print : String → α → String}

theorem succeeds_bench (earlier : List Event) (address command : String) :
    ((t.bench start refuses print).after earlier).succeeds address command =
      !refuses earlier address command := by
  unfold Bench.succeeds bench Bench.after
  dsimp only
  rw [List.append_nil]
  cases refuses earlier address command <;> rfl

/-- The states of the bench are those that the tool keeps. -/
theorem track_bench (events : List Event) :
    (t.bench start refuses print).track t start events = t.states start refuses events := by
  induction events with
  | nil => rfl
  | cons e earlier ih =>
    rw [← List.singleton_append, Bench.track_append, ih]
    cases e with
    | ran address command =>
      rw [Bench.track_ran, succeeds_bench, List.singleton_append, states]
      cases refuses earlier address command <;> rfl
    | wrote address name value done => cases done <;> rfl
    | _ => rfl

/-- The hosts obey the tool if all states that come about can be printed. -/
theorem bench_obeys {P : α → Prop} (hstart : ∀ place, P (start place))
    (heffect : ∀ address command s, (∀ place, P (s place)) →
      ∀ place, P (t.effect address command s place))
    (hprint : ∀ name s, P s → t.Prints name s (print name s))
    (hinj : ∀ name name', t.showCommand name = t.showCommand name' → name = name')
    (hword : ∀ name, Text.IsWord name → name ∈ Text.words (t.showCommand name)) :
    (t.bench start refuses print).Obeys t start := by
  have hshown : ∀ name, Text.IsWord name → t.shown? (t.showCommand name) = some name := by
    intro name hname
    unfold shown?
    cases hfind : (Text.words (t.showCommand name)).find? fun n =>
        t.showCommand n = t.showCommand name with
    | none =>
      have hnot := List.find?_eq_none.1 hfind name (hword name hname)
      simp at hnot
    | some found =>
      have hsame := List.find?_some hfind
      rw [hinj found name (by simpa using hsame)]
  have hstates : ∀ events place, P (t.states start refuses events place) := by
    intro events
    induction events with
    | nil => exact hstart
    | cons e earlier ih =>
      cases e with
      | ran address command =>
        rw [states]
        split
        · exact ih
        · exact heffect address command _ ih
      | _ => exact ih
  intro events h name output hname hr
  rw [track_bench]
  unfold Bench.reply bench Bench.after at hr
  dsimp only at hr
  rw [List.append_nil, hshown name hname] at hr
  split at hr
  · cases hr
  · have hchecked : Output.check (.ok _) h.id (t.showCommand name) = .ok output := hr
    rw [← (Output.check_eq_ok_iff.1 hchecked).2]
    exact hprint name _ (hstates events _)

end Tool

/-! ## Changes after a look -/

/-- A way to change devices: a tool shows the state of a device, what it printed is recorded in some
form, and a command changes the device. -/
structure Exchange (α τ κ : Type) where
  tool : Tool α
  device : τ → Device
  command : τ → String
  record : τ → String → Except Fault κ
  effect_show : ∀ address name s, tool.effect address (tool.showCommand name) s = s
  isChange_show : ∀ name, Command.isChange (tool.showCommand name) = false
  isChange_command : ∀ target, Command.isChange (command target) = true

namespace Exchange

variable {α τ κ : Type} (x : Exchange α τ κ)

/-- Changes a device and records what it showed before. -/
def change (target : τ) : NotingM (List κ) Unit := do
  let d := x.device target
  let c ← x.record target (← d.query (x.tool.showCommand d.name))
  d.netns.command (x.command target)
  NotingM.note (· ++ [c])

/-- The look at a device, as an event. -/
def look (target : τ) : Event :=
  .ran (x.device target).netns.address (x.tool.showCommand (x.device target).name)

/-- The command by which a device is changed, as an event. -/
def event (target : τ) : Event := .ran (x.device target).netns.address (x.command target)

/-- Changes that were made one after the other. Each records what the device printed in the state
that the changes before it had left. -/
inductive Chain : (Place → α) → List (τ × κ) → (Place → α) → Prop
  | nil {s} : Chain s [] s
  | cons {s s' target c output done}
      (prints : x.tool.Prints (x.device target).name (s (x.device target).place) output)
      (record : x.record target output = .ok c)
      (others : Chain (x.tool.apply (x.event target) s) done s') : Chain s ((target, c) :: done) s'

variable {x}

/-- A look at a device changes nothing. -/
theorem track_look (target : τ) (b : Bench) (s : Place → α) :
    b.track x.tool s [x.look target] = s := by
  unfold look
  rw [Bench.track_ran, x.effect_show, ite_self]

theorem successes_look (target : τ) (b : Bench) :
    b.successes Event.isChange [x.look target] = [] := by
  apply Bench.successes_eq_nil
  intro e he
  rw [List.mem_singleton.1 he]
  exact x.isChange_show _

/-- The command after a look, if it succeeds, is a change that took effect. -/
theorem successes_event (target : τ) (b : Bench) :
    b.successes Event.isChange [x.event target, x.look target] =
      if (b.after [x.look target]).accomplishes (x.event target) then [x.event target] else [] := by
  have hchange : (x.event target).isChange = true := x.isChange_command target
  rw [← List.singleton_append, Bench.successes_append, successes_look, List.append_nil]
  simp only [Bench.successes, hchange, Bool.true_and, Bench.after_nil]

theorem track_event (target : τ) (b : Bench) (s : Place → α) :
    b.track x.tool s [x.event target, x.look target] =
      if (b.after [x.look target]).accomplishes (x.event target) then
        x.tool.apply (x.event target) s
      else s := by
  rw [← List.singleton_append, Bench.track_append, track_look]
  exact Bench.track_ran ..

/-- What may become of a device: nothing was changed, or it was changed right after a look. -/
theorem change_cases (target : τ) (b : Bench) (notes : List κ) :
    (∃ fault events, x.change target (b, notes) = (.error fault, b.after events, notes) ∧
      b.successes Event.isChange events = [] ∧ ∀ s, b.track x.tool s events = s) ∨
    ∃ c output events, x.change target (b, notes) = (.ok (), b.after events, notes ++ [c]) ∧
      b.reply (x.device target).netns (x.tool.showCommand (x.device target).name) = .ok output ∧
      x.record target output.stdout = .ok c ∧
      b.successes Event.isChange events = [x.event target] ∧
      ∀ s, b.track x.tool s events = x.tool.apply (x.event target) s := by
  have hlook := x.successes_look target b
  have htrack := x.track_look target b
  unfold change
  rw [NotingM.lift_bind_apply, Device.query_apply]
  cases hr : b.reply (x.device target).netns (x.tool.showCommand (x.device target).name) with
  | error fault => exact .inl ⟨fault, _, rfl, hlook, htrack⟩
  | ok output =>
    simp only [Except.map]
    rw [ActionM.bind_apply, ActionM.liftExcept_apply]
    cases hc : x.record target output.stdout with
    | error fault => exact .inl ⟨fault, _, rfl, hlook, htrack⟩
    | ok c =>
      -- What the look and the command come to is decided by whether the command succeeds.
      have hsuccesses := x.successes_event target b
      have hevents := x.track_event target b
      dsimp only
      rw [NotingM.lift_bind_apply, Host.command_apply, Bench.after_after]
      rcases hw : (b.after [x.look target]).reply (x.device target).netns (x.command target)
        with fault | printed
      · have hfails : (b.after [x.look target]).accomplishes (x.event target) = false :=
          Bench.not_succeeds_of_reply hw
        rw [hfails] at hsuccesses hevents
        rw [look] at hw
        rw [hw]
        exact .inl ⟨fault, _, rfl, hsuccesses, hevents⟩
      · have hworks : (b.after [x.look target]).accomplishes (x.event target) = true :=
          Bench.succeeds_of_reply hw
        rw [hworks] at hsuccesses hevents
        rw [look] at hw
        rw [hw]
        exact .inr ⟨c, output, _, rfl, rfl, hc, hsuccesses, hevents⟩

/-- Changing one device after the other makes a chain of changes to the first of them, up to a
fault. -/
theorem changes_chain {s : Place → α} {b : Bench} (hb : b.Obeys x.tool s) {targets : List τ}
    (hw : ∀ target ∈ targets, Text.IsWord (x.device target).name) (notes : List κ) :
    ∃ events done, (NotingM.forEach x.change targets (b, notes)).2 =
        (b.after events, notes ++ done.map Prod.snd) ∧
      done.map Prod.fst <+: targets ∧
      ((NotingM.forEach x.change targets (b, notes)).1 = .ok () → done.map Prod.fst = targets) ∧
      b.successes Event.isChange events = (done.map fun e => x.event e.1).reverse ∧
      x.Chain s done (b.track x.tool s events) := by
  -- Every later target meets the bench, the states and the notes that the earlier ones left.
  induction targets generalizing b s notes with
  | nil =>
    refine ⟨[], [], ?_, List.prefix_rfl, fun _ => rfl, rfl, .nil⟩
    rw [List.map_nil, List.append_nil]
    rfl
  | cons target rest ih =>
    have hname := hw target List.mem_cons_self
    have hrest := fun t ht => hw t (List.mem_cons_of_mem target ht)
    unfold NotingM.forEach
    rw [ActionM.bind_apply]
    rcases x.change_cases target b notes with
      ⟨fault, events, hrun, hs, htrack⟩ | ⟨c, output, older, hrun, hshown, hc, hs, htrack⟩
    · rw [hrun]
      refine ⟨events, [], by simp, List.nil_prefix, ?_, hs, ?_⟩
      · intro hok
        cases hok
      · rw [htrack]
        exact .nil
    · rw [hrun]
      dsimp only
      have hprints := hb [] _ _ output hname hshown
      obtain ⟨newer, done, hresult, hbeginning, hall, hsuccesses, hchain⟩ :=
        ih (hb.after older) hrest (notes ++ [c])
      refine ⟨newer ++ older, (target, c) :: done, ?_, ?_, ?_, ?_, ?_⟩
      · rw [hresult, Bench.after_after]
        simp
      · exact List.cons_prefix_cons.2 ⟨rfl, hbeginning⟩
      · intro hok
        rw [List.map_cons, hall hok]
      · rw [Bench.successes_append, hsuccesses, hs]
        simp
      · rw [Bench.track_append, htrack]
        rw [htrack] at hchain
        exact .cons hprints hc hchain

end Exchange

/-! ## Records that are undone -/

/-- Trying to undo some records runs the command of every record that has one. -/
theorem tryEach_commands {κ : Type} {undo : κ → BenchM Unit} {command? : κ → Option (Host × String)}
    (h : ∀ c, undo c = (command? c).elim (pure ()) fun p => p.1.command p.2) (cs : List κ)
    (b : Bench) : (tryEach undo cs b).2 =
      b.after ((cs.filterMap command?).map fun p => .ran p.1.address p.2).reverse := by
  induction cs generalizing b with
  | nil => rfl
  | cons c cs ih =>
    rw [tryEach_cons, h c, List.filterMap_cons]
    cases command? c with
    | none => exact ih b
    | some p =>
      dsimp only [Option.elim_some]
      rw [ih, Host.command_apply, Bench.after_after, List.map_cons, List.reverse_cons]

namespace Notebook

variable {κ : Type} {command? : κ → Option (Host × String)} {undo : κ → BenchM Unit}

/-- What is noted and entered is found in the ledger, and undoing it runs its commands, the last
record first. -/
theorem undo_collect (n : Notebook (List κ)) {look : Ledger → String → Option (List κ)}
    {view : Entry → Option (List κ)} {act : NotingM (List κ) Unit} {b b' : Bench} {l : Ledger}
    {notes : List κ} (hempty : n.isEmpty = List.isEmpty)
    (hlook : ∀ l : Ledger, look l n.key = (l.get? n.key).bind view)
    (hview : ∀ notes, view (n.entry notes) = some notes)
    (hundo : ∀ c, undo c = (command? c).elim (pure ()) fun p => p.1.command p.2)
    (hl : l.contains n.key = false) (hact : (act (b, n.start)).2 = (b', notes)) :
    (n.collect act (b, l)).1 = (act (b, n.start)).1 ∧ (n.collect act (b, l)).2.1 = b' ∧
      (look (n.collect act (b, l)).2.2 n.key).getD [] = notes ∧
      (Layer.restoreTaken look n.key (fun cs => tryEach undo cs.reverse)
        (n.collect act (b, l)).2).2.1 =
        b'.after ((notes.filterMap command?).map fun p => .ran p.1.address p.2) := by
  have hget := Register.get?_eq_none hl
  rw [Notebook.collect_apply, hact, hempty]
  cases notes with
  | nil =>
    simp only [List.isEmpty_nil, if_true]
    rw [Layer.restoreTaken_apply, hlook, hget, Option.bind_none]
    simp
  | cons c cs =>
    have hadd : l.add n.key (n.entry (c :: cs)) = .ok (l.insert n.key (n.entry (c :: cs))) := by
      unfold Ledger.add
      rw [hl]
      rfl
    have hfound : look (l.insert n.key (n.entry (c :: cs))) n.key = some (c :: cs) := by
      rw [hlook, Register.get?_insert, if_pos rfl, Option.bind_some, hview]
    simp only [List.isEmpty_cons, Bool.false_eq_true, if_false, hadd]
    rw [Layer.restoreTaken_apply, hfound]
    dsimp only
    rw [tryEach_commands hundo, List.filterMap_reverse, List.map_reverse, List.reverse_reverse]
    exact ⟨trivial, trivial, rfl, rfl⟩

end Notebook

end NicTuning
