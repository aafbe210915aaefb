import NicTuning.Stack

/-!
# What an action leaves in the journal

A bench only changes by what happens on it, and whatever happens is in its journal: the bench after
some events is a function of the bench before and of these events. For every operation on hosts and
devices this module names the events it causes, and `Emits` bounds the events of a whole action.
-/
namespace NicTuning

/-- An action on a state that may end with a fault. -/
abbrev ActionM (S : Type) := ExceptT Fault (StateM S)

namespace ActionM

variable {S α β : Type}

theorem bind_apply (act : ActionM S α) (next : α → ActionM S β) (s : S) :
    (act >>= next) s = match act s with
      | (.ok x, s) => next x s
      | (.error fault, s) => (.error fault, s) := by
  simp only [bind, ExceptT.bind, ExceptT.mk, StateT.bind, ExceptT.bindCont]
  rcases act s with ⟨r | r, s'⟩ <;> rfl

theorem map_apply (f : α → β) (act : ActionM S α) (s : S) :
    (f <$> act) s = ((act s).1.map f, (act s).2) := by
  simp only [Functor.map, ExceptT.map, ExceptT.mk, bind, StateT.bind]
  rcases act s with ⟨r | r, s'⟩ <;> rfl

@[simp] theorem liftExcept_apply (r : Except Fault α) (s : S) :
    (liftM r : ActionM S α) s = (r, s) := rfl

end ActionM

namespace Except

variable {ε α β : Type} {act : α → Except ε β}

/-- Computations that all succeed give the list of their values. -/
theorem mapM_eq_ok {value : α → β} {xs : List α} (h : ∀ x ∈ xs, act x = .ok (value x)) :
    xs.mapM act = .ok (xs.map value) := by
  induction xs with
  | nil => rfl
  | cons x rest ih =>
    rw [List.mapM_cons, h x (by simp), ih fun y hy => h y (by simp [hy])]
    rfl

/-- When all succeed, each value comes of one of them. -/
theorem exists_of_mem_mapM {xs : List α} {ys : List β} (h : xs.mapM act = .ok ys) {y : β}
    (hy : y ∈ ys) : ∃ x ∈ xs, act x = .ok y := by
  induction xs generalizing ys with
  | nil =>
    cases h
    cases hy
  | cons x rest ih =>
    rw [List.mapM_cons] at h
    cases hx : act x with
    | error fault =>
      rw [hx] at h
      cases h
    | ok z =>
      cases hrest : rest.mapM act with
      | error fault =>
        rw [hx, hrest] at h
        cases h
      | ok zs =>
        rw [hx, hrest] at h
        cases h
        rcases List.mem_cons.1 hy with rfl | hy
        · exact ⟨x, by simp, hx⟩
        · obtain ⟨x', hm, he⟩ := ih hrest hy
          exact ⟨x', by simp [hm], he⟩

end Except

theorem attempt_apply {α : Type} (act : BenchM α) (b : Bench) :
    attempt act b = (.ok (act b).1, (act b).2) := rfl

theorem tryEach_cons {α : Type} (act : α → BenchM Unit) (x : α) (rest : List α) (b : Bench) :
    tryEach act (x :: rest) b =
      ((act x b).1 >>= fun _ => (tryEach act rest (act x b).2).1,
        (tryEach act rest (act x b).2).2) := by
  simp only [tryEach]
  rcases act x b with ⟨- | -, b'⟩ <;> rfl

/-- Trying some items and then others is trying them all. -/
theorem tryEach_append_bench {α : Type} (act : α → BenchM Unit) (xs ys : List α) (b : Bench) :
    (tryEach act (xs ++ ys) b).2 = (tryEach act ys (tryEach act xs b).2).2 := by
  induction xs generalizing b with
  | nil => rfl
  | cons x rest ih =>
    rw [List.cons_append, tryEach_cons, tryEach_cons]
    exact ih _

theorem NotingM.lift_apply {σ α : Type} (act : BenchM α) (b : Bench) (s : σ) :
    (liftM act : NotingM σ α) (b, s) = ((act b).1, (act b).2, s) := rfl

theorem NotingM.lift_bind_apply {σ α β : Type} (act : BenchM α) (next : α → NotingM σ β)
    (b : Bench) (s : σ) : ((liftM act : NotingM σ α) >>= next) (b, s) =
      match act b with
      | (.ok x, b) => next x (b, s)
      | (.error fault, b) => (.error fault, b, s) := by
  rw [ActionM.bind_apply, lift_apply]
  rcases act b with ⟨- | -, b'⟩ <;> rfl

theorem NotingM.mapM_apply {σ α β : Type} (act : α → BenchM β) (xs : List α) (b : Bench)
    (s : σ) : (xs.mapM fun x => (liftM (act x) : NotingM σ β)) (b, s) =
      ((xs.mapM act b).1, (xs.mapM act b).2, s) := by
  induction xs generalizing b with
  | nil => rfl
  | cons x rest ih =>
    rw [List.mapM_cons, List.mapM_cons, lift_bind_apply, ActionM.bind_apply]
    rcases act x b with ⟨- | y, b'⟩
    · rfl
    · dsimp only
      rw [ActionM.bind_apply, ActionM.bind_apply, ih b']
      rcases rest.mapM act b' with ⟨- | ys, b''⟩ <;> rfl

theorem NotingM.forEach_map {σ α β : Type} (act : β → NotingM σ Unit) (f : α → β)
    (xs : List α) :
    NotingM.forEach act (xs.map f) = NotingM.forEach (fun x => act (f x)) xs := by
  induction xs with
  | nil => rfl
  | cons x rest ih =>
    rw [List.map_cons]
    unfold NotingM.forEach
    rw [ih]

theorem NotingM.forEach_singleton {σ α : Type} (act : α → NotingM σ Unit) (x : α)
    (s : Bench × σ) : NotingM.forEach act [x] s = act x s := by
  unfold NotingM.forEach
  rw [ActionM.bind_apply]
  rcases act x s with ⟨- | ⟨⟩, s'⟩ <;> rfl

theorem NotingM.tryEach_cons {σ α : Type} (act : α → NotingM σ Unit) (x : α) (rest : List α)
    (s : Bench × σ) :
    NotingM.tryEach act (x :: rest) s =
      ((act x s).1 >>= fun _ => (NotingM.tryEach act rest (act x s).2).1,
        (NotingM.tryEach act rest (act x s).2).2) := by
  simp only [NotingM.tryEach]
  rcases act x s with ⟨- | -, s'⟩ <;> rfl

theorem NotingM.amend_ok {σ : Type} {f : σ → Except Fault σ} {s s' : σ} (b : Bench)
    (h : f s = .ok s') : NotingM.amend f (b, s) = (.ok (), b, s') := by
  simp only [NotingM.amend, h]

theorem NotingM.amend_error {σ : Type} {f : σ → Except Fault σ} {s : σ} {fault : Fault}
    (b : Bench) (h : f s = .error fault) : NotingM.amend f (b, s) = (.error fault, b, s) := by
  simp only [NotingM.amend, h]

/-! ## Benches after events -/

namespace Event

/-- What an event does to the devices that keep their attributes in memory. -/
def apply : Event → (String → Memory) → String → Memory
  | wrote address name value true, devices => fun a =>
    if a = address then
      { devices address with
        values := fun n => if n = name then some value else (devices address).values n }
    else devices a
  | linked address up, devices => fun a =>
    if a = address then { devices address with up } else devices a
  | _, devices => devices

/-- The event is a command that was run. -/
def IsRun (e : Event) : Prop := ∃ address command, e = ran address command

end Event

namespace Bench

/-- The bench after some events, of which the newest comes first. -/
def after (b : Bench) (events : List Event) : Bench :=
  { b with memory := events.foldr Event.apply b.memory, journal := events ++ b.journal }

variable {b : Bench} {events : List Event}

@[simp] theorem after_nil (b : Bench) : b.after [] = b := rfl

@[simp] theorem after_after (b : Bench) (older newer : List Event) :
    (b.after older).after newer = b.after (newer ++ older) := by
  simp [after]

theorem after_injective (b : Bench) {first second : List Event}
    (h : b.after first = b.after second) : first = second :=
  List.append_cancel_right (congrArg journal h)

/-- Commands leave the devices in memory as they are. -/
theorem memory_after_of_isRun (h : ∀ e ∈ events, e.IsRun) : (b.after events).memory = b.memory := by
  induction events with
  | nil => rfl
  | cons e events ih =>
    obtain ⟨address, command, rfl⟩ := h e (by simp)
    exact ih fun e he => h e (by simp [he])

/-- What a host answers now to a command that has to succeed. -/
def reply (b : Bench) (h : Host) (command : String) : Except Fault Output :=
  b.answer b.journal h.address command >>= fun output => output.check h.id command

/-- A command would succeed now. -/
def succeeds (b : Bench) (address command : String) : Bool :=
  match b.answer b.journal address command with
  | .ok output => output.success
  | .error _ => false

theorem succeeds_of_reply {h : Host} {command : String} {output : Output}
    (hr : b.reply h command = .ok output) : b.succeeds h.address command = true := by
  unfold reply at hr
  unfold succeeds
  cases ha : b.answer b.journal h.address command with
  | error fault => simp [ha, bind, Except.bind] at hr
  | ok printed =>
    simp only [ha, bind, Except.bind] at hr
    simp [Output.success, (Output.check_eq_ok_iff.1 hr).1]

theorem not_succeeds_of_reply {h : Host} {command : String} {fault : Fault}
    (hr : b.reply h command = .error fault) : b.succeeds h.address command = false := by
  unfold reply at hr
  unfold succeeds
  cases ha : b.answer b.journal h.address command with
  | error fault => rfl
  | ok printed =>
    simp only [ha, bind, Except.bind, Output.check] at hr
    split at hr
    · cases hr
    · simpa using ‹¬printed.success = true›

end Bench

/-! ## The events of single operations -/

namespace Host

variable (h : Host) (command : String) (b : Bench)

theorem run_apply : h.run command b = (b.reply h command, b.after [.ran h.address command]) := by
  unfold run exec Bench.reply
  rw [ActionM.bind_apply]
  cases b.answer b.journal h.address command <;> rfl

theorem query_apply : h.query command b =
    ((b.reply h command).map Output.stdout, b.after [.ran h.address command]) := by
  unfold query
  rw [ActionM.bind_apply, run_apply]
  cases b.reply h command <;> rfl

theorem command_apply : h.command command b =
    ((b.reply h command).map fun _ => (), b.after [.ran h.address command]) := by
  have hd : h.command command = (fun _ => ()) <$> h.run command := rfl
  rw [hd, ActionM.map_apply, run_apply]

end Host

namespace Device

/-- The command whose output tells the value of an attribute. -/
def readCommand (d : Device) : Attribute → String
  | .mtu => "cat /sys/class/net/" ++ d.name ++ "/mtu"
  | .adaptiveCoalescing _ | .coalescing _ => "ethtool -c " ++ d.name
  | .pauseFrames _ => "ethtool -a " ++ d.name
  | .offload _ => "ethtool -k " ++ d.name
  | .hashFunction => "ethtool -x " ++ d.name
  | .flowHash type => "ethtool -n " ++ d.name ++ " rx-flow-hash " ++ type

/-- The command that changes the state of the link. -/
def linkCommand (d : Device) (up : Bool) : String :=
  "ip link set dev " ++ d.name ++ if up then " up" else " down"

/-- What happens when an attribute is read. -/
def getEvents (d : Device) (name : String) : List Event :=
  match d.control with
  | .commands =>
    ((Attribute.ofName? name).map fun a => .ran d.netns.address (d.readCommand a)).toList
  | .memory address => [.read address name]

/-- What happens on a bench when an attribute is written. -/
def setEvents (d : Device) (name : String) (value : Setting) (b : Bench) : List Event :=
  match d.control with
  | .commands =>
    ((Attribute.ofName? name).map fun a =>
      .ran d.netns.address (d.writeCommand value.arg a)).toList
  | .memory address => [.wrote address name value !(b.memory address).readOnly]

/-- What happens when the state of the link is asked for. -/
def isUpEvents (d : Device) : List Event :=
  match d.control with
  | .commands => [.ran d.netns.address ("ip -o link show dev " ++ d.name)]
  | .memory _ => []

/-- What happens when the state of the link is changed. -/
def linkEvents (d : Device) (up : Bool) : List Event :=
  match d.control with
  | .commands => [.ran d.netns.address (d.linkCommand up)]
  | .memory address => [.linked address up]

variable (d : Device) (b : Bench)

theorem query_apply (command : String) : d.query command b =
    ((b.reply d.netns command).map Output.stdout, b.after [.ran d.netns.address command]) :=
  d.netns.query_apply command b

theorem query_bind_bench {α : Type} (command : String) (next : String → BenchM α)
    (h : ∀ output b, (next output b).2 = b) :
    ((d.query command >>= next) b).2 = b.after [.ran d.netns.address command] := by
  rw [ActionM.bind_apply, query_apply]
  cases b.reply d.netns command with
  | error fault => rfl
  | ok output => exact h _ _

theorem readAttribute_bench (a : Attribute) :
    (d.readAttribute a b).2 = b.after [.ran d.netns.address (d.readCommand a)] := by
  cases a <;> exact d.query_bind_bench b _ _ fun _ _ => rfl

theorem get_bench (name : String) : (d.get name b).2 = b.after (d.getEvents name) := by
  unfold get getEvents
  cases d.control with
  | memory address => rfl
  | commands =>
    cases Attribute.ofName? name with
    | none => rfl
    | some a =>
      have hr := d.readAttribute_bench b a
      dsimp only
      rw [ActionM.bind_apply]
      rcases h : d.readAttribute a b with ⟨result, b'⟩
      rw [h] at hr
      rcases result with fault | (- | value) <;> exact hr

theorem set_bench (name : String) (value : Setting) :
    (d.set name value b).2 = b.after (d.setEvents name value b) := by
  unfold set setEvents
  cases d.control with
  | memory address =>
    dsimp only
    by_cases h : (b.memory address).readOnly = true
    · have hd : (!(b.memory address).readOnly) = false := by simp [h]
      rw [if_pos h, hd]
      rfl
    · have hd : (!(b.memory address).readOnly) = true := by simpa using h
      rw [if_neg h, hd]
      rfl
  | commands =>
    cases Attribute.ofName? name with
    | none => rfl
    | some a => exact congrArg Prod.snd (d.netns.command_apply (d.writeCommand value.arg a) b)

theorem isUp_bench : (d.isUp b).2 = b.after d.isUpEvents := by
  unfold isUp isUpEvents
  cases d.control with
  | memory address => rfl
  | commands => exact d.query_bind_bench b _ _ fun _ _ => rfl

theorem setLink_bench (up : Bool) : (d.setLink up b).2 = b.after (d.linkEvents up) := by
  unfold setLink linkEvents
  cases d.control with
  | memory address => rfl
  | commands => exact congrArg Prod.snd (d.netns.command_apply (d.linkCommand up) b)

end Device

/-! ## Bounds on the events of an action -/

/-- All that the action does to the bench in its state is to cause events of a kind. -/
def Emits {S α : Type} (bench : S → Bench) (P : Event → Prop) (act : ActionM S α) : Prop :=
  ∀ s, ∃ events, bench (act s).2 = (bench s).after events ∧ ∀ e ∈ events, P e

namespace Emits

variable {S σ τ α β : Type} {bench : S → Bench} {P : Event → Prop}

/-- An action that leaves the bench alone. -/
theorem of_eq {act : ActionM S α} (h : ∀ s, bench (act s).2 = bench s) : Emits bench P act :=
  fun s => ⟨[], h s, by simp⟩

theorem pure (x : α) : Emits bench P (Pure.pure x : ActionM S α) := of_eq fun _ => rfl

/-- An action that carries out two others, whatever becomes of them. -/
theorem of_steps {first : ActionM S α} {second : ActionM S β} {both : ActionM S τ}
    (h : Emits bench P first) (hs : Emits bench P second)
    (hb : ∀ s, (both s).2 = (second (first s).2).2) : Emits bench P both := by
  intro s
  obtain ⟨older, ho, hpo⟩ := h s
  obtain ⟨newer, hn, hpn⟩ := hs (first s).2
  refine ⟨newer ++ older, by rw [hb, hn, ho, Bench.after_after], fun e he => ?_⟩
  rcases List.mem_append.mp he with he | he
  · exact hpn e he
  · exact hpo e he

theorem bind {act : ActionM S α} {next : α → ActionM S β} (h : Emits bench P act)
    (hn : ∀ x, Emits bench P (next x)) : Emits bench P (act >>= next) := by
  intro s
  obtain ⟨older, ho, hpo⟩ := h s
  rw [ActionM.bind_apply]
  rcases hr : act s with ⟨fault | x, s'⟩ <;> rw [hr] at ho
  · exact ⟨older, ho, hpo⟩
  · obtain ⟨newer, hw, hpn⟩ := hn x s'
    refine ⟨newer ++ older, ?_, fun e he => ?_⟩
    · change bench s' = _ at ho
      rw [hw, ho, Bench.after_after]
    · rcases List.mem_append.mp he with he | he
      · exact hpn e he
      · exact hpo e he

theorem mapM {act : α → ActionM S β} {xs : List α} (h : ∀ x ∈ xs, Emits bench P (act x)) :
    Emits bench P (xs.mapM act) := by
  induction xs with
  | nil => exact pure []
  | cons x rest ih =>
    rw [List.mapM_cons]
    exact (h x (by simp)).bind fun y => (ih fun z hz => h z (by simp [hz])).bind fun ys => pure _

theorem attempt {act : BenchM α} (h : Emits id P act) : Emits id P (attempt act) :=
  fun b => h b

theorem tryEach {act : α → BenchM Unit} {xs : List α} (h : ∀ x ∈ xs, Emits id P (act x)) :
    Emits id P (tryEach act xs) := by
  induction xs with
  | nil => exact pure ()
  | cons x rest ih =>
    refine of_steps (h x (by simp)) (ih fun y hy => h y (by simp [hy])) fun b => ?_
    rw [tryEach_cons]

/-! ### Single operations -/

theorem query {h : Host} {command : String} (hp : P (.ran h.address command)) :
    Emits id P (h.query command) :=
  fun b => ⟨_, congrArg Prod.snd (h.query_apply command b), by simpa using hp⟩

theorem command {h : Host} {command : String} (hp : P (.ran h.address command)) :
    Emits id P (h.command command) :=
  fun b => ⟨_, congrArg Prod.snd (h.command_apply command b), by simpa using hp⟩

theorem get {d : Device} {name : String} (hp : ∀ e ∈ d.getEvents name, P e) :
    Emits id P (d.get name) :=
  fun b => ⟨_, d.get_bench b name, hp⟩

theorem set {d : Device} {name : String} {value : Setting}
    (hp : ∀ b, ∀ e ∈ d.setEvents name value b, P e) : Emits id P (d.set name value) :=
  fun b => ⟨_, d.set_bench b name value, hp b⟩

theorem isUp {d : Device} (hp : ∀ e ∈ d.isUpEvents, P e) : Emits id P d.isUp :=
  fun b => ⟨_, d.isUp_bench b, hp⟩

theorem setLink {d : Device} {up : Bool} (hp : ∀ e ∈ d.linkEvents up, P e) :
    Emits id P (d.setLink up) :=
  fun b => ⟨_, d.setLink_bench b up, hp⟩

/-! ### Actions that take notes -/

theorem ofBench {act : BenchM α} (h : Emits id P act) :
    Emits Prod.fst P (NotingM.ofBench act : NotingM σ α) :=
  fun s => h s.1

theorem notes : Emits Prod.fst P (NotingM.notes : NotingM σ σ) := of_eq fun _ => rfl

theorem amend (f : σ → Except Fault σ) : Emits Prod.fst P (NotingM.amend f) :=
  of_eq fun (b, s) => by
    cases h : f s with
    | ok s' => rw [NotingM.amend_ok b h]
    | error fault => rw [NotingM.amend_error b h]

theorem note (f : σ → σ) : Emits Prod.fst P (NotingM.note f) := amend _

theorem takeNote (f : σ → α × σ) : Emits Prod.fst P (NotingM.takeNote f) := of_eq fun _ => rfl

theorem aside {start : τ} {act : NotingM τ Unit} (h : Emits Prod.fst P act) :
    Emits Prod.fst P (NotingM.aside start act : NotingM σ _) :=
  fun s => h (s.1, start)

theorem forEach {act : α → NotingM σ Unit} {xs : List α}
    (h : ∀ x ∈ xs, Emits Prod.fst P (act x)) : Emits Prod.fst P (NotingM.forEach act xs) := by
  induction xs with
  | nil => exact pure ()
  | cons x rest ih => exact (h x (by simp)).bind fun _ => ih fun y hy => h y (by simp [hy])

theorem tryEachNoting {act : α → NotingM σ Unit} {xs : List α}
    (h : ∀ x ∈ xs, Emits Prod.fst P (act x)) : Emits Prod.fst P (NotingM.tryEach act xs) := by
  induction xs with
  | nil => exact pure ()
  | cons x rest ih =>
    refine of_steps (h x (by simp)) (ih fun y hy => h y (by simp [hy])) fun s => ?_
    rw [NotingM.tryEach_cons]

end Emits

end NicTuning
