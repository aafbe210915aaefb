import NicTuning.Proofs.Recording

/-!
# Pinning interrupts

The layer that pins interrupts checks all processors, and then stops balancers and pins devices as
it goes. Its notes become one entry, and what it pins are the devices that it plans to pin, with the
processors that were given.
-/
namespace NicTuning.Layer.Interrupts

/-- The notes of the layer become an entry of stopped balancers and pinned devices. -/
def notebook : Notebook InterruptChanges where
  key := key
  start := .none
  note := .note
  entry := .interrupts
  isEmpty := InterruptChanges.isEmpty
  kind c := (∃ h, c = .stop h) ∨ ∃ d, c = .pin d
  isEmpty_start := rfl
  isEmpty_note := by
    rintro s _ (⟨h, rfl⟩ | ⟨d, rfl⟩) <;> simp [InterruptChanges.note, InterruptChanges.isEmpty]
  enter_none := by
    rintro _ (⟨h, rfl⟩ | ⟨d, rfl⟩) <;> rfl
  enter_some := by
    rintro s _ (⟨h, rfl⟩ | ⟨d, rfl⟩) <;> rfl
  key_of_kind := by
    rintro _ (⟨h, rfl⟩ | ⟨d, rfl⟩) <;> rfl
  plain_of_kind := by
    rintro _ (⟨h, rfl⟩ | ⟨d, rfl⟩) <;> trivial

/-- Pinning a device stops no balancer. -/
theorem stopped_foldl_note {cs : List Change} (h : ∀ c ∈ cs, ∃ d, c = .pin d)
    (s : InterruptChanges) : (cs.foldl InterruptChanges.note s).stopped = s.stopped := by
  induction cs generalizing s with
  | nil => rfl
  | cons c cs ih =>
    obtain ⟨d, rfl⟩ := h c (by simp)
    rw [List.foldl_cons, ih fun c hc => h c (by simp [hc])]
    rfl

theorem stopBalancer_apply (h : Host) (b : Bench) (s : InterruptChanges) :
    stopBalancer h (b, s) =
      if s.hasStopped h then (.ok (), b, s)
      else
        match h.command "service irqbalance stop" b with
        | (.ok (), b) => (.ok (), b, s.note (.stop h))
        | (.error fault, b) => (.error fault, b, s) := by
  unfold stopBalancer
  rw [ActionM.bind_apply]
  have hn : (NotingM.notes : NotingM InterruptChanges _) (b, s) = (.ok s, b, s) := rfl
  rw [hn]
  dsimp only
  split
  · rfl
  · rw [NotingM.lift_bind_apply]
    rcases h.command "service irqbalance stop" b with ⟨fault | ⟨⟩, b'⟩ <;> rfl

/-- The balancer is stopped unless it was before. -/
theorem stopBalancer_records (h : Host) :
    Records InterruptChanges.note (fun _ => True) (fun c => c = .stop h) (stopBalancer h) := by
  intro b s _
  rw [stopBalancer_apply]
  split
  · exact ⟨[], .refl b, rfl, by simp⟩
  · rcases hc : h.command "service irqbalance stop" b with ⟨fault | ⟨⟩, b'⟩
    · exact ⟨[], .done (.command_of_error hc), rfl, by simp⟩
    · exact ⟨[.stop h], .single (.stop hc), rfl, by simp⟩

/-- What is left to do for a device once the balancer is stopped. -/
def assignInterrupts (p : Pinning) : NotingM InterruptChanges Unit := do
  let interrupts ← interruptsOf p.device
  let assignments := Affinity.assign interrupts p.processors p.spreading
  NotingM.forEach (fun a => p.device.netns.command (assignCommand a)) assignments
  NotingM.note fun c => { c with pinned := c.pinned ++ [{ p with assignments }] }

theorem pin_eq (p : Pinning) :
    pin p = stopBalancer p.device.host >>= fun _ => assignInterrupts p := rfl

/-- The interrupts of a device get their processors one by one, up to the first command that
fails. -/
theorem assign_cases (h : Host) (assignments : List (UInt32 × String)) (b : Bench)
    (s : InterruptChanges) :
    (∃ fault b', NotingM.forEach (fun a => h.command (assignCommand a)) assignments (b, s) =
      (.error fault, b', s) ∧ Quiet b b') ∨
    ∃ b', NotingM.forEach (fun a => h.command (assignCommand a)) assignments (b, s) =
      (.ok (), b', s) ∧ Succeeding h (assignments.map assignCommand) b b' := by
  induction assignments generalizing b with
  | nil => exact .inr ⟨b, rfl, .nil⟩
  | cons a rest ih =>
    unfold NotingM.forEach
    rw [NotingM.lift_bind_apply]
    rcases hc : h.command (assignCommand a) b with ⟨fault | ⟨⟩, m⟩
    · exact .inl ⟨fault, m, rfl, .command_of_error hc⟩
    · rcases ih m with ⟨fault, b', he, hq⟩ | ⟨b', he, hs⟩
      · have hm := Quiet.command_of_isChange (h := h) (Command.isChange_assignCommand a) b
        rw [hc] at hm
        exact .inl ⟨fault, b', he, hm.trans hq⟩
      · exact .inr ⟨b', he, .cons hc hs⟩

/-- What is intended for a device with checked processors. -/
def pinIntent (p : Pinning) : Intent :=
  .pin p.device (p.processors.map fun n => n.toNat) p.spreading

theorem assignInterrupts_makesOne (p : Pinning) : MakesOne InterruptChanges.note
    (fun c => ∃ d, c = .pin d) (pinIntent p) (assignInterrupts p) := by
  intro b s
  have hq := interruptsOf_quiet p.device b
  unfold assignInterrupts
  rw [NotingM.lift_bind_apply]
  rcases hi : interruptsOf p.device b with ⟨fault | interrupts, m⟩ <;> rw [hi] at hq
  · exact .inl ⟨fault, m, rfl, hq⟩
  · dsimp only
    rw [ActionM.bind_apply]
    rcases assign_cases p.device.netns (Affinity.assign interrupts p.processors p.spreading) m s
      with ⟨fault, b', he, hq'⟩ | ⟨b', he, hs⟩ <;> rw [he]
    · exact .inl ⟨fault, b', rfl, hq.trans hq'⟩
    · exact .inr ⟨_, b', rfl, .pin hi hs, ⟨_, rfl⟩, rfl⟩

/-- The balancer is stopped for the device that is pinned. -/
theorem pin_performs (p : Pinning) :
    Performs InterruptChanges.note (fun _ => True) notebook.kind [pinIntent p] (pin p) := by
  intro b s hs
  obtain ⟨cs, hc, hl, hstop⟩ := stopBalancer_records p.device.host b s hs
  have hkind : ∀ c ∈ cs, notebook.kind c := fun c hm => .inl ⟨_, hstop c hm⟩
  -- Nobody plans to stop a balancer, but it is only stopped where something is to be pinned.
  have hkey : ∀ c ∈ cs, ∃ i ∈ [pinIntent p], i.key = c.key := fun c hm =>
    ⟨pinIntent p, by simp, by rw [hstop c hm]; rfl⟩
  rw [pin_eq, ActionM.bind_apply]
  rcases hr : stopBalancer p.device.host (b, s) with ⟨fault | ⟨⟩, b', s'⟩ <;> rw [hr] at hc hl
  · refine ⟨cs, hc, hl, hkind, ?_⟩
    exact List.append_nil cs ▸ (Follows.stopped fault _).prepend (fun c hm => hstop c hm ▸ rfl) hkey
  · obtain rfl : s' = cs.foldl InterruptChanges.note s := hl
    obtain ⟨cs', hc', hl', hk', hf'⟩ := (assignInterrupts_makesOne p).performs b' _ hs
    refine ⟨cs ++ cs', hc.append hc', ?_, fun c hm => ?_,
      hf'.prepend (fun c hm => hstop c hm ▸ rfl) hkey⟩
    · rw [List.foldl_append]
      exact hl'
    · rcases List.mem_append.mp hm with hm | hm
      · exact hkind c hm
      · exact .inr (hk' c hm)

theorem pins_performs (pinnings : List Pinning) :
    Performs InterruptChanges.note (fun _ => True) notebook.kind (pinnings.map pinIntent)
      (NotingM.forEach pin pinnings) := by
  rw [List.map_eq_flatMap]
  exact Performs.forEach (fun _ _ _ _ => trivial) fun p _ => pin_performs p

theorem touches_countCommand : Command.touches "lscpu" = false := by decide

/-- Checking the processors of a device only asks its machine how many it has. -/
theorem check_bench (t : Target) (b : Bench) :
    (check t b).2 = b.after [.ran t.device.netns.address "lscpu"] := by
  refine t.device.query_bind_bench b _ _ fun output b => ?_
  rw [ActionM.bind_apply, ActionM.liftExcept_apply]
  cases Report.processorCount output with
  | error fault => rfl
  | ok count =>
    dsimp only
    rw [ActionM.bind_apply, ActionM.liftExcept_apply]
    cases Affinity.checkProcessors t.processors count <;> rfl

theorem check_emits {P : Event → Prop} {t : Target}
    (hp : P (.ran t.device.netns.address "lscpu")) : Emits id P (check t) :=
  fun b => ⟨_, check_bench t b, by simpa using hp⟩

theorem check_quiet (targets : List Target) (b : Bench) :
    Quiet b (targets.mapM check b).2 := by
  have he : Emits id (fun e => e.touches = false) (targets.mapM check) :=
    Emits.mapM fun t _ => check_emits touches_countCommand
  obtain ⟨events, hb, ht⟩ := he b
  rw [show (targets.mapM check b).2 = b.after events from hb]
  exact Quiet.of_untouched ht

/-- The layer checks all processors and then pins device by device. -/
theorem configure_apply (devices : List Device) (i : Tuning.Interrupts) (b : Bench)
    (l : Ledger) : configure devices i (b, l) =
      match (targets devices i).mapM check b with
      | (.ok pinnings, b) => notebook.collect (NotingM.forEach pin pinnings) (b, l)
      | (.error fault, b) => (.error fault, b, l) := by
  unfold configure
  rw [ActionM.bind_apply, NotingM.mapM_apply]
  rcases (targets devices i).mapM check b with ⟨fault | pinnings, b'⟩ <;> rfl

/-- A processor that passed its check is the one that was given. -/
theorem toInt_of_checkProcessor {count : Nat} {processor : Int64} {n : UInt32}
    (h : Affinity.checkProcessor count processor = .ok n) : (n.toNat : Int) = processor.toInt := by
  unfold Affinity.checkProcessor at h
  split at h
  · rename_i hin
    cases h
    have hsize : processor.toInt.toNat < 2 ^ 32 := by
      have := hin.2.1
      unfold UInt32.size at this
      omega
    rw [UInt32.toNat_ofNat', Nat.mod_eq_of_lt hsize, Int.toNat_of_nonneg hin.1]
  · cases h

theorem toInt_of_checkProcessors {count : Nat} {processors : List Int64} {ns : List UInt32}
    (h : Affinity.checkProcessors processors count = .ok ns) :
    ns.map (fun n => (n.toNat : Int)) = processors.map Int64.toInt := by
  unfold Affinity.checkProcessors at h
  split at h
  · cases h
  · induction processors generalizing ns with
    | nil =>
      cases h
      rfl
    | cons processor rest ih =>
      rw [List.mapM_cons] at h
      cases hn : Affinity.checkProcessor count processor with
      | error fault =>
        rw [hn] at h
        cases h
      | ok n =>
        cases hr : rest.mapM (Affinity.checkProcessor count) with
        | error fault =>
          rw [hn, hr] at h
          cases h
        | ok ns' =>
          rw [hn, hr] at h
          cases h
          rw [List.map_cons, List.map_cons, toInt_of_checkProcessor hn, ih hr]

/-- What is intended for a device with a list of processors. -/
def targetIntent (t : Target) : Intent :=
  .pin t.device (t.processors.map Int64.toInt) t.spreading

theorem pinIntent_of_check {t : Target} {p : Pinning} {b b' : Bench}
    (h : check t b = (.ok p, b')) : pinIntent p = targetIntent t := by
  unfold check at h
  rw [ActionM.bind_apply] at h
  rcases hq : t.device.query "lscpu" b with ⟨fault | output, m⟩ <;> rw [hq] at h
  · cases h
  · dsimp only at h
    rw [ActionM.bind_apply, ActionM.liftExcept_apply] at h
    cases hcount : Report.processorCount output with
    | error fault =>
      rw [hcount] at h
      cases h
    | ok count =>
      rw [hcount] at h
      dsimp only at h
      rw [ActionM.bind_apply, ActionM.liftExcept_apply] at h
      cases hp : Affinity.checkProcessors t.processors count with
      | error fault =>
        rw [hp] at h
        cases h
      | ok processors =>
        rw [hp] at h
        cases h
        exact congrArg (Intent.pin t.device · t.spreading) (toInt_of_checkProcessors hp)

/-- What passed the checks is what was intended. -/
theorem pinIntents_of_checks {targets : List Target} {pinnings : List Pinning} {b b' : Bench}
    (h : targets.mapM check b = (.ok pinnings, b')) :
    pinnings.map pinIntent = targets.map targetIntent := by
  induction targets generalizing b pinnings with
  | nil =>
    cases h
    rfl
  | cons t rest ih =>
    rw [List.mapM_cons, ActionM.bind_apply] at h
    rcases hc : check t b with ⟨fault | p, m⟩ <;> rw [hc] at h
    · cases h
    · dsimp only at h
      rw [ActionM.bind_apply] at h
      rcases hr : rest.mapM check m with ⟨fault | ps, m'⟩ <;> rw [hr] at h
      · cases h
      · cases h
        rw [List.map_cons, List.map_cons, pinIntent_of_check hc, ih hr]

/-- What is intended: the devices with a list of processors are pinned to these. -/
def intents (devices : List Device) (i : Tuning.Interrupts) : List Intent :=
  (targets devices i).map targetIntent

theorem plan_eq (devices : List Device) (i : Tuning.Interrupts) :
    plan devices i = (intents devices i).map Intent.line := by
  unfold plan intents
  rw [List.map_map]
  refine List.map_congr_left fun t _ => ?_
  unfold planTarget targetIntent
  rw [Function.comp_apply, Intent.line, List.map_map]
  rfl

theorem configure_performs (devices : List Device) (i : Tuning.Interrupts) :
    Performs Ledger.note (fun l => l.contains key = false) notebook.kind (intents devices i)
      (configure devices i) := by
  intro b l hl
  have hq := check_quiet (targets devices i) b
  rw [configure_apply]
  rcases hm : (targets devices i).mapM check b with ⟨fault | pinnings, m⟩ <;> rw [hm] at hq
  · exact ⟨[], .done hq, rfl, by simp, .stopped fault _⟩
  · obtain ⟨cs, hc, he, hk, hf⟩ := notebook.collect_performs (pins_performs pinnings) m l hl
    rw [pinIntents_of_checks hm] at hf
    exact ⟨cs, hc.quiet_append hq, he, hk, hf⟩

end NicTuning.Layer.Interrupts
