import NicTuning.Proofs.Pinning

/-!
# What layers record

Every layer records what it changes under its own key, and no layer changes anything else. What a
layer changes is what it intends, up to the first fault, and its plan puts that into words. The
attributes of a layer are known by their names, so no two layers share one.
-/
namespace NicTuning.Layer

/-! ## Queues and queueing disciplines -/

namespace Queues

def note (changes : List QueueChange) : Change → List QueueChange
  | .queues c => changes ++ [c]
  | _ => changes

/-- The notes of the layer become an entry of changed numbers of queues. -/
def notebook : Notebook (List QueueChange) where
  key := key
  start := []
  note := note
  entry := .queues
  isEmpty := List.isEmpty
  kind c := ∃ change, c = .queues change
  isEmpty_start := rfl
  isEmpty_note := by
    rintro s _ ⟨change, rfl⟩
    simp [note]
  enter_none := by
    rintro _ ⟨change, rfl⟩
    rfl
  enter_some := by
    rintro s _ ⟨change, rfl⟩
    rfl
  key_of_kind := by
    rintro _ ⟨change, rfl⟩
    rfl
  plain_of_kind := by
    rintro _ ⟨change, rfl⟩
    trivial

/-- What is intended: the devices at whose place there are numbers get these. -/
def intents (devices : List Device) (queues : Option (List (Dict UInt32))) : List Intent :=
  (targets devices queues).map fun (d, counts) => .queues d counts

theorem plan_eq (devices : List Device) (queues : Option (List (Dict UInt32))) :
    plan devices queues = (intents devices queues).map Intent.line := by
  unfold intents
  rw [List.map_map]
  rfl

theorem change_makesOne (target : Device × Dict UInt32) :
    MakesOne note notebook.kind (.queues target.1 target.2) (change target) := by
  obtain ⟨d, counts⟩ := target
  intro b s
  have hq := Quiet.query (h := d.netns) (Command.touches_channelsCommand d) b
  unfold change
  dsimp only
  rw [NotingM.lift_bind_apply]
  rcases hl : d.query ("ethtool -l " ++ d.name) b with ⟨fault | output, m⟩ <;>
    rw [show d.netns.query _ b = _ from hl] at hq
  · exact .inl ⟨fault, m, rfl, hq⟩
  · dsimp only
    cases hr : Report.Channels.read output with
    | error fault => exact .inl ⟨fault, m, rfl, hq⟩
    | ok channels =>
      rw [ActionM.bind_apply, ActionM.liftExcept_apply]
      dsimp only
      rw [NotingM.lift_bind_apply]
      rcases hw : d.netns.command (setCommand d counts) m with ⟨fault | ⟨⟩, b'⟩
      · exact .inl ⟨fault, b', rfl, hq.trans (.command_of_error hw)⟩
      · exact .inr ⟨_, b', rfl, .queues hl hr hw, ⟨_, rfl⟩, rfl⟩

theorem changes_performs (devices : List Device) (queues : Option (List (Dict UInt32))) :
    Performs note (fun _ => True) notebook.kind (intents devices queues)
      (NotingM.forEach change (targets devices queues)) := by
  unfold intents
  rw [List.map_eq_flatMap]
  exact Performs.forEach (fun _ _ _ _ => trivial) fun target _ => (change_makesOne target).performs

theorem configure_performs (devices : List Device) (queues : Option (List (Dict UInt32))) :
    Performs Ledger.note (fun l => l.contains key = false) notebook.kind (intents devices queues)
      (configure devices queues) :=
  notebook.collect_performs (changes_performs devices queues)

end Queues

namespace Qdisc

def note (changes : List QdiscChange) : Change → List QdiscChange
  | .qdisc c => changes ++ [c]
  | _ => changes

/-- The notes of the layer become an entry of replaced queueing disciplines. -/
def notebook : Notebook (List QdiscChange) where
  key := key
  start := []
  note := note
  entry := .qdiscs
  isEmpty := List.isEmpty
  kind c := ∃ change, c = .qdisc change
  isEmpty_start := rfl
  isEmpty_note := by
    rintro s _ ⟨change, rfl⟩
    simp [note]
  enter_none := by
    rintro _ ⟨change, rfl⟩
    rfl
  enter_some := by
    rintro s _ ⟨change, rfl⟩
    rfl
  key_of_kind := by
    rintro _ ⟨change, rfl⟩
    rfl
  plain_of_kind := by
    rintro _ ⟨change, rfl⟩
    trivial

/-- What is intended: all devices get the discipline if it is wanted. -/
def intents (devices : List Device) (streams : Option UInt32) : List Intent :=
  if isWanted streams then devices.map .qdisc else []

theorem plan_eq (devices : List Device) (streams : Option UInt32) :
    plan devices streams = (intents devices streams).map Intent.line := by
  unfold plan intents
  split
  · rw [List.map_map]
    rfl
  · rfl

theorem change_makesOne (d : Device) : MakesOne note notebook.kind (.qdisc d) (change d) := by
  intro b s
  have hq := Quiet.query (h := d.netns) (Command.touches_showCommand d) b
  unfold change
  rw [NotingM.lift_bind_apply]
  rcases hl : d.query ("tc qdisc show dev " ++ d.name ++ " root") b with ⟨fault | output, m⟩ <;>
    rw [show d.netns.query _ b = _ from hl] at hq
  · exact .inl ⟨fault, m, rfl, hq⟩
  · dsimp only
    rw [NotingM.lift_bind_apply]
    rcases hw : d.netns.command (replaceCommand d) m with ⟨fault | ⟨⟩, b'⟩
    · exact .inl ⟨fault, b', rfl, hq.trans (.command_of_error hw)⟩
    · exact .inr ⟨_, b', rfl, .qdisc hl hw, ⟨_, rfl⟩, rfl⟩

theorem changes_performs (devices : List Device) :
    Performs note (fun _ => True) notebook.kind (devices.map .qdisc)
      (NotingM.forEach change devices) := by
  rw [List.map_eq_flatMap]
  exact Performs.forEach (fun _ _ _ _ => trivial) fun d _ => (change_makesOne d).performs

theorem configure_performs (devices : List Device) (streams : Option UInt32) :
    Performs Ledger.note (fun l => l.contains key = false) notebook.kind (intents devices streams)
      (configure devices streams) := by
  unfold configure intents
  split
  · exact notebook.collect_performs (changes_performs devices)
  · exact .done

end Qdisc

/-! ## Attributes -/

/-- A name with one of the long beginnings is none of the short names. -/
theorem settingKey_of_begins {front name : String} (hb : Text.begins front name = true)
    (hf : [Mtu.name, HashFunction.name, "rx_pause_frames", "tx_pause_frames"].all
      (fun short => !Text.begins front short) = true) :
    settingKey name = if Text.begins "nfc_rx_flow_hash_" name then FlowHash.key
      else if Text.begins "offload_" name then Offload.key else Coalescing.key := by
  have hne := Text.ne_of_begins hb hf
  unfold settingKey
  rw [if_neg (hne _ (by simp)), if_neg (hne _ (by simp)),
    if_neg (not_or.2 ⟨hne _ (by simp), hne _ (by simp)⟩)]

theorem settingKey_flowHashName (type : String) :
    settingKey (Attribute.flowHashName type) = FlowHash.key := by
  have hb : Text.begins "nfc_rx_flow_hash_" (Attribute.flowHashName type) = true :=
    Text.begins_front _ _
  rw [settingKey_of_begins hb (by decide), if_pos hb]

theorem settingKey_offloadName (feature : String) :
    settingKey (Attribute.offloadName feature) = Offload.key := by
  have hb : Text.begins "offload_" (Attribute.offloadName feature) = true :=
    Text.begins_front _ _
  rw [settingKey_of_begins hb (by decide),
    Text.begins_of_conflict hb (by decide), if_neg Bool.false_ne_true, if_pos hb]

theorem settingKey_coalescingName (key : String) :
    settingKey (Attribute.coalescingName key) = Coalescing.key := by
  have hb : Text.begins "coalescing_" (Attribute.coalescingName key) = true :=
    Text.begins_front _ _
  rw [settingKey_of_begins hb (by decide),
    Text.begins_of_conflict hb (by decide), if_neg Bool.false_ne_true,
    Text.begins_of_conflict hb (by decide), if_neg Bool.false_ne_true]

theorem ne_mtu_of_settingKey {name : String} (h : settingKey name ≠ Mtu.key) : name ≠ "mtu" := by
  rintro rfl
  exact h rfl

namespace Coalescing

variable {devices : List Device} {c : Tuning.Coalescing}

theorem toggleRequest_name {t : Tuning.Coalescing.Toggle}
    {r : String × List NicTuning.Target} (h : toggleRequest devices c t = .ok r) :
    r.1 = t.name := by
  unfold toggleRequest at h
  simp only [bind, Except.bind] at h
  split at h
  · cases h
  · cases h
    rfl

/-- What is requested is an adaptive mode or another setting. -/
theorem mem_requests {rs : List (String × List NicTuning.Target)}
    (h : requests devices c = .ok rs) {r : String × List NicTuning.Target} (hr : r ∈ rs) :
    (∃ t ∈ c.toggles, toggleRequest devices c t = .ok r) ∨
      ∃ k ∈ settingKeys c, r = settingRequest devices c k := by
  unfold requests at h
  cases ht : c.toggles.mapM (toggleRequest devices c) with
  | error fault =>
    rw [ht] at h
    cases h
  | ok toggles =>
    rw [ht] at h
    obtain rfl : toggles ++ (settingKeys c).map (settingRequest devices c) = rs :=
      Except.ok.inj h
    rcases List.mem_append.mp hr with hr | hr
    · exact .inl (Except.exists_of_mem_mapM ht hr)
    · obtain ⟨k, hk, rfl⟩ := List.mem_map.1 hr
      exact .inr ⟨k, hk, rfl⟩

/-- The names of the layer's attributes are those of an adaptive mode or of a setting. -/
theorem settingKey_of_mem_requests {rs : List (String × List NicTuning.Target)}
    (h : requests devices c = .ok rs) : ∀ r ∈ rs, settingKey r.1 = key := by
  intro r hr
  rcases mem_requests h hr with ⟨t, ht, he⟩ | ⟨k, -, rfl⟩
  · rw [toggleRequest_name he]
    rcases List.mem_pair.1 ht with rfl | rfl
    · exact show settingKey "adaptive_rx_coalescing" = key by decide
    · exact show settingKey "adaptive_tx_coalescing" = key by decide
  · exact settingKey_coalescingName k

end Coalescing

theorem PauseFrames.settingKey_of_mem_requests {p : Tuning.PauseFrames} :
    ∀ r ∈ requests p, settingKey r.1 = key := by
  intro r hr
  rcases List.mem_pair.1 hr with rfl | rfl
  · exact show settingKey "rx_pause_frames" = key by decide
  · exact show settingKey "tx_pause_frames" = key by decide

theorem Offload.settingKey_of_mem_requests {settings : Option Tuning.Settings} :
    ∀ r ∈ requests settings, settingKey r.1 = key := by
  intro r hr
  obtain ⟨⟨feature, value⟩, -, rfl⟩ := List.mem_map.1 hr
  exact settingKey_offloadName feature

theorem FlowHash.settingKey_of_request? {f : Tuning.FlowHash} {r : String × Setting}
    (h : request? f = some r) : settingKey r.1 = key := by
  unfold request? at h
  split at h
  · cases h
    exact settingKey_flowHashName _
  · cases h

/-- The attributes to change and their values, if the layer is one that changes attributes. -/
def requests? : Layer → Option (Except Fault (List (String × List NicTuning.Target)))
  | offload devices settings =>
    some (.ok ((Offload.requests settings).map fun r => (r.1, sharedTargets devices r.2)))
  | mtu devices size => some (.ok [(Mtu.name, Mtu.targets devices size)])
  | coalescing devices c => some (Coalescing.requests devices c)
  | pauseFrames devices p =>
    some (.ok ((PauseFrames.requests p).map fun r => (r.1, sharedTargets devices r.2)))
  | flowHash devices f =>
    some (.ok ((FlowHash.request? f).toList.map fun r =>
      (r.1, sharedTargets devices (some r.2))))
  | hashFunction devices function =>
    some (.ok [(HashFunction.name, HashFunction.targets devices function)])
  | interrupts .. | qdisc .. | queues .. | inert _ => none

/-- The action of a layer that changes attributes. -/
def changeAll (key : String)
    (requests : Except Fault (List (String × List NicTuning.Target))) : SessionM Unit := do
  let requests ← requests
  NotingM.forEach (fun (name, targets) => changeSettings key name targets) requests

theorem changeAll_ok (key : String) (rs : List (String × List NicTuning.Target))
    (s : Bench × Ledger) : changeAll key (.ok rs) s =
      NotingM.forEach (fun r => changeSettings key r.1 r.2) rs s := rfl

theorem configure_of_requests? {layer : Layer}
    {requests : Except Fault (List (String × List NicTuning.Target))}
    (h : layer.requests? = some requests) (s : Bench × Ledger) :
    layer.configure s = changeAll layer.key requests s := by
  cases layer with
  | offload devices settings =>
    cases h
    rw [changeAll_ok, NotingM.forEach_map]
    rfl
  | pauseFrames devices p =>
    cases h
    rw [changeAll_ok, NotingM.forEach_map]
    rfl
  | mtu devices size =>
    cases h
    exact (NotingM.forEach_singleton _ _ _).symm
  | hashFunction devices function =>
    cases h
    exact (NotingM.forEach_singleton _ _ _).symm
  | flowHash devices f =>
    cases h
    change FlowHash.configure devices f s = _
    unfold FlowHash.configure
    cases FlowHash.request? f with
    | none => rfl
    | some r => exact (NotingM.forEach_singleton _ _ _).symm
  | coalescing devices c =>
    cases h
    rfl
  | _ => cases h

theorem restore_of_requests? {layer : Layer}
    {requests : Except Fault (List (String × List NicTuning.Target))}
    (h : layer.requests? = some requests) : layer.restore = restoreSettings layer.key := by
  cases layer <;> first | rfl | cases h

theorem number_of_mtu_targets {devices : List Device} {size : Option UInt32} :
    ∀ t ∈ Mtu.targets devices size, ∀ value, t.2 = some value → ∃ n, value = .number n := by
  intro t ht value hv
  obtain ⟨d, -, rfl⟩ := List.mem_map.1 ht
  obtain ⟨n, -, rfl⟩ := Option.map_eq_some_iff.1 hv
  exact ⟨_, rfl⟩

/-- A layer changes only attributes of its own, and the size of a packet to a number. -/
theorem settingKey_of_requests? {layer : Layer} {rs : List (String × List NicTuning.Target)}
    (h : layer.requests? = some (.ok rs)) : ∀ r ∈ rs, settingKey r.1 = layer.key ∧
      (r.1 = "mtu" → ∀ t ∈ r.2, ∀ value, t.2 = some value → ∃ n, value = .number n) := by
  have other : ∀ {name key : String} {p : Prop}, settingKey name = key → key ≠ Mtu.key →
      settingKey name = key ∧ (name = "mtu" → p) :=
    fun hk hne => ⟨hk, fun hm => absurd hm (ne_mtu_of_settingKey (hk ▸ hne))⟩
  intro r hr
  cases layer with
  | offload devices settings =>
    cases h
    obtain ⟨q, hq, rfl⟩ := List.mem_map.1 hr
    exact other (Offload.settingKey_of_mem_requests q hq)
      (show Offload.key ≠ Mtu.key by decide)
  | pauseFrames devices p =>
    cases h
    obtain ⟨q, hq, rfl⟩ := List.mem_map.1 hr
    exact other (PauseFrames.settingKey_of_mem_requests q hq)
      (show PauseFrames.key ≠ Mtu.key by decide)
  | mtu devices size =>
    cases h
    rw [List.mem_singleton.1 hr]
    exact ⟨rfl, fun _ => number_of_mtu_targets⟩
  | hashFunction devices function =>
    cases h
    rw [List.mem_singleton.1 hr]
    exact other rfl (show HashFunction.key ≠ Mtu.key by decide)
  | flowHash devices f =>
    cases h
    obtain ⟨q, hq, rfl⟩ := List.mem_map.1 hr
    exact other (FlowHash.settingKey_of_request? (Option.mem_toList.1 hq))
      (show FlowHash.key ≠ Mtu.key by decide)
  | coalescing devices c =>
    exact other (Coalescing.settingKey_of_mem_requests (Option.some.inj h) r hr)
      (show Coalescing.key ≠ Mtu.key by decide)
  | _ => cases h

/-- The layer undoes the entry under a key. -/
def undoes (key : String) : Layer → Bool
  | inert _ => false
  | layer => layer.key == key

theorem key_of_undoes {layer : Layer} {key : String} (h : layer.undoes key = true) :
    layer.key = key := by
  cases layer with
  | inert => cases h
  | _ => exact beq_iff_eq.1 h

theorem undoes_eq_of_requests? {layer : Layer}
    {requests : Except Fault (List (String × List NicTuning.Target))}
    (h : layer.requests? = some requests) (key : String) :
    layer.undoes key = (layer.key == key) := by
  cases layer with
  | inert => cases h
  | _ => rfl

/-- A layer makes changes that it undoes, and gives sizes of packets as numbers. -/
structure Owns (layer : Layer) (c : Change) : Prop where
  undone : layer.undoes c.key = true
  plain : c.IsPlain

theorem Owns.key_eq {layer : Layer} {c : Change} (h : layer.Owns c) : c.key = layer.key :=
  (key_of_undoes h.undone).symm

/-- What is intended for attributes. Nothing is when the parameters are at odds. -/
def requestIntents : Except Fault (List (String × List NicTuning.Target)) → List Intent
  | .ok rs => rs.flatMap fun r => settingIntents r.1 r.2
  | .error _ => []

/-- What a layer intends to change, in order. -/
def intents : Layer → List Intent
  | interrupts devices i => Interrupts.intents devices i
  | qdisc devices streams => Qdisc.intents devices streams
  | queues devices counts => Queues.intents devices counts
  | layer => layer.requests?.elim [] requestIntents

theorem intents_of_requests? {layer : Layer}
    {requests : Except Fault (List (String × List NicTuning.Target))}
    (h : layer.requests? = some requests) : layer.intents = requestIntents requests := by
  cases layer <;> first | exact congrArg (Option.elim · [] requestIntents) h | cases h

theorem flatMap_planSettings (rs : List (String × List NicTuning.Target)) :
    (rs.flatMap fun r => planSettings r.1 r.2) =
      (rs.flatMap fun r => settingIntents r.1 r.2).map Intent.line := by
  rw [List.map_flatMap]
  exact List.flatMap_congr fun r _ => planSettings_eq r.1 r.2

/-- The plan of a layer puts its intents into words. -/
theorem plan_eq (layer : Layer) : layer.plan = layer.intents.map Intent.line := by
  cases layer with
  | interrupts devices i => exact Interrupts.plan_eq devices i
  | qdisc devices streams => exact Qdisc.plan_eq devices streams
  | queues devices counts => exact Queues.plan_eq devices counts
  | offload devices settings =>
    refine Eq.trans ?_ (flatMap_planSettings _)
    rw [List.flatMap_map]
    rfl
  | pauseFrames devices p =>
    refine Eq.trans ?_ (flatMap_planSettings _)
    rw [List.flatMap_map]
    rfl
  | mtu devices size =>
    exact Eq.trans (List.append_nil _).symm (flatMap_planSettings [(Mtu.name, _)])
  | hashFunction devices function =>
    exact Eq.trans (List.append_nil _).symm (flatMap_planSettings [(HashFunction.name, _)])
  | flowHash devices f =>
    refine Eq.trans ?_ (flatMap_planSettings _)
    change (FlowHash.request? f).elim [] _ = _
    cases FlowHash.request? f with
    | none => rfl
    | some r => exact (List.append_nil _).symm
  | coalescing devices c =>
    change Coalescing.plan devices c = (requestIntents (Coalescing.requests devices c)).map _
    unfold Coalescing.plan
    cases Coalescing.requests devices c with
    | error fault => rfl
    | ok rs => exact flatMap_planSettings rs
  | inert key => rfl

/-- A layer intends nothing but what goes under its key. -/
theorem key_of_mem_intents {layer : Layer} {i : Intent} (h : i ∈ layer.intents) :
    i.key = layer.key := by
  cases hr : layer.requests? with
  | some requests =>
    rw [intents_of_requests? hr] at h
    cases requests with
    | error fault => cases h
    | ok rs =>
      obtain ⟨r, hm, hi⟩ := List.mem_flatMap.1 h
      exact (key_of_mem_settingIntents hi).trans (settingKey_of_requests? hr r hm).1
  | none =>
    cases layer with
    | interrupts devices i =>
      obtain ⟨t, -, rfl⟩ := List.mem_map.1 h
      rfl
    | queues devices counts =>
      obtain ⟨t, -, rfl⟩ := List.mem_map.1 h
      rfl
    | qdisc devices streams =>
      change i ∈ Qdisc.intents devices streams at h
      unfold Qdisc.intents at h
      split at h
      · obtain ⟨d, -, rfl⟩ := List.mem_map.1 h
        rfl
      · cases h
    | inert key => cases h
    | _ => cases hr

theorem configure_performs_of_requests? {layer : Layer}
    {requests : Except Fault (List (String × List NicTuning.Target))}
    (h : layer.requests? = some requests) :
    Performs Ledger.note (·.TakesSettings layer.key) (IsSettingOf layer.key) layer.intents
      layer.configure := by
  intro b l hl
  rw [configure_of_requests? h, intents_of_requests? h]
  cases requests with
  | error fault => exact ⟨[], .refl b, rfl, by simp, .stopped fault _⟩
  | ok rs =>
    rw [changeAll_ok]
    refine Performs.forEach isSettingOf_keeps (fun r hr => ?_) b l hl
    obtain ⟨hk, hp⟩ := settingKey_of_requests? h r hr
    exact changeSettings_performs hk hp

/-- A layer on a ledger without an entry of it changes what it intends and records each of its
changes, under its key. -/
theorem configure_performs (layer : Layer) :
    Performs Ledger.note (fun l => l.contains layer.key = false) layer.Owns layer.intents
      layer.configure := by
  cases hr : layer.requests? with
  | some requests =>
    refine (configure_performs_of_requests? hr).mono
      (fun _ => Ledger.takesSettings_of_contains) fun c hc => ?_
    obtain ⟨name, change, rfl, hk, hp⟩ := hc
    exact ⟨(undoes_eq_of_requests? hr _).trans (beq_iff_eq.2 hk.symm), hp⟩
  | none =>
    cases layer with
    | interrupts devices i =>
      refine (Interrupts.configure_performs devices i).mono (fun _ h => h) fun c hc => ?_
      rcases hc with ⟨h, rfl⟩ | ⟨d, rfl⟩ <;> exact ⟨beq_self_eq_true _, trivial⟩
    | qdisc devices streams =>
      refine (Qdisc.configure_performs devices streams).mono (fun _ h => h) fun c hc => ?_
      obtain ⟨change, rfl⟩ := hc
      exact ⟨beq_self_eq_true _, trivial⟩
    | queues devices counts =>
      refine (Queues.configure_performs devices counts).mono (fun _ h => h) fun c hc => ?_
      obtain ⟨change, rfl⟩ := hc
      exact ⟨beq_self_eq_true _, trivial⟩
    | inert key => exact .done
    | _ => cases hr

end NicTuning.Layer
