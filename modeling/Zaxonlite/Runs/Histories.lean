import Zaxonlite.Node.History
import Zaxonlite.Node.Serving
import Zaxonlite.Runs.Anchoring

/-!
# One history across membership changes

A node hashes live entries under its own configuration, which changes only when it hands over; a
restart replays under a cursor that starts at the selected anchor and moves at stop signs. Over runs in
which no anchor is published between a stop sign and its handover the two agree at every slot. An anchor
published in between states the outgoing configuration for a slot after which entries are chosen in the
incoming one, and replay from it diverges.
-/

namespace Zaxonlite

open Program Contiguous Run

variable {databaseId : ℕ}

/-- The slot `createStateAnchor` anchors: the applied one, or where the resync it makes first ends. -/
def Machine.anchorSlot (databaseId : ℕ) (m : Machine) : ℕ :=
  if m.node.needsResync then recoveredSlot databaseId m.resyncDisk else m.node.appliedSlot

/-- No stop sign through the slot to anchor names a later configuration than the node's own. -/
def HandedOver (L : ChosenLog databaseId) (m : Machine) : Prop :=
  (L.state (m.anchorSlot databaseId)).configuration ≤ m.node.identity.configurationId

/-! ### Runs -/

/-- A machine with the crash points of its last operation, and the configuration its identity file named
when that operation began. -/
structure HistorySystem where
  before : ℕ
  machine : Machine

/-- The system after an operation, whether it returns or fails. -/
def HistorySystem.after {α : Type} (s : HistorySystem) (x : Op α) : HistorySystem where
  before := s.machine.node.identity.configurationId
  machine := finalState x s.machine.atRest

/-- Whatever SQLite does on the live connection, and what the node notes of it. -/
def liveConnection (image : Option Image) (wal : List WalTransaction) (dbOpen liveTransaction marked : Bool)
    (captureBatchId : Option ℕ) : Op Unit := do
  emit fun d => { d with image := image, wal := wal }
  setNode fun n => { n with
    dbOpen := dbOpen, liveTransaction := liveTransaction, captureBatchId := captureBatchId
    needsResync := n.needsResync || marked }

/-- What a node does over its life in any number of configurations; it publishes anchors only in states
with the property `ok`. A crash during an operation leaves the identity file as it was or as the operation
writes it. -/
inductive HistoryStep (L : ChosenLog databaseId) (ok : Machine → Prop) :
    HistorySystem → HistorySystem → Prop
  | effects {s : HistorySystem} {rounds : List Effects} : HistoryRounds L s.machine.atRest rounds →
    HistoryStep L ok s (s.after (consumeEffects rounds))
  | journal {s : HistorySystem} {effects : Effects} : effects.committed = [] →
    CoreHistory L s.machine.atRest effects → HistoryStep L ok s (s.after (journalEffects effects))
  | payload {s : HistorySystem} (bytes : List UInt8) : HistoryStep L ok s (s.after (installPayload bytes))
  | connection {s : HistorySystem} (image : Option Image) (wal : List WalTransaction)
    (dbOpen liveTransaction marked : Bool) (captureBatchId : Option ℕ) :
    HistoryStep L ok s (s.after (liveConnection image wal dbOpen liveTransaction marked captureBatchId))
  | reclaim {s : HistorySystem} : s.machine.node.capabilities.materializes = true →
    HistoryStep L ok s (s.after reclaim)
  | resync {s : HistorySystem} : s.machine.node.needsResync = true →
    HistoryStep L ok s (s.after resyncImage)
  | anchor {s : HistorySystem} : ok s.machine → HistoryStep L ok s (s.after createStateAnchor)
  | handover {s : HistorySystem} (decided : Decided) (stop : Option (StopSign × ℕ)) (joining : Bool)
    (campaign : List Effects) :
    (∀ sign slot, stop = some (sign, slot) → 0 < slot ∧ L.entry slot = .stop sign) →
    (∀ next m', Rebuilds decided stop next → takeOver next s.machine.atRest = .ok () m' →
      HistoryRounds L m' campaign) →
    (∀ next m', Rebuilds decided stop next → handOverStart next campaign s.machine.atRest = .ok () m' →
      ok m') →
    HistoryStep L ok s (s.after (completeMembershipChange decided stop joining campaign))
  | restart {s : HistorySystem} {config : Config} {d : Disk} {m : Machine} :
    config.identity.databaseId = databaseId →
    (config.identity.configurationId = s.before ∨
      config.identity.configurationId = s.machine.node.identity.configurationId) →
    LeftOver databaseId s.machine d → materializeFromJournal (Machine.booted config d) = .ok () m →
    HistoryStep L ok s ⟨config.identity.configurationId, m⟩

/-- The systems of runs from a new database on. -/
def HistoryReachable (L : ChosenLog databaseId) (ok : Machine → Prop) : HistorySystem → Prop :=
  Reachable (fun s => ∃ config rotationRecords, config.identity.databaseId = databaseId ∧
    config.identity.configurationId = 1 ∧ s = ⟨1, Machine.fresh config rotationRecords⟩) (HistoryStep L ok)

/-! ### Operations -/

section Operations

variable {L : ChosenLog databaseId} {identity : Identity} {e k : ℕ} {m : Machine}

theorem Historical.atRest (h : Historical L identity e k m) :
    Historical L identity (decidedEnd m.disk) k m.atRest where
  database := h.database
  identified := h.identified
  applied := h.applied
  history := h.history
  queued := h.queued
  kept d hd := by
    rw [List.mem_singleton.1 hd]
    exact ⟨h.disk.1, le_rfl⟩
  applied_le := h.applied_le
  durable_le := h.durable_le

theorem InStep.atRest (h : InStep L identity e k m) : InStep L identity (decidedEnd m.disk) k m.atRest :=
  ⟨h.toHistorical.atRest, le_trans h.reached (L.configuration_mono h.toHistorical.disk.2), h.begun⟩

theorem Historical.inStep (h : Historical L identity e k m) (hend : k = decidedEnd m.disk)
    (hreached : identity.configurationId ≤ (L.state e).configuration) : InStep L identity e k m := by
  refine ⟨h, hreached, fun _ => le_trans hreached (L.configuration_mono ?_)⟩
  rw [hend]
  exact h.disk.2

theorem InStep.wp_resyncImage (h : InStep L identity e k m) (hneeds : m.node.needsResync = true) :
    wp resyncImage
      (fun _ m' => InStep L identity e (recoveredSlot databaseId m.resyncDisk) m' ∧
        identity.configurationId ≤ (L.state (recoveredSlot databaseId m.resyncDisk)).configuration)
      (fun _ m' => ∃ k', InStep L identity e k' m') m := by
  have hdone : ∀ {m' : Machine}, Historical L identity e k m' → m'.node.needsResync = true →
      m'.disk = m.resyncDisk →
      wp (do
        setNode fun n => { n with dbOpen := false }
        setNode fun n => { n with captureBatchId := none }
        materializeFromJournal
        setNode fun n => { n with needsResync := false })
      (fun _ m' => InStep L identity e (recoveredSlot databaseId m.resyncDisk) m' ∧
        identity.configurationId ≤ (L.state (recoveredSlot databaseId m.resyncDisk)).configuration)
      (fun _ m' => ∃ k', InStep L identity e k' m') m' := by
    intro m' hm' hmarked hdisk
    have hready : Historical L identity e k
        { m' with node := { m'.node with dbOpen := false, captureBatchId := none } } :=
      hm'.steady (f := fun n => { n with dbOpen := false, captureBatchId := none })
        (steady_flags fun _ => ⟨rfl, rfl, rfl, rfl, rfl, Or.inl rfl⟩)
    simp only [wp_bind, wp_setNode]
    refine wp_mono hready.wp_materializeFromJournal (fun _ m₁ h₁ => ?_) (fun _ m₁ h₁ => ?_)
    · obtain ⟨hhist, hend⟩ := h₁
      simp only [hdisk] at hhist hend
      have hclear : Historical L identity e (recoveredSlot databaseId m.resyncDisk)
          { m₁ with node := { m₁.node with needsResync := false } } :=
        ⟨hhist.database, hhist.identified, hhist.applied, hhist.history, hhist.queued, hhist.kept,
          hhist.applied_le, hhist.durable_le⟩
      exact ⟨hclear.inStep hend h.reached, (hclear.inStep hend h.reached).begun rfl⟩
    · obtain ⟨⟨k', h'⟩, hkept⟩ := h₁
      refine ⟨k', h', h.reached, fun hno => ?_⟩
      rw [hkept hmarked] at hno
      cases hno
  rw [resyncImage, wp_bind, wp_get, wp_bind, wp_doIf]
  refine ⟨fun hopen => ?_, fun hclosed => ?_⟩
  · have hframe : HistoryFrame fun m' => InStep L identity e k m' := historyFrame_inStep
    have hdisk : wp checkpointWal (fun _ m' => m'.disk = m.disk.closed ∧ m'.node = m.node)
        (fun _ _ => True) m := wp_checkpointWal fun _ => ⟨rfl, rfl⟩
    refine wp_mono (wp_and (hframe.checkpointWal m h) hdisk) ?_ (fun _ _ h' => ⟨k, h'.1⟩)
    rintro ⟨⟩ m' ⟨hm', hclosed, hnode⟩
    refine hdone hm'.toHistorical (hnode ▸ hneeds) ?_
    rw [hclosed, Machine.resyncDisk, if_pos hopen]
  · refine hdone h.toHistorical hneeds ?_
    rw [Machine.resyncDisk, hclosed, if_neg Bool.false_ne_true]

/-- An anchor published in step and handed over states its slot's configuration. -/
theorem InStep.wp_publishStateAnchor (h : InStep L identity e k m)
    (hconf : identity.configurationId = (L.state k).configuration)
    (hslot : m.node.durableStateSlot < m.node.appliedSlot) :
    wp publishStateAnchor (fun _ => InStep L identity e k) (fun _ => InStep L identity e k) m := by
  have hsync : Apart Disk.syncImage := apart_files (fun _ => rfl) fun _ => rfl
  rw [publishStateAnchor, wp_bind, wp_get]
  cases m.disk.image with
  | none => exact h
  | some image =>
    simp only [wp_bind, wp_emit, wp_setNode]
    have hsynced : InStep L identity e k
        { m with disk := m.disk.syncImage, trail := m.trail ++ [m.disk.syncImage] } :=
      h.apart hsync
    have hkept : HistoryKept L { m.disk.syncImage with
        applied := m.disk.applied.publish (m.node.stateAnchor image.content.length) } := by
      have hdisk := hsynced.toHistorical.disk.1
      refine ⟨hdisk.retained, hdisk.chosen, hdisk.window, fun a ha => ?_⟩
      rcases AppliedFiles.holds_publish ha with rfl | hold
      · have hk : (m.node.stateAnchor image.content.length).globalSlot = k := h.applied
        refine ⟨⟨?_, ?_, ?_⟩, ?_⟩
        · rw [hk, ← h.applied]
          exact Nat.zero_lt_of_lt hslot
        · rw [hk]
          exact h.history
        · rw [hk, ← hconf]
          exact congrArg Identity.configurationId h.identified
        · rw [hk]
          exact h.applied_le
      · exact hdisk.anchors a hold
    have hpublished := hsynced.emit hkept le_rfl
    refine ⟨⟨hpublished.database, hpublished.identified, hpublished.applied, hpublished.history,
      hpublished.queued, hpublished.kept, hpublished.applied_le, ?_⟩, hpublished.reached, hpublished.begun⟩
    change m.node.appliedSlot ≤ _
    rw [h.applied]
    exact hpublished.applied_le

theorem InStep.wp_anchorState (h : InStep L identity e k m)
    (hover : (L.state k).configuration ≤ identity.configurationId)
    (hbegun : identity.configurationId ≤ (L.state k).configuration) :
    wp anchorState (fun _ => InStep L identity e k) (fun _ => InStep L identity e k) m := by
  have heq : identity.configurationId = (L.state k).configuration := le_antisymm hbegun hover
  simp only [anchorState, wp_bind, wp_get, wp_refuseIf, wp_doIf]
  refine ⟨fun _ => h, fun _ => ⟨fun _ => h, fun _ => ⟨fun hslot => ?_, fun _ => h⟩⟩⟩
  have hlt : m.node.durableStateSlot < m.node.appliedSlot := of_decide_eq_true hslot
  refine ⟨fun _ => ?_, fun _ => h.wp_publishStateAnchor heq hlt⟩
  have hnode : wp checkpointWal (fun _ m' => m'.node = m.node) (fun _ _ => True) m :=
    wp_checkpointWal fun _ => rfl
  refine wp_mono (wp_and (historyFrame_inStep.checkpointWal m h) hnode) ?_ (fun _ _ h' => h'.1)
  rintro ⟨⟩ m' ⟨hm', hsame⟩
  refine hm'.wp_publishStateAnchor heq ?_
  rwa [hsame]

/-- `createStateAnchor` once every stop sign below is handed over. -/
theorem InStep.wp_createStateAnchor (h : InStep L identity e k m) (hover : HandedOver L m) :
    wp createStateAnchor (fun _ m' => ∃ k', InStep L identity e k' m')
      (fun _ m' => ∃ k', InStep L identity e k' m') m := by
  rw [HandedOver, h.identified] at hover
  simp only [createStateAnchor, wp_bind, wp_get, wp_refuseIf, wp_doIf]
  refine ⟨fun _ => ⟨k, h⟩, fun _ => ⟨fun _ => ⟨k, h⟩, fun _ => ⟨fun hneeds => ?_, fun hneeds => ?_⟩⟩⟩
  · rw [Machine.anchorSlot, if_pos hneeds] at hover
    refine wp_mono (h.wp_resyncImage hneeds) ?_ (fun _ _ h' => h')
    rintro ⟨⟩ m₁ ⟨h₁, hbegun⟩
    exact wp_mono (h₁.wp_anchorState hover hbegun) (fun _ _ h' => ⟨_, h'⟩) fun _ _ h' => ⟨_, h'⟩
  · rw [Machine.anchorSlot, hneeds, if_neg Bool.false_ne_true, h.applied] at hover
    exact wp_mono (h.wp_anchorState hover (h.begun hneeds)) (fun _ _ h' => ⟨k, h'⟩) fun _ _ h' => ⟨k, h'⟩

theorem HistoryKept.trimThrough {d : Disk} (h : HistoryKept L d) {floor : ℕ} (hfloor : floor ≤ decidedEnd d) :
    HistoryKept L { d with journal := (d.journal.trimThrough floor).2 } ∧
      decidedEnd { d with journal := (d.journal.trimThrough floor).2 } = decidedEnd d := by
  have hretained : d.journal.retainedFirstSlot = d.journal.retainedFirstSlot - 1 + 1 :=
    (Nat.sub_add_cancel h.retained).symm
  obtain ⟨lo', -, -, hnew, hsub, hwindow, hsame⟩ := d.journal.trimThrough_spec hretained h.window hfloor
  have hend : decidedEnd { d with journal := (d.journal.trimThrough floor).2 } = decidedEnd d := by
    simp only [decidedEnd, committedEnd, hnew, Nat.add_sub_cancel, hsame]
  refine ⟨⟨?_, fun s v hmem => h.chosen s v (hsub _ hmem), ?_, fun a ha => ?_⟩, hend⟩
  · simp only [hnew]
    omega
  · simp only [hnew, Nat.add_sub_cancel]
    exact hwindow
  · rw [hend]
    exact h.anchors a ha

theorem InStep.wp_reclaim (h : InStep L identity e k m) (hcaps : m.node.capabilities.materializes = true) :
    wp reclaim (fun _ => InStep L identity e k) (fun _ => InStep L identity e k) m := by
  have hfloor : m.node.deleteFloor ≤ decidedEnd m.disk := by
    refine le_trans ?_ h.durable_le
    rw [Node.deleteFloor, hcaps, if_pos rfl]
    exact le_trans (deleteFloor_le _ _ _ _) (min_le_right _ _)
  obtain ⟨hkept, hend⟩ := h.toHistorical.disk.1.trimThrough hfloor
  have htrimmed := h.emit hkept hend.ge
  have hsweep : Maintains (InStep L identity e k) (do
      sweepPayloads
      setNode fun n => { n with sweptTrimDecisionSlot := n.trimState.decisionSlot }) :=
    Maintains.bind (historyFrame_inStep.apart (apart_files (fun _ => rfl) fun _ => rfl)) fun _ =>
      historyFrame_inStep.steady (steady_flags fun _ => ⟨rfl, rfl, rfl, rfl, rfl, Or.inl rfl⟩)
  rw [reclaim, wp_bind, wp_get, wp_doIf]
  refine ⟨fun _ => ?_, fun _ => h⟩
  rw [reclaimThrough, wp_bind, wp_get, wp_bind, wp_emit]
  exact maintains_doIf _ hsweep _ htrimmed

/-- Taking over the configuration of an applied stop sign. -/
theorem InStep.wp_takeOver (h : InStep L identity e k m) {sign : StopSign} {slot : ℕ} {next : Decided}
    (hpos : 0 < slot) (hentry : L.entry slot = .stop sign) (hslot : slot ≤ k)
    (hend : decidedEnd m.disk = e) (hnext : next.configurationId = sign.configurationId) :
    wp (takeOver next)
      (fun _ => InStep L { identity with configurationId := next.configurationId } e k)
      (fun _ => InStep L { identity with configurationId := next.configurationId } e k) m := by
  have hstop := L.stop_le_configuration hpos hentry
  have htaken : InStep L { identity with configurationId := next.configurationId } e k
      { m with node := m.node.inConfiguration next.configurationId } := by
    refine ⟨⟨h.database, ?_, h.applied, h.history, h.queued, h.kept, h.applied_le, h.durable_le⟩, ?_,
      fun _ => ?_⟩
    · simp only [Node.inConfiguration, h.identified]
    · simp only [hnext]
      refine le_trans hstop (L.configuration_mono (le_trans hslot ?_))
      rw [← hend]
      exact h.applied_le
    · simp only [hnext]
      exact le_trans hstop (L.configuration_mono hslot)
  rw [takeOver, wp_bind, wp_setNode]
  refine Maintains.bind maintains_get (fun m' => (maintains_refuseIf _ _).bind fun _ => ?_) _ htaken
  exact historyFrame_inStep.steady (steady_flags fun _ => ⟨rfl, rfl, rfl, rfl, rfl, Or.inl rfl⟩)

theorem configurationId_reconstructNextRegistry {decided next : Decided} {parsed : StopMetadata}
    {configurationId : ℕ} (h : decided.reconstructNextRegistry parsed configurationId = .ok next) :
    next.configurationId = configurationId := by
  rw [Decided.reconstructNextRegistry] at h
  split at h
  · rename_i hid
    split at h
    · rwa [← Except.ok.inj h]
    · cases h
  · split at h
    · cases h
    · split at h
      · cases h
      · rename_i hid
        split at h
        · cases h
        · rw [← Except.ok.inj h]
          exact not_not.1 hid

/-- The handover, in step with the stop sign it completes. -/
theorem InStep.wp_completeMembershipChange (h : InStep L identity e k m) (hend : decidedEnd m.disk = e)
    (decided : Decided) {stop : Option (StopSign × ℕ)} (joining : Bool) {campaign : List Effects}
    (hstop : ∀ sign slot, stop = some (sign, slot) → 0 < slot ∧ L.entry slot = .stop sign)
    (hcampaign : ∀ next m', Rebuilds decided stop next → takeOver next m = .ok () m' →
      HistoryRounds L m' campaign)
    (hover : ∀ next m', Rebuilds decided stop next → handOverStart next campaign m = .ok () m' →
      HandedOver L m') :
    wp (completeMembershipChange decided stop joining campaign)
      (fun _ m' => ∃ identity' k', InStep L identity' e k' m')
      (fun _ m' => ∃ identity' k', InStep L identity' e k' m') m := by
  rw [completeMembershipChange, wp_bind, wp_get]
  cases stop with
  | none => exact ⟨identity, k, h⟩
  | some stop =>
    obtain ⟨sign, slot⟩ := stop
    obtain ⟨hpos, hentry⟩ := hstop sign slot rfl
    simp only [wp_bind, wp_refuseIf]
    refine ⟨fun _ => ⟨identity, k, h⟩, fun happlied => ?_⟩
    have hslot : slot ≤ k := by
      rw [h.applied] at happlied
      exact Nat.le_of_not_lt (of_decide_eq_false happlied)
    cases hparse : parseStopMetadata sign.metadata with
    | error _ => exact ⟨identity, k, h⟩
    | ok parsed =>
      simp only [wp_bind, wp_refuseIf]
      refine ⟨fun _ => ⟨identity, k, h⟩, fun _ => ?_⟩
      cases hnext : decided.reconstructNextRegistry parsed sign.configurationId with
      | error _ => exact ⟨identity, k, h⟩
      | ok next =>
        have hrebuilds : Rebuilds decided (some (sign, slot)) next := ⟨sign, slot, parsed, rfl, hparse, hnext⟩
        have htake := h.wp_takeOver hpos hentry hslot hend (configurationId_reconstructNextRegistry hnext)
        have hstart : wp (handOverStart next campaign)
            (fun _ m' => ∃ k', InStep L { identity with configurationId := next.configurationId } e k' m')
            (fun _ m' => ∃ k', InStep L { identity with configurationId := next.configurationId } e k' m')
            m := by
          rw [handOverStart, wp_bind]
          refine wp_mono (wp_and (wp_self _ m) htake) ?_ (fun _ _ h' => ⟨k, h'.2⟩)
          rintro ⟨⟩ m₁ ⟨hok, h₁⟩
          rw [wp_bind, wp_get, wp_doIf]
          exact ⟨fun _ => h₁.wp_consumeEffects (hcampaign next m₁ hrebuilds hok), fun _ => ⟨k, h₁⟩⟩
        simp only [wp_bind]
        rw [handOver_eq, wp_bind]
        refine wp_mono (wp_and (wp_self _ m) hstart) ?_ (fun _ _ h' => ⟨_, h'.2⟩)
        rintro ⟨⟩ m₂ ⟨hok, k₂, h₂⟩
        have hclear : Steady fun n => { n with membershipChangePending := false } :=
          steady_flags fun _ => ⟨rfl, rfl, rfl, rfl, rfl, Or.inl rfl⟩
        simp only [wp_bind, wp_get, wp_doIf, wp_setNode, wp_pure]
        refine ⟨fun _ => ?_, fun _ => ⟨_, k₂, h₂.steady hclear⟩⟩
        refine wp_mono (h₂.wp_createStateAnchor (hover next m₂ hrebuilds hok)) ?_ (fun _ _ h' => ⟨_, h'⟩)
        rintro ⟨⟩ m₃ ⟨k₃, h₃⟩
        exact ⟨_, k₃, h₃.steady hclear⟩

end Operations

/-! ### Every step -/

section Steps

variable {L : ChosenLog databaseId} {s s' : HistorySystem}

/-- The machine is in step, and every identity its file can hold is that of a configuration every crash
point has decided. -/
def HistorySystem.Sound (L : ChosenLog databaseId) (s : HistorySystem) : Prop :=
  ∃ e k, InStep L s.machine.node.identity e k s.machine ∧ s.before ≤ (L.state e).configuration

theorem InStep.sound {identity : Identity} {e k before : ℕ} {m : Machine} (h : InStep L identity e k m)
    (hbefore : before ≤ (L.state e).configuration) : HistorySystem.Sound L ⟨before, m⟩ := by
  obtain rfl := h.identified
  exact ⟨e, k, h, hbefore⟩

/-- An operation that keeps the machine in step keeps the system sound. -/
theorem HistorySystem.Sound.after {α : Type} (h : HistorySystem.Sound L s) (x : Op α)
    (hx : ∀ e k, decidedEnd s.machine.disk = e →
      InStep L s.machine.node.identity e k s.machine.atRest →
      wp x (fun _ m' => ∃ identity k', InStep L identity e k' m')
        (fun _ m' => ∃ identity k', InStep L identity e k' m') s.machine.atRest) :
    HistorySystem.Sound L (s.after x) := by
  obtain ⟨e, k, hstep, -⟩ := h
  have hrest := hstep.atRest
  obtain ⟨identity, k', h'⟩ := finalState_of_wp (hx _ k rfl hrest)
  exact h'.sound hrest.reached

theorem HistorySystem.Sound.maintained {α : Type} (h : HistorySystem.Sound L s) {x : Op α}
    (hx : ∀ identity e k, Maintains (InStep L identity e k) x) : HistorySystem.Sound L (s.after x) := by
  refine h.after x fun e k _ hrest => ?_
  exact wp_mono (hx _ e k _ hrest) (fun _ _ h' => ⟨_, k, h'⟩) fun _ _ h' => ⟨_, k, h'⟩

/-- A process started on a disk that keeps the history has that of nothing yet. -/
theorem historical_booted {config : Config} {e : ℕ} {d : Disk} (hdb : config.identity.databaseId = databaseId)
    (hkept : HistoryKept L d) (he : e ≤ decidedEnd d) :
    Historical L config.identity e 0 (Machine.booted config d) := by
  refine ⟨hdb, rfl, rfl, ?_, fun w hw => absurd hw List.not_mem_nil, fun d' hd' => ?_, Nat.zero_le _,
    Nat.zero_le _⟩
  · rw [L.state_zero, ← hdb]
    rfl
  · obtain rfl := List.mem_singleton.1 hd'
    exact ⟨hkept.congr rfl rfl rfl, he⟩

/-- What a process that died leaves keeps the history, as far as any of its crash points. -/
theorem Historical.leftOver {identity : Identity} {e k : ℕ} {m : Machine}
    (h : Historical L identity e k m) {d : Disk} (hd : LeftOver databaseId m d) :
    HistoryKept L d ∧ e ≤ decidedEnd d := by
  induction hd with
  | crash hcrash => exact h.kept _ hcrash
  | image image hd ih => exact ⟨ih.1.congr rfl rfl rfl, ih.2⟩
  | @attempt config d d' err m' hdb hd herror hcrash ih =>
    have hdone := (historical_booted hdb ih.1 ih.2).wp_materializeFromJournal
    simp only [wp, herror] at hdone
    obtain ⟨⟨k', h'⟩, -⟩ := hdone
    exact h'.kept d' hcrash

/-- A restart of a process under an identity its file can hold. -/
theorem HistorySystem.Sound.restarted (h : HistorySystem.Sound L s) {config : Config} {d : Disk} {m : Machine}
    (hdb : config.identity.databaseId = databaseId)
    (hid : config.identity.configurationId = s.before ∨
      config.identity.configurationId = s.machine.node.identity.configurationId)
    (hd : LeftOver databaseId s.machine d)
    (hok : materializeFromJournal (Machine.booted config d) = .ok () m) :
    ∃ e k, InStep L config.identity e k m := by
  obtain ⟨e, k, hstep, hbefore⟩ := h
  obtain ⟨hkept, he⟩ := hstep.toHistorical.leftOver hd
  have hreached : config.identity.configurationId ≤ (L.state e).configuration := by
    rcases hid with hid | hid
    · rw [hid]
      exact hbefore
    · rw [hid]
      exact hstep.reached
  have hdone := (historical_booted hdb hkept he).wp_materializeFromJournal
  simp only [wp, hok] at hdone
  exact ⟨e, _, hdone.1.inStep hdone.2 hreached⟩

theorem HistorySystem.Sound.step (h : HistorySystem.Sound L s) (hstep : HistoryStep L (HandedOver L) s s') :
    HistorySystem.Sound L s' := by
  cases hstep with
  | effects hcore =>
    refine h.after _ fun e k _ hrest => ?_
    exact wp_mono (hrest.wp_consumeEffects hcore) (fun _ _ h' => ⟨_, h'⟩) fun _ _ h' => ⟨_, h'⟩
  | journal hnone hcore =>
    refine h.after _ fun e k _ hrest => ?_
    refine wp_mono (hrest.wp_journalEffects fun pre t v post hsplit => ⟨?_, ?_⟩)
      (fun _ _ h' => ⟨_, k, h'.1⟩) (fun _ _ hno => hno.elim)
    · exact hcore.chosen t v (by rw [hsplit]; simp)
    · have hwin := hcore.window pre t v post hsplit
      rwa [hrest.applied] at hwin
  | payload bytes =>
    exact h.maintained (x := installPayload bytes) fun _ _ _ =>
      historyFrame_inStep.apart (apart_files (fun _ => rfl) fun _ => rfl)
  | connection image wal dbOpen liveTransaction marked captureBatchId =>
    refine h.maintained fun _ _ _ => Maintains.bind
      (historyFrame_inStep.apart (apart_files (fun _ => rfl) fun _ => rfl)) fun _ =>
      historyFrame_inStep.steady (steady_flags fun n => ⟨rfl, rfl, rfl, rfl, rfl, ?_⟩)
    cases marked with
    | false => exact Or.inl (Bool.or_false _)
    | true => exact Or.inr (Bool.or_true _)
  | reclaim hcaps =>
    refine h.after _ fun e k _ hrest => ?_
    exact wp_mono (hrest.wp_reclaim hcaps) (fun _ _ h' => ⟨_, k, h'⟩) fun _ _ h' => ⟨_, k, h'⟩
  | resync hneeds =>
    refine h.after _ fun e k _ hrest => ?_
    exact wp_mono (hrest.wp_resyncImage hneeds) (fun _ _ h' => ⟨_, _, h'.1⟩) fun _ _ h' => ⟨_, h'⟩
  | anchor hover =>
    refine h.after _ fun e k _ hrest => ?_
    exact wp_mono (hrest.wp_createStateAnchor hover) (fun _ _ h' => ⟨_, h'⟩) fun _ _ h' => ⟨_, h'⟩
  | handover decided stop joining campaign hstop hcampaign hover =>
    refine h.after _ fun e k hend hrest => ?_
    exact hrest.wp_completeMembershipChange hend decided joining hstop hcampaign hover
  | restart hdb hid hd hok =>
    obtain ⟨e, k, hinstep⟩ := h.restarted hdb hid hd hok
    exact hinstep.sound hinstep.reached

theorem sound_of_reachable (hrun : HistoryReachable L (HandedOver L) s) : HistorySystem.Sound L s := by
  refine hrun.invariant (fun s₀ hinit => ?_) fun _ _ h hstep => h.step hstep
  obtain ⟨config, rotationRecords, hdb, hconf, rfl⟩ := hinit
  have hkept : HistoryKept L (Disk.blank rotationRecords) := by
    refine ⟨le_rfl, fun t v hmem => absurd hmem List.not_mem_nil, inWindow_nil _ _, fun a ha => ?_⟩
    rcases ha with ha | ha <;> cases ha
  have hone : (1 : ℕ) ≤ (L.state 0).configuration := by
    rw [L.state_zero]
    rfl
  refine ⟨0, 0, ⟨⟨hdb, rfl, rfl, ?_, fun w hw => absurd hw List.not_mem_nil, fun d hd => ?_, Nat.zero_le _,
    Nat.zero_le _⟩, hconf ▸ hone, fun _ => hconf ▸ hone⟩, hone⟩
  · rw [L.state_zero, ← hdb]
    rfl
  · rw [List.mem_singleton.1 hd]
    exact ⟨hkept, Nat.zero_le _⟩

end Steps

/-- **One history.** In every run in which no anchor is published between a stop sign and its handover,
the history a node holds live is the fold of the chosen entries, each hashed under the configuration it
was chosen in, and so is the history a restart from any crash point replays. -/
theorem HistoryReachable.replays_live_history (L : ChosenLog databaseId) {s : HistorySystem}
    (hrun : HistoryReachable L (HandedOver L) s) :
    s.machine.node.historyHash = (L.state s.machine.node.appliedSlot).historyHash ∧
      ∀ (config : Config) (d : Disk) (m : Machine), config.identity.databaseId = databaseId →
        (config.identity.configurationId = s.before ∨
          config.identity.configurationId = s.machine.node.identity.configurationId) →
        LeftOver databaseId s.machine d → materializeFromJournal (Machine.booted config d) = .ok () m →
        m.node.historyHash = (L.state m.node.appliedSlot).historyHash := by
  have h := sound_of_reachable hrun
  refine ⟨?_, fun config d m hdb hid hd hok => ?_⟩
  · obtain ⟨e, k, hstep, -⟩ := h
    rw [hstep.applied]
    exact hstep.history
  · obtain ⟨e, k, hstep⟩ := h.restarted hdb hid hd hok
    rw [hstep.applied]
    exact hstep.history

/-! ### A rollover -/

/-- The digest of the sample registry rolled over to its second configuration. -/
def rolledDigest : HashBytes :=
  #v[80, 25, 15, 108, 253, 37, 226, 200, 250, 51, 188, 57, 185, 195, 193, 60, 19, 12, 130, 40,
    129, 21, 230, 142, 88, 144, 139, 113, 144, 62, 232, 121]

def rollStop : StopSign where
  configurationId := 2
  members := [1, 2, 3]
  metadata := asciiBytes "zx3" ++ 32 :: Hex.ofBytes rolledDigest.toList

theorem isSome_fold {payloads : PayloadStore} {entries : ℕ → Entry}
    (h : ∀ s batch, entries s ≠ .command (.transactionBatch batch)) (n : ℕ) :
    (Materialized.fold databaseId payloads entries n).isSome := by
  induction n with
  | zero => rfl
  | succ n ih =>
    obtain ⟨state, hstate⟩ := Option.isSome_iff_exists.1 ih
    rw [Materialized.fold, hstate, Option.bind_some]
    cases hentry : entries (n + 1) with
    | stop stop => rfl
    | command cmd =>
      cases cmd with
      | transactionBatch batch => exact absurd hentry (h _ _)
      | noop => rfl
      | readBarrier nonce => rfl
      | trim record => rfl
      | transferLease lease => rfl
      | leaseComplete leaseId => rfl

/-- The log whose first entry is the stop sign. -/
def rollLog : ChosenLog 7 where
  entry s := if s = 1 then .stop rollStop else .command .noop
  payloads := PayloadStore.empty
  valid := isSome_fold fun s batch => by split <;> simp

theorem coreHistory_commitOne {L : ChosenLog databaseId} {m : Machine} {slot : ℕ}
    (hslot : slot = m.node.appliedSlot + 1)
    (hconf : (L.state (slot - 1)).configuration = m.node.identity.configurationId) :
    CoreHistory L m (commitOne L slot) where
  chosen t v h := by
    simp only [commitOne, List.mem_singleton, Write.commit.injEq] at h
    rw [h.2, h.1]
  window pre t v post h := by
    have hmem : Write.commit t v ∈ (commitOne L slot).writes := by
      rw [h]
      simp
    simp only [commitOne, List.mem_singleton, Write.commit.injEq] at hmem
    have hle := base_le_runEnd (commitSlots (m.disk.journal.records ++ pre)) m.node.appliedSlot
    rw [hmem.1, hslot, windowSlots]
    omega
  committed := by
    rw [hslot]
    rfl
  configured entry hentry := by
    obtain rfl : entry = (slot, L.entry slot) := by simpa [commitOne] using hentry
    exact hconf
  journaled entry hentry := by
    obtain rfl : entry = (slot, L.entry slot) := by simpa [commitOne] using hentry
    exact mem_commitSlots.2 ⟨_, List.mem_append_right _ (List.mem_singleton_self _)⟩

theorem HistoryReachable.commitOne {L : ChosenLog databaseId} {ok : Machine → Prop} {s : HistorySystem}
    (h : HistoryReachable L ok s) {slot : ℕ} (hslot : slot = s.machine.node.appliedSlot + 1)
    (hconf : (L.state (slot - 1)).configuration = s.machine.node.identity.configurationId) :
    HistoryReachable L ok (s.after (consumeEffects [commitOne L slot])) :=
  .step h (.effects ⟨coreHistory_commitOne hslot hconf, fun _ _ => trivial⟩)

/-- A new node that has applied the stop sign. -/
def stopped : HistorySystem :=
  (HistorySystem.mk 1 (withoutImage (Disk.blank 8))).after (consumeEffects [commitOne rollLog 1])

theorem reachable_stopped (ok : Machine → Prop) : HistoryReachable rollLog ok stopped := by
  have hfresh : HistoryReachable rollLog ok ⟨1, Machine.fresh sampleConfig 8⟩ :=
    .start ⟨sampleConfig, 8, rfl, rfl, rfl⟩
  have hcreated : HistoryReachable rollLog ok ⟨1, withoutImage (Disk.blank 8)⟩ :=
    .step hfresh (.restart (m := withoutImage (Disk.blank 8)) (d := { Disk.blank 8 with image := none })
      rfl (Or.inl rfl) (.image none (.crash List.mem_cons_self)) rfl)
  exact hcreated.commitOne rfl rfl

theorem parse_rollStop : parseStopMetadata rollStop.metadata = .ok ⟨rolledDigest, none⟩ := by
  rfl

theorem digest_rolledOver : Decided.sampleRegistry.rolledOver.digest = rolledDigest := by
  decide +kernel

theorem reconstruct_rollStop : Decided.sampleRegistry.reconstructNextRegistry ⟨rolledDigest, none⟩ 2 =
    .ok Decided.sampleRegistry.rolledOver := by
  refine Decided.reconstructNextRegistry_of_candidate (by decide) ?_ rfl digest_rolledOver
  exact (Decided.checkpointSuccessor_eq_ok Decided.sampleRegistry_valid).2 ⟨by decide, rfl⟩

/-- A survivor that rebuilds the registry goes through with the handover. -/
theorem completeMembershipChange_eq {decided next : Decided} {sign : StopSign} {parsed : StopMetadata}
    {slot : ℕ} {joining : Bool} {campaign : List Effects} {m : Machine}
    (happlied : slot ≤ m.node.appliedSlot) (hparse : parseStopMetadata sign.metadata = .ok parsed)
    (hmember : sign.members.contains m.node.identity.nodeId = true)
    (hnext : decided.reconstructNextRegistry parsed sign.configurationId = .ok next) :
    completeMembershipChange decided (some (sign, slot)) joining campaign m =
      (handOver next joining campaign >>= fun _ => pure next) m := by
  have hget : ∀ f : Machine → Op Decided, (get >>= f) m = f m m := fun _ => rfl
  have hadmit : ∀ (e : NodeError) (f : Unit → Op Decided), (refuseIf false e >>= f) m = f () m :=
    fun _ _ => rfl
  have hslot : decide (m.node.appliedSlot < slot) = false := decide_eq_false (Nat.not_lt_of_le happlied)
  rw [completeMembershipChange, hget]
  simp only [hslot, hadmit, hparse, hmember, Bool.not_true, Bool.and_false, hnext]

/-- The node after the handover, from a state it has nothing left to anchor in. -/
def takenOver (m : Machine) : Machine :=
  { m with
    node := { m.node.inConfiguration 2 with single := false, membershipChangePending := false }
    trail := [] }

/-- The handover of the sample node to the rolled registry. -/
def rolled (s : HistorySystem) : HistorySystem :=
  s.after (completeMembershipChange Decided.sampleRegistry (some (rollStop, 1)) false [])

/-- The stop sign is anchored before its handover. -/
def anchoredStop : HistorySystem :=
  stopped.after createStateAnchor

theorem machine_rolled : (rolled anchoredStop).machine = takenOver anchoredStop.machine := by
  have hrun : completeMembershipChange Decided.sampleRegistry (some (rollStop, 1)) false []
      anchoredStop.machine.atRest =
      (handOver Decided.sampleRegistry.rolledOver false [] >>= fun _ =>
        pure Decided.sampleRegistry.rolledOver) anchoredStop.machine.atRest :=
    completeMembershipChange_eq (by decide) parse_rollStop (by decide) reconstruct_rollStop
  rw [rolled, HistorySystem.after, finalState, hrun]
  rfl

/-- One more slot is applied in the second configuration. -/
def resumed : HistorySystem :=
  (rolled anchoredStop).after (consumeEffects [commitOne rollLog 2])

/-- The sample node's identity in the second configuration. -/
def rolledConfig : Config :=
  { sampleConfig with identity := ⟨7, 1, 2⟩ }

/-- The sample node started again. -/
def replayed : Machine :=
  finalState materializeFromJournal (Machine.booted rolledConfig resumed.machine.disk)

theorem rolls_over (s : HistorySystem) (ok : Machine → Prop) (hs : HistoryReachable rollLog ok s)
    (hok : ∀ m', handOverStart Decided.sampleRegistry.rolledOver [] s.machine.atRest = .ok () m' → ok m') :
    HistoryReachable rollLog ok (rolled s) := by
  refine .step hs (.handover Decided.sampleRegistry (some (rollStop, 1)) false [] ?_ ?_ ?_)
  · intro sign slot heq
    obtain ⟨rfl, rfl⟩ := Prod.mk.inj (Option.some.inj heq)
    exact ⟨Nat.one_pos, rfl⟩
  · exact fun _ _ _ _ => trivial
  · rintro next m' ⟨sign, slot, parsed, heq, hparse, hnext⟩ hstart
    obtain ⟨rfl, rfl⟩ := Prod.mk.inj (Option.some.inj heq)
    obtain rfl := Except.ok.inj (parse_rollStop.symm.trans hparse)
    obtain rfl := Except.ok.inj (reconstruct_rollStop.symm.trans hnext)
    exact hok m' hstart

theorem reachable_resumed : HistoryReachable rollLog (fun _ => True) resumed := by
  have hanchored : HistoryReachable rollLog (fun _ => True) anchoredStop :=
    .step (reachable_stopped _) (.anchor trivial)
  have hrolled := rolls_over anchoredStop _ hanchored fun _ _ => trivial
  refine hrolled.commitOne ?_ ?_
  · rw [machine_rolled]
    rfl
  · rw [machine_rolled]
    rfl

theorem machine_resumed : resumed.machine =
    finalState (consumeEffects [commitOne rollLog 2]) (takenOver anchoredStop.machine) := by
  rw [resumed, HistorySystem.after, machine_rolled]
  rfl

/-- The history after the stop sign. -/
def rollHistory : HashBytes :=
  History.advance (History.genesis 7) 7 1 1 (.stop rollStop)

theorem historyHash_resumed : resumed.machine.node.historyHash =
    History.advance rollHistory 7 2 2 (.command .noop) := by
  rw [machine_resumed]
  rfl

theorem replay_resumed : materializeFromJournal (Machine.booted rolledConfig resumed.machine.disk) =
    .ok () replayed := by
  rw [replayed, machine_resumed]
  rfl

theorem historyHash_replayed : replayed.node.historyHash =
    History.advance rollHistory 7 1 2 (.command .noop) := by
  rw [replayed, machine_resumed]
  rfl

/-! The digests below are evaluated, so that the two histories can be told apart. -/

def genesisDigest : HashBytes :=
  #v[165, 44, 167, 244, 111, 253, 143, 187, 238, 130, 214, 122, 132, 40, 103, 100, 140, 41, 20, 181,
    152, 69, 73, 110, 186, 154, 169, 26, 197, 143, 147, 179]

def stopLeaf : HashBytes :=
  #v[193, 191, 191, 253, 195, 135, 185, 168, 110, 80, 147, 231, 139, 117, 229, 94, 55, 160, 204, 242,
    15, 223, 113, 138, 254, 47, 144, 7, 143, 160, 218, 23]

def stopDigest : HashBytes :=
  #v[2, 60, 76, 4, 250, 123, 179, 95, 81, 166, 25, 37, 175, 75, 131, 108, 91, 87, 158, 139,
    212, 136, 143, 196, 137, 34, 168, 141, 149, 232, 194, 241]

def outgoingLeaf : HashBytes :=
  #v[131, 77, 168, 182, 125, 80, 85, 208, 93, 48, 137, 207, 219, 225, 136, 232, 225, 238, 105, 194,
    156, 10, 223, 252, 126, 81, 118, 111, 183, 141, 135, 225]

def incomingLeaf : HashBytes :=
  #v[124, 8, 172, 26, 178, 193, 169, 53, 227, 205, 192, 37, 110, 119, 173, 44, 234, 99, 63, 103,
    234, 59, 243, 45, 109, 211, 208, 58, 8, 113, 77, 1]

/-- One evaluation for all of them. -/
theorem digests_evaluated :
    History.genesis 7 = genesisDigest ∧ History.leafHash 7 1 1 (.stop rollStop) = stopLeaf ∧
      History.step genesisDigest stopLeaf = stopDigest ∧
      History.leafHash 7 1 2 (.command .noop) = outgoingLeaf ∧
      History.leafHash 7 2 2 (.command .noop) = incomingLeaf ∧
      History.step stopDigest outgoingLeaf ≠ History.step stopDigest incomingLeaf := by
  decide +kernel

theorem rollHistory_eq : rollHistory = stopDigest := by
  obtain ⟨hgenesis, hleaf, hstep, -⟩ := digests_evaluated
  rw [rollHistory, History.advance, hgenesis, hleaf, hstep]

/-- Replay from the anchor published before the handover hashes the next slot under the outgoing
configuration, where the node had hashed it live under the incoming one. -/
theorem pending_anchor_replays_another_history :
    HistoryReachable rollLog (fun _ => True) resumed ∧
      rolledConfig.identity.configurationId = resumed.machine.node.identity.configurationId ∧
      LeftOver 7 resumed.machine resumed.machine.disk ∧
      materializeFromJournal (Machine.booted rolledConfig resumed.machine.disk) = .ok () replayed ∧
      replayed.node.appliedSlot = resumed.machine.node.appliedSlot ∧
      replayed.node.historyHash ≠ resumed.machine.node.historyHash := by
  refine ⟨reachable_resumed, ?_, .crash List.mem_cons_self, replay_resumed, ?_, ?_⟩
  · rw [machine_resumed]
    rfl
  · rw [replayed, machine_resumed]
    rfl
  · obtain ⟨-, -, -, houtgoing, hincoming, hne⟩ := digests_evaluated
    rw [historyHash_replayed, historyHash_resumed, rollHistory_eq, History.advance, History.advance, houtgoing,
      hincoming]
    exact hne

/-! ### A handover in time -/

theorem handedOver_stopped {m' : Machine}
    (h : handOverStart Decided.sampleRegistry.rolledOver [] stopped.machine.atRest = .ok () m') :
    HandedOver rollLog m' := by
  have hrun : handOverStart Decided.sampleRegistry.rolledOver [] stopped.machine.atRest = .ok ()
      { stopped.machine.atRest with node := { stopped.machine.node.inConfiguration 2 with single := false } } :=
    rfl
  rw [hrun] at h
  injection h with _ hm
  rw [← hm]
  exact le_rfl

theorem reachable_rolled_stopped : HistoryReachable rollLog (HandedOver rollLog) (rolled stopped) :=
  rolls_over stopped _ (reachable_stopped _) fun _ h => handedOver_stopped h

theorem replays_live_history_rolled :
    HistoryReachable rollLog (HandedOver rollLog) (rolled stopped) ∧
      (rolled stopped).machine.node.historyHash =
        (rollLog.state (rolled stopped).machine.node.appliedSlot).historyHash :=
  ⟨reachable_rolled_stopped, (HistoryReachable.replays_live_history rollLog reachable_rolled_stopped).1⟩

end Zaxonlite
