import Zaxonlite.Node.Serving

/-!
# Anchors and writes of a data voter

Every entry point that may find the image marked for a resync runs the resync first; what follows is
about runs in which each of those resyncs closes cleanly. A write opens the connection if it is closed,
commits its transaction on it and appends the descriptor.
-/

namespace Zaxonlite

open Program Contiguous

variable {databaseId : ℕ}

section Anchor

variable {L : ChosenLog databaseId} {caps : Capabilities} {configuration lo n : ℕ} {m : Machine}

theorem keeps_checkpointWal : Keeps Machine.anchorView checkpointWal := by
  refine keeps_get.bind fun m => Keeps.bind (Keeps.forM (fun t => ?_) _) fun _ => ?_
  · exact Keeps.forM (fun op => keeps_emit fun m => rfl) _
  · exact Keeps.bind (keeps_emit fun m => rfl) fun _ => keeps_emit fun m => rfl

theorem wp_publishStateAnchor_durable (h : DurableHeld m) :
    wp publishStateAnchor
      (fun _ m' => DurableHeld m' ∧ m'.node.capabilities = m.node.capabilities)
      (fun _ m' => DurableHeld m' ∧ m'.node.capabilities = m.node.capabilities) m := by
  simp only [publishStateAnchor, wp_bind, wp_get]
  cases m.disk.image with
  | none => exact ⟨h, rfl⟩
  | some image =>
    simp only [wp_bind, wp_emit, wp_setNode]
    exact ⟨Or.inr ⟨_, AppliedFiles.holds_published _ _, le_rfl⟩, rfl⟩

/-- Anchoring leaves a durable slot that an anchor covers. -/
theorem wp_anchorState_durable (h : DurableHeld m) :
    wp anchorState
      (fun _ m' => DurableHeld m' ∧ m'.node.capabilities = m.node.capabilities)
      (fun _ m' => DurableHeld m' ∧ m'.node.capabilities = m.node.capabilities) m := by
  simp only [anchorState, wp_bind, wp_get, wp_refuseIf, wp_doIf]
  refine ⟨fun _ => ⟨h, trivial⟩, fun _ => ⟨fun _ => ⟨h, trivial⟩, fun _ => ⟨fun _ => ⟨fun _ => ?_,
    fun _ => ?_⟩, fun _ => ⟨h, trivial⟩⟩⟩⟩
  · refine wp_mono (keeps_checkpointWal m) (fun _ m₁ hview => ?_) (fun _ m₁ hview =>
      ⟨h.of_anchorView hview, Machine.capabilities_of_anchorView hview⟩)
    have hcaps := Machine.capabilities_of_anchorView hview
    exact wp_mono (wp_publishStateAnchor_durable (h.of_anchorView hview))
      (fun _ m₂ h₂ => ⟨h₂.1, h₂.2.trans hcaps⟩) (fun _ m₂ h₂ => ⟨h₂.1, h₂.2.trans hcaps⟩)
  · exact wp_publishStateAnchor_durable h

/-- Without a connection to checkpoint, anchoring does not depend on the disks passed through. -/
theorem wp_anchorState_atRest {P : Node → Disk → Prop} (hopen : m.node.dbOpen = false)
    (h : wp anchorState (fun _ m' => P m'.node m'.disk) (fun _ m' => P m'.node m'.disk) m.atRest) :
    wp anchorState (fun _ m' => P m'.node m'.disk) (fun _ m' => P m'.node m'.disk) m := by
  simp only [anchorState, publishStateAnchor, Machine.atRest, wp_bind, wp_get, wp_refuseIf, wp_doIf,
    hopen, Bool.false_eq_true, false_implies, true_and, true_implies] at h ⊢
  cases himage : m.disk.image with
  | none =>
    rw [himage] at h
    exact h
  | some image =>
    rw [himage] at h
    exact h

theorem Serving.wp_anchorState (h : Serving L caps configuration lo n m)
    (hresync : m.node.needsResync = false) :
    wp anchorState (fun _ m' => Serving L caps configuration lo n m')
      (fun _ m' => Serving L caps configuration lo n m') m := by
  have hstate : wp anchorState
      (fun _ m' => Tracking L configuration lo n n m'.atRest ∨ Leading L configuration lo n n m')
      (fun _ m' => Tracking L configuration lo n n m'.atRest ∨ Leading L configuration lo n n m')
      m := by
    rcases h.state with htrack | hlead
    · have hopen : m.node.dbOpen = false := htrack.dbOpen
      refine wp_mono (wp_anchorState_atRest
        (P := fun node disk => Tracking L configuration lo n n ⟨node, disk, []⟩) hopen ?_)
        (fun _ _ h' => Or.inl h') (fun _ _ h' => Or.inl h')
      exact wp_mono (Zaxonlite.wp_anchorState htrack) (fun _ _ h' => h'.atRest)
        (fun _ _ h' => h'.atRest)
    · exact wp_mono (hlead.wp_anchorState hresync) (fun _ _ h' => Or.inr h') (fun _ _ h' => Or.inr h')
  refine wp_mono (wp_and hstate (wp_anchorState_durable h.durable)) ?_ ?_
  · rintro _ m' ⟨hs, hdurable, hcaps⟩
    exact ⟨hcaps.trans h.capabilities, hdurable, hs⟩
  · rintro _ m' ⟨hs, hdurable, hcaps⟩
    exact ⟨hcaps.trans h.capabilities, hdurable, hs⟩

/-- A resync, if the image is marked for one, leaves an image that needs none. -/
theorem Serving.wp_resyncIfNeeded (h : Serving L caps configuration lo n m)
    (hclean : m.node.needsResync = true → CleanClose L m.disk) :
    wp (doIf m.node.needsResync resyncImage)
      (fun _ m' => m'.node.needsResync = false ∧ ∃ n', Serving L caps configuration lo n' m')
      (fun _ _ => False) m := by
  rw [wp_doIf]
  refine ⟨fun hneeds => ?_, fun hno => ⟨hno, n, h⟩⟩
  have hclose := hclean hneeds
  refine wp_mono (h.wp_resyncImage hclose.retained) (fun _ m' h' => ?_) (fun _ _ hno => hno)
  obtain ⟨-, -, hserve⟩ := h'
  obtain ⟨hserving, htrack⟩ := hserve hclose
  exact ⟨htrack.resync, _, hserving⟩

theorem Serving.wp_createStateAnchor (h : Serving L caps configuration lo n m)
    (hclean : m.node.needsResync = true → CleanClose L m.disk) :
    wp createStateAnchor (fun _ m' => ∃ n', Serving L caps configuration lo n' m')
      (fun _ m' => ∃ n', Serving L caps configuration lo n' m') m := by
  simp only [createStateAnchor, wp_bind, wp_get, wp_refuseIf]
  refine ⟨fun _ => ⟨n, h⟩, fun _ => ⟨fun _ => ⟨n, h⟩, fun _ => ?_⟩⟩
  refine wp_mono (h.wp_resyncIfNeeded hclean) ?_ (fun _ _ hno => hno.elim)
  rintro ⟨⟩ m₁ ⟨hresync, n', h₁⟩
  exact wp_mono (h₁.wp_anchorState hresync) (fun _ _ h' => ⟨n', h'⟩) (fun _ _ h' => ⟨n', h'⟩)

end Anchor

/-! ### Writes -/

section Write

variable {L : ChosenLog databaseId} {caps : Capabilities} {configuration lo n : ℕ} {m : Machine}

/-- Opening a connection on the image of a following replica. -/
theorem Tracking.opened (h : Tracking L configuration lo n n m.atRest) (trail : List Disk) :
    Leading L configuration lo n n
      ⟨{ m.node with dbOpen := true }, m.disk.createImage, trail⟩ := by
  obtain ⟨k, hlo, hk, hanchors, himage⟩ := h.image
  obtain ⟨image, hcreate⟩ := createImage_eq m.disk
  have hcontent : m.disk.createImage.content = (L.state n).image := by
    rw [content_createImage]
    exact h.content
  have hwal : m.disk.createImage.wal = [] := by
    rw [hcreate]
    exact h.wal
  have happlied : m.disk.createImage.applied = m.disk.applied := by
    rw [hcreate]
    rfl
  have hend : committedEnd lo m.disk.createImage = committedEnd lo m.disk := by
    rw [hcreate]
    rfl
  have hdisk : DiskSound L configuration lo m.disk.createImage := by
    obtain ⟨k', hlo', hk', hanchors', himage'⟩ := h.safe.disk.image
    refine ⟨?_, k', hlo', hend.symm ▸ hk', happlied.symm ▸ hanchors', ?_⟩
    · rw [hcreate]
      exact h.safe.disk.log.withFiles _ _
    · rw [hend]
      exact himage'.createImage
  have hle : ∀ a, m.disk.createImage.applied.Holds a → a.globalSlot ≤ n := by
    rw [happlied]
    exact fun a ha => le_trans (hanchors a ha) hk
  exact
    { disk := hdisk
      database := h.database
      configurationId := h.configurationId
      pageSize := h.pageSize
      dbOpen := rfl
      exclusive := fun _ => h.capture
      queued := h.queued
      appliedSlot := h.appliedSlot
      historyHash := h.historyHash
      lastChain := h.lastChain
      lastDataSlot := h.lastDataSlot
      lastBatchId := h.lastBatchId
      lo_le := h.lo_le
      applied_le := le_rfl
      data_le := hend.symm ▸ h.data_le
      image := by rw [hcreate]; rfl
      wal := ⟨n,
        { le := le_rfl
          anchors := hle
          content := hcontent
          sound := by
            rw [hwal]
            exact ⟨fun w hw => absurd hw List.not_mem_nil, fun w hw => absurd hw List.not_mem_nil⟩
          clean := fun _ _ => by
            rw [Disk.live, Disk.walOps, hwal, List.flatMap_nil, File.execAll_nil]
            exact hcontent
          captured := fun _ b hb => by
            have hnone : m.node.captureBatchId = none := h.capture
            simp only [hnone] at hb
            cases hb }⟩ }

theorem Serving.wp_ensureWriter (h : Serving L caps configuration lo n m) :
    wp ensureWriter
      (fun _ m' => Serving L caps configuration lo n m' ∧ Leading L configuration lo n n m')
      (fun _ m' => Serving L caps configuration lo n m') m := by
  simp only [ensureWriter, wp_bind, wp_get, wp_refuseIf, wp_doIf, wp_emit, wp_setNode]
  refine ⟨fun _ => h, fun _ => ⟨fun hclosed => ?_, fun hopen => ?_⟩⟩
  · rcases h.state with htrack | hlead
    · have hleading := htrack.opened (m.trail ++ [m.disk.createImage])
      have hview : Machine.anchorView ⟨{ m.node with dbOpen := true }, m.disk.createImage,
          m.trail ++ [m.disk.createImage]⟩ = m.anchorView := by
        obtain ⟨image, hcreate⟩ := createImage_eq m.disk
        simp only [Machine.anchorView, hcreate, Disk.withImage]
      exact ⟨h.of_view hview (Or.inr hleading), hleading⟩
    · rw [hlead.dbOpen] at hclosed
      cases hclosed
  · rcases h.state with htrack | hlead
    · have hno : m.node.dbOpen = false := htrack.dbOpen
      rw [hno] at hopen
      cases hopen
    · exact ⟨h, hlead⟩

/-- A replica that may commit a transaction: its connection is open, nothing is in flight. -/
structure Admitted (L : ChosenLog databaseId) (caps : Capabilities) (configuration lo n : ℕ)
    (m : Machine) : Prop where
  serving : Serving L caps configuration lo n m
  leading : Leading L configuration lo n n m
  capture : m.node.captureBatchId = none
  live : m.node.liveTransaction = false

theorem captureBatchId_none {n : Node} (h : n.captureBatchId.isSome = false) :
    n.captureBatchId = none := by
  rwa [Option.isSome_eq_false_iff, Option.isNone_iff_eq_none] at h

/-- The admission checks end with a connection a transaction may run on, or refuse. -/
theorem Serving.wp_admitWrite (h : Serving L caps configuration lo n m) (status : LogStatus)
    (hclean : m.node.needsResync = true → CleanClose L m.disk) :
    wp (admitWrite status) (fun _ m' => ∃ n', Admitted L caps configuration lo n' m')
      (fun _ m' => ∃ n', Serving L caps configuration lo n' m') m := by
  simp only [admitWrite, wp_bind, wp_get, wp_refuseIf]
  refine ⟨fun _ => ⟨n, h⟩, fun _ => ⟨fun _ => ⟨n, h⟩, fun _ => ?_⟩⟩
  refine wp_mono (h.wp_resyncIfNeeded hclean) ?_ (fun _ _ hno => hno.elim)
  rintro ⟨⟩ m₁ ⟨-, n', h₁⟩
  simp only [wp_bind, wp_get, wp_refuseIf]
  refine ⟨fun _ => ⟨n', h₁⟩, fun _ => ⟨fun _ => ⟨n', h₁⟩, fun _ => ?_⟩⟩
  refine wp_mono h₁.wp_ensureWriter ?_ (fun _ _ h' => ⟨n', h'⟩)
  rintro ⟨⟩ m₂ ⟨h₂, hlead⟩
  simp only [wp_bind, wp_get, wp_refuseIf]
  exact ⟨fun _ => ⟨n', h₂⟩, fun hcap => ⟨fun _ => ⟨n', h₂⟩, fun hlive =>
    ⟨n', h₂, hlead, captureBatchId_none hcap, hlive⟩⟩⟩

theorem keeps_sealCapturedTransaction (t : CapturedTransaction) (core : AppendCore) :
    Keeps Machine.anchorView (sealCapturedTransaction t core) := by
  have happend : Keeps Machine.anchorView (appendCaptured t core) := by
    refine keeps_get.bind fun m => ?_
    cases core m (m.node.capturedBatch t) with
    | refused => exact Keeps.bind (keeps_setNode fun m => rfl) fun _ => keeps_throw _
    | unsent rounds last =>
      refine Keeps.bind (keeps_setNode fun m => rfl) fun _ => ?_
      refine (keeps_consumeEffects rounds).bind fun _ => ?_
      exact (keeps_journalEffects last).bind fun _ => keeps_throw _
    | appended slot rounds =>
      refine Keeps.bind (keeps_setNode fun m => rfl) fun _ => ?_
      exact (keeps_consumeEffects rounds).bind fun _ => keeps_pure slot
  have hreplicate : Keeps Machine.anchorView (replicateCaptured t core) := by
    refine keeps_get.bind fun m => (keeps_refuseIf _ _).bind fun _ => ?_
    exact Keeps.bind (keeps_emit fun m => rfl) fun _ => happend
  refine keeps_get.bind fun m => Keeps.bind (keeps_emit fun m => rfl) fun _ => ?_
  refine Keeps.bind (hreplicate.onError fun m => rfl) fun slot => keeps_get.bind fun m => ?_
  exact (keeps_refuseIf _ _).bind fun _ => keeps_pure slot

theorem Admitted.wp_sealCapturedTransaction (h : Admitted L caps configuration lo n m)
    {t : CapturedTransaction} {core : AppendCore} (hdrawn : Drawn L t)
    (hcore : ∀ m batch, AppendOk L m batch (core m batch)) :
    wp (sealCapturedTransaction t core) (fun _ => ServesOrFails L caps configuration)
      (fun _ => ServesOrFails L caps configuration) m := by
  refine wp_mono (wp_and (h.leading.wp_sealCapturedTransaction hdrawn h.capture h.live hcore)
    (keeps_sealCapturedTransaction t core m)) ?_ ?_
  · rintro _ m' ⟨⟨n', h'⟩, hview⟩
    exact (h.serving.of_view hview (Or.inr h')).outcome
  · rintro _ m' ⟨⟨n', h'⟩ | hfailed, hview⟩
    · exact (h.serving.of_view hview (Or.inr h')).outcome
    · exact ⟨lo, Or.inr hfailed⟩

theorem Serving.wp_writeRequest (h : Serving L caps configuration lo n m) {status : LogStatus}
    {statements : Option CapturedTransaction} {core : AppendCore}
    (hdrawn : ∀ t ∈ statements, Drawn L t) (hcore : ∀ m batch, AppendOk L m batch (core m batch))
    (hclean : m.node.needsResync = true → CleanClose L m.disk) :
    wp (writeRequest status statements core) (fun _ => ServesOrFails L caps configuration)
      (fun _ => ServesOrFails L caps configuration) m := by
  simp only [writeRequest, wp_bind]
  refine wp_mono (h.wp_admitWrite status hclean) ?_ fun _ m' hserves => ?_
  rotate_left
  · obtain ⟨n', h'⟩ := hserves
    exact h'.outcome
  rintro ⟨⟩ m₁ ⟨n', h₁⟩
  cases statements with
  | none => exact h₁.serving.outcome
  | some t => exact h₁.wp_sealCapturedTransaction (hdrawn t rfl) hcore

theorem Serving.wp_beginLive (h : Serving L caps configuration lo n m) (stopPending : Bool)
    (hclean : m.node.needsResync = true → CleanClose L m.disk) :
    wp (beginLive stopPending) (fun _ => ServesOrFails L caps configuration)
      (fun _ => ServesOrFails L caps configuration) m := by
  simp only [beginLive, wp_bind, wp_get, wp_refuseIf]
  refine ⟨fun _ => h.outcome, fun _ => ⟨fun _ => h.outcome, fun _ => ⟨fun _ => h.outcome, fun _ =>
    ⟨fun _ => h.outcome, fun _ => ?_⟩⟩⟩⟩
  refine wp_mono (h.wp_resyncIfNeeded hclean) ?_ (fun _ _ hno => hno.elim)
  rintro ⟨⟩ m₁ ⟨-, n', h₁⟩
  simp only [wp_bind, wp_get, wp_refuseIf]
  refine ⟨fun _ => h₁.outcome, fun _ => ?_⟩
  refine wp_mono h₁.wp_ensureWriter ?_ (fun _ _ h' => h'.outcome)
  rintro ⟨⟩ m₂ ⟨h₂, hlead⟩
  simp only [wp_bind, wp_get, wp_refuseIf, wp_setNode]
  refine ⟨fun _ => h₂.outcome, fun hcap => ?_⟩
  obtain ⟨j, hwal⟩ := hlead.wal
  have hbegun : Leading L configuration lo n' n'
      { m₂ with node := { m₂.node with liveTransaction := true } } :=
    { hlead with exclusive := fun _ => captureBatchId_none hcap, wal := ⟨j, { hwal with }⟩ }
  exact (h₂.leading hbegun rfl).outcome

/-- Ending the live transaction, and marking the image for a resync or not. -/
theorem Leading.endLive (h : Leading L configuration lo n n m) (marked : Bool)
    (hmarked : marked = false → m.node.needsResync = false) :
    Leading L configuration lo n n
      { m with node := { m.node with liveTransaction := false, needsResync := marked } } := by
  obtain ⟨j, hwal⟩ := h.wal
  refine
    { h with
      exclusive := fun hno => by cases hno
      wal := ⟨j, { hwal with
        clean := fun hresync hcap => hwal.clean (hmarked hresync) hcap
        captured := fun hresync b hb => hwal.captured (hmarked hresync) b hb }⟩ }

theorem Serving.wp_commitLive (h : Serving L caps configuration lo n m) (stopPending : Bool)
    {t : CapturedTransaction} {core : AppendCore} (hopen : m.node.dbOpen = true)
    (hdrawn : Drawn L t) (hcore : ∀ m batch, AppendOk L m batch (core m batch)) :
    wp (commitLive stopPending t core) (fun _ => ServesOrFails L caps configuration)
      (fun _ => ServesOrFails L caps configuration) m := by
  have hlead : Leading L configuration lo n n m := by
    rcases h.state with htrack | hlead
    · have hno : m.node.dbOpen = false := htrack.dbOpen
      rw [hno] at hopen
      cases hopen
    · exact hlead
  simp only [commitLive, wp_bind, wp_get, wp_refuseIf, wp_setNode]
  refine ⟨fun _ => h.outcome, fun hlive => ⟨fun _ => h.outcome, fun _ => ⟨fun _ => h.outcome, fun _ => ?_⟩⟩⟩
  have hended := hlead.endLive m.node.needsResync id
  have hadmitted : Admitted L caps configuration lo n
      { m with node := { m.node with liveTransaction := false } } :=
    ⟨h.leading hended rfl, hended, hlead.exclusive (by simpa using hlive), rfl⟩
  exact hadmitted.wp_sealCapturedTransaction hdrawn hcore

theorem Serving.wp_rollbackLive (h : Serving L caps configuration lo n m) (rolledBack : Bool)
    (hopen : m.node.dbOpen = true) :
    wp (rollbackLive rolledBack) (fun _ => ServesOrFails L caps configuration)
      (fun _ => ServesOrFails L caps configuration) m := by
  have hlead : Leading L configuration lo n n m := by
    rcases h.state with htrack | hlead
    · have hno : m.node.dbOpen = false := htrack.dbOpen
      rw [hno] at hopen
      cases hopen
    · exact hlead
  have hended := hlead.endLive (m.node.needsResync || !rolledBack) fun hno => by
    rw [Bool.or_eq_false_iff] at hno
    exact hno.1
  simp only [rollbackLive, wp_bind, wp_get, wp_refuseIf, wp_setNode]
  have hafter := (h.leading hended rfl).outcome
  exact ⟨fun _ => h.outcome, fun _ => ⟨fun _ => hafter, fun _ => hafter⟩⟩

end Write

end Zaxonlite
