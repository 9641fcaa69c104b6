import Zaxonlite.Node.Effects

/-!
# A replica that follows

A data replica without a live connection journals what the core hands over, applies every chosen batch
to its image offline, and publishes an anchor from time to time. `Tracking` is its invariant between
any two effects: the disk is sound, so is every disk on the trail, and the volatile cursors are those
of the fold, the data cursors and the image one entry ahead of the history anchor while an entry is
being accounted.
-/

namespace Zaxonlite

open Program Contiguous

variable {databaseId : ℕ}

/-- Every crash point so far is sound. -/
structure CrashSafe (L : ChosenLog databaseId) (configuration lo : ℕ) (m : Machine) : Prop where
  disk : DiskSound L configuration lo m.disk
  trail : ∀ d ∈ m.trail, DiskSound L configuration lo d

/-- The history anchor is at `applied`, the data cursors and the image at `data`. -/
structure Tracking (L : ChosenLog databaseId) (configuration lo applied data : ℕ) (m : Machine) :
    Prop where
  safe : CrashSafe L configuration lo m
  database : m.node.identity.databaseId = databaseId
  configurationId : m.node.identity.configurationId = configuration
  pageSize : m.node.pageSize = defaultPageSize
  dbOpen : m.node.dbOpen = false
  capture : m.node.captureBatchId = none
  resync : m.node.needsResync = false
  queued : ∀ write ∈ m.node.effectWrites, write.commitSlot? = none
  appliedSlot : m.node.appliedSlot = applied
  historyHash : m.node.historyHash = (L.state applied).historyHash
  lastChain : m.node.lastChain = (L.state data).lastChain
  lastDataSlot : m.node.lastDataSlot = (L.state data).lastDataSlot
  lastBatchId : m.node.lastBatchId = (L.state data).lastBatchId
  lo_le : lo ≤ applied
  applied_le : applied ≤ data
  data_le : data ≤ committedEnd lo m.disk
  wal : m.disk.wal = []
  content : m.disk.content = (L.state data).image
  image : ∃ k, lo ≤ k ∧ k ≤ applied ∧ (∀ a, m.disk.applied.Holds a → a.globalSlot ≤ k) ∧
    ImageSound L k data m.disk

section Keep

variable {L : ChosenLog databaseId} {configuration lo applied data : ℕ} {m : Machine}

theorem CrashSafe.emit (h : CrashSafe L configuration lo m) {d : Disk} {n : Node}
    (hd : DiskSound L configuration lo d) :
    CrashSafe L configuration lo { node := n, disk := d, trail := m.trail ++ [d] } := by
  refine ⟨hd, fun d' hd' => ?_⟩
  rcases List.mem_append.1 hd' with hold | hnew
  · exact h.trail d' hold
  · rw [List.mem_singleton] at hnew
    exact hnew ▸ hd

theorem DiskSound.withTrim {d : Disk} (h : DiskSound L configuration lo d) (trim : Option TrimState) :
    DiskSound L configuration lo { d with trim := trim } :=
  ⟨h.log.withTrim trim, h.image⟩

theorem DiskSound.put {d : Disk} (h : DiskSound L configuration lo d) (bytes : List UInt8) :
    DiskSound L configuration lo { d with store := d.store.put bytes } :=
  ⟨h.log.put bytes, h.image⟩

theorem Tracking.withTrim (h : Tracking L configuration lo applied data m) (trim : Option TrimState) :
    Tracking L configuration lo applied data
      { m with disk := { m.disk with trim := trim },
               trail := m.trail ++ [{ m.disk with trim := trim }] } :=
  { h with safe := h.safe.emit (h.safe.disk.withTrim trim) }

theorem Tracking.withJournal (h : Tracking L configuration lo applied data m) {j : Journal}
    (hrecords : j.records = m.disk.journal.records)
    (hfirst : j.retainedFirstSlot = m.disk.journal.retainedFirstSlot) :
    Tracking L configuration lo applied data
      { m with disk := { m.disk with journal := j },
               trail := m.trail ++ [{ m.disk with journal := j }] } :=
  { h with
    safe := h.safe.emit (h.safe.disk.withJournal hrecords hfirst)
    data_le := by simpa only [committedEnd, hrecords] using h.data_le }

/-- Volatile fields outside the cursors may change freely. -/
theorem Tracking.withNode (h : Tracking L configuration lo applied data m) {n : Node}
    (hidentity : n.identity = m.node.identity) (hpage : n.pageSize = m.node.pageSize)
    (hopen : n.dbOpen = m.node.dbOpen) (hcapture : n.captureBatchId = m.node.captureBatchId)
    (hresync : n.needsResync = m.node.needsResync) (happlied : n.appliedSlot = m.node.appliedSlot)
    (hhistory : n.historyHash = m.node.historyHash) (hchain : n.lastChain = m.node.lastChain)
    (hdata : n.lastDataSlot = m.node.lastDataSlot) (hbatch : n.lastBatchId = m.node.lastBatchId)
    (hqueued : ∀ write ∈ n.effectWrites, write.commitSlot? = none) :
    Tracking L configuration lo applied data { m with node := n } :=
  { h with
    safe := ⟨h.safe.disk, h.safe.trail⟩
    database := by rw [hidentity]; exact h.database
    configurationId := by rw [hidentity]; exact h.configurationId
    pageSize := by rw [hpage]; exact h.pageSize
    dbOpen := by rw [hopen]; exact h.dbOpen
    capture := by rw [hcapture]; exact h.capture
    resync := by rw [hresync]; exact h.resync
    queued := hqueued
    appliedSlot := by rw [happlied]; exact h.appliedSlot
    historyHash := by rw [hhistory]; exact h.historyHash
    lastChain := by rw [hchain]; exact h.lastChain
    lastDataSlot := by rw [hdata]; exact h.lastDataSlot
    lastBatchId := by rw [hbatch]; exact h.lastBatchId }

theorem DiskSound.deleteWal {d : Disk} (h : DiskSound L configuration lo d) :
    DiskSound L configuration lo d.deleteWal :=
  ⟨h.log.withFiles _ _, h.image⟩

theorem ImageSound.createImage {k hi : ℕ} {d : Disk} (h : ImageSound L k hi d) :
    ImageSound L k hi d.createImage := by
  cases himage : d.image with
  | none =>
    simp only [ImageSound, himage] at h
    subst h
    simp only [ImageSound, Disk.createImage, himage]
    exact ⟨rfl, fun _ hp => absurd hp List.not_mem_nil⟩
  | some image => simpa only [ImageSound, Disk.createImage, himage] using h

theorem content_createImage (d : Disk) : d.createImage.content = d.content := by
  cases himage : d.image with
  | none => simp [Disk.createImage, Disk.content, himage, Image.content]
  | some image => simp [Disk.createImage, himage]

theorem createImage_eq (d : Disk) : ∃ image, d.createImage = d.withImage image := by
  cases himage : d.image with
  | none =>
    refine ⟨{ synced := File.empty, pending := [] }, ?_⟩
    simp only [Disk.createImage, himage, Disk.withImage]
  | some image =>
    refine ⟨image, ?_⟩
    simp only [Disk.createImage, himage, Disk.withImage]
    rw [← himage]

/-- Any image that is sound at a slot no anchor is above may stand in the place of another. -/
theorem DiskSound.withImage {d : Disk} (h : DiskSound L configuration lo d) {image : Image} {k : ℕ}
    (hlo : lo ≤ k) (hk : k ≤ committedEnd lo d) (hanchors : ∀ a, d.applied.Holds a → a.globalSlot ≤ k)
    (himage : ImageSound L k (committedEnd lo d) (d.withImage image)) :
    DiskSound L configuration lo (d.withImage image) :=
  ⟨h.log.withFiles _ _, k, hlo, hk, hanchors, himage⟩

theorem loseCapture_of_none {n : Node} (h : n.captureBatchId = none) : loseCapture n = n := by
  simp [loseCapture, h]

end Keep

/-! ### Accounting -/

section Account

variable {L : ChosenLog databaseId} {configuration lo n : ℕ} {m : Machine}

theorem wp_adoptChosenTrim {data : ℕ} (h : Tracking L configuration lo n data m) (slot : ℕ)
    (record : TrimRecord) :
    wp (adoptChosenTrim slot record) (fun _ m' => Tracking L configuration lo n data m')
      (fun _ m' => CrashSafe L configuration lo m') m := by
  simp only [adoptChosenTrim, wp_bind, wp_get]
  cases m.node.trimState.classify slot record with
  | ignoreReplay => exact h
  | ignoreStale => exact h.withNode rfl rfl rfl rfl rfl rfl rfl rfl rfl rfl h.queued
  | ignoreDuplicate => exact h.withNode rfl rfl rfl rfl rfl rfl rfl rfl rfl rfl h.queued
  | diverged => exact ⟨h.safe.disk, h.safe.trail⟩
  | adopt =>
    simp only [wp_bind, wp_setNode, wp_emit]
    set adopted := m.node.trimState.adopt slot record
    have hstate := h.withNode (n := { m.node with trimState := adopted })
      rfl rfl rfl rfl rfl rfl rfl rfl rfl rfl h.queued
    have htrim := hstate.withTrim (some adopted)
    have hqueue := htrim.withNode
      (n := { m.node with
        trimState := adopted
        effectWrites := m.node.effectWrites ++ [.trimAnchor adopted.anchor] })
      rfl rfl rfl rfl rfl rfl rfl rfl rfl rfl (by
        intro write hwrite
        rcases List.mem_append.1 hwrite with hold | hnew
        · exact h.queued write hold
        · rw [List.mem_singleton] at hnew
          rw [hnew]
          rfl)
    exact hqueue.withJournal (Journal.records_noteTrimAnchor _ _ _ _)
      (Journal.retainedFirstSlot_noteTrimAnchor _ _ _ _)

theorem wp_storeLeases {data : ℕ} (h : Tracking L configuration lo n data m)
    (state : Option TrimState) :
    wp (storeLeases state) (fun _ m' => Tracking L configuration lo n data m')
      (fun _ m' => CrashSafe L configuration lo m') m := by
  cases state with
  | none => exact h
  | some state =>
    simp only [storeLeases, wp_bind, wp_setNode, wp_emit]
    exact (h.withNode (n := { m.node with trimState := state })
      rfl rfl rfl rfl rfl rfl rfl rfl rfl rfl h.queued).withTrim (some state)

/-- An entry that is no batch moves the data cursors without changing them. -/
theorem Tracking.skip (h : Tracking L configuration lo n n m)
    (hother : ∀ batch, L.entry (n + 1) ≠ .command (.transactionBatch batch))
    (hnext : n + 1 ≤ committedEnd lo m.disk) : Tracking L configuration lo n (n + 1) m := by
  obtain ⟨hops, hstate⟩ := L.state_succ_other hother
  obtain ⟨k, hlo, hk, hanchors, himage⟩ := h.image
  exact
    { h with
      lastChain := by rw [h.lastChain, hstate, Materialized.note_lastChain]
      lastDataSlot := by rw [h.lastDataSlot, hstate, Materialized.note_lastDataSlot]
      lastBatchId := by rw [h.lastBatchId, hstate, Materialized.note_lastBatchId]
      applied_le := Nat.le_succ n
      data_le := hnext
      content := by rw [h.content, hstate, Materialized.note_image]
      image := ⟨k, hlo, hk, hanchors, himage.mono (Nat.le_succ n)⟩ }

/-- A chosen batch is applied to the image page by page, every crash point on the way sound. -/
theorem wp_applyBatchOffline (h : Tracking L configuration lo n n m) {batch : TransactionBatch}
    (hentry : L.entry (n + 1) = .command (.transactionBatch batch))
    (hnext : n + 1 ≤ committedEnd lo m.disk) :
    wp (applyBatchOffline (n + 1) batch)
      (fun _ m' => m'.node = m.node ∧ CrashSafe L configuration lo m' ∧
        n + 1 ≤ committedEnd lo m'.disk ∧ m'.disk.applied = m.disk.applied ∧
        m'.disk.wal = [] ∧ m'.disk.content = (L.state (n + 1)).image ∧
        ∃ k, lo ≤ k ∧ k ≤ n ∧ (∀ a, m'.disk.applied.Holds a → a.globalSlot ≤ k) ∧
          ImageSound L k (n + 1) m'.disk)
      (fun _ m' => CrashSafe L configuration lo m') m := by
  obtain ⟨-, view, hload, hops, hstate⟩ := L.state_succ_batch hentry
  obtain ⟨k, hlo, hk, hanchors, himage⟩ := h.image
  have hmem : n + 1 ∈ commitSlots m.disk.journal.records :=
    mem_of_le_runEnd (Nat.lt_succ_of_le h.lo_le) hnext
  have hstored := h.safe.disk.log.stored (n + 1) hmem (Nat.lt_succ_of_le h.lo_le)
  have hload' : loadBatch m.node.identity.databaseId m.node.pageSize m.disk.store batch = .ok view := by
    rw [h.database, h.pageSize, hstored.loadBatch_eq hentry, hload]
  simp only [applyBatchOffline, wp_bind, wp_get, hload', wp_emit]
  -- The image as `createFile` leaves it, sound at the same slot as before.
  obtain ⟨image, hcreate⟩ := createImage_eq m.disk.deleteWal
  have hbase : ImageSound L k n (m.disk.deleteWal.withImage image) := by
    rw [← hcreate]
    exact (himage.congr rfl : ImageSound L k n m.disk.deleteWal).createImage
  have hcontent : (m.disk.deleteWal.withImage image).content = (L.state n).image := by
    rw [← hcreate, content_createImage]
    exact h.content
  have hsafe : ∀ extra : List (ℕ × FileOp), (∀ p ∈ extra, L.Stamp k (n + 1) p) →
      DiskSound L configuration lo (m.disk.deleteWal.withImage (image.extend extra)) := by
    intro extra hextra
    have hle : k ≤ committedEnd lo m.disk := by omega
    refine h.safe.disk.deleteWal.withImage hlo hle hanchors ?_
    exact ((hbase.mono (Nat.le_succ n)).extend hextra).mono hnext
  have hcreated : CrashSafe L configuration lo
      ⟨m.node, m.disk.deleteWal.createImage,
        m.trail ++ [m.disk.deleteWal] ++ [m.disk.deleteWal.createImage]⟩ := by
    refine (h.safe.emit (n := m.node) h.safe.disk.deleteWal).emit ?_
    have hnil := hsafe [] (fun p hp => absurd hp List.not_mem_nil)
    rwa [Image.extend_nil, ← hcreate] at hnil
  refine wp_applyPayloadOps (S := DiskSound L configuration lo) hcreate (fun done hdone => ?_)
    (fun trail hgrew => ?_)
  · refine hsafe _ fun p hp => ?_
    obtain ⟨op, hop, rfl⟩ := List.mem_map.1 hp
    exact ⟨Nat.lt_succ_of_le hk, le_rfl, hops ▸ hdone hop⟩
  · have hall : ∀ p ∈ view.applyPayload.map (fun op => (n + 1, op)), L.Stamp k (n + 1) p := by
      intro p hp
      obtain ⟨op, hop, rfl⟩ := List.mem_map.1 hp
      exact ⟨Nat.lt_succ_of_le hk, le_rfl, hops ▸ hop⟩
    refine ⟨rfl, ⟨hsafe _ hall, fun d hd => ?_⟩, hnext, rfl, rfl, ?_, k, hlo, hk, hanchors, ?_⟩
    · exact (hgrew d hd).elim (hcreated.trail d) id
    · have hstep : (m.disk.deleteWal.withImage
          (image.extend (view.applyPayload.map fun op => (n + 1, op)))).content =
          (m.disk.deleteWal.withImage image).content.execAll view.applyPayload := by
        simp only [Disk.content, Disk.withImage, Image.content_extend, List.map_map,
          Function.comp_def, List.map_id']
      rw [hstep, hcontent, L.image_succ, hops]
    · exact (hbase.mono (Nat.le_succ n)).extend hall

/-- Accounting the value of the next chosen entry moves the data cursors over it. -/
theorem wp_accountValue (h : Tracking L configuration lo n n m)
    (hnext : n + 1 ≤ committedEnd lo m.disk) :
    wp (accountValue (n + 1) (L.entry (n + 1)))
      (fun _ m' => Tracking L configuration lo n (n + 1) m')
      (fun _ m' => CrashSafe L configuration lo m') m := by
  have hlose := loseCapture_of_none h.capture
  by_cases hbatch : ∃ batch, L.entry (n + 1) = .command (.transactionBatch batch)
  · obtain ⟨batch, hentry⟩ := hbatch
    obtain ⟨hcheck, view, hload, hops, hstate⟩ := L.state_succ_batch hentry
    have hcheck' : checkChainBase m.node.identity.databaseId m.node.lastChain m.node.lastDataSlot
        batch = true := by
      rw [h.database, h.lastChain, h.lastDataSlot]
      exact hcheck
    rw [hentry]
    simp only [accountValue, accountBatch, settleBatch, wp_bind, wp_get, wp_refuseIf, hcheck',
      Bool.not_true, Bool.false_eq_true, false_implies, true_implies, true_and, h.capture, h.dbOpen,
      if_false]
    refine wp_mono (wp_applyBatchOffline h hentry hnext) ?_ (fun _ _ hsafe => hsafe)
    rintro ⟨⟩ m' ⟨hnode, hsafe, hle, hfiles, hwal, hcontent, himage⟩
    simp only [wp_setNode]
    refine ⟨⟨hsafe.disk, hsafe.trail⟩, ?_, ?_, ?_, ?_, ?_, ?_, ?_, ?_, ?_, ?_, ?_, ?_, h.lo_le,
      Nat.le_succ n, hle, hwal, hcontent, himage⟩
    all_goals simp only [hnode, Node.noteRecentBatch, Node.advanceChain]
    · exact h.database
    · exact h.configurationId
    · exact h.pageSize
    · exact h.dbOpen
    · exact h.capture
    · exact h.resync
    · exact h.queued
    · exact h.appliedSlot
    · exact h.historyHash
    · rw [hstate, Materialized.note_lastChain, Materialized.install]
    · rw [hstate, Materialized.note_lastDataSlot, Materialized.install]
    · rw [hstate, Materialized.note_lastBatchId, Materialized.install]
  · push Not at hbatch
    have hskip := h.skip hbatch hnext
    cases hentry : L.entry (n + 1) with
    | stop stop =>
      simp only [accountValue, wp_bind, wp_setNode, hlose]
      split
      · exact hskip.withNode rfl rfl rfl rfl rfl rfl rfl rfl rfl rfl hskip.queued
      · exact hskip
    | command cmd =>
      cases cmd with
      | transactionBatch batch => exact absurd hentry (hbatch batch)
      | noop =>
        simp only [accountValue, wp_setNode, hlose]
        exact hskip
      | readBarrier nonce =>
        simp only [accountValue, wp_setNode, hlose]
        exact hskip
      | trim record =>
        simp only [accountValue, wp_bind, wp_setNode, hlose]
        exact wp_adoptChosenTrim hskip (n + 1) record
      | transferLease lease =>
        simp only [accountValue, wp_bind, wp_setNode, wp_get, hlose]
        exact wp_storeLeases hskip _
      | leaseComplete leaseId =>
        simp only [accountValue, wp_bind, wp_setNode, wp_get, hlose]
        exact wp_storeLeases hskip _

/-- Accounting the next chosen entry advances every cursor to the next fold. -/
theorem wp_accountEntry (h : Tracking L configuration lo n n m)
    (hnext : n + 1 ≤ committedEnd lo m.disk) :
    wp (accountEntry (n + 1) (L.entry (n + 1)))
      (fun _ m' => Tracking L configuration lo (n + 1) (n + 1) m')
      (fun _ m' => CrashSafe L configuration lo m') m := by
  have hconf : (L.state n).configuration = configuration := by
    have hmem : n + 1 ∈ commitSlots m.disk.journal.records :=
      mem_of_le_runEnd (Nat.lt_succ_of_le h.lo_le) hnext
    exact h.safe.disk.log.configured (n + 1) hmem (Nat.lt_succ_of_le h.lo_le)
  simp only [accountEntry, wp_bind]
  refine wp_mono (wp_accountValue h hnext) ?_ (fun _ _ hsafe => hsafe)
  rintro ⟨⟩ m' h'
  obtain ⟨k, hlo, hk, hanchors, himage⟩ := h'.image
  rw [wp_setNode]
  exact
    { h' with
      safe := ⟨h'.safe.disk, h'.safe.trail⟩
      appliedSlot := rfl
      historyHash := by
        simp only [h'.historyHash, h'.database, h'.configurationId]
        rw [L.historyHash_succ, hconf]
      lo_le := le_trans h.lo_le (Nat.le_succ n)
      applied_le := le_rfl
      image := ⟨k, hlo, le_trans hk (Nat.le_succ n), hanchors, himage⟩ }

end Account

/-! ### Effects and anchors -/

section Effects

variable {L : ChosenLog databaseId} {configuration lo : ℕ} {m : Machine}

theorem journaled_tracking (applied data : ℕ) :
    Journaled L configuration lo (Tracking L configuration lo applied data) where
  journal h hrecords hfirst := h.withJournal hrecords hfirst
  append h hok :=
    { h with
      safe := h.safe.emit (h.safe.disk.append (Journal.records_append _ _)
        (Journal.retainedFirstSlot_append _ _) hok)
      data_le := le_trans h.data_le (committedEnd_append _ (Journal.records_append _ _)) }
  queued h := h.queued
  flush h := h.withNode rfl rfl rfl rfl rfl rfl rfl rfl rfl rfl fun _ hw => absurd hw List.not_mem_nil

/-- `consumeRound` keeps the replica tracking, or fails with every crash point sound. -/
theorem wp_consumeRound {n : ℕ} {effects : Effects} (h : Tracking L configuration lo n n m)
    (hcore : CoreEffects L m effects) :
    wp (consumeRound effects)
      (fun _ m' => Tracking L configuration lo (n + effects.committed.length)
        (n + effects.committed.length) m')
      (fun _ m' => CrashSafe L configuration lo m' ∧ m'.node.fatalStorageError = true) m :=
  wp_consumeRound_of (P := fun n => Tracking L configuration lo n n)
    (E := CrashSafe L configuration lo) (fun n => journaled_tracking n n)
    (fun _ _ h => ⟨h.configurationId, h.appliedSlot, h.lo_le, h.data_le⟩)
    (fun _ _ h hnext => wp_accountEntry h hnext)
    (fun _ hsafe => ⟨⟨hsafe.disk, hsafe.trail⟩, rfl⟩) h hcore

/-- Syncing an image that is a fold makes it durable at that fold's slot. -/
theorem DiskSound.syncImage {d : Disk} (h : DiskSound L configuration lo d) {image : Image} {n : ℕ}
    (himage : d.image = some image) (hcontent : image.content = (L.state n).image) (hlo : lo ≤ n)
    (hend : n ≤ committedEnd lo d) (hanchors : ∀ a, d.applied.Holds a → a.globalSlot ≤ n) :
    DiskSound L configuration lo d.syncImage ∧ ∀ hi, ImageSound L n hi d.syncImage := by
  have hsync : d.syncImage = d.withImage { synced := image.content, pending := [] } := by
    simp only [Disk.syncImage, Disk.withImage, himage, Option.map_some]
  have hsound : ∀ hi, ImageSound L n hi d.syncImage := fun hi => by
    rw [hsync]
    exact imageSound_synced hcontent
  refine ⟨?_, hsound⟩
  rw [hsync]
  exact h.withImage hlo hend hanchors (hsync ▸ hsound _)

/-- Publishing an anchor for the slot the image is durable at. -/
theorem DiskSound.publish {d : Disk} (h : DiskSound L configuration lo d) {n : ℕ}
    {anchor : AppliedAnchor} (himage : ∀ hi, ImageSound L n hi d) (hlo : lo ≤ n)
    (hend : n ≤ committedEnd lo d) (hanchors : ∀ a, d.applied.Holds a → a.globalSlot ≤ n)
    (hnew : AnchorSound L anchor) (hconf : anchor.configurationId = configuration)
    (hslot : anchor.globalSlot = n) :
    DiskSound L configuration lo { d with applied := d.applied.publish anchor } ∧
      ∀ a, (d.applied.publish anchor).Holds a → a.globalSlot ≤ n := by
  have hle : ∀ a, (d.applied.publish anchor).Holds a → a.globalSlot ≤ n := by
    intro a ha
    rcases AppliedFiles.holds_publish ha with rfl | hold
    · exact hslot.le
    · exact hanchors a hold
  refine ⟨⟨⟨h.log.retained, h.log.chosen, h.log.window, h.log.configured, h.log.stored, fun a ha => ?_,
    fun a ha => le_trans (hle a ha) hend⟩, n, hlo, hend, hle, (himage _).congr rfl⟩, hle⟩
  rcases AppliedFiles.holds_publish ha with rfl | hold
  · exact ⟨hnew, hconf⟩
  · exact h.log.anchors a hold

/-- The anchor a node with the cursors of a fold publishes. -/
theorem anchorSound_stateAnchor {node : Node} {n : ℕ} (length : ℕ) (hpos : 0 < n)
    (hdb : node.identity.databaseId = databaseId) (hpage : node.pageSize = defaultPageSize)
    (happlied : node.appliedSlot = n) (hchain : node.lastChain = (L.state n).lastChain)
    (hdata : node.lastDataSlot = (L.state n).lastDataSlot)
    (hbatch : node.lastBatchId = (L.state n).lastBatchId)
    (hhistory : node.historyHash = (L.state n).historyHash) :
    AnchorSound L (node.stateAnchor length) := by
  subst happlied
  exact ⟨hpos, hdb, hpage, hchain, hdata, hbatch, hhistory⟩

theorem wp_publishStateAnchor {n : ℕ} (h : Tracking L configuration lo n n m) (hpos : 0 < n) :
    wp publishStateAnchor (fun _ m' => Tracking L configuration lo n n m')
      (fun _ m' => Tracking L configuration lo n n m') m := by
  obtain ⟨k, hlo, hk, hanchors, himage⟩ := h.image
  rw [publishStateAnchor, wp_bind, wp_get]
  cases hdisk : m.disk.image with
  | none => exact h
  | some image =>
    simp only [wp_bind, wp_emit, wp_setNode]
    have hcontent : image.content = (L.state n).image := by
      have hall := h.content
      simpa only [Disk.content, hdisk] using hall
    have hle : ∀ a, m.disk.applied.Holds a → a.globalSlot ≤ n := fun a ha =>
      le_trans (hanchors a ha) hk
    obtain ⟨hfirst, hsynced⟩ := h.safe.disk.syncImage hdisk hcontent h.lo_le h.data_le hle
    obtain ⟨hsecond, hheld⟩ := hfirst.publish hsynced h.lo_le h.data_le hle
      (anchorSound_stateAnchor image.content.length hpos h.database h.pageSize h.appliedSlot h.lastChain
        h.lastDataSlot h.lastBatchId h.historyHash) h.configurationId h.appliedSlot
    exact
      { h with
        safe := ⟨hsecond, fun d hd =>
          ((h.safe.emit (n := m.node) hfirst).emit (n := m.node) hsecond).trail d hd⟩
        content := by
          simp only [Disk.syncImage, hdisk, Option.map_some, Disk.content, Image.content, List.map_nil,
            File.execAll_nil]
          exact hcontent
        image := ⟨n, h.lo_le, le_rfl, hheld, (hsynced _).congr rfl⟩ }

theorem wp_anchorState {n : ℕ} (h : Tracking L configuration lo n n m) :
    wp anchorState (fun _ m' => Tracking L configuration lo n n m')
      (fun _ m' => Tracking L configuration lo n n m') m := by
  simp only [anchorState, wp_bind, wp_get, wp_refuseIf, wp_doIf, h.capture, h.dbOpen,
    Bool.false_eq_true, false_implies, true_implies, true_and, Option.isSome_none]
  refine ⟨fun _ => h, fun _ => ⟨fun hlt => ?_, fun _ => h⟩⟩
  have hpos : 0 < n := by
    rw [← h.appliedSlot]
    exact lt_of_le_of_lt (Nat.zero_le _) (of_decide_eq_true hlt)
  exact wp_publishStateAnchor h hpos

/-- `createStateAnchor` on a replica without a live connection publishes an anchor for the fold the
image holds, or refuses. -/
theorem wp_createStateAnchor {n : ℕ} (h : Tracking L configuration lo n n m) :
    wp createStateAnchor (fun _ m' => Tracking L configuration lo n n m')
      (fun _ m' => Tracking L configuration lo n n m') m := by
  simp only [createStateAnchor, wp_bind, wp_get, wp_refuseIf, wp_doIf, h.resync, Bool.false_eq_true,
    false_implies, true_implies, true_and]
  exact ⟨fun _ => h, fun _ => ⟨fun _ => h, fun _ => wp_anchorState h⟩⟩

theorem Recovered.needsResync {node : Node} {d : Disk} {m₀ m : Machine}
    (h : Recovered L node d m₀ m) : m.node.needsResync = node.needsResync := by
  obtain ⟨pending, hnode⟩ := h.node
  rw [hnode]
  unfold Node.baseNode
  split <;> rfl

theorem Node.resynced_eq {n : Node} (h : n.needsResync = false) :
    { n with needsResync := false } = n := by
  cases n
  simp only at h
  subst h
  rfl

/-- A node recovery has just restored tracks the log at the end of the journaled run. -/
theorem Recovered.tracking {node : Node} {d : Disk} {m₀ m : Machine}
    (h : Recovered L node d m₀ m) (hsound : LogSound L configuration lo d)
    (hbase : lo ≤ recoveryBaseSlot databaseId d)
    (hcontent : (recoveredDisk L d).content = (L.state (recoveredSlot databaseId d)).image)
    (hcan : CanRecover L node d)
    (hconf : node.identity.configurationId = configuration) (hopen : node.dbOpen = false)
    (hcapture : node.captureBatchId = none)
    (hqueued : ∀ write ∈ node.effectWrites, write.commitSlot? = none) :
    Tracking L configuration lo (recoveredSlot databaseId d) (recoveredSlot databaseId d)
      ⟨{ m.node with needsResync := false }, m.disk, []⟩ := by
  obtain ⟨hle, hend⟩ := hsound.base_spec hbase
  obtain ⟨hdisk, himage⟩ := hsound.recovered hbase hcontent
  have hcursors := h.cursorsAt hcan
  obtain ⟨pending, hnode⟩ := h.node
  have hidentity : m.node.identity = node.identity := by
    rw [hnode]
    exact baseNode_identity node d
  have hfields : m.node.dbOpen = node.dbOpen ∧ m.node.captureBatchId = node.captureBatchId ∧
      m.node.effectWrites = node.effectWrites := by
    rw [hnode]
    unfold Node.baseNode
    split <;> exact ⟨rfl, rfl, rfl⟩
  have hanchors : ∀ a, m.disk.applied.Holds a → a.globalSlot ≤ recoveredSlot databaseId d := by
    intro a ha
    rw [h.disk] at ha
    rw [hend]
    exact hsound.reached a ha
  refine
    { safe := ⟨by rw [h.disk]; exact hdisk, fun _ hd => absurd hd List.not_mem_nil⟩
      database := by simp only [hidentity]; exact hcan.database
      configurationId := by simp only [hidentity]; exact hconf
      pageSize := by rw [hnode]; exact baseNode_pageSize hcan
      dbOpen := by simp only [hfields.1]; exact hopen
      capture := by simp only [hfields.2.1]; exact hcapture
      resync := rfl
      queued := by simp only [hfields.2.2]; exact hqueued
      appliedSlot := hcursors.applied
      historyHash := hcursors.historyHash
      lastChain := hcursors.lastChain
      lastDataSlot := hcursors.lastDataSlot
      lastBatchId := hcursors.lastBatchId
      lo_le := le_trans hbase (base_le_runEnd _ _)
      applied_le := le_rfl
      data_le := by rw [h.disk]; exact hend.le
      wal := by rw [h.disk]; rfl
      content := by rw [h.disk]; exact hcontent
      image := ⟨_, le_trans hbase (base_le_runEnd _ _), le_rfl, hanchors, by rw [h.disk]; exact himage⟩ }

end Effects

end Zaxonlite
