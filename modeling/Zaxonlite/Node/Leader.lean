import Zaxonlite.Node.Reclaim
import Zaxonlite.Node.Resync

/-!
# A replica with a live connection

While a connection is open the image file stays as it was opened or last checkpointed, and the chosen
batches this node captured sit in SQLite's WAL on top of it. `Leading` is the invariant of that state:
without a capture in flight the connection sees the fold at the applied slot; with one it sees that fold
and the captured transaction; once a decision contradicts the live image it is marked for a resync and
nothing is promised of what the connection sees.
-/

namespace Zaxonlite

open Program Contiguous

variable {databaseId : ℕ}

/-- What the WAL holds over an image that is the fold at `j`. -/
structure LiveWal (L : ChosenLog databaseId) (j data : ℕ) (m : Machine) : Prop where
  le : j ≤ data
  anchors : ∀ a, m.disk.applied.Holds a → a.globalSlot ≤ j
  content : m.disk.content = (L.state j).image
  sound : WalSound L j m.disk.wal
  clean : m.node.needsResync = false → m.node.captureBatchId = none →
    m.disk.live = (L.state data).image
  captured : m.node.needsResync = false → ∀ b, m.node.captureBatchId = some b →
    ∃ pre w, m.disk.wal = pre ++ [w] ∧ w.batchId = b ∧ w.slot = data + 1 ∧
      m.disk.content.execAll (pre.flatMap WalTransaction.ops) = (L.state data).image

/-- The history anchor is at `applied`, the data cursors at `data`, over a live connection. -/
structure Leading (L : ChosenLog databaseId) (configuration lo applied data : ℕ) (m : Machine) :
    Prop where
  disk : DiskSound L configuration lo m.disk
  database : m.node.identity.databaseId = databaseId
  configurationId : m.node.identity.configurationId = configuration
  pageSize : m.node.pageSize = defaultPageSize
  dbOpen : m.node.dbOpen = true
  exclusive : m.node.liveTransaction = true → m.node.captureBatchId = none
  queued : ∀ write ∈ m.node.effectWrites, write.commitSlot? = none
  appliedSlot : m.node.appliedSlot = applied
  historyHash : m.node.historyHash = (L.state applied).historyHash
  lastChain : m.node.lastChain = (L.state data).lastChain
  lastDataSlot : m.node.lastDataSlot = (L.state data).lastDataSlot
  lastBatchId : m.node.lastBatchId = (L.state data).lastBatchId
  lo_le : lo ≤ applied
  applied_le : applied ≤ data
  data_le : data ≤ committedEnd lo m.disk
  image : m.disk.image.isSome
  wal : ∃ j, LiveWal L j data m

section Keep

variable {L : ChosenLog databaseId} {configuration lo applied data : ℕ} {m : Machine}

theorem DiskSound.withWal {d : Disk} (h : DiskSound L configuration lo d) (wal : List WalTransaction) :
    DiskSound L configuration lo { d with wal := wal } :=
  ⟨h.log.withFiles _ _, h.image⟩

theorem Leading.withTrail (h : Leading L configuration lo applied data m) (trail : List Disk) :
    Leading L configuration lo applied data { m with trail := trail } := by
  obtain ⟨j, hwal⟩ := h.wal
  exact { h with wal := ⟨j, { hwal with }⟩ }

theorem Leading.withTrim (h : Leading L configuration lo applied data m) (trim : Option TrimState)
    (trail : List Disk) : Leading L configuration lo applied data
      { m with disk := { m.disk with trim := trim }, trail := trail } := by
  obtain ⟨j, hwal⟩ := h.wal
  exact { h with disk := h.disk.withTrim trim, wal := ⟨j, { hwal with }⟩ }

theorem Leading.withJournal (h : Leading L configuration lo applied data m) {journal : Journal}
    (hrecords : journal.records = m.disk.journal.records)
    (hfirst : journal.retainedFirstSlot = m.disk.journal.retainedFirstSlot) (trail : List Disk) :
    Leading L configuration lo applied data
      { m with disk := { m.disk with journal := journal }, trail := trail } := by
  obtain ⟨j, hwal⟩ := h.wal
  exact
    { h with
      disk := h.disk.withJournal hrecords hfirst
      data_le := by simpa only [committedEnd, hrecords] using h.data_le
      wal := ⟨j, { hwal with }⟩ }

theorem Leading.put (h : Leading L configuration lo applied data m) (bytes : List UInt8)
    (trail : List Disk) : Leading L configuration lo applied data
      { m with disk := { m.disk with store := m.disk.store.put bytes }, trail := trail } := by
  obtain ⟨j, hwal⟩ := h.wal
  exact { h with disk := h.disk.put bytes, wal := ⟨j, { hwal with }⟩ }

/-- Volatile fields outside the cursors and the capture may change freely. -/
theorem Leading.withNode (h : Leading L configuration lo applied data m) {n : Node}
    (hidentity : n.identity = m.node.identity) (hpage : n.pageSize = m.node.pageSize)
    (hopen : n.dbOpen = m.node.dbOpen) (hlive : n.liveTransaction = m.node.liveTransaction)
    (hcapture : n.captureBatchId = m.node.captureBatchId)
    (hresync : n.needsResync = m.node.needsResync) (happlied : n.appliedSlot = m.node.appliedSlot)
    (hhistory : n.historyHash = m.node.historyHash) (hchain : n.lastChain = m.node.lastChain)
    (hdata : n.lastDataSlot = m.node.lastDataSlot) (hbatch : n.lastBatchId = m.node.lastBatchId)
    (hqueued : ∀ write ∈ n.effectWrites, write.commitSlot? = none) :
    Leading L configuration lo applied data { m with node := n } := by
  obtain ⟨j, hwal⟩ := h.wal
  refine
    { h with
      database := by rw [hidentity]; exact h.database
      configurationId := by rw [hidentity]; exact h.configurationId
      pageSize := by rw [hpage]; exact h.pageSize
      dbOpen := by rw [hopen]; exact h.dbOpen
      exclusive := by rw [hlive, hcapture]; exact h.exclusive
      queued := hqueued
      appliedSlot := by rw [happlied]; exact h.appliedSlot
      historyHash := by rw [hhistory]; exact h.historyHash
      lastChain := by rw [hchain]; exact h.lastChain
      lastDataSlot := by rw [hdata]; exact h.lastDataSlot
      lastBatchId := by rw [hbatch]; exact h.lastBatchId
      wal := ⟨j, { hwal with clean := ?_, captured := ?_ }⟩ }
  · rw [hresync, hcapture]
    exact hwal.clean
  · rw [hresync, hcapture]
    exact hwal.captured

theorem LiveWal.marked {j data' : ℕ} {m' : Machine} (h : LiveWal L j data m) (hdisk : m'.disk = m.disk)
    (hle : data ≤ data') (hresync : m'.node.needsResync = true) : LiveWal L j data' m' where
  le := le_trans h.le hle
  anchors := hdisk ▸ h.anchors
  content := hdisk ▸ h.content
  sound := hdisk ▸ h.sound
  clean hno := by rw [hresync] at hno; cases hno
  captured hno := by rw [hresync] at hno; cases hno

theorem Leading.contradicted (h : Leading L configuration lo applied data m) :
    Leading L configuration lo applied data
      { m with node := { m.node with captureBatchId := none, needsResync := true } } := by
  obtain ⟨j, hwal⟩ := h.wal
  exact
    { h with
      exclusive := fun _ => rfl
      wal := ⟨j, hwal.marked rfl le_rfl rfl⟩ }

/-- A decision other than a batch moves the data cursors without changing them; a captured write loses
its slot to it. -/
theorem Leading.skip {n : ℕ} (h : Leading L configuration lo n n m)
    (hother : ∀ batch, L.entry (n + 1) ≠ .command (.transactionBatch batch))
    (hnext : n + 1 ≤ committedEnd lo m.disk) :
    Leading L configuration lo n (n + 1) { m with node := loseCapture m.node } := by
  obtain ⟨hops, hstate⟩ := L.state_succ_other hother
  have hmove : m.node.captureBatchId = none ∨ m.node.needsResync = true →
      Leading L configuration lo n (n + 1) m := by
    intro hquiet
    obtain ⟨j, hwal⟩ := h.wal
    refine
      { h with
        lastChain := by rw [h.lastChain, hstate, Materialized.note_lastChain]
        lastDataSlot := by rw [h.lastDataSlot, hstate, Materialized.note_lastDataSlot]
        lastBatchId := by rw [h.lastBatchId, hstate, Materialized.note_lastBatchId]
        applied_le := Nat.le_succ n
        data_le := hnext
        wal := ⟨j, { hwal with
          le := le_trans hwal.le (Nat.le_succ n)
          clean := fun hres hcap => ?_
          captured := fun hres b hcap => ?_ }⟩ }
    · rw [hwal.clean hres hcap, hstate, Materialized.note_image]
    · rcases hquiet with hnone | htrue
      · rw [hnone] at hcap
        cases hcap
      · rw [htrue] at hres
        cases hres
  cases hcap : m.node.captureBatchId with
  | none =>
    rw [loseCapture_of_none hcap]
    exact hmove (Or.inl hcap)
  | some b =>
    have hlose : loseCapture m.node = { m.node with captureBatchId := none, needsResync := true } := by
      simp [loseCapture, hcap]
    rw [hlose]
    have hmarked := h.contradicted
    obtain ⟨j, hwal⟩ := hmarked.wal
    exact
      { hmarked with
        lastChain := by rw [hmarked.lastChain, hstate, Materialized.note_lastChain]
        lastDataSlot := by rw [hmarked.lastDataSlot, hstate, Materialized.note_lastDataSlot]
        lastBatchId := by rw [hmarked.lastBatchId, hstate, Materialized.note_lastBatchId]
        applied_le := Nat.le_succ n
        data_le := hnext
        wal := ⟨j, hwal.marked rfl (Nat.le_succ n) rfl⟩ }

end Keep

/-! ### Accounting over a live connection -/

section Account

variable {L : ChosenLog databaseId} {configuration lo n : ℕ} {m : Machine}

theorem Leading.wp_adoptChosenTrim {data : ℕ} (h : Leading L configuration lo n data m) (slot : ℕ)
    (record : TrimRecord) :
    wp (adoptChosenTrim slot record) (fun _ m' => Leading L configuration lo n data m')
      (fun _ m' => DiskSound L configuration lo m'.disk) m := by
  simp only [adoptChosenTrim, wp_bind, wp_get]
  cases m.node.trimState.classify slot record with
  | ignoreReplay => exact h
  | ignoreStale => exact h.withNode rfl rfl rfl rfl rfl rfl rfl rfl rfl rfl rfl h.queued
  | ignoreDuplicate => exact h.withNode rfl rfl rfl rfl rfl rfl rfl rfl rfl rfl rfl h.queued
  | diverged => exact h.disk
  | adopt =>
    simp only [wp_bind, wp_setNode, wp_emit]
    set adopted := m.node.trimState.adopt slot record
    have hqueue := h.withNode (n := { m.node with
        trimState := adopted
        effectWrites := m.node.effectWrites ++ [.trimAnchor adopted.anchor] })
      rfl rfl rfl rfl rfl rfl rfl rfl rfl rfl rfl (by
        intro write hwrite
        rcases List.mem_append.1 hwrite with hold | hnew
        · exact h.queued write hold
        · rw [List.mem_singleton] at hnew
          rw [hnew]
          rfl)
    exact (hqueue.withTrim (some adopted) []).withJournal (Journal.records_noteTrimAnchor _ _ _ _)
      (Journal.retainedFirstSlot_noteTrimAnchor _ _ _ _) _

theorem Leading.wp_storeLeases {data : ℕ} (h : Leading L configuration lo n data m)
    (state : Option TrimState) :
    wp (storeLeases state) (fun _ m' => Leading L configuration lo n data m')
      (fun _ m' => DiskSound L configuration lo m'.disk) m := by
  cases state with
  | none => exact h
  | some state =>
    simp only [storeLeases, wp_bind, wp_setNode, wp_emit]
    exact (h.withNode (n := { m.node with trimState := state })
      rfl rfl rfl rfl rfl rfl rfl rfl rfl rfl rfl h.queued).withTrim (some state) _

/-- A chosen batch is either the captured one, already in the WAL, or it contradicts the live image. -/
theorem Leading.wp_accountBatch (h : Leading L configuration lo n n m) {batch : TransactionBatch}
    (hentry : L.entry (n + 1) = .command (.transactionBatch batch))
    (hnext : n + 1 ≤ committedEnd lo m.disk) :
    wp (accountBatch (n + 1) batch) (fun _ m' => Leading L configuration lo n (n + 1) m')
      (fun _ m' => DiskSound L configuration lo m'.disk) m := by
  obtain ⟨hcheck, view, hload, hops, hstate⟩ := L.state_succ_batch hentry
  have hcheck' : checkChainBase m.node.identity.databaseId m.node.lastChain m.node.lastDataSlot
      batch = true := by
    rw [h.database, h.lastChain, h.lastDataSlot]
    exact hcheck
  -- Whatever became of the capture, the data cursors move over the batch.
  have hmove : ∀ node : Node, node.identity = m.node.identity → node.pageSize = m.node.pageSize →
      node.dbOpen = m.node.dbOpen → node.captureBatchId = none →
      node.effectWrites = m.node.effectWrites → node.appliedSlot = m.node.appliedSlot →
      node.historyHash = m.node.historyHash → (∃ j, LiveWal L j (n + 1) ⟨node, m.disk, m.trail⟩) →
      Leading L configuration lo n (n + 1)
        ⟨(node.advanceChain (n + 1) batch).noteRecentBatch (n + 1) batch.batchId, m.disk,
          m.trail⟩ := by
    intro node hidentity hpage hopen hcapture hqueued happlied hhistory hwal
    obtain ⟨j, hwal⟩ := hwal
    exact
      { disk := h.disk
        database := by simpa only [Node.noteRecentBatch, Node.advanceChain, hidentity] using h.database
        configurationId := by
          simpa only [Node.noteRecentBatch, Node.advanceChain, hidentity] using h.configurationId
        pageSize := by simpa only [Node.noteRecentBatch, Node.advanceChain, hpage] using h.pageSize
        dbOpen := by simpa only [Node.noteRecentBatch, Node.advanceChain, hopen] using h.dbOpen
        exclusive := fun _ => hcapture
        queued := by simpa only [Node.noteRecentBatch, Node.advanceChain, hqueued] using h.queued
        appliedSlot := by
          simpa only [Node.noteRecentBatch, Node.advanceChain, happlied] using h.appliedSlot
        historyHash := by
          simpa only [Node.noteRecentBatch, Node.advanceChain, hhistory] using h.historyHash
        lastChain := by rw [hstate, Materialized.note_lastChain]; rfl
        lastDataSlot := by rw [hstate, Materialized.note_lastDataSlot]; rfl
        lastBatchId := by rw [hstate, Materialized.note_lastBatchId]; rfl
        lo_le := h.lo_le
        applied_le := Nat.le_succ n
        data_le := hnext
        image := h.image
        wal := ⟨j, { hwal with }⟩ }
  obtain ⟨j, hwal⟩ := h.wal
  simp only [accountBatch, settleBatch, wp_bind, wp_get, wp_refuseIf, hcheck', Bool.not_true,
    Bool.false_eq_true, false_implies, true_implies, true_and]
  cases hcap : m.node.captureBatchId with
  | none =>
    rw [if_pos h.dbOpen]
    simp only [wp_setNode]
    exact hmove { m.node with needsResync := true } rfl rfl rfl hcap rfl rfl rfl
      ⟨j, hwal.marked rfl (Nat.le_succ n) rfl⟩
  | some pending =>
    simp only [wp_bind, wp_setNode]
    rw [wp_ite]
    constructor
    · intro hne
      simp only [wp_setNode]
      exact hmove { m.node with captureBatchId := none, needsResync := true } rfl rfl rfl rfl rfl rfl
        rfl ⟨j, hwal.marked rfl (Nat.le_succ n) rfl⟩
    · intro heq
      rw [not_not] at heq
      refine hmove { m.node with captureBatchId := none } rfl rfl rfl rfl rfl rfl rfl ⟨j, ?_⟩
      refine
        { hwal with
          le := le_trans hwal.le (Nat.le_succ n)
          clean := fun hresync _ => ?_
          captured := fun _ b hno => by cases hno }
      obtain ⟨pre, w, hsplit, hid, hslot, hpre⟩ := hwal.captured hresync pending hcap
      have hmem : w ∈ m.disk.wal := by
        rw [hsplit]
        exact List.mem_append_right _ (List.mem_singleton_self w)
      have hchosen : w.Chosen L := ⟨batch, by rw [hslot]; exact hentry, by rw [hid, heq]⟩
      have hopsEq := hwal.sound.identified w hmem hchosen
      rw [L.image_succ, ← hpre, Disk.live, Disk.walOps, hsplit, List.flatMap_append,
        File.execAll_append, List.flatMap_singleton, hopsEq, hslot]

theorem Leading.wp_accountValue (h : Leading L configuration lo n n m)
    (hnext : n + 1 ≤ committedEnd lo m.disk) :
    wp (accountValue (n + 1) (L.entry (n + 1)))
      (fun _ m' => Leading L configuration lo n (n + 1) m')
      (fun _ m' => DiskSound L configuration lo m'.disk) m := by
  by_cases hbatch : ∃ batch, L.entry (n + 1) = .command (.transactionBatch batch)
  · obtain ⟨batch, hentry⟩ := hbatch
    rw [hentry]
    exact h.wp_accountBatch hentry hnext
  · push Not at hbatch
    have hskip := h.skip hbatch hnext
    cases hentry : L.entry (n + 1) with
    | stop stop =>
      simp only [accountValue, wp_bind, wp_setNode]
      split
      · exact hskip.withNode rfl rfl rfl rfl rfl rfl rfl rfl rfl rfl rfl hskip.queued
      · exact hskip
    | command cmd =>
      cases cmd with
      | transactionBatch batch => exact absurd hentry (hbatch batch)
      | noop => exact hskip
      | readBarrier nonce => exact hskip
      | trim record =>
        simp only [accountValue, wp_bind, wp_setNode]
        exact hskip.wp_adoptChosenTrim (n + 1) record
      | transferLease lease =>
        simp only [accountValue, wp_bind, wp_setNode, wp_get]
        exact hskip.wp_storeLeases _
      | leaseComplete leaseId =>
        simp only [accountValue, wp_bind, wp_setNode, wp_get]
        exact hskip.wp_storeLeases _

theorem Leading.wp_accountEntry (h : Leading L configuration lo n n m)
    (hnext : n + 1 ≤ committedEnd lo m.disk) :
    wp (accountEntry (n + 1) (L.entry (n + 1)))
      (fun _ m' => Leading L configuration lo (n + 1) (n + 1) m')
      (fun _ m' => DiskSound L configuration lo m'.disk) m := by
  have hmem : n + 1 ∈ commitSlots m.disk.journal.records :=
    mem_of_le_runEnd (Nat.lt_succ_of_le h.lo_le) hnext
  have hconf := h.disk.log.configured (n + 1) hmem (Nat.lt_succ_of_le h.lo_le)
  simp only [accountEntry, wp_bind]
  refine wp_mono (h.wp_accountValue hnext) ?_ (fun _ _ hsound => hsound)
  rintro ⟨⟩ m' h'
  obtain ⟨j, hwal⟩ := h'.wal
  rw [wp_setNode]
  exact
    { h' with
      appliedSlot := rfl
      historyHash := by
        simp only [h'.historyHash, h'.database, h'.configurationId]
        rw [L.historyHash_succ, ← hconf, Nat.add_sub_cancel]
      lo_le := le_trans h.lo_le (Nat.le_succ n)
      applied_le := le_rfl
      wal := ⟨j, { hwal with }⟩ }

end Account

/-! ### Effects, captures and anchors -/

section Effects

variable {L : ChosenLog databaseId} {configuration lo n : ℕ} {m : Machine}

theorem journaled_leading (applied data : ℕ) :
    Journaled L configuration lo (Leading L configuration lo applied data) where
  journal h hrecords hfirst := h.withJournal hrecords hfirst _
  append h hok := by
    obtain ⟨j, hwal⟩ := h.wal
    exact
      { h with
        disk := h.disk.append (Journal.records_append _ _) (Journal.retainedFirstSlot_append _ _) hok
        data_le := le_trans h.data_le (committedEnd_append _ (Journal.records_append _ _))
        wal := ⟨j, { hwal with }⟩ }
  queued h := h.queued
  flush h := h.withNode rfl rfl rfl rfl rfl rfl rfl rfl rfl rfl rfl
    fun _ hw => absurd hw List.not_mem_nil

/-- `consumeRound` over a live connection. -/
theorem Leading.wp_consumeRound {effects : Effects} (h : Leading L configuration lo n n m)
    (hcore : CoreEffects L m effects) :
    wp (consumeRound effects)
      (fun _ m' => Leading L configuration lo (n + effects.committed.length)
        (n + effects.committed.length) m')
      (fun _ m' => DiskSound L configuration lo m'.disk ∧ m'.node.fatalStorageError = true) m :=
  wp_consumeRound_of (P := fun n => Leading L configuration lo n n)
    (E := fun m => DiskSound L configuration lo m.disk) (fun n => journaled_leading n n)
    (fun _ _ h => ⟨h.configurationId, h.appliedSlot, h.lo_le, h.data_le⟩)
    (fun _ _ h hnext => h.wp_accountEntry hnext)
    (fun _ hsound => ⟨hsound, rfl⟩) h hcore

/-- The batch identity drawn for a capture is nobody else's: a batch chosen under it carries this
transaction. -/
structure Drawn (L : ChosenLog databaseId) (t : CapturedTransaction) : Prop where
  database_lt : databaseId < 256 ^ 16
  pageSize : t.frames.pageSize = defaultPageSize
  own : ∀ s batch, L.entry s = .command (.transactionBatch batch) → batch.batchId = t.batchId →
    0 < s ∧ L.payloads.load batch.payloadHash = some (t.payload databaseId)

theorem validateBatchPayload_ok {pageSize : ℕ} {batch : TransactionBatch} {payload : List UInt8}
    {view : PayloadView} (h : validateBatchPayload databaseId pageSize batch payload = .ok view) :
    PayloadView.parse payload = .ok view := by
  unfold validateBatchPayload at h
  split at h
  · cases h
  · split at h
    · cases h
    · split at h
      · cases h
      · rename_i view' hview'
        split at h
        · cases h
        · split at h
          · cases h
          · obtain rfl := Except.ok.inj h
            exact hview'

/-- A captured transaction that is chosen makes the changes of its batch. -/
theorem Drawn.ops_eq {t : CapturedTransaction} (h : Drawn L t) {w : WalTransaction}
    (hid : w.batchId = t.batchId) (hops : w.ops = t.frames.changes) (hchosen : w.Chosen L) :
    w.ops = L.ops w.slot := by
  obtain ⟨batch, hentry, hbatch⟩ := hchosen
  obtain ⟨hpos, hpayload⟩ := h.own w.slot batch hentry (hbatch.trans hid)
  obtain ⟨s, hs⟩ := Nat.exists_eq_succ_of_ne_zero (Nat.pos_iff_ne_zero.1 hpos)
  rw [hs] at hentry
  obtain ⟨-, view, hload, hview, -⟩ := L.state_succ_batch hentry
  rw [loadBatch, hpayload] at hload
  have hparse := validateBatchPayload_ok hload
  rw [parse_payload t h.database_lt] at hparse
  obtain rfl : t.view databaseId = view := Except.ok.inj hparse
  rw [hops, hs, hview, applyPayload_view]

/-- The commit of a transaction on a live connection that nothing is in flight on. -/
theorem Leading.commitTransaction (h : Leading L configuration lo n n m) {t : CapturedTransaction}
    (hdrawn : Drawn L t) (hnone : m.node.captureBatchId = none)
    (hlive : m.node.liveTransaction = false) (trail : List Disk) :
    Leading L configuration lo n n
      ⟨{ m.node with captureBatchId := some t.batchId },
        { m.disk with wal := m.disk.wal ++ [m.walTransaction t] }, trail⟩ := by
  obtain ⟨j, hwal⟩ := h.wal
  refine
    { h with
      disk := h.disk.withWal _
      exclusive := fun hno => by rw [hlive] at hno; cases hno
      wal := ⟨j,
        { le := hwal.le
          anchors := hwal.anchors
          content := hwal.content
          sound := ⟨fun w hw => ?_, fun w hw hchosen => ?_⟩
          clean := fun _ hno => by cases hno
          captured := fun hresync b hb => ?_ }⟩ }
  · rcases List.mem_append.1 hw with hold | hnew
    · exact hwal.sound.above w hold
    · rw [List.mem_singleton] at hnew
      rw [hnew]
      have hle := hwal.le
      simp only [Machine.walTransaction, h.appliedSlot]
      omega
  · rcases List.mem_append.1 hw with hold | hnew
    · exact hwal.sound.identified w hold hchosen
    · rw [List.mem_singleton] at hnew
      subst hnew
      exact hdrawn.ops_eq rfl rfl hchosen
  · refine ⟨m.disk.wal, m.walTransaction t, rfl, Option.some.inj hb, ?_, hwal.clean hresync hnone⟩
    simp only [Machine.walTransaction, h.appliedSlot]

/-- A machine with a captured write in flight. -/
def Machine.capturing (m : Machine) (batchId : ℕ) : Machine :=
  { m with node := { m.node with captureBatchId := some batchId } }

/-- What the core promises of an append. -/
def AppendOk (L : ChosenLog databaseId) (m : Machine) (batch : TransactionBatch) :
    AppendOutcome → Prop
  | .refused => True
  | .appended _ rounds => RoundsOk L (m.capturing batch.batchId) rounds
  | .unsent rounds last => RoundsOk L (m.capturing batch.batchId) rounds ∧
    ∀ m', consumeEffects rounds (m.capturing batch.batchId) = .ok () m' → CoreEffects L m' last

/-- A replica that has failed for good; its disk is still one recovery can start from. -/
def Failed (L : ChosenLog databaseId) (configuration lo : ℕ) (m : Machine) : Prop :=
  DiskSound L configuration lo m.disk ∧ m.node.fatalStorageError = true

/-- `sealCapturedTransaction` leaves the connection with one capture in flight, or with the captured
transaction settled, or marked for a resync. -/
theorem Leading.wp_sealCapturedTransaction (h : Leading L configuration lo n n m)
    {t : CapturedTransaction} {core : AppendCore} (hdrawn : Drawn L t)
    (hnone : m.node.captureBatchId = none) (hlive : m.node.liveTransaction = false)
    (hcore : ∀ m batch, AppendOk L m batch (core m batch)) :
    wp (sealCapturedTransaction t core) (fun _ m' => ∃ n', Leading L configuration lo n' n' m')
      (fun _ m' => (∃ n', Leading L configuration lo n' n' m') ∨ Failed L configuration lo m')
      m := by
  simp only [sealCapturedTransaction, replicateCaptured, wp_bind, wp_get, wp_emit, wp_onError,
    wp_refuseIf]
  refine ⟨fun _ => ?_, fun _ => ?_⟩
  · exact Or.inl ⟨n, (h.commitTransaction hdrawn hnone hlive _).contradicted⟩
  have hcaptured := (h.commitTransaction hdrawn hnone hlive m.trail).put
    (t.payload m.node.identity.databaseId)
  simp only [appendCaptured, wp_bind, wp_get]
  set m₁ : Machine := ⟨m.node, { m.disk with
      wal := m.disk.wal ++ [m.walTransaction t]
      store := m.disk.store.put (t.payload m.node.identity.databaseId) }, _⟩
  have hok := hcore m₁ (m₁.node.capturedBatch t)
  have hstart : Leading L configuration lo n n (m₁.capturing t.batchId) := hcaptured _
  have hround : ∀ n m effects, Leading L configuration lo n n m → CoreEffects L m effects →
      wp (consumeRound effects) (fun _ => Leading L configuration lo (n + effects.committed.length)
        (n + effects.committed.length)) (fun _ => Failed L configuration lo) m :=
    fun _ _ _ h hcore => h.wp_consumeRound hcore
  cases houtcome : core m₁ (m₁.node.capturedBatch t) with
  | refused =>
    simp only [wp_bind, wp_setNode, wp_throw]
    exact Or.inl ⟨n, (hcaptured _).contradicted⟩
  | unsent rounds last =>
    rw [houtcome] at hok
    obtain ⟨hrounds, hlast⟩ := hok
    simp only [wp_bind, wp_setNode]
    refine wp_mono (wp_consumeEffects_of (P := fun n => Leading L configuration lo n n) hround hstart
      hrounds) ?_ (fun _ m' hfail => Or.inr hfail)
    rintro ⟨⟩ m₂ ⟨hended, n₂, h₂⟩
    rw [wp_bind]
    refine wp_mono (wp_journalEffects (journaled_leading n₂ n₂) h₂ ((hlast m₂ hended).ok
      h₂.configurationId (h₂.appliedSlot.symm ▸ h₂.lo_le) (h₂.appliedSlot.symm ▸ h₂.data_le))) ?_
      (fun _ _ hno => hno.elim)
    rintro ⟨⟩ m₃ ⟨h₃, -⟩
    exact Or.inl ⟨n₂, h₃.contradicted⟩
  | appended slot rounds =>
    rw [houtcome] at hok
    simp only [wp_bind, wp_setNode]
    refine wp_mono (wp_consumeEffects_of (P := fun n => Leading L configuration lo n n) hround hstart
      hok) ?_ (fun _ m' hfail => Or.inr hfail)
    rintro ⟨⟩ m₂ ⟨-, n₂, h₂⟩
    simp only [wp_bind, wp_get, wp_refuseIf, wp_pure]
    exact ⟨fun _ => Or.inl ⟨_, h₂⟩, fun _ => ⟨_, h₂⟩⟩

/-- Copying the WAL of a clean connection into the image moves the image to the applied slot. -/
theorem Leading.checkpointed (h : Leading L configuration lo n n m)
    (hresync : m.node.needsResync = false) (hnone : m.node.captureBatchId = none) (trail : List Disk) :
    Leading L configuration lo n n ⟨m.node, m.disk.closed, trail⟩ ∧
      m.disk.closed.content = (L.state n).image := by
  obtain ⟨j, hwal⟩ := h.wal
  obtain ⟨image, himage⟩ := Option.isSome_iff_exists.1 h.image
  have hfold := hwal.clean hresync hnone
  have hcontent : m.disk.closed.content = (L.state n).image := by
    rw [Disk.content_closed h.image, hfold]
  have hanchors : ∀ a, m.disk.applied.Holds a → a.globalSlot ≤ n := fun a ha =>
    le_trans (hwal.anchors a ha) hwal.le
  have hsome : m.disk.closed.image =
      some { synced := image.content.execAll m.disk.walOps, pending := [] } := by
    simp only [Disk.closed, himage, Option.map_some]
  have himages : ImageSound L n (committedEnd lo m.disk.closed) m.disk.closed := by
    have hclosed : m.disk.closed = (m.disk.closed).withImage
        { synced := image.content.execAll m.disk.walOps, pending := [] } := by
      simp only [Disk.withImage, ← hsome]
    rw [hclosed]
    refine imageSound_synced ?_
    rw [← hfold, Disk.live]
    simp only [Disk.content, himage]
  have hend : n ≤ committedEnd lo m.disk.closed := h.data_le
  refine ⟨?_, hcontent⟩
  exact
    { h with
      disk := ⟨h.disk.log.withFiles _ _, n, h.lo_le, hend, hanchors, himages⟩
      image := by rw [hsome]; rfl
      wal := ⟨n,
        { le := le_rfl
          anchors := hanchors
          content := hcontent
          sound := ⟨fun w hw => absurd hw List.not_mem_nil, fun w hw => absurd hw List.not_mem_nil⟩
          clean := fun _ _ => hcontent
          captured := fun _ b hb => by rw [hnone] at hb; cases hb }⟩ }

/-- Publishing the anchor for a checkpointed image. -/
theorem Leading.wp_publishStateAnchor (h : Leading L configuration lo n n m)
    (hcontent : m.disk.content = (L.state n).image) (hwal : m.disk.wal = [])
    (hnone : m.node.captureBatchId = none) (hpos : 0 < n) :
    wp publishStateAnchor (fun _ m' => Leading L configuration lo n n m')
      (fun _ m' => Leading L configuration lo n n m') m := by
  obtain ⟨j, hlive⟩ := h.wal
  rw [publishStateAnchor, wp_bind, wp_get]
  cases hdisk : m.disk.image with
  | none => exact h
  | some image =>
    simp only [wp_bind, wp_emit, wp_setNode]
    have hfold : image.content = (L.state n).image := by
      simpa only [Disk.content, hdisk] using hcontent
    have hle : ∀ a, m.disk.applied.Holds a → a.globalSlot ≤ n := fun a ha =>
      le_trans (hlive.anchors a ha) hlive.le
    obtain ⟨hfirst, hsynced⟩ := h.disk.syncImage hdisk hfold h.lo_le h.data_le hle
    obtain ⟨hsecond, hheld⟩ := hfirst.publish hsynced h.lo_le h.data_le hle
      (anchorSound_stateAnchor image.content.length hpos h.database h.pageSize h.appliedSlot h.lastChain
        h.lastDataSlot h.lastBatchId h.historyHash) h.configurationId h.appliedSlot
    have hafter : m.disk.syncImage.content = (L.state n).image := by
      simp only [Disk.syncImage, hdisk, Option.map_some, Disk.content, Image.content, List.map_nil,
        File.execAll_nil]
      exact hfold
    refine
      { h with
        disk := hsecond
        image := by simp only [Disk.syncImage, hdisk, Option.map_some, Option.isSome_some]
        wal := ⟨n,
          { le := le_rfl
            anchors := hheld
            content := hafter
            sound := ?_
            clean := fun _ _ => ?_
            captured := fun _ b hb => ?_ }⟩ }
    · simp only [Disk.syncImage, hwal]
      exact ⟨fun w hw => absurd hw List.not_mem_nil, fun w hw => absurd hw List.not_mem_nil⟩
    · rw [Disk.live, Disk.walOps]
      simp only [Disk.syncImage, hwal, List.flatMap_nil, File.execAll_nil]
      exact hafter
    · simp only [Node.anchored, hnone] at hb
      cases hb

/-- Anchoring over a live connection that needs no resync. -/
theorem Leading.wp_anchorState (h : Leading L configuration lo n n m)
    (hresync : m.node.needsResync = false) :
    wp anchorState (fun _ m' => Leading L configuration lo n n m')
      (fun _ m' => Leading L configuration lo n n m') m := by
  simp only [anchorState, wp_bind, wp_get, wp_refuseIf, wp_doIf, h.dbOpen, Bool.true_eq_false,
    false_implies, true_implies, and_true]
  refine ⟨fun _ => h, fun hlive => ⟨fun _ => h, fun hcap => ⟨fun hlt => ?_, fun _ => h⟩⟩⟩
  have hnone : m.node.captureBatchId = none := by
    rwa [Option.isSome_eq_false_iff, Option.isNone_iff_eq_none] at hcap
  have hpos : 0 < n := by
    rw [← h.appliedSlot]
    exact lt_of_le_of_lt (Nat.zero_le _) (of_decide_eq_true hlt)
  refine wp_checkpointWal fun trail => ?_
  obtain ⟨hclosed, hcontent⟩ := h.checkpointed hresync hnone trail
  exact hclosed.wp_publishStateAnchor hcontent rfl hnone hpos

end Effects

end Zaxonlite
