import Zaxonlite.Node.State

/-!
# Accounting chosen entries

The core hands over its durable writes and the entries it now knows to be chosen. The writes are
appended to the journal first; then each chosen entry is accounted in slot order. A batch this process
captured itself is already in its live WAL. Any other batch is applied to the image offline, page by
page, unless a live connection has the image open, in which case the image is marked for a resync.
-/

namespace Zaxonlite

open Program

/-- `checkChainBase`: the batch extends the chain applied so far. -/
def checkChainBase (databaseId : ℕ) (lastChain : HashBytes) (lastDataSlot : ℕ)
    (batch : TransactionBatch) : Bool :=
  batch.databaseId == databaseId && batch.baseChainHash == lastChain &&
    batch.baseDataSlot == lastDataSlot && chainValid batch

/-- `validateBatchPayload`: the descriptor against the payload bytes. -/
def validateBatchPayload (databaseId pageSize : ℕ) (batch : TransactionBatch)
    (payload : List UInt8) : Except NodeError PayloadView :=
  if batch.databaseId ≠ databaseId then .error .databaseMismatch
  else if payload.length ≠ batch.payloadBytes then .error .payloadCorrupt
  else
    match PayloadView.parse payload with
    | .error e => .error (.payload e)
    | .ok view =>
      if view.databaseId ≠ batch.databaseId then .error .databaseMismatch
      else if view.transactionCount ≠ batch.transactionCount ∨ view.frameCount ≠ batch.frameCount ∨
          view.pageSize ≠ pageSize then .error .payloadDescriptorMismatch
      else .ok view

def loadBatch (databaseId pageSize : ℕ) (store : PayloadStore) (batch : TransactionBatch) :
    Except NodeError PayloadView :=
  match store.load batch.payloadHash with
  | none => .error .payloadMissing
  | some payload => validateBatchPayload databaseId pageSize batch payload

/-- `applyPayload` over the image on disk, one crash point per change. -/
def applyPayloadOps (slot : ℕ) (ops : List FileOp) : Op Unit :=
  ops.forM fun op => emit fun d => d.changeImage slot op

def applyBatchOffline (slot : ℕ) (batch : TransactionBatch) : Op Unit := do
  let m ← get
  match loadBatch m.node.identity.databaseId m.node.pageSize m.disk.store batch with
  | .error e => throw e
  | .ok view =>
    emit Disk.deleteWal
    emit Disk.createImage
    applyPayloadOps slot view.applyPayload

/-- A decision other than the captured write at its slot. -/
def loseCapture (n : Node) : Node :=
  if n.captureBatchId.isSome then { n with captureBatchId := none, needsResync := true } else n

/-- `adoptChosenTrim`: persist a trim that advances the adopted one. -/
def adoptChosenTrim (decisionSlot : ℕ) (record : TrimRecord) : Op Unit := do
  let m ← get
  match m.node.trimState.classify decisionSlot record with
  | .ignoreReplay => pure ()
  | .ignoreStale => setNode fun n => { n with trimIgnoredCount := n.trimIgnoredCount + 1 }
  | .ignoreDuplicate => setNode fun n => { n with trimIgnoredCount := n.trimIgnoredCount + 1 }
  | .diverged =>
    setNode fun n => { n with fatalStorageError := true }
    throw .trimRegression
  | .adopt =>
    let adopted := m.node.trimState.adopt decisionSlot record
    setNode fun n => { n with trimState := adopted }
    emit fun d => { d with trim := some adopted }
    setNode fun n => { n with effectWrites := n.effectWrites ++ [.trimAnchor adopted.anchor] }
    emit fun d => { d with
      journal := d.journal.noteTrimAnchor decisionSlot record.throughSlot record.historyHash }

/-- Persist a lease change, if there is one. -/
def storeLeases (state : Option TrimState) : Op Unit :=
  match state with
  | none => pure ()
  | some state => do
    setNode fun n => { n with trimState := state }
    emit fun d => { d with trim := some state }

/-- The size of the ring of recent batches. -/
def recentBatchCount : ℕ := 64

def Node.advanceChain (n : Node) (slot : ℕ) (batch : TransactionBatch) : Node :=
  { n with
    lastChain := batch.resultChainHash
    lastDataSlot := slot
    lastBatchId := batch.batchId }

/-- Keep a decided batch for write waiters. -/
def Node.noteRecentBatch (n : Node) (slot : ℕ) (batchId : ℕ) : Node :=
  { n with recentBatches := Function.update n.recentBatches (slot % recentBatchCount) ⟨slot, batchId⟩ }

/-- Bring the image in line with a chosen batch: a captured write settles, in its own favour or not;
any other batch is applied offline, or marks an open image for a resync. -/
def settleBatch (slot : ℕ) (batch : TransactionBatch) : Op Unit := do
  let m ← get
  match m.node.captureBatchId with
  | some pending =>
    setNode fun n => { n with captureBatchId := none }
    if pending ≠ batch.batchId then
      setNode fun n => { n with needsResync := true }
  | none =>
    if m.node.dbOpen then
      setNode fun n => { n with needsResync := true }
    else
      applyBatchOffline slot batch

/-- The transaction-batch arm of `accountCommitted`. -/
def accountBatch (slot : ℕ) (batch : TransactionBatch) : Op Unit := do
  let m ← get
  refuseIf (!checkChainBase m.node.identity.databaseId m.node.lastChain m.node.lastDataSlot batch)
    .chainMismatch
  settleBatch slot batch
  setNode fun n => (n.advanceChain slot batch).noteRecentBatch slot batch.batchId

/-- The arm of `accountCommitted` for one entry, before the history anchor advances. -/
def accountValue (slot : ℕ) : Entry → Op Unit
  | .command .noop => setNode loseCapture
  | .command (.readBarrier _) => setNode loseCapture
  | .command (.trim record) => do
    setNode loseCapture
    adoptChosenTrim slot record
  | .command (.transferLease lease) => do
    setNode loseCapture
    let m ← get
    storeLeases (m.node.trimState.trackLease lease)
  | .command (.leaseComplete leaseId) => do
    setNode loseCapture
    let m ← get
    storeLeases (m.node.trimState.releaseLease leaseId)
  | .command (.transactionBatch batch) => accountBatch slot batch
  | .stop stop => do
    setNode loseCapture
    setNode fun n =>
      if stop.configurationId > n.identity.configurationId then
        { n with membershipChangePending := true }
      else n

/-- One turn of `accountCommitted`. -/
def accountEntry (slot : ℕ) (entry : Entry) : Op Unit := do
  accountValue slot entry
  setNode fun n => { n with
    historyHash := History.advance n.historyHash n.identity.databaseId n.identity.configurationId
      slot entry
    appliedSlot := slot }

def accountCommitted (committed : List (ℕ × Entry)) : Op Unit :=
  committed.forM fun entry => accountEntry entry.1 entry.2

/-- What the core hands over after a step. -/
structure Effects where
  writes : List Write
  requiresBarrier : Bool
  committed : List (ℕ × Entry)
  decidedThrough : ℕ

/-- `appendWrites`, one crash point per rotation and per record. -/
def appendWrites (writes : List Write) : Op Unit :=
  writes.forM fun write => do
    let m ← get
    if m.disk.journal.full then
      emit fun d => { d with journal := d.journal.rotate }
    emit fun d => { d with journal := d.journal.append write }

def markFailed (m : Machine) : Machine :=
  { m with node := { m.node with fatalStorageError := true } }

/-- The journal half of a turn of `consumeEffects`: append the writes, and sync them unless they are all derived
commit markers. -/
def journalEffects (effects : Effects) : Op Unit := do
  if effects.writes ≠ [] then
    onError (appendWrites effects.writes) markFailed
    if effects.requiresBarrier then
      emit fun d => { d with journal := d.journal.sync }

/-- The accounting half: account the chosen entries, then append what that queued. -/
def accountEffects (effects : Effects) : Op Unit := do
  onError (accountCommitted effects.committed) markFailed
  let m ← get
  onError (appendWrites m.node.effectWrites) markFailed
  setNode fun n => { n with effectWrites := [] }
  emit fun d => { d with journal := d.journal.noteChosen effects.decidedThrough }

/-- One turn of `consumeEffects`, for the effects of one core step. -/
def consumeRound (effects : Effects) : Op Unit := do
  journalEffects effects
  accountEffects effects

/-- `consumeEffects`: the messages a turn addresses to the node itself are stepped at once, and what
the core makes of them is the next turn. -/
def consumeEffects (rounds : List Effects) : Op Unit :=
  rounds.forM consumeRound

/-! ### What accounting leaves alone -/

section Frame

variable {γ : Type*} {φ : Machine → γ}

theorem keeps_emit {f : Disk → Disk}
    (h : ∀ m, φ { m with disk := f m.disk, trail := m.trail ++ [f m.disk] } = φ m) :
    Keeps φ (emit f) :=
  keeps_modify h

theorem keeps_setNode {f : Node → Node} (h : ∀ m, φ { m with node := f m.node } = φ m) :
    Keeps φ (setNode f) :=
  keeps_modify h

theorem keeps_refuseIf (c : Bool) (e : NodeError) : Keeps φ (refuseIf c e) :=
  (keeps_throw e).ite (keeps_pure ())

theorem keeps_doIf (c : Bool) {x : Op Unit} (h : Keeps φ x) : Keeps φ (doIf c x) :=
  h.ite (keeps_pure ())

theorem keeps_loadBatch {e : Except NodeError PayloadView} {f : PayloadView → Op Unit}
    (h : ∀ view, Keeps φ (f view)) :
    Keeps φ (match e with | .error e => throw e | .ok view => f view) := by
  cases e with
  | error e => exact keeps_throw e
  | ok view => exact h view

/-- A view that neither the image and WAL, nor the trim files, nor the cursors show. -/
structure AccountFrame (φ : Machine → γ) : Prop where
  deleteWal : Keeps φ (emit Disk.deleteWal)
  createImage : Keeps φ (emit Disk.createImage)
  changeImage : ∀ slot op, Keeps φ (emit fun d => d.changeImage slot op)
  trim : ∀ state, Keeps φ (emit fun d => { d with trim := some state })
  noteTrim : ∀ decision through hash, Keeps φ (emit fun d => { d with
    journal := d.journal.noteTrimAnchor decision through hash })
  node : ∀ f : Node → Node, (∀ n, (f n).identity = n.identity ∧ (f n).capabilities = n.capabilities ∧
    (f n).durableStateSlot = n.durableStateSlot ∧ (f n).anchorGeneration = n.anchorGeneration) →
    Keeps φ (setNode f)

theorem AccountFrame.applyBatchOffline (h : AccountFrame φ) (slot : ℕ) (batch : TransactionBatch) :
    Keeps φ (applyBatchOffline slot batch) := by
  refine keeps_get.bind fun m => keeps_loadBatch fun view => ?_
  refine h.deleteWal.bind fun _ => h.createImage.bind fun _ => ?_
  exact Keeps.forM (fun op => h.changeImage slot op) _

theorem AccountFrame.adoptChosenTrim (h : AccountFrame φ) (slot : ℕ) (record : TrimRecord) :
    Keeps φ (adoptChosenTrim slot record) := by
  refine keeps_get.bind fun m => ?_
  cases m.node.trimState.classify slot record with
  | ignoreReplay => exact keeps_pure ()
  | ignoreStale => exact h.node _ fun n => ⟨rfl, rfl, rfl, rfl⟩
  | ignoreDuplicate => exact h.node _ fun n => ⟨rfl, rfl, rfl, rfl⟩
  | diverged => exact Keeps.bind (h.node _ fun n => ⟨rfl, rfl, rfl, rfl⟩) fun _ => keeps_throw _
  | adopt =>
    refine Keeps.bind (h.node _ fun n => ⟨rfl, rfl, rfl, rfl⟩) fun _ => Keeps.bind (h.trim _) fun _ => ?_
    exact Keeps.bind (h.node _ fun n => ⟨rfl, rfl, rfl, rfl⟩) fun _ => h.noteTrim _ _ _

theorem AccountFrame.storeLeases (h : AccountFrame φ) (state : Option TrimState) :
    Keeps φ (storeLeases state) := by
  cases state with
  | none => exact keeps_pure ()
  | some state => exact Keeps.bind (h.node _ fun n => ⟨rfl, rfl, rfl, rfl⟩) fun _ => h.trim state

theorem AccountFrame.loseCapture (h : AccountFrame φ) : Keeps φ (setNode loseCapture) := by
  refine h.node _ fun n => ?_
  unfold Zaxonlite.loseCapture
  split <;> exact ⟨rfl, rfl, rfl, rfl⟩

theorem AccountFrame.accountBatch (h : AccountFrame φ) (slot : ℕ) (batch : TransactionBatch) :
    Keeps φ (accountBatch slot batch) := by
  have hsettle : Keeps φ (settleBatch slot batch) := by
    refine keeps_get.bind fun m => ?_
    split
    · refine Keeps.bind (h.node _ fun n => ⟨rfl, rfl, rfl, rfl⟩) fun _ => ?_
      split
      · exact h.node _ fun n => ⟨rfl, rfl, rfl, rfl⟩
      · exact keeps_pure _
    · split
      · exact h.node _ fun n => ⟨rfl, rfl, rfl, rfl⟩
      · exact h.applyBatchOffline slot batch
  refine keeps_get.bind fun m => (keeps_refuseIf _ _).bind fun _ => hsettle.bind fun _ => ?_
  exact h.node _ fun n => ⟨rfl, rfl, rfl, rfl⟩

theorem AccountFrame.accountEntry (h : AccountFrame φ) (slot : ℕ) (entry : Entry) :
    Keeps φ (accountEntry slot entry) := by
  refine Keeps.bind ?_ fun _ => h.node _ fun n => ⟨rfl, rfl, rfl, rfl⟩
  cases entry with
  | stop stop =>
    refine h.loseCapture.bind fun _ => h.node _ fun n => ?_
    split <;> exact ⟨rfl, rfl, rfl, rfl⟩
  | command cmd =>
    cases cmd with
    | noop => exact h.loseCapture
    | readBarrier nonce => exact h.loseCapture
    | trim record => exact h.loseCapture.bind fun _ => h.adoptChosenTrim slot record
    | transferLease lease =>
      exact h.loseCapture.bind fun _ => keeps_get.bind fun m => h.storeLeases _
    | leaseComplete leaseId =>
      exact h.loseCapture.bind fun _ => keeps_get.bind fun m => h.storeLeases _
    | transactionBatch batch => exact h.accountBatch slot batch

/-- The journal's records and the payload store. -/
def Machine.logView (m : Machine) : List Write × PayloadStore :=
  (m.disk.journal.records, m.disk.store)

theorem accountFrame_logView : AccountFrame Machine.logView where
  deleteWal := keeps_emit fun m => rfl
  createImage := keeps_emit fun m => by
    unfold Machine.logView Disk.createImage
    split <;> rfl
  changeImage slot op := keeps_emit fun m => rfl
  trim state := keeps_emit fun m => rfl
  noteTrim decision through hash := keeps_emit fun m => by
    simp only [Machine.logView, Journal.records_noteTrimAnchor]
  node f hf := keeps_setNode fun m => rfl

/-- What `reclaim` and the anchors read. -/
def Machine.anchorView (m : Machine) : Identity × Capabilities × ℕ × ℕ × AppliedFiles :=
  (m.node.identity, m.node.capabilities, m.node.durableStateSlot, m.node.anchorGeneration,
    m.disk.applied)

theorem accountFrame_anchorView : AccountFrame Machine.anchorView where
  deleteWal := keeps_emit fun m => rfl
  createImage := keeps_emit fun m => by
    unfold Machine.anchorView Disk.createImage
    split <;> rfl
  changeImage slot op := keeps_emit fun m => rfl
  trim state := keeps_emit fun m => rfl
  noteTrim decision through hash := keeps_emit fun m => rfl
  node f hf := keeps_setNode fun m => by
    obtain ⟨hidentity, hcaps, hdurable, hgen⟩ := hf m.node
    simp only [Machine.anchorView, hidentity, hcaps, hdurable, hgen]

theorem keeps_appendWrites (writes : List Write) : Keeps Machine.anchorView (appendWrites writes) := by
  refine Keeps.forM (fun write => keeps_get.bind fun m => ?_) writes
  simp only
  split
  · exact Keeps.bind (keeps_emit fun m => rfl) fun _ => keeps_emit fun m => rfl
  · exact keeps_emit fun m => rfl

theorem keeps_journalEffects (effects : Effects) :
    Keeps Machine.anchorView (journalEffects effects) := by
  unfold journalEffects
  split
  · refine Keeps.bind (Keeps.onError (keeps_appendWrites _) fun s => rfl) fun _ => ?_
    split
    · exact keeps_emit fun m => rfl
    · exact keeps_pure _
  · exact keeps_pure _

theorem keeps_consumeRound (effects : Effects) :
    Keeps Machine.anchorView (consumeRound effects) := by
  refine (keeps_journalEffects effects).bind fun _ => ?_
  refine Keeps.bind (Keeps.onError (Keeps.forM (fun e => ?_) _) fun s => rfl) fun _ => ?_
  · exact accountFrame_anchorView.accountEntry e.1 e.2
  · refine keeps_get.bind fun m => Keeps.bind (Keeps.onError (keeps_appendWrites _) fun s => rfl) fun _ => ?_
    exact Keeps.bind (keeps_setNode fun m => rfl) fun _ => keeps_emit fun m => rfl

theorem keeps_consumeEffects (rounds : List Effects) :
    Keeps Machine.anchorView (consumeEffects rounds) :=
  Keeps.forM keeps_consumeRound rounds

end Frame

end Zaxonlite
