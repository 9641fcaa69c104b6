import Zaxonlite.Crash.Process
import Zaxonlite.Node.Reclaim
import Zaxonlite.Node.Capture

/-!
# State transfer and rebuilding

A replica too far behind installs a peer's image in one piece: the received file takes the place of
`current.db`, and a fresh anchor binds it to its slot. A replica whose image SQLite cannot read drops it
together with its anchors and rebuilds from the journal. The frame here is what every other operation
leaves alone: the anchors on disk and what the node remembers of them.
-/

namespace Zaxonlite

open Program

def File.bytes (f : File) : List UInt8 :=
  (List.range f.length).map f.byte

/-- `fileSha256`. -/
def File.sha256 (f : File) : HashBytes :=
  Sha256.hash f.bytes

/-- The offer a state transfer was verified against. -/
structure SnapshotBegin where
  configurationId : ℕ
  anchorSlot : ℕ
  historyHash : HashBytes
  dbSize : ℕ
  imageSha256 : HashBytes
  sqlitePageSize : ℕ
  lastDataSlot : ℕ
  lastBatchId : ℕ
  lastChain : HashBytes

/-- The volatile cursors at a transferred slot. -/
def Node.transferred (n : Node) (offer : SnapshotBegin) : Node :=
  { n with
    historyHash := offer.historyHash
    historyHashAtAnchor := offer.historyHash
    lastChain := offer.lastChain
    lastDataSlot := offer.lastDataSlot
    lastBatchId := offer.lastBatchId
    pageSize := offer.sqlitePageSize
    appliedSlot := offer.anchorSlot
    recentBatches := fun _ => ⟨0, 0⟩
    anchorGeneration := n.anchorGeneration + 1 }

/-- The anchor that binds a transferred image. -/
def Node.transferAnchor (n : Node) (offer : SnapshotBegin) : AppliedAnchor where
  generation := n.anchorGeneration
  databaseId := n.identity.databaseId
  globalSlot := offer.anchorSlot
  configurationId := n.identity.configurationId
  historyHash := offer.historyHash
  sqlitePageSize := offer.sqlitePageSize
  sqlitePageCount := offer.dbSize / offer.sqlitePageSize
  lastDataSlot := offer.lastDataSlot
  lastBatchId := offer.lastBatchId
  lastChain := offer.lastChain

/-- Rename the received file onto `current.db`. -/
def Disk.installImage (d : Disk) (received : File) : Disk :=
  { d with image := some { synced := received, pending := [] } }

/-- Put the received image in place and bind it with an anchor. -/
def installImage (received : File) (offer : SnapshotBegin) : Op Unit := do
  emit Disk.deleteWal
  emit fun d => d.installImage received
  setNode fun n => n.transferred offer
  let m ← get
  emit fun d => { d with applied := d.applied.publish (m.node.transferAnchor offer) }
  setNode fun n => { n with
    durableStateSlot := offer.anchorSlot, durableDataSlot := offer.lastDataSlot }

/-- `installTransferredState`, given the file that was received. -/
def installTransferredState (received : File) (offer : SnapshotBegin) : Op Unit := do
  let m ← get
  refuseIf m.node.fatalStorageError .storageFailed
  refuseIf (!m.node.capabilities.materializes) .roleCannotWrite
  refuseIf (decide (offer.configurationId ≠ m.node.identity.configurationId)) .configurationMismatch
  refuseIf (decide (offer.anchorSlot ≤ m.node.appliedSlot)) .staleTransfer
  refuseIf m.node.liveTransaction .transactionOpen
  refuseIf (decide (received.sha256 ≠ offer.imageSha256)) .transferDigestMismatch
  doIf m.node.dbOpen checkpointWal
  setNode fun n => { n with dbOpen := false, captureBatchId := none, needsResync := false }
  installImage received offer

def discardImageAndRematerialize : Op Unit := do
  let m ← get
  refuseIf (decide (m.disk.journal.retainedFirstSlot > 1)) .stateUnavailable
  emit Disk.deleteImage
  emit fun d => { d with applied := { d.applied with applied0 := none } }
  emit fun d => { d with applied := { d.applied with applied1 := none } }
  setNode fun n => { n with durableStateSlot := 0, durableDataSlot := 0 }
  materializeFromJournal

/-! ### What leaves the anchors alone -/

/-- A view that shows neither the disk, its anchors apart, nor the node's fields, those an anchor restores
apart. -/
structure AnchorFrame {γ : Type*} (φ : Machine → γ) : Prop where
  emit : ∀ (f : Disk → Disk) (m : Machine), (f m.disk).applied = m.disk.applied →
    φ { m with disk := f m.disk, trail := m.trail ++ [f m.disk] } = φ m
  node : ∀ (f : Node → Node) (m : Machine), (f m.node).identity = m.node.identity →
    (f m.node).capabilities = m.node.capabilities →
    (f m.node).durableStateSlot = m.node.durableStateSlot →
    (f m.node).anchorGeneration = m.node.anchorGeneration → φ { m with node := f m.node } = φ m

namespace AnchorFrame

variable {γ : Type*} {φ : Machine → γ}

theorem keeps_emit (h : AnchorFrame φ) {f : Disk → Disk} (hf : ∀ d, (f d).applied = d.applied) :
    Keeps φ (Zaxonlite.emit f) :=
  Zaxonlite.keeps_emit fun m => h.emit f m (hf m.disk)

theorem applied_createImage (d : Disk) : d.createImage.applied = d.applied := by
  rw [Disk.createImage]
  split <;> rfl

theorem toAccountFrame (h : AnchorFrame φ) : AccountFrame φ where
  deleteWal := h.keeps_emit fun _ => rfl
  createImage := h.keeps_emit applied_createImage
  changeImage := fun _ _ => h.keeps_emit fun _ => rfl
  trim := fun _ => h.keeps_emit fun _ => rfl
  noteTrim := fun _ _ _ => h.keeps_emit fun _ => rfl
  node := fun f hf => keeps_setNode fun m =>
    h.node f m (hf m.node).1 (hf m.node).2.1 (hf m.node).2.2.1 (hf m.node).2.2.2

theorem setNode (h : AnchorFrame φ) {f : Node → Node} (hf : ∀ n, (f n).identity = n.identity ∧
    (f n).capabilities = n.capabilities ∧ (f n).durableStateSlot = n.durableStateSlot ∧
    (f n).anchorGeneration = n.anchorGeneration) : Keeps φ (Zaxonlite.setNode f) :=
  h.toAccountFrame.node f hf

theorem markFailed (h : AnchorFrame φ) (m : Machine) : φ (markFailed m) = φ m :=
  h.node (fun n => { n with fatalStorageError := true }) m rfl rfl rfl rfl

theorem appendWrites (h : AnchorFrame φ) (writes : List Write) : Keeps φ (appendWrites writes) := by
  refine Keeps.forM (fun write => keeps_get.bind fun m => ?_) writes
  simp only
  split
  · exact Keeps.bind (h.keeps_emit fun _ => rfl) fun _ => h.keeps_emit fun _ => rfl
  · exact h.keeps_emit fun _ => rfl

theorem journalEffects (h : AnchorFrame φ) (effects : Effects) : Keeps φ (journalEffects effects) := by
  rw [Zaxonlite.journalEffects]
  split
  · refine Keeps.bind ((h.appendWrites _).onError h.markFailed) fun _ => ?_
    split
    · exact h.keeps_emit fun _ => rfl
    · exact keeps_pure _
  · exact keeps_pure _

theorem consumeRound (h : AnchorFrame φ) (effects : Effects) : Keeps φ (consumeRound effects) := by
  have hcommitted : Keeps φ (accountCommitted effects.committed) := by
    apply Keeps.forM
    intro entry
    exact h.toAccountFrame.accountEntry entry.1 entry.2
  refine (h.journalEffects effects).bind fun _ => ?_
  refine (hcommitted.onError h.markFailed).bind fun _ => keeps_get.bind fun m => ?_
  refine ((h.appendWrites _).onError h.markFailed).bind fun _ => ?_
  exact Keeps.bind (h.setNode fun n => ⟨rfl, rfl, rfl, rfl⟩) fun _ => h.keeps_emit fun _ => rfl

theorem consumeEffects (h : AnchorFrame φ) (rounds : List Effects) : Keeps φ (consumeEffects rounds) :=
  Keeps.forM h.consumeRound rounds

theorem applyPayloadOps (h : AnchorFrame φ) (slot : ℕ) (ops : List FileOp) :
    Keeps φ (applyPayloadOps slot ops) := by
  apply Keeps.forM
  intro op
  exact h.keeps_emit fun _ => rfl

theorem checkpointWal (h : AnchorFrame φ) : Keeps φ checkpointWal := by
  refine keeps_get.bind fun m => Keeps.bind (Keeps.forM (fun t => ?_) _) fun _ => ?_
  · exact h.applyPayloadOps t.slot t.ops
  · exact Keeps.bind (h.keeps_emit fun _ => rfl) fun _ => h.keeps_emit fun _ => rfl

theorem reclaim (h : AnchorFrame φ) : Keeps φ reclaim := by
  refine keeps_get.bind fun m => keeps_doIf _ (keeps_get.bind fun m => ?_)
  refine Keeps.bind (h.keeps_emit fun _ => rfl) fun _ => keeps_doIf _ ?_
  exact Keeps.bind (h.keeps_emit fun _ => rfl) fun _ => h.setNode fun n => ⟨rfl, rfl, rfl, rfl⟩

theorem ensureWriter (h : AnchorFrame φ) : Keeps φ ensureWriter := by
  refine keeps_get.bind fun m => (keeps_refuseIf _ _).bind fun _ => keeps_doIf _ ?_
  exact Keeps.bind (h.keeps_emit applied_createImage) fun _ => h.setNode fun n => ⟨rfl, rfl, rfl, rfl⟩

theorem appendCaptured (h : AnchorFrame φ) (t : CapturedTransaction) (core : AppendCore) :
    Keeps φ (appendCaptured t core) := by
  refine keeps_get.bind fun m => ?_
  cases core m (m.node.capturedBatch t) with
  | refused => exact Keeps.bind (h.setNode fun n => ⟨rfl, rfl, rfl, rfl⟩) fun _ => keeps_throw _
  | unsent rounds last =>
    refine Keeps.bind (h.setNode fun n => ⟨rfl, rfl, rfl, rfl⟩) fun _ => ?_
    exact (h.consumeEffects rounds).bind fun _ => (h.journalEffects last).bind fun _ => keeps_throw _
  | appended slot rounds =>
    refine Keeps.bind (h.setNode fun n => ⟨rfl, rfl, rfl, rfl⟩) fun _ => ?_
    exact (h.consumeEffects rounds).bind fun _ => keeps_pure slot

theorem sealCapturedTransaction (h : AnchorFrame φ) (t : CapturedTransaction) (core : AppendCore) :
    Keeps φ (sealCapturedTransaction t core) := by
  have hreplicate : Keeps φ (replicateCaptured t core) := by
    refine keeps_get.bind fun m => (keeps_refuseIf _ _).bind fun _ => ?_
    exact Keeps.bind (h.keeps_emit fun _ => rfl) fun _ => h.appendCaptured t core
  have hfail : ∀ m, φ (committedWithoutLog m) = φ m := fun m =>
    h.node (fun n => { n with captureBatchId := none, needsResync := true }) m rfl rfl rfl rfl
  refine keeps_get.bind fun m => Keeps.bind (h.keeps_emit fun _ => rfl) fun _ => ?_
  refine Keeps.bind (hreplicate.onError hfail) fun slot => keeps_get.bind fun m => ?_
  exact (keeps_refuseIf _ _).bind fun _ => keeps_pure slot

theorem applyEntryToImage (h : AnchorFrame φ) (slot : ℕ) (entry : Entry) (configurationId : ℕ) :
    Keeps φ (applyEntryToImage slot entry configurationId) := by
  have hhistory : Keeps φ (Zaxonlite.setNode fun n => { n with
      historyHash := History.advance n.historyHash n.identity.databaseId configurationId slot entry }) :=
    h.setNode fun n => ⟨rfl, rfl, rfl, rfl⟩
  refine keeps_get.bind fun m => ?_
  cases entry with
  | stop stop =>
    refine Keeps.bind (h.setNode fun n => ?_) fun _ => hhistory
    split <;> exact ⟨rfl, rfl, rfl, rfl⟩
  | command cmd =>
    cases cmd with
    | transactionBatch batch =>
      cases hload : loadBatch m.node.identity.databaseId m.node.pageSize m.disk.store batch with
      | error e =>
        simp only [hload]
        split
        · exact (keeps_throw _).bind fun _ => (keeps_throw _).bind fun _ => hhistory
        · exact (keeps_throw _).bind fun _ => hhistory
      | ok view =>
        have happly : Keeps φ (do
            Zaxonlite.applyPayloadOps slot view.applyPayload
            Zaxonlite.setNode fun n => n.advanceChain slot batch
            Zaxonlite.setNode fun n => { n with
              historyHash := History.advance n.historyHash n.identity.databaseId configurationId slot
                (.command (.transactionBatch batch)) }) :=
          (h.applyPayloadOps _ _).bind fun _ =>
            Keeps.bind (h.setNode fun n => ⟨rfl, rfl, rfl, rfl⟩) fun _ => hhistory
        simp only [hload]
        split
        · exact (keeps_throw _).bind fun _ => happly
        · exact happly
    | noop => exact hhistory
    | readBarrier nonce => exact hhistory
    | trim record => exact hhistory
    | transferLease lease => exact hhistory
    | leaseComplete leaseId => exact hhistory

theorem applyReplayCommit (h : AnchorFrame φ) (slot : ℕ) (value : Entry) (configCursor : ℕ) :
    Keeps φ (applyReplayCommit slot value configCursor) := by
  refine (h.applyEntryToImage slot value configCursor).bind fun _ => ?_
  exact Keeps.bind (h.setNode fun n => ⟨rfl, rfl, rfl, rfl⟩) fun _ => keeps_pure _

theorem drainParked (h : AnchorFrame φ) (fuel : ℕ) (r : Replay) : Keeps φ (drainParked fuel r) := by
  induction fuel generalizing r with
  | zero => exact keeps_pure r
  | succ fuel ih =>
    refine keeps_get.bind fun m => ?_
    simp only
    split
    · exact keeps_pure r
    · exact (h.applyReplayCommit _ _ _).bind fun cursor => ih _

theorem replayRecord (h : AnchorFrame φ) (r : Replay) (write : Write) : Keeps φ (replayRecord r write) := by
  cases write with
  | commit slot value =>
    refine keeps_get.bind fun m => ?_
    simp only
    split
    · exact keeps_pure r
    · split
      · exact (h.applyReplayCommit _ _ _).bind fun cursor => h.drainParked _ _
      · exact (keeps_pure _).ite (keeps_pure _)
  | promise ballot => exact keeps_pure r
  | accept ballot slot value => exact keeps_pure r
  | trimAnchor anchor => exact keeps_pure r

end AnchorFrame

end Zaxonlite
