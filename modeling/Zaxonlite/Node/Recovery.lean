import Zaxonlite.Node.Account

/-!
# Recovery and state anchors

`materializeFromJournal` rebuilds the image: it starts from the selected applied anchor when the image
is at least as long as the anchor says, otherwise from an empty file, and replays the journal's commits
above that base. Commits sit in the journal in arrival order, so one streaming pass parks those that
come early in a ring of the size of the consensus window. `createStateAnchor` publishes the anchors,
and `resyncImage` discards a live connection and rebuilds.
-/

namespace Zaxonlite

open Program

/-- `window_slots`: the consensus window. -/
def windowSlots : ℕ := 2048

/-- A cell of the park ring; slot zero marks it empty. -/
structure Parked where
  slot : ℕ
  value : Entry

/-- The local variables of the replay loop. -/
structure Replay where
  configCursor : ℕ
  parked : ℕ → Parked

def Replay.start (configCursor : ℕ) : Replay where
  configCursor := configCursor
  parked := fun _ => ⟨0, .command .noop⟩

def applyEntryToImage (slot : ℕ) (entry : Entry) (configurationId : ℕ) : Op Unit := do
  let m ← get
  match entry with
  | .command (.transactionBatch batch) =>
    if ¬ checkChainBase m.node.identity.databaseId m.node.lastChain m.node.lastDataSlot batch then
      throw .chainMismatch
    match loadBatch m.node.identity.databaseId m.node.pageSize m.disk.store batch with
    | .error e => throw e
    | .ok view =>
      applyPayloadOps slot view.applyPayload
      setNode fun n => n.advanceChain slot batch
  | .command _ => pure ()
  | .stop stop =>
    setNode fun n =>
      if stop.configurationId > n.identity.configurationId then
        { n with membershipChangePending := true }
      else n
  setNode fun n => { n with
    historyHash := History.advance n.historyHash n.identity.databaseId configurationId slot entry }

/-- The configuration entries after this one are chosen in. -/
def nextConfiguration (cursor : ℕ) : Entry → ℕ
  | .stop stop => if stop.configurationId > cursor then stop.configurationId else cursor
  | .command _ => cursor

def Node.withApplied (n : Node) (slot : ℕ) : Node :=
  { n with appliedSlot := slot }

/-- `applyReplayCommit`: returns the advanced configuration cursor. -/
def applyReplayCommit (slot : ℕ) (value : Entry) (configCursor : ℕ) : Op ℕ := do
  applyEntryToImage slot value configCursor
  setNode fun n => n.withApplied slot
  pure (nextConfiguration configCursor value)

/-- The inner loop: apply parked commits while the next slot is parked. Every turn empties a cell, so
a ring's worth of turns is enough. -/
def drainParked : ℕ → Replay → Op Replay
  | 0, r => pure r
  | fuel + 1, r => do
    let m ← get
    let next := m.node.appliedSlot + 1
    let cell := r.parked (next % windowSlots)
    if cell.slot ≠ next then
      pure r
    else
      let cursor ← applyReplayCommit next cell.value r.configCursor
      drainParked fuel
        { configCursor := cursor
          parked := Function.update r.parked (next % windowSlots) { cell with slot := 0 } }

/-- One record of the streaming pass. -/
def replayRecord (r : Replay) (write : Write) : Op Replay := do
  match write with
  | .commit slot value =>
    let m ← get
    let applied := m.node.appliedSlot
    if slot ≤ applied then pure r
    else if slot = applied + 1 then
      let cursor ← applyReplayCommit slot value r.configCursor
      drainParked windowSlots { r with configCursor := cursor }
    else if slot - applied ≤ windowSlots then
      pure { r with parked := Function.update r.parked (slot % windowSlots) ⟨slot, value⟩ }
    else pure r
  | _ => pure r

/-- `anchorMatchesImage`: the image exists and is at least as long as the anchor says. -/
def anchorMatchesImage (d : Disk) (anchor : AppliedAnchor) : Bool :=
  match d.image with
  | none => false
  | some image => decide (anchor.sqlitePageCount * anchor.sqlitePageSize ≤ image.content.length)

def usableAnchor (databaseId : ℕ) (d : Disk) : Option AppliedAnchor :=
  (d.applied.select databaseId).filter (anchorMatchesImage d)

/-- The volatile fields an anchor restores. -/
def Node.restoreAnchor (n : Node) (anchor : AppliedAnchor) : Node :=
  { n with
    anchorGeneration := anchor.generation
    historyHash := anchor.historyHash
    historyHashAtAnchor := anchor.historyHash
    lastChain := anchor.lastChain
    lastDataSlot := anchor.lastDataSlot
    durableDataSlot := anchor.lastDataSlot
    lastBatchId := anchor.lastBatchId
    durableStateSlot := anchor.globalSlot
    pageSize := anchor.sqlitePageSize }

/-- The volatile fields of a rebuild from genesis. -/
def Node.restoreGenesis (n : Node) : Node :=
  { n with
    historyHash := History.genesis n.identity.databaseId
    lastChain := genesisChain n.identity.databaseId
    lastDataSlot := 0
    durableStateSlot := 0 }

/-- Choose the recovery base: restore the usable anchor, or clear the image for a rebuild. Returns the
base slot and the configuration entries above it are replayed in. -/
def recoveryBase : Op (ℕ × ℕ) := do
  let m ← get
  let mut base := 0
  let mut anchorConfig := m.node.identity.configurationId
  match usableAnchor m.node.identity.databaseId m.disk with
  | some anchor =>
    base := anchor.globalSlot
    anchorConfig := anchor.configurationId
    setNode fun n => n.restoreAnchor anchor
  | none => pure ()
  if base = 0 then
    if m.disk.journal.retainedFirstSlot > 1 then
      throw .stateUnavailable
    emit Disk.deleteImage
    setNode Node.restoreGenesis
  pure (base, if base = 0 then 1 else anchorConfig)

def materializeFromJournal : Op Unit := do
  emit Disk.deleteWal
  let (base, configCursor) ← recoveryBase
  setNode fun n => n.withApplied base
  let m ← get
  if base > 0 ∧ m.disk.journal.retainedFirstSlot > base + 1 then
    throw .stateUnavailable
  emit Disk.createImage
  let _ ← (m.disk.journal.iterate (base + 1)).foldlM replayRecord (Replay.start configCursor)
  emit Disk.syncImage

/-! ### Live connections and anchors -/

/-- Copy every committed WAL transaction into the image, sync it and empty the WAL: what
`checkpointTruncate` does, and what closing the last connection of a WAL database does. -/
def checkpointWal : Op Unit := do
  let m ← get
  m.disk.wal.forM fun t => applyPayloadOps t.slot t.ops
  emit Disk.syncImage
  emit Disk.deleteWal

def resyncImage : Op Unit := do
  let m ← get
  doIf m.node.dbOpen checkpointWal
  setNode fun n => { n with dbOpen := false }
  setNode fun n => { n with captureBatchId := none }
  materializeFromJournal
  setNode fun n => { n with needsResync := false }

/-- The anchor `createStateAnchor` publishes for an image of this length. -/
def Node.stateAnchor (n : Node) (length : ℕ) : AppliedAnchor where
  generation := n.anchorGeneration + 1
  databaseId := n.identity.databaseId
  globalSlot := n.appliedSlot
  configurationId := n.identity.configurationId
  historyHash := n.historyHash
  sqlitePageSize := n.pageSize
  sqlitePageCount := length / n.pageSize
  lastDataSlot := n.lastDataSlot
  lastBatchId := n.lastBatchId
  lastChain := n.lastChain

/-- The volatile fields after the anchor is published. -/
def Node.anchored (n : Node) : Node :=
  { n with
    anchorGeneration := n.anchorGeneration + 1
    durableStateSlot := n.appliedSlot
    durableDataSlot := n.lastDataSlot
    historyHashAtAnchor := n.historyHash }

/-- Sync the image and publish the anchor for it. -/
def publishStateAnchor : Op Unit := do
  let m ← get
  match m.disk.image with
  | none => throw .fileNotFound
  | some image =>
    emit Disk.syncImage
    emit fun d => { d with applied := d.applied.publish (m.node.stateAnchor image.content.length) }
    setNode Node.anchored

/-- The anchoring half of `createStateAnchor`. -/
def anchorState : Op Unit := do
  let m ← get
  refuseIf m.node.liveTransaction .transactionOpen
  refuseIf m.node.captureBatchId.isSome .writeInFlight
  doIf (decide (m.node.durableStateSlot < m.node.appliedSlot)) do
    doIf m.node.dbOpen checkpointWal
    publishStateAnchor

/-- `createStateAnchor`, up to the trim a one-member configuration proposes for it. -/
def createStateAnchor : Op Unit := do
  let m ← get
  refuseIf m.node.fatalStorageError .storageFailed
  refuseIf (!m.node.capabilities.materializes) .roleCannotWrite
  doIf m.node.needsResync resyncImage
  anchorState

end Zaxonlite
