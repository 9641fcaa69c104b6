import Zaxonlite.Node.Recovery
import Zaxonlite.Storage.Captured

/-!
# The write path

A leader runs one transaction on its live connection, lets SQLite commit it into its own WAL, captures
the committed frames as a payload, and appends the descriptor to the replicated log. Until the slot is
decided the transaction is speculative: it is visible on the live connection, and nothing but a resync
takes it back.
-/

namespace Zaxonlite

open Program

def maxPayloadBytes : ℕ := 64 * 1024 * 1024 - 73

/-- What the core makes of an append: it refuses it, or it assigns a slot and hands over turns of
effects. A transport that fails cuts them short, after some turns and the journal half of one more. -/
inductive AppendOutcome where
  | refused
  | appended (slot : ℕ) (rounds : List Effects)
  | unsent (rounds : List Effects) (last : Effects)

/-- The core's answer to an append, as the node finds it in its own state. -/
abbrev AppendCore := Machine → TransactionBatch → AppendOutcome

/-- `ensureWriter`: open the live connection. -/
def ensureWriter : Op Unit := do
  let m ← get
  refuseIf (!m.node.capabilities.servesWrites) .roleCannotWrite
  doIf (!m.node.dbOpen) do
    emit Disk.createImage
    setNode fun n => { n with dbOpen := true }

def Node.capturedBatch (n : Node) (t : CapturedTransaction) : TransactionBatch :=
  .build n.identity.databaseId t.batchId n.lastDataSlot n.lastChain (t.payload n.identity.databaseId)
    t.frames.infos.length

/-- The append half of `sealCapturedTransaction`. -/
def appendCaptured (t : CapturedTransaction) (core : AppendCore) : Op ℕ := do
  let m ← get
  match core m (m.node.capturedBatch t) with
  | .refused =>
    setNode fun n => { n with needsResync := true }
    throw .appendFailed
  | .unsent rounds last =>
    setNode fun n => { n with captureBatchId := some t.batchId }
    consumeEffects rounds
    journalEffects last
    throw .transportFailed
  | .appended slot rounds =>
    setNode fun n => { n with captureBatchId := some t.batchId }
    consumeEffects rounds
    pure slot

/-- A failure between the SQLite commit and the end of the append. -/
def committedWithoutLog (m : Machine) : Machine :=
  { m with node := { m.node with captureBatchId := none, needsResync := true } }

/-- Persist the payload of a committed transaction and append its descriptor. -/
def replicateCaptured (t : CapturedTransaction) (core : AppendCore) : Op ℕ := do
  let m ← get
  refuseIf (decide (maxPayloadBytes < (t.payload m.node.identity.databaseId).length))
    .transactionTooLarge
  emit fun d => { d with store := d.store.put (t.payload m.node.identity.databaseId) }
  appendCaptured t core

/-- The frames a committed transaction leaves in the live WAL. -/
def Machine.walTransaction (m : Machine) (t : CapturedTransaction) : WalTransaction where
  slot := m.node.appliedSlot + 1
  batchId := t.batchId
  ops := t.frames.changes

/-- `sealCapturedTransaction`: commit in SQLite, then replicate. -/
def sealCapturedTransaction (t : CapturedTransaction) (core : AppendCore) : Op ℕ := do
  let m ← get
  emit fun d => { d with wal := d.wal ++ [m.walTransaction t] }
  let slot ← onError (replicateCaptured t core) committedWithoutLog
  let m ← get
  refuseIf (m.node.single && decide (m.node.appliedSlot < slot)) .commitIncomplete
  pure slot

/-- What the write path consults before any SQL runs: the storage budget and the core. -/
structure LogStatus where
  overCap : Bool
  isLeader : Bool
  stopPending : Bool
  proposalFrontier : ℕ

/-- `proposalFrontierSettled`: nothing below the next proposal slot is undecided. -/
def Node.proposalFrontierSettled (n : Node) (status : LogStatus) : Bool :=
  decide (status.proposalFrontier ≤ n.appliedSlot + 1)

/-- The admission checks of `writeRequest` and the opening of the connection. -/
def admitWrite (status : LogStatus) : Op Unit := do
  let m ← get
  refuseIf m.node.fatalStorageError .storageFailed
  refuseIf status.overCap .recoveryRetentionExceeded
  doIf m.node.needsResync resyncImage
  let m ← get
  refuseIf (m.node.membershipChangePending || status.stopPending) .logSealed
  refuseIf (status.isLeader && !m.node.proposalFrontierSettled status) .leaderNotReady
  ensureWriter
  let m ← get
  refuseIf m.node.captureBatchId.isSome .writeInFlight
  refuseIf m.node.liveTransaction .transactionOpen

/-- `writeRequest`, given the transaction the statements commit to; without one the statements failed
and rolled back. -/
def writeRequest (status : LogStatus) (statements : Option CapturedTransaction) (core : AppendCore) :
    Op ℕ := do
  admitWrite status
  match statements with
  | none => throw .statementFailed
  | some t => sealCapturedTransaction t core

def beginLive (stopPending : Bool) : Op Unit := do
  let m ← get
  refuseIf (!m.node.single) .clusterTransactionUnsupported
  refuseIf (!m.node.capabilities.servesWrites) .roleCannotWrite
  refuseIf m.node.liveTransaction .transactionOpen
  refuseIf m.node.fatalStorageError .storageFailed
  doIf m.node.needsResync resyncImage
  let m ← get
  refuseIf (m.node.membershipChangePending || stopPending) .logSealed
  ensureWriter
  let m ← get
  refuseIf m.node.captureBatchId.isSome .writeInFlight
  setNode fun n => { n with liveTransaction := true }

def commitLive (stopPending : Bool) (t : CapturedTransaction) (core : AppendCore) : Op ℕ := do
  let m ← get
  refuseIf (!m.node.liveTransaction) .noTransaction
  refuseIf m.node.fatalStorageError .storageFailed
  refuseIf stopPending .logSealed
  setNode fun n => { n with liveTransaction := false }
  sealCapturedTransaction t core

/-- `rollbackLive`, given whether SQLite rolls back. -/
def rollbackLive (rolledBack : Bool) : Op Unit := do
  let m ← get
  refuseIf (!m.node.liveTransaction) .noTransaction
  setNode fun n => { n with liveTransaction := false, needsResync := n.needsResync || !rolledBack }
  refuseIf (!rolledBack) .statementFailed

end Zaxonlite
