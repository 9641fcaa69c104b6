import Zaxonlite.Crash.Process
import Zaxonlite.Node.WalFile
import Zaxonlite.Node.Writer

/-!
# The live connection

The machine's disk keeps, beside the image, every transaction committed since the connection was opened
or last checkpointed. Here stand the files SQLite really works on: the database file, which a checkpoint
that fails may have changed, the valid frames of the WAL, and the two counters capture goes by. SQLite
starts the WAL over with the first transaction after every frame was copied into the database file and
no reader is left in it, whether or not the checkpoint that copied them reported success.
-/

namespace Zaxonlite

open Program

/-- What one call of `sealCapturedTransaction` read back for a committed transaction. -/
structure Reading where
  committed : CommittedFrames
  transaction : CapturedTransaction

/-- A node and the files of its live connection. -/
structure LiveNode where
  machine : Machine
  /-- The database file. -/
  main : File
  /-- The valid frames of the WAL. -/
  frames : List WalFrame
  /-- What the WAL file holds past them. -/
  stale : List WalFrame
  /-- Every valid frame was copied into the database file. -/
  backfilled : Bool
  committedFrames : ℕ
  capturedFrames : ℕ
  /-- Every transaction read back so far. -/
  readings : List Reading

/-- An operation on a node with its live connection. -/
abbrev LiveOp (α : Type) := EStateM LiveError LiveNode α

/-- A transaction as the statements commit it on the connection. -/
structure WriterTransaction where
  batchId : ℕ
  sessionId : ℕ
  sequence : ℕ
  changes : ℤ
  committed : CommittedFrames

namespace WriterTransaction

def read (t : WriterTransaction) (frames : CapturedFrames) : CapturedTransaction :=
  ⟨t.batchId, t.sessionId, t.sequence, t.changes, frames⟩

def captured (t : WriterTransaction) : CapturedTransaction :=
  t.read t.committed.captured

end WriterTransaction

/-- What SQLite and the file system make of a commit. -/
structure CommitRun where
  /-- Another connection reads from the WAL. -/
  pinned : Bool
  stale : List WalFrame
  /-- The WAL file cannot be read. -/
  unreadable : Bool
  /-- The payload cannot be stored. -/
  unstored : Bool

/-- What the statements of a request come to. -/
inductive StatementRun where
  | rolledBack (stale : List WalFrame)
  | committed (transaction : WriterTransaction) (run : CommitRun)

/-- What `checkpointTruncate` comes to: success, or an error after some changes were copied into the
database file, perhaps all of them. -/
inductive CheckpointRun where
  | truncated
  | failed (copied : List FileOp) (complete : Bool)

/-- Where the second half of `createStateAnchor` fails. -/
inductive AnchorFailure where
  | openFile
  | syncFile
  | publish (replaced : Bool)

namespace LiveNode

/-- No connection is open, and there is no WAL. -/
def start (m : Machine) : LiveNode where
  machine := m
  main := m.disk.content
  frames := []
  stale := []
  backfilled := false
  committedFrames := 0
  capturedFrames := 0
  readings := []

/-- Whether the next transaction starts the WAL over. -/
def restarts (s : LiveNode) (pinned : Bool) : Bool :=
  s.backfilled && !pinned

/-- SQLite commits a transaction: its frames are valid, and the hook counts the valid frames. -/
def commit (s : LiveNode) (c : CommittedFrames) (run : CommitRun) : LiveNode :=
  let frames := if s.restarts run.pinned then c.frames else s.frames ++ c.frames
  { s with frames := frames, stale := run.stale, backfilled := false, committedFrames := frames.length }

/-- SQLite rolls back: what it had spilled is not valid. -/
def rollback (s : LiveNode) (stale : List WalFrame) : LiveNode :=
  { s with stale := stale }

/-- The committed frames were read. -/
def readBack (s : LiveNode) (reading : Reading) : LiveNode :=
  { s with capturedFrames := s.committedFrames, readings := s.readings ++ [reading] }

/-- The connection is closed and its WAL deleted. -/
def disconnected (s : LiveNode) : LiveNode :=
  { s with frames := [], stale := [], backfilled := false }

/-- `openLiveDatabase`. -/
def connected (s : LiveNode) : LiveNode :=
  { s with main := s.machine.disk.content, committedFrames := 0, capturedFrames := 0 }

/-- A checkpoint that succeeds empties the WAL. -/
def truncated (s : LiveNode) : LiveNode :=
  { s with main := overlay s.main s.frames, frames := [], stale := [], backfilled := false }

/-- A checkpoint that fails leaves the frames where they are. -/
def copied (s : LiveNode) (changes : List FileOp) (complete : Bool) : LiveNode :=
  { s with main := s.main.execAll changes, backfilled := complete }

def resetCounters (s : LiveNode) : LiveNode :=
  { s with committedFrames := 0, capturedFrames := 0 }

/-- A failure between the SQLite commit and the end of the append. -/
def committedWithoutLog (s : LiveNode) : LiveNode :=
  { s with machine := Zaxonlite.committedWithoutLog s.machine }

end LiveNode

/-- An operation of the node that leaves the connection's files alone. -/
def onMachine {α : Type} (x : Op α) : LiveOp α := fun s =>
  match x s.machine with
  | .ok a m => .ok a { s with machine := m }
  | .error e m => .error (.node e) { s with machine := m }

@[simp] theorem wp_onMachine {α : Type} (x : Op α) (Q : α → LiveNode → Prop)
    (E : LiveError → LiveNode → Prop) (s : LiveNode) :
    wp (onMachine x) Q E s ↔ wp x (fun a m => Q a { s with machine := m })
      (fun e m => E (.node e) { s with machine := m }) s.machine := by
  simp only [wp, onMachine]
  cases x s.machine <;> rfl

/-- Fail with an error of the node when a condition holds. -/
def refuseLive (c : Bool) (e : NodeError) : LiveOp Unit :=
  onMachine (refuseIf c e)

/-- Run an operation when a condition holds. -/
def doLive (c : Bool) (x : LiveOp Unit) : LiveOp Unit :=
  if c then x else pure ()

@[simp] theorem wp_refuseLive (c : Bool) (e : NodeError) (Q : Unit → LiveNode → Prop)
    (E : LiveError → LiveNode → Prop) (s : LiveNode) :
    wp (refuseLive c e) Q E s ↔ (c = true → E (.node e) s) ∧ (c = false → Q () s) := by
  rw [refuseLive, wp_onMachine, wp_refuseIf]

@[simp] theorem wp_doLive (c : Bool) (x : LiveOp Unit) (Q : Unit → LiveNode → Prop)
    (E : LiveError → LiveNode → Prop) (s : LiveNode) :
    wp (doLive c x) Q E s ↔ (c = true → wp x Q E s) ∧ (c = false → Q () s) := by
  rw [doLive, wp_ite, wp_pure, Bool.not_eq_true]

/-! ### Opening, closing and checkpointing -/

/-- `resyncImage`. -/
def resyncLive : LiveOp Unit := do
  modify LiveNode.disconnected
  onMachine resyncImage

/-- `ensureWriter`. -/
def openLive : LiveOp Unit := do
  let s ← get
  onMachine ensureWriter
  doLive (!s.machine.node.dbOpen) (modify LiveNode.connected)

def checkpointTruncate (run : CheckpointRun) : LiveOp Unit :=
  match run with
  | .truncated => do
    onMachine checkpointWal
    modify LiveNode.truncated
  | .failed changes complete => do
    modify fun s => s.copied changes complete
    throw .sqlite

/-- What `applied_anchor.publish` did before it failed. -/
def publishFailing : AnchorFailure → Op Unit
  | .publish replaced => do
    let m ← get
    match m.disk.image with
    | none => throw .fileNotFound
    | some image =>
      emit Disk.syncImage
      setNode fun n => { n with anchorGeneration := n.anchorGeneration + 1 }
      doIf replaced (emit fun d => { d with
        applied := d.applied.publish (m.node.stateAnchor image.content.length) })
  | _ => pure ()

/-- Sync the image and publish the anchor for it, or fail. -/
def publishLive (failure : Option AnchorFailure) : LiveOp Unit :=
  match failure with
  | none => onMachine publishStateAnchor
  | some failure => do
    onMachine (publishFailing failure)
    throw .io

/-- `createStateAnchor`, up to the trim a one-member configuration proposes for it. -/
def createStateAnchorLive (run : CheckpointRun) (failure : Option AnchorFailure) : LiveOp Unit := do
  let s ← get
  refuseLive s.machine.node.fatalStorageError .storageFailed
  refuseLive (!s.machine.node.capabilities.materializes) .roleCannotWrite
  doLive s.machine.node.needsResync resyncLive
  let s ← get
  refuseLive s.machine.node.liveTransaction .transactionOpen
  refuseLive s.machine.node.captureBatchId.isSome .writeInFlight
  doLive (decide (s.machine.node.durableStateSlot < s.machine.node.appliedSlot)) do
    doLive s.machine.node.dbOpen do
      checkpointTruncate run
      modify LiveNode.resetCounters
    publishLive failure

/-! ### Transactions -/

/-- Read the committed frames back, then replicate them. -/
def replicateLive (t : WriterTransaction) (run : CommitRun) (core : AppendCore) : LiveOp ℕ := do
  let s ← get
  if s.committedFrames ≤ s.capturedFrames then throw .captureLost
  if run.unreadable then throw .io
  match readCommittedFrames (s.frames ++ s.stale) s.capturedFrames s.committedFrames with
  | .error e => throw e
  | .ok frames =>
    modify fun s => s.readBack ⟨t.committed, t.read frames⟩
    if run.unstored && decide (((t.read frames).payload s.machine.node.identity.databaseId).length ≤
        maxPayloadBytes) then
      onMachine (modify markFailed)
      throw .io
    onMachine (replicateCaptured (t.read frames) core)

/-- `sealCapturedTransaction`, once SQLite has committed. -/
def sealLive (t : WriterTransaction) (run : CommitRun) (core : AppendCore) : LiveOp ℕ := do
  let s ← get
  onMachine (emit fun d => { d with wal := d.wal ++ [s.machine.walTransaction t.captured] })
  modify fun s => s.commit t.committed run
  let slot ← onError (replicateLive t run core) LiveNode.committedWithoutLog
  let s ← get
  refuseLive (s.machine.node.single && decide (s.machine.node.appliedSlot < slot)) .commitIncomplete
  pure slot

/-- Run the statements; a failure before the commit rolls back. -/
def runStatements (statements : StatementRun) (core : AppendCore) : LiveOp ℕ :=
  match statements with
  | .rolledBack stale => do
    modify fun s => s.rollback stale
    throw .sqlite
  | .committed t run => sealLive t run core

/-- The admission checks of `writeRequest` and the opening of the connection. -/
def admitLive (status : LogStatus) : LiveOp Unit := do
  let s ← get
  refuseLive s.machine.node.fatalStorageError .storageFailed
  refuseLive status.overCap .recoveryRetentionExceeded
  doLive s.machine.node.needsResync resyncLive
  let s ← get
  refuseLive (s.machine.node.membershipChangePending || status.stopPending) .logSealed
  refuseLive (status.isLeader && !s.machine.node.proposalFrontierSettled status) .leaderNotReady
  openLive
  let s ← get
  refuseLive s.machine.node.captureBatchId.isSome .writeInFlight
  refuseLive s.machine.node.liveTransaction .transactionOpen

/-- `writeRequest`. -/
def writeRequestLive (status : LogStatus) (statements : StatementRun) (core : AppendCore) :
    LiveOp ℕ := do
  admitLive status
  runStatements statements core

/-- `beginLive`. -/
def beginLiveTransaction (stopPending : Bool) : LiveOp Unit := do
  let s ← get
  refuseLive (!s.machine.node.single) .clusterTransactionUnsupported
  refuseLive (!s.machine.node.capabilities.servesWrites) .roleCannotWrite
  refuseLive s.machine.node.liveTransaction .transactionOpen
  refuseLive s.machine.node.fatalStorageError .storageFailed
  doLive s.machine.node.needsResync resyncLive
  let s ← get
  refuseLive (s.machine.node.membershipChangePending || stopPending) .logSealed
  openLive
  let s ← get
  refuseLive s.machine.node.captureBatchId.isSome .writeInFlight
  onMachine (setNode fun n => { n with liveTransaction := true })

/-- `liveExec`, given whether SQLite ended the whole transaction. -/
def liveExec (ended : Bool) (stale : List WalFrame) : LiveOp Unit := do
  let s ← get
  refuseLive (!s.machine.node.liveTransaction) .noTransaction
  refuseLive s.machine.node.fatalStorageError .storageFailed
  modify fun s => s.rollback stale
  doLive ended do
    onMachine (setNode fun n => { n with liveTransaction := false })
    throw .sqlite

/-- `commitLive`. -/
def commitLiveTransaction (stopPending : Bool) (statements : StatementRun) (core : AppendCore) :
    LiveOp ℕ := do
  let s ← get
  refuseLive (!s.machine.node.liveTransaction) .noTransaction
  refuseLive s.machine.node.fatalStorageError .storageFailed
  refuseLive stopPending .logSealed
  onMachine (setNode fun n => { n with liveTransaction := false })
  runStatements statements core

/-- `rollbackLive`. -/
def rollbackLiveTransaction (rolledBack : Bool) (stale : List WalFrame) : LiveOp Unit := do
  modify fun s => s.rollback stale
  onMachine (rollbackLive rolledBack)

/-! ### Runs -/

/-- What a node with a live connection is asked to do, and what SQLite, the file system and the core
make of it. -/
inductive LiveAction where
  | effects (effects : Effects)
  | payload (bytes : List UInt8)
  | reclaim
  | openWriter
  | anchor (run : CheckpointRun) (failure : Option AnchorFailure)
  | write (status : LogStatus) (statements : StatementRun) (core : AppendCore)
  | beginLive (stopPending : Bool)
  | liveExec (ended : Bool) (stale : List WalFrame)
  | commitLive (stopPending : Bool) (statements : StatementRun) (core : AppendCore)
  | rollbackLive (rolledBack : Bool) (stale : List WalFrame)
  | resync

def LiveNode.atRest (s : LiveNode) : LiveNode :=
  { s with machine := s.machine.atRest }

/-- The state an action ends in, whether it succeeds or fails. -/
def LiveAction.apply (a : LiveAction) (s : LiveNode) : LiveNode :=
  LiveNode.atRest (match a with
  | .effects round => finalState (onMachine (consumeRound round)) s
  | .payload bytes => finalState (onMachine (installPayload bytes)) s
  | .reclaim => finalState (onMachine Zaxonlite.reclaim) s
  | .openWriter => finalState openLive s
  | .anchor run failure => finalState (createStateAnchorLive run failure) s
  | .write status statements core => finalState (writeRequestLive status statements core) s
  | .beginLive stopPending => finalState (beginLiveTransaction stopPending) s
  | .liveExec ended stale => finalState (Zaxonlite.liveExec ended stale) s
  | .commitLive stopPending statements core =>
    finalState (commitLiveTransaction stopPending statements core) s
  | .rollbackLive rolledBack stale => finalState (rollbackLiveTransaction rolledBack stale) s
  | .resync => finalState resyncLive s)

end Zaxonlite
