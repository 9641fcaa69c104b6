import Zaxonlite.Lib.Program
import Zaxonlite.Storage.Anchors
import Zaxonlite.Storage.Payload

/-!
# Node state

A node has volatile fields, lost with the process, and a disk. The disk holds the materialized image
`current.db`, the committed transactions SQLite's own WAL holds on top of it, the journal, the two
applied anchors, the trim record and the payload store. Operations run over a machine that pairs the
two and remembers every disk it passed through, so that a crash point is a disk on the trail.

The image remembers which of its changes have not been synced, each with the slot whose batch made it.
A process crash keeps all of them; power loss keeps any of them.
-/

namespace Zaxonlite

structure Identity where
  databaseId : ℕ
  nodeId : ℕ
  configurationId : ℕ
  deriving DecidableEq

/-- Product node roles. -/
inductive Role where
  | dataVoter
  | witness
  | standby
  | readReplica
  | gateway
  deriving DecidableEq, Repr

structure Capabilities where
  votes : Bool
  campaigns : Bool
  storesLog : Bool
  materializes : Bool
  servesReads : Bool
  servesWrites : Bool
  promotionEligible : Bool
  deriving DecidableEq, Repr

def Role.capabilities : Role → Capabilities
  | .dataVoter => ⟨true, true, true, true, true, true, true⟩
  | .witness => ⟨true, false, true, false, false, false, false⟩
  | .standby => ⟨false, false, true, true, true, false, true⟩
  | .readReplica => ⟨false, false, true, true, true, false, false⟩
  | .gateway => ⟨false, false, false, false, false, false, false⟩

inductive NodeError where
  | storageFailed
  | roleCannotWrite
  | roleCannotRead
  | transactionOpen
  | writeInFlight
  | chainMismatch
  | payloadMissing
  | databaseMismatch
  | payloadCorrupt
  | payload (error : PayloadError)
  | payloadDescriptorMismatch
  | trimRegression
  | stateUnavailable
  | stateMismatch
  | joinDescriptorRequired
  | fileNotFound
  | staleTransfer
  | logSealed
  | leaderNotReady
  | notLeader
  | appendFailed
  | transactionTooLarge
  | commitIncomplete
  | snapshotTransferInvalid
  | transportFailed
  | recoveryRetentionExceeded
  | statementFailed
  | noTransaction
  | clusterTransactionUnsupported
  | configurationMismatch
  | transferDigestMismatch
  | noStopSign
  | stopNotApplied
  | retiredByReconfiguration
  | invalidStopMetadata
  | registryMismatch
  | roleMembershipMismatch
  deriving DecidableEq, Repr

/-! ### The disk -/

/-- `current.db`: what the last sync made durable and the changes since. -/
structure Image where
  synced : File
  pending : List (ℕ × FileOp)

/-- The bytes a process reads. -/
def Image.content (image : Image) : File :=
  image.synced.execAll (image.pending.map Prod.snd)

/-- A committed transaction in SQLite's WAL: the slot it was captured for and its page changes. -/
structure WalTransaction where
  slot : ℕ
  batchId : ℕ
  ops : List FileOp

structure Disk where
  image : Option Image
  wal : List WalTransaction
  journal : Journal
  applied : AppliedFiles
  trim : Option TrimState
  store : PayloadStore

namespace Disk

/-- The image's bytes, those of an empty file when there is none. -/
def content (d : Disk) : File :=
  match d.image with
  | some image => image.content
  | none => File.empty

/-- Create `current.db` if it is missing. -/
def createImage (d : Disk) : Disk :=
  match d.image with
  | some _ => d
  | none => { d with image := some { synced := File.empty, pending := [] } }

def deleteImage (d : Disk) : Disk :=
  { d with image := none }

def changeImage (d : Disk) (slot : ℕ) (op : FileOp) : Disk :=
  { d with image := d.image.map fun image => { image with pending := image.pending ++ [(slot, op)] } }

def syncImage (d : Disk) : Disk :=
  { d with image := d.image.map fun image => { synced := image.content, pending := [] } }

def deleteWal (d : Disk) : Disk :=
  { d with wal := [] }

/-- A disk for a database that was never opened. -/
def blank (rotationRecords : ℕ) : Disk where
  image := none
  wal := []
  journal := Journal.create rotationRecords
  applied := AppliedFiles.none
  trim := none
  store := PayloadStore.empty

end Disk

/-! ### The volatile node -/

/-- A decided batch kept for write waiters. -/
structure RecentBatch where
  slot : ℕ
  batchId : ℕ
  deriving DecidableEq

structure Node where
  identity : Identity
  capabilities : Capabilities
  single : Bool
  pageSize : ℕ
  appliedSlot : ℕ
  durableStateSlot : ℕ
  durableDataSlot : ℕ
  anchorGeneration : ℕ
  trimState : TrimState
  trimIgnoredCount : ℕ
  sweptTrimDecisionSlot : ℕ
  retentionSlots : ℕ
  recentBatches : ℕ → RecentBatch
  historyHash : HashBytes
  historyHashAtAnchor : HashBytes
  lastChain : HashBytes
  lastDataSlot : ℕ
  lastBatchId : ℕ
  captureBatchId : Option ℕ
  needsResync : Bool
  dbOpen : Bool
  liveTransaction : Bool
  fatalStorageError : Bool
  membershipChangePending : Bool
  /-- Records the core queued while committed entries were accounted. -/
  effectWrites : List Write

/-- What a process is started with. -/
structure Config where
  identity : Identity
  role : Role
  single : Bool
  retentionSlots : ℕ

/-- The volatile fields before recovery has run. -/
def Node.boot (config : Config) : Node where
  identity := config.identity
  capabilities := config.role.capabilities
  single := config.single
  pageSize := 4096
  appliedSlot := 0
  durableStateSlot := 0
  durableDataSlot := 0
  anchorGeneration := 0
  trimState := TrimState.initial
  trimIgnoredCount := 0
  sweptTrimDecisionSlot := 0
  retentionSlots := config.retentionSlots
  recentBatches := fun _ => ⟨0, 0⟩
  historyHash := History.genesis config.identity.databaseId
  historyHashAtAnchor := Journal.zeroHash
  lastChain := genesisChain config.identity.databaseId
  lastDataSlot := 0
  lastBatchId := 0
  captureBatchId := none
  needsResync := false
  dbOpen := false
  liveTransaction := false
  fatalStorageError := false
  membershipChangePending := false
  effectWrites := []

/-- A node on its disk, with every disk its operations passed through. -/
structure Machine where
  node : Node
  disk : Disk
  trail : List Disk

/-- An operation of the node: it may fail, and a failure keeps what was done before it. -/
abbrev Op (α : Type) := EStateM NodeError Machine α

/-- Change the disk; the new disk is a crash point. -/
def emit (f : Disk → Disk) : Op Unit :=
  modify fun m => { m with disk := f m.disk, trail := m.trail ++ [f m.disk] }

/-- Change the volatile fields. -/
def setNode (f : Node → Node) : Op Unit :=
  modify fun m => { m with node := f m.node }

/-- Fail with an error when a condition holds. -/
def refuseIf (c : Bool) (e : NodeError) : Op Unit :=
  if c then throw e else pure ()

/-- Run an operation when a condition holds. -/
def doIf (c : Bool) (x : Op Unit) : Op Unit :=
  if c then x else pure ()

open Program

@[simp] theorem wp_refuseIf (c : Bool) (e : NodeError) (Q : Unit → Machine → Prop)
    (E : NodeError → Machine → Prop) (m : Machine) :
    wp (refuseIf c e) Q E m ↔ (c = true → E e m) ∧ (c = false → Q () m) := by
  rw [refuseIf, wp_ite, wp_throw, wp_pure, Bool.not_eq_true]

@[simp] theorem wp_doIf (c : Bool) (x : Op Unit) (Q : Unit → Machine → Prop)
    (E : NodeError → Machine → Prop) (m : Machine) :
    wp (doIf c x) Q E m ↔ (c = true → wp x Q E m) ∧ (c = false → Q () m) := by
  rw [doIf, wp_ite, wp_pure, Bool.not_eq_true]

@[simp] theorem wp_emit (f : Disk → Disk) (Q : Unit → Machine → Prop)
    (E : NodeError → Machine → Prop) (m : Machine) :
    wp (emit f) Q E m ↔ Q () { m with disk := f m.disk, trail := m.trail ++ [f m.disk] } := Iff.rfl

@[simp] theorem wp_setNode (f : Node → Node) (Q : Unit → Machine → Prop)
    (E : NodeError → Machine → Prop) (m : Machine) :
    wp (setNode f) Q E m ↔ Q () { m with node := f m.node } := Iff.rfl

end Zaxonlite
