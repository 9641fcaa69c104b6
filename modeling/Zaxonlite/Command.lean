import Zaxonlite.Lib.Bytes
import Zaxonlite.Lib.Sha256

/-!
# Replicated commands

The log carries fixed-size descriptors, never transaction bytes: a `transactionBatch` names an
immutable payload by its content hash. Two cumulative hashes run along the log. The batch chain links
each transaction batch to the one before it; the history anchor folds every chosen entry, of any kind,
under the configuration it was chosen in. Both are computed here exactly as they are stored, over the
canonical encodings.
-/

namespace Zaxonlite

abbrev HashBytes := Sha256.Digest

instance : LawfulBEq HashBytes := inferInstance

/-- The bytes of an ASCII domain separator. -/
def asciiBytes (s : String) : List UInt8 :=
  s.toList.map fun c => UInt8.ofNat c.toNat

structure TransactionBatch where
  databaseId : ℕ
  batchId : ℕ
  baseDataSlot : ℕ
  baseChainHash : HashBytes
  resultChainHash : HashBytes
  payloadHash : HashBytes
  payloadBytes : ℕ
  transactionCount : ℕ
  frameCount : ℕ
  deriving DecidableEq

/-- A chosen log-trim decision: history through `throughSlot` may be released. -/
structure TrimRecord where
  throughSlot : ℕ
  historyHash : HashBytes
  configurationId : ℕ
  policy : ℕ
  deriving DecidableEq

/-- A chosen state-transfer lease: deletion is capped at `baseSlot` while it is active. -/
structure TransferLease where
  leaseId : ℕ
  receiverId : ℕ
  baseSlot : ℕ
  baseHistoryHash : HashBytes
  configurationId : ℕ
  expiresAfterLeaderTicks : ℕ
  deriving DecidableEq

inductive Command where
  | noop
  | transactionBatch (batch : TransactionBatch)
  | readBarrier (nonce : ℕ)
  | trim (record : TrimRecord)
  | transferLease (lease : TransferLease)
  | leaseComplete (leaseId : ℕ)
  deriving DecidableEq

/-- The last entry of a configuration, naming its successor. -/
structure StopSign where
  configurationId : ℕ
  members : List ℕ
  metadata : List UInt8
  deriving DecidableEq

inductive Entry where
  | command (cmd : Command)
  | stop (stop : StopSign)
  deriving DecidableEq

namespace Command

open Bytes (encodeLe)

/-- `encoded_size`: the tag and the fields of the largest variant. -/
def encodedSize : ℕ := 1 + 16 * 2 + 8 * 2 + 32 * 3 + 4 * 2

/-- The tag and fields of a command, before padding. -/
def encodeFields : Command → List UInt8
  | noop => [0]
  | transactionBatch batch =>
    [1] ++ encodeLe 16 batch.databaseId ++ encodeLe 16 batch.batchId ++
      encodeLe 8 batch.baseDataSlot ++ batch.baseChainHash.toList ++ batch.resultChainHash.toList ++
      batch.payloadHash.toList ++ encodeLe 8 batch.payloadBytes ++
      encodeLe 4 batch.transactionCount ++ encodeLe 4 batch.frameCount
  | readBarrier nonce => [2] ++ encodeLe 16 nonce
  | trim record =>
    [3] ++ encodeLe 8 record.throughSlot ++ record.historyHash.toList ++
      encodeLe 8 record.configurationId ++ encodeLe 1 record.policy
  | transferLease lease =>
    [4] ++ encodeLe 8 lease.leaseId ++ encodeLe 4 lease.receiverId ++ encodeLe 8 lease.baseSlot ++
      lease.baseHistoryHash.toList ++ encodeLe 8 lease.configurationId ++
      encodeLe 4 lease.expiresAfterLeaderTicks
  | leaseComplete leaseId => [5] ++ encodeLe 8 leaseId

/-- The canonical encoding, zero-padded to `encodedSize`. -/
def encode (cmd : Command) : List UInt8 :=
  let fields := encodeFields cmd
  fields ++ List.replicate (encodedSize - fields.length) 0

end Command

/-! ### The batch chain -/

open Bytes (encodeLe)

/-- The chain identity of a fresh database. -/
def genesisChain (databaseId : ℕ) : HashBytes :=
  Sha256.hash (asciiBytes "zaxonlite.chain.genesis.v1" ++ encodeLe 16 databaseId)

/-- One cumulative step over a descriptor's fields. -/
def chainStep (baseChainHash : HashBytes) (batch : TransactionBatch) : HashBytes :=
  Sha256.hash (asciiBytes "zaxonlite.chain.step.v1" ++ baseChainHash.toList ++
    encodeLe 16 batch.databaseId ++ encodeLe 16 batch.batchId ++ encodeLe 8 batch.baseDataSlot ++
    batch.payloadHash.toList ++ encodeLe 8 batch.payloadBytes ++
    encodeLe 4 batch.transactionCount ++ encodeLe 4 batch.frameCount)

/-- The descriptor's result hash matches its own fields. -/
def chainValid (batch : TransactionBatch) : Bool :=
  chainStep batch.baseChainHash batch == batch.resultChainHash

/-- The descriptor of a captured transaction: one transaction over the payload's frames, chained to the
batch before it. -/
def TransactionBatch.build (databaseId batchId baseDataSlot : ℕ) (baseChainHash : HashBytes)
    (payload : List UInt8) (frameCount : ℕ) : TransactionBatch :=
  let batch : TransactionBatch :=
    { databaseId := databaseId
      batchId := batchId
      baseDataSlot := baseDataSlot
      baseChainHash := baseChainHash
      resultChainHash := baseChainHash
      payloadHash := Sha256.hash payload
      payloadBytes := payload.length
      transactionCount := 1
      frameCount := frameCount }
  { batch with resultChainHash := chainStep baseChainHash batch }

theorem chainValid_build (databaseId batchId baseDataSlot : ℕ) (baseChainHash : HashBytes)
    (payload : List UInt8) (frameCount : ℕ) :
    chainValid (TransactionBatch.build databaseId batchId baseDataSlot baseChainHash payload
      frameCount) = true := by
  rw [chainValid, beq_iff_eq]
  simp only [TransactionBatch.build, chainStep]

/-! ### The history anchor -/

namespace Entry

/-- `max_entry_size`: the tag and the larger of a command and a full stop sign. -/
def maxEntrySize : ℕ := 1 + max Command.encodedSize (8 + 2 + 9 * 4 + 2 + 512)

/-- `encodeEntry`. -/
def encode : Entry → List UInt8
  | command cmd => 0 :: cmd.encode
  | stop s =>
    1 :: (encodeLe 8 s.configurationId ++ encodeLe 2 s.members.length ++
      s.members.flatMap (encodeLe 4) ++ encodeLe 2 s.metadata.length ++ s.metadata)

/-- `LeafKind.of`: the durable byte of the entry's kind. -/
def leafKind : Entry → UInt8
  | command .noop => 0
  | command (.transactionBatch _) => 1
  | command (.readBarrier _) => 2
  | command (.trim _) => 3
  | command (.transferLease _) => 4
  | command (.leaseComplete _) => 5
  | stop _ => 6

/-- The payload digest and batch chain hash folded into a leaf, zero for other entries. -/
def leafHashes : Entry → List UInt8
  | command (.transactionBatch batch) => batch.payloadHash.toList ++ batch.resultChainHash.toList
  | _ => List.replicate 64 0

end Entry

namespace History

def leafVersion : ℕ := 1

/-- `genesis`: the anchor of a fresh database at slot zero. -/
def genesis (databaseId : ℕ) : HashBytes :=
  Sha256.hash ([0x00] ++ encodeLe 2 leafVersion ++ encodeLe 16 databaseId)

/-- `leafHash`: one chosen entry at one global slot under one configuration. -/
def leafHash (databaseId configurationId : ℕ) (globalSlot : ℕ) (entry : Entry) : HashBytes :=
  let encoded := entry.encode
  Sha256.hash ([0x01] ++ encodeLe 2 leafVersion ++ encodeLe 16 databaseId ++
    encodeLe 8 configurationId ++ encodeLe 8 globalSlot ++ [entry.leafKind] ++
    (encoded ++ List.replicate (Entry.maxEntrySize - encoded.length) 0) ++ entry.leafHashes)

/-- `step`: the anchor after a leaf. -/
def step (previous leaf : HashBytes) : HashBytes :=
  Sha256.hash ([0x02] ++ previous.toList ++ leaf.toList)

/-- `advance`: the anchor after one chosen entry. -/
def advance (previous : HashBytes) (databaseId configurationId : ℕ) (globalSlot : ℕ)
    (entry : Entry) : HashBytes :=
  step previous (leafHash databaseId configurationId globalSlot entry)

end History

end Zaxonlite
