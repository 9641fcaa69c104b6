import Zaxonlite.Lib.Codec
import Zaxonlite.Node.Transfer
import Zaxonlite.Server.Learners
import Zaxonlite.Server.Quorums
import Zaxonlite.Wire.Envelope

/-!
# The bodies of peer frames

Besides envelopes, peers exchange probes, reports, requests, registries, enrollments and the pieces of a transfer, each
in a frame of its own kind. A decoder checks the size of the body and the few values it does not admit; a body that
ends in a blob takes the rest of the frame for it.
-/

namespace Zaxonlite

open Bytes (encodeLe)
open Cursor (Reads Accepts Writes Inverts Decodes exact whole headed accepts_require)

/-! ### Fixed bodies -/

/-- Thirty-two bytes of a frame body. -/
def wireHash : Cursor WireError HashBytes :=
  (readHash .truncatedRecord).mapError .decode

structure InstallationReady where
  configurationId : ℕ
  registryDigest : HashBytes

namespace InstallationReady

def encode (r : InstallationReady) : List UInt8 :=
  encodeLe 8 r.configurationId ++ r.registryDigest.toList

def read : Cursor WireError InstallationReady := do
  let configurationId ← wireInt 8
  let registryDigest ← wireHash
  Cursor.require (configurationId ≠ 0) .invalidFrame
  pure ⟨configurationId, registryDigest⟩

def decode : List UInt8 → Except WireError InstallationReady := exact .invalidFrame (8 + 32) read

def Valid (r : InstallationReady) : Prop := r.configurationId < 256 ^ 8 ∧ r.configurationId ≠ 0

end InstallationReady

structure RegistryRequest where
  configurationId : ℕ

namespace RegistryRequest

def encode (r : RegistryRequest) : List UInt8 := encodeLe 8 r.configurationId

def read : Cursor WireError RegistryRequest := do
  let configurationId ← wireInt 8
  Cursor.require (configurationId ≠ 0) .invalidFrame
  pure ⟨configurationId⟩

def decode : List UInt8 → Except WireError RegistryRequest := exact .invalidFrame 8 read

def Valid (r : RegistryRequest) : Prop := r.configurationId < 256 ^ 8 ∧ r.configurationId ≠ 0

end RegistryRequest

structure LearnerHeartbeat where
  configurationId : ℕ
  decidedThrough : ℕ

namespace LearnerHeartbeat

def encode (b : LearnerHeartbeat) : List UInt8 := encodeLe 8 b.configurationId ++ encodeLe 8 b.decidedThrough

def read : Cursor WireError LearnerHeartbeat := do
  let configurationId ← wireInt 8
  let decidedThrough ← wireInt 8
  Cursor.require (configurationId ≠ 0) .invalidFrame
  pure ⟨configurationId, decidedThrough⟩

def decode : List UInt8 → Except WireError LearnerHeartbeat := exact .invalidFrame (8 + 8) read

def Valid (b : LearnerHeartbeat) : Prop :=
  b.configurationId < 256 ^ 8 ∧ b.decidedThrough < 256 ^ 8 ∧ b.configurationId ≠ 0

end LearnerHeartbeat

structure BackupBegin where
  size : ℕ
  sha256 : HashBytes

namespace BackupBegin

def encode (b : BackupBegin) : List UInt8 := encodeLe 8 b.size ++ b.sha256.toList

def read : Cursor WireError BackupBegin := do
  let size ← wireInt 8
  let sha256 ← wireHash
  pure ⟨size, sha256⟩

def decode : List UInt8 → Except WireError BackupBegin := exact .invalidFrame (8 + 32) read

def Valid (b : BackupBegin) : Prop := b.size < 256 ^ 8

end BackupBegin

namespace FenceRequest

def encode (r : FenceRequest) : List UInt8 := r.ballot.encode ++ (encodeLe 8 r.fenceId ++ encodeLe 8 r.fenceSlot)

def read : Cursor WireError FenceRequest := do
  let ballot ← wireBallot
  let fenceId ← wireInt 8
  let fenceSlot ← wireInt 8
  pure ⟨ballot, fenceId, fenceSlot⟩

def decode : List UInt8 → Except WireError FenceRequest := exact .invalidFrame (16 + 8 + 8) read

def Valid (r : FenceRequest) : Prop := r.ballot.Fits ∧ r.fenceId < 256 ^ 8 ∧ r.fenceSlot < 256 ^ 8

end FenceRequest

namespace FenceAck

def encode (a : FenceAck) : List UInt8 :=
  encodeLe 8 a.fenceId ++ ([if a.ok then 1 else 0] ++ a.promised.encode)

def read : Cursor WireError FenceAck := do
  let fenceId ← wireInt 8
  let okRaw ← wireByte
  Cursor.require (okRaw ≤ 1) .invalidFrame
  let promised ← wireBallot
  pure ⟨fenceId, okRaw = 1, promised⟩

def decode : List UInt8 → Except WireError FenceAck := exact .invalidFrame (8 + 1 + 16) read

def Valid (a : FenceAck) : Prop := a.fenceId < 256 ^ 8 ∧ a.promised.Fits

end FenceAck

namespace HistoryProbe

def encode (p : HistoryProbe) : List UInt8 := encodeLe 8 p.nonce ++ (encodeLe 8 p.slot ++ p.hash.toList)

def read : Cursor WireError HistoryProbe := do
  let nonce ← wireInt 8
  let slot ← wireInt 8
  let hash ← wireHash
  Cursor.require (decide (nonce ≠ 0) && decide (slot ≠ 0)) .invalidFrame
  pure ⟨nonce, slot, hash⟩

def decode : List UInt8 → Except WireError HistoryProbe := exact .invalidFrame (8 + 8 + 32) read

def Valid (p : HistoryProbe) : Prop := (p.nonce < 256 ^ 8 ∧ p.slot < 256 ^ 8) ∧ p.nonce ≠ 0 ∧ p.slot ≠ 0

end HistoryProbe

structure SnapshotRequest where
  appliedSlot : ℕ

namespace SnapshotRequest

def encode (r : SnapshotRequest) : List UInt8 := encodeLe 8 r.appliedSlot

def read : Cursor WireError SnapshotRequest := do
  let appliedSlot ← wireInt 8
  pure ⟨appliedSlot⟩

def decode : List UInt8 → Except WireError SnapshotRequest := exact .invalidFrame 8 read

def Valid (r : SnapshotRequest) : Prop := r.appliedSlot < 256 ^ 8

end SnapshotRequest

structure StateReport where
  configurationId : ℕ
  durableStateSlot : ℕ
  historyHash : HashBytes
  executedSlot : ℕ
  persistedSlot : ℕ
  localDeleteFloor : ℕ
  retainedFirstSlot : ℕ

namespace StateReport

def encode (r : StateReport) : List UInt8 :=
  encodeLe 8 r.configurationId ++ (encodeLe 8 r.durableStateSlot ++ (r.historyHash.toList ++
    (encodeLe 8 r.executedSlot ++ (encodeLe 8 r.persistedSlot ++ (encodeLe 8 r.localDeleteFloor ++
      encodeLe 8 r.retainedFirstSlot)))))

def read : Cursor WireError StateReport := do
  let configurationId ← wireInt 8
  let durableStateSlot ← wireInt 8
  let historyHash ← wireHash
  let executedSlot ← wireInt 8
  let persistedSlot ← wireInt 8
  let localDeleteFloor ← wireInt 8
  let retainedFirstSlot ← wireInt 8
  Cursor.require (configurationId ≠ 0) .invalidFrame
  Cursor.require (durableStateSlot ≤ executedSlot) .invalidFrame
  pure ⟨configurationId, durableStateSlot, historyHash, executedSlot, persistedSlot, localDeleteFloor,
    retainedFirstSlot⟩

def decode : List UInt8 → Except WireError StateReport := exact .invalidFrame (8 * 6 + 32) read

/-- The fields fit, and what is durable has been executed. -/
structure Valid (r : StateReport) : Prop where
  fits : r.configurationId < 256 ^ 8 ∧ r.durableStateSlot < 256 ^ 8 ∧ r.executedSlot < 256 ^ 8 ∧
    r.persistedSlot < 256 ^ 8 ∧ r.localDeleteFloor < 256 ^ 8 ∧ r.retainedFirstSlot < 256 ^ 8
  configuration : r.configurationId ≠ 0
  durable : r.durableStateSlot ≤ r.executedSlot

end StateReport

/-- An offer as it goes over the wire, with the digest of the sender's registry. -/
structure OfferedSnapshot extends SnapshotBegin where
  registryDigest : HashBytes

namespace OfferedSnapshot

def encode (o : OfferedSnapshot) : List UInt8 :=
  encodeLe 8 o.configurationId ++ (encodeLe 8 o.anchorSlot ++ (o.historyHash.toList ++ (encodeLe 8 o.dbSize ++
    (o.imageSha256.toList ++ (encodeLe 4 o.sqlitePageSize ++ (encodeLe 8 o.lastDataSlot ++
      (encodeLe 16 o.lastBatchId ++ (o.lastChain.toList ++ o.registryDigest.toList))))))))

def read : Cursor WireError OfferedSnapshot := do
  let configurationId ← wireInt 8
  let anchorSlot ← wireInt 8
  let historyHash ← wireHash
  let dbSize ← wireInt 8
  let imageSha256 ← wireHash
  let sqlitePageSize ← wireInt 4
  let lastDataSlot ← wireInt 8
  let lastBatchId ← wireInt 16
  let lastChain ← wireHash
  let registryDigest ← wireHash
  Cursor.require (decide (anchorSlot ≠ 0) && (decide (dbSize ≠ 0) && decide (sqlitePageSize ≠ 0))) .invalidFrame
  pure ⟨⟨configurationId, anchorSlot, historyHash, dbSize, imageSha256, sqlitePageSize, lastDataSlot, lastBatchId,
    lastChain⟩, registryDigest⟩

def decode : List UInt8 → Except WireError OfferedSnapshot :=
  exact .invalidFrame (8 + 8 + 32 + 8 + 32 + 4 + 8 + 16 + 32 + 32) read

structure Valid (o : OfferedSnapshot) : Prop where
  fits : o.configurationId < 256 ^ 8 ∧ o.anchorSlot < 256 ^ 8 ∧ o.dbSize < 256 ^ 8 ∧ o.sqlitePageSize < 256 ^ 4 ∧
    o.lastDataSlot < 256 ^ 8 ∧ o.lastBatchId < 256 ^ 16
  nonzero : o.anchorSlot ≠ 0 ∧ o.dbSize ≠ 0 ∧ o.sqlitePageSize ≠ 0

end OfferedSnapshot

structure RangeRequest where
  configurationId : ℕ
  firstSlot : ℕ
  count : ℕ
  credit : UInt8

def maxRangeRecords : ℕ := 256

namespace RangeRequest

def encode (r : RangeRequest) : List UInt8 :=
  encodeLe 8 r.configurationId ++ (encodeLe 8 r.firstSlot ++ (encodeLe 4 r.count ++ [r.credit]))

def read : Cursor WireError RangeRequest := do
  let configurationId ← wireInt 8
  let firstSlot ← wireInt 8
  let count ← wireInt 4
  let credit ← wireByte
  Cursor.require (decide (configurationId ≠ 0) && decide (firstSlot ≠ 0)) .invalidFrame
  Cursor.require (decide (count ≠ 0) && decide (count ≤ maxRangeRecords)) .invalidFrame
  pure ⟨configurationId, firstSlot, count, credit⟩

def decode : List UInt8 → Except WireError RangeRequest := exact .invalidFrame (8 + 8 + 4 + 1) read

structure Valid (r : RangeRequest) : Prop where
  fits : r.configurationId < 256 ^ 8 ∧ r.firstSlot < 256 ^ 8
  nonzero : r.configurationId ≠ 0 ∧ r.firstSlot ≠ 0
  count : r.count ≠ 0 ∧ r.count ≤ maxRangeRecords

end RangeRequest

/-! ### Bodies with records and blobs -/

/-- `RangeData.Record`. -/
structure RangeRecord where
  slot : ℕ
  kind : UInt8
  entryBytes : List UInt8

namespace RangeRecord

def encode (r : RangeRecord) : List UInt8 :=
  encodeLe 8 r.slot ++ ([r.kind] ++ (encodeLe 2 r.entryBytes.length ++ r.entryBytes))

/-- `RangeData.Iterator.next`, while records remain. -/
def read : Cursor WireError RangeRecord := do
  let slot ← wireInt 8
  let kind ← wireByte
  let length ← wireInt 2
  Cursor.require (decide (slot ≠ 0) && decide (length ≤ Entry.maxEntrySize)) .invalidFrame
  let entryBytes ← Cursor.take .invalidFrame length
  pure ⟨slot, kind, entryBytes⟩

structure Valid (r : RangeRecord) : Prop where
  slot : r.slot < 256 ^ 8 ∧ r.slot ≠ 0
  length : r.entryBytes.length ≤ Entry.maxEntrySize

end RangeRecord

/-- Records of a slot range; the region of the frame that holds them is read to its end when the body is decoded. -/
structure RangeData where
  configurationId : ℕ
  firstSlot : ℕ
  more : Bool
  records : List RangeRecord

namespace RangeData

def encode (d : RangeData) : List UInt8 :=
  encodeLe 8 d.configurationId ++ (encodeLe 8 d.firstSlot ++ ([if d.more then 1 else 0] ++
    (encodeLe 2 d.records.length ++ d.records.flatMap RangeRecord.encode)))

def read : Cursor WireError RangeData := do
  let configurationId ← wireInt 8
  let firstSlot ← wireInt 8
  let moreRaw ← wireByte
  let recordCount ← wireInt 2
  Cursor.require (decide (configurationId ≠ 0) && (decide (firstSlot ≠ 0) && decide (moreRaw ≤ 1))) .invalidFrame
  Cursor.require (recordCount ≤ maxRangeRecords) .invalidFrame
  let records ← Cursor.many RangeRecord.read recordCount
  pure ⟨configurationId, firstSlot, moreRaw = 1, records⟩

def decode : List UInt8 → Except WireError RangeData := whole .invalidFrame read

structure Valid (d : RangeData) : Prop where
  fits : d.configurationId < 256 ^ 8 ∧ d.firstSlot < 256 ^ 8
  nonzero : d.configurationId ≠ 0 ∧ d.firstSlot ≠ 0
  count : d.records.length ≤ maxRangeRecords
  records : ∀ r ∈ d.records, r.Valid

/-- `RangeData.Encoder`: the bytes so far, the flag and the count in their head still zero, and the count. -/
structure Encoder where
  buffer : List UInt8
  count : ℕ

def encoder (configurationId firstSlot : ℕ) : Encoder :=
  ⟨encodeLe 8 configurationId ++ (encodeLe 8 firstSlot ++ ([0] ++ encodeLe 2 0)), 0⟩

def Encoder.add (e : Encoder) (r : RangeRecord) : Encoder :=
  ⟨e.buffer ++ r.encode, e.count + 1⟩

/-- The flag and the count are put in place. -/
def Encoder.finish (e : Encoder) (more : Bool) : List UInt8 :=
  e.buffer.take 16 ++ ([if more then 1 else 0] ++ (encodeLe 2 e.count ++ e.buffer.drop 19))

end RangeData

structure RegistryData where
  configurationId : ℕ
  blob : List UInt8

namespace RegistryData

def maxBlobBytes : ℕ := 8 * 1024

/-- The encoder does not look at the configuration. -/
def encode (d : RegistryData) : Except WireError (List UInt8) :=
  if d.blob.length = 0 ∨ d.blob.length > maxBlobBytes then .error .invalidFrame
  else .ok (encodeLe 8 d.configurationId ++ d.blob)

def decode (body : List UInt8) : Except WireError RegistryData :=
  if body.length ≤ 8 ∨ body.length > 8 + maxBlobBytes then .error .invalidFrame
  else
    headed (wireInt 8) (fun configurationId blob =>
      if configurationId = 0 then .error .invalidFrame else .ok ⟨configurationId, blob⟩) body

structure Valid (d : RegistryData) : Prop where
  configuration : d.configurationId < 256 ^ 8 ∧ d.configurationId ≠ 0
  blob : d.blob.length ≠ 0 ∧ d.blob.length ≤ maxBlobBytes

end RegistryData

structure SnapshotChunk where
  offset : ℕ
  bytes : List UInt8

namespace SnapshotChunk

/-- The parts of a chunk's frame. -/
def encode (c : SnapshotChunk) : List UInt8 := encodeLe 8 c.offset ++ c.bytes

def decode (body : List UInt8) : Except WireError SnapshotChunk :=
  if body.length < 8 then .error .invalidFrame
  else headed (wireInt 8) (fun offset bytes => .ok ⟨offset, bytes⟩) body

def Valid (c : SnapshotChunk) : Prop := c.offset < 256 ^ 8

end SnapshotChunk

structure EnrollmentRequest where
  secret : HashBytes
  nodeId : ℕ
  databaseId : ℕ
  csr : List UInt8

namespace EnrollmentRequest

def maxCsrBytes : ℕ := 16 * 1024

def fixedSize : ℕ := 32 + 4 + 16 + 4

def encode (r : EnrollmentRequest) : Except WireError (List UInt8) :=
  if r.nodeId = 0 ∨ r.databaseId = 0 ∨ r.csr.length = 0 ∨ r.csr.length > maxCsrBytes then .error .invalidFrame
  else
    .ok (r.secret.toList ++ (encodeLe 4 r.nodeId ++ (encodeLe 16 r.databaseId ++ (encodeLe 4 r.csr.length ++ r.csr))))

/-- The fixed fields, with the length of the request that follows them. -/
def readHead : Cursor WireError (HashBytes × ℕ × ℕ × ℕ) := do
  let secret ← wireHash
  let nodeId ← wireInt 4
  let databaseId ← wireInt 16
  let csrLength ← wireInt 4
  pure (secret, nodeId, databaseId, csrLength)

def decode (body : List UInt8) : Except WireError EnrollmentRequest :=
  if body.length < fixedSize then .error .invalidFrame
  else
    headed readHead (fun (secret, nodeId, databaseId, csrLength) csr =>
      if csrLength = 0 ∨ csrLength > maxCsrBytes ∨ csr.length ≠ csrLength then .error .invalidFrame
      else if nodeId = 0 ∨ databaseId = 0 then .error .invalidFrame
      else .ok ⟨secret, nodeId, databaseId, csr⟩) body

structure Valid (r : EnrollmentRequest) : Prop where
  fits : r.nodeId < 256 ^ 4 ∧ r.databaseId < 256 ^ 16
  nonzero : r.nodeId ≠ 0 ∧ r.databaseId ≠ 0
  csr : r.csr.length ≠ 0 ∧ r.csr.length ≤ maxCsrBytes

end EnrollmentRequest

/-- What an enrollment is answered; a refusal says nothing else. -/
inductive EnrollmentResponse where
  | ok (nodeId databaseId configurationId : ℕ) (registryDigest : HashBytes) (certificate : List UInt8)
  | refused

namespace EnrollmentResponse

def bindingSize : ℕ := 1 + 4 + 16 + 8 + 32

def maxCertificateBytes : ℕ := 64 * 1024

def encode : EnrollmentResponse → Except WireError (List UInt8)
  | .refused => .ok [1]
  | .ok nodeId databaseId configurationId registryDigest certificate =>
    if certificate.length = 0 ∨ certificate.length > maxCertificateBytes ∨ nodeId = 0 ∨ databaseId = 0 ∨
        configurationId = 0 then .error .invalidFrame
    else
      .ok ([0] ++ (encodeLe 4 nodeId ++ (encodeLe 16 databaseId ++ (encodeLe 8 configurationId ++
        (registryDigest.toList ++ certificate)))))

def readBinding : Cursor WireError (ℕ × ℕ × ℕ × HashBytes) := do
  let nodeId ← wireInt 4
  let databaseId ← wireInt 16
  let configurationId ← wireInt 8
  let registryDigest ← wireHash
  pure (nodeId, databaseId, configurationId, registryDigest)

def decode (body : List UInt8) : Except WireError EnrollmentResponse :=
  if body.length = 0 ∨ body.length > bindingSize + maxCertificateBytes then .error .invalidFrame
  else
    headed wireByte (fun status rest =>
      if status = 1 then if body.length ≠ 1 then .error .invalidFrame else .ok .refused
      else if status ≠ 0 then .error .invalidFrame
      else if body.length ≤ bindingSize then .error .invalidFrame
      else
        headed readBinding (fun (nodeId, databaseId, configurationId, registryDigest) certificate =>
          if nodeId = 0 ∨ databaseId = 0 ∨ configurationId = 0 then .error .invalidFrame
          else .ok (.ok nodeId databaseId configurationId registryDigest certificate)) rest) body

def Valid : EnrollmentResponse → Prop
  | .refused => True
  | .ok nodeId databaseId configurationId _ certificate =>
    (nodeId < 256 ^ 4 ∧ databaseId < 256 ^ 16 ∧ configurationId < 256 ^ 8) ∧
      (nodeId ≠ 0 ∧ databaseId ≠ 0 ∧ configurationId ≠ 0) ∧
      certificate.length ≠ 0 ∧ certificate.length ≤ maxCertificateBytes

end EnrollmentResponse

section LearnerCommits

-- The stop signs the consensus library's constructor accepts.
variable (createStop : StopSign → Bool)

def LearnerCommit.read : Cursor WireError LearnerCommit := do
  let configurationId ← wireInt 8
  let slot ← wireInt 8
  let entry ← wireEntry createStop
  Cursor.require (decide (configurationId ≠ 0) && decide (slot ≠ 0)) .invalidFrame
  pure ⟨configurationId, slot, entry⟩

def LearnerCommit.decode : List UInt8 → Except WireError LearnerCommit :=
  whole .invalidFrame (LearnerCommit.read createStop)

structure LearnerCommit.Valid (c : LearnerCommit) : Prop where
  fits : c.configurationId < 256 ^ 8 ∧ c.slot < 256 ^ 8
  nonzero : c.configurationId ≠ 0 ∧ c.slot ≠ 0
  entry : c.entry.Canonical createStop

end LearnerCommits

/-! ### The greeting -/

inductive HelloError where
  | invalidHello
  | unsupportedProtocolVersion
  deriving DecidableEq

inductive ConnectionKind where
  | peer
  | client
  | enrollment
  deriving DecidableEq

namespace ConnectionKind

def tag : ConnectionKind → UInt8
  | peer => 0
  | client => 1
  | enrollment => 2

def fromInt (raw : UInt8) : Option ConnectionKind :=
  [peer, client, enrollment].find? fun kind => kind.tag = raw

end ConnectionKind

def protocolVersion : ℕ := 10

structure Hello where
  version : ℕ
  kind : ConnectionKind
  nodeId : ℕ
  databaseId : ℕ
  configurationId : ℕ

namespace Hello

def encode (h : Hello) : List UInt8 :=
  encodeLe 2 h.version ++ ([h.kind.tag] ++ (encodeLe 4 h.nodeId ++ (encodeLe 16 h.databaseId ++
    encodeLe 8 h.configurationId)))

def readKind : Cursor HelloError ConnectionKind := do
  let kindRaw ← Cursor.byte .invalidHello
  (ConnectionKind.fromInt kindRaw).elim (Cursor.fail .invalidHello) pure

def read : Cursor HelloError Hello := do
  let version ← Cursor.int .invalidHello 2
  Cursor.require (version = protocolVersion) .unsupportedProtocolVersion
  let kind ← readKind
  let nodeId ← Cursor.int .invalidHello 4
  let databaseId ← Cursor.int .invalidHello 16
  let configurationId ← Cursor.int .invalidHello 8
  pure ⟨version, kind, nodeId, databaseId, configurationId⟩

def decode : List UInt8 → Except HelloError Hello := exact .invalidHello (2 + 1 + 4 + 16 + 8) read

structure Valid (h : Hello) : Prop where
  version : h.version = protocolVersion
  fits : h.nodeId < 256 ^ 4 ∧ h.databaseId < 256 ^ 16 ∧ h.configurationId < 256 ^ 8

end Hello

/-! ### What the decoders take -/

section Fields

theorem reads_wireHash (hash : HashBytes) : Reads wireHash hash.toList hash :=
  (reads_hash _ _).mapError _

theorem writes_wireHash : Writes wireHash Vector.toList fun _ => True :=
  (writes_hash _).mapError _

theorem length_toList (hash : HashBytes) : hash.toList.length = 32 :=
  Vector.length_toList

theorem flag_decide (b : Bool) : decide ((if b then 1 else 0 : UInt8) = 1) = b := by
  cases b <;> rfl

theorem flag_le_one (b : Bool) : decide ((if b then 1 else 0 : UInt8) ≤ 1) = true := by
  cases b <;> rfl

end Fields

section FixedBodies

theorem InstallationReady.inverts : Inverts read encode Valid where
  reads r h := (reads_wireInt h.1).bind ((reads_wireHash _).last (Reads.require _ (decide_eq_true h.2) (Reads.pure r)))
  writes := (writes_wireInt 8).bind fun configurationId h₁ => writes_wireHash.bind fun registryDigest _ =>
    accepts_require _ fun hne => Accepts.pure ⟨⟨h₁, of_decide_eq_true hne⟩, by rw [List.append_nil]; rfl⟩

theorem InstallationReady.decodes : Decodes decode encode Valid :=
  inverts.exact fun r _ => by simp [encode]

theorem RegistryRequest.inverts : Inverts read encode Valid where
  reads r h := (reads_wireInt h.1).last (Reads.require _ (decide_eq_true h.2) (Reads.pure r))
  writes := (writes_wireInt 8).bind fun _ h₁ =>
    accepts_require _ fun hne => Accepts.pure ⟨⟨h₁, of_decide_eq_true hne⟩, List.append_nil _⟩

theorem RegistryRequest.decodes : Decodes decode encode Valid :=
  inverts.exact fun r _ => by simp [encode]

theorem LearnerHeartbeat.inverts : Inverts read encode Valid where
  reads b h := (reads_wireInt h.1).bind ((reads_wireInt h.2.1).last
    (Reads.require _ (decide_eq_true h.2.2) (Reads.pure b)))
  writes := (writes_wireInt 8).bind fun configurationId h₁ => (writes_wireInt 8).bind fun decidedThrough h₂ =>
    accepts_require _ fun hne => Accepts.pure ⟨⟨h₁, h₂, of_decide_eq_true hne⟩, by rw [List.append_nil]; rfl⟩

theorem LearnerHeartbeat.decodes : Decodes decode encode Valid :=
  inverts.exact fun b _ => by simp [encode]

theorem BackupBegin.inverts : Inverts read encode Valid where
  reads b h := (reads_wireInt h).bind ((reads_wireHash _).last (Reads.pure b))
  writes := (writes_wireInt 8).bind fun size h₁ => writes_wireHash.bind fun sha256 _ =>
    Accepts.pure ⟨h₁, by rw [List.append_nil]; rfl⟩

theorem BackupBegin.decodes : Decodes decode encode Valid :=
  inverts.exact fun b _ => by simp [encode]

theorem FenceRequest.inverts : Inverts read encode Valid where
  reads r h := (reads_wireBallot h.1).bind ((reads_wireInt h.2.1).bind ((reads_wireInt h.2.2).last (Reads.pure r)))
  writes := writes_wireBallot.bind fun ballot h₁ => (writes_wireInt 8).bind fun fenceId h₂ =>
    (writes_wireInt 8).bind fun fenceSlot h₃ => Accepts.pure ⟨⟨h₁, h₂, h₃⟩, by rw [List.append_nil]; rfl⟩

theorem FenceRequest.decodes : Decodes decode encode Valid :=
  inverts.exact fun r _ => by simp [encode, length_encodeBallot]

theorem FenceAck.inverts : Inverts read encode Valid where
  reads a h := by
    refine (reads_wireInt h.1).bind ((reads_wireByte _).bind (Reads.require _ (flag_le_one _)
      ((reads_wireBallot h.2).last ?_)))
    rw [flag_decide]
    exact Reads.pure a
  writes := (writes_wireInt 8).bind fun fenceId h₁ => writes_wireByte.bind fun okRaw _ =>
    accepts_require _ fun hflag => writes_wireBallot.bind fun promised h₂ => Accepts.pure ⟨⟨h₁, h₂⟩, by
      rw [List.append_nil, encode, flag_of_le_one (of_decide_eq_true hflag)]⟩

theorem FenceAck.decodes : Decodes decode encode Valid :=
  inverts.exact fun a _ => by simp [encode, length_encodeBallot]

theorem HistoryProbe.inverts : Inverts read encode Valid where
  reads p h := (reads_wireInt h.1.1).bind ((reads_wireInt h.1.2).bind ((reads_wireHash _).last
    (Reads.require _ (by simp [h.2.1, h.2.2]) (Reads.pure p))))
  writes := (writes_wireInt 8).bind fun nonce h₁ => (writes_wireInt 8).bind fun slot h₂ =>
    writes_wireHash.bind fun hash _ => accepts_require _ fun hne => Accepts.pure
      ⟨⟨⟨h₁, h₂⟩, by simpa using hne⟩, by rw [List.append_nil]; rfl⟩

theorem HistoryProbe.decodes : Decodes decode encode Valid :=
  inverts.exact fun p _ => by simp [encode]

theorem SnapshotRequest.inverts : Inverts read encode Valid where
  reads r h := (reads_wireInt h).last (Reads.pure r)
  writes := (writes_wireInt 8).bind fun _ h₁ => Accepts.pure ⟨h₁, List.append_nil _⟩

theorem SnapshotRequest.decodes : Decodes decode encode Valid :=
  inverts.exact fun r _ => by simp [encode]

theorem StateReport.inverts : Inverts read encode Valid where
  reads r h := by
    obtain ⟨⟨h₁, h₂, h₃, h₄, h₅, h₆⟩, hconfiguration, hdurable⟩ := h
    exact (reads_wireInt h₁).bind ((reads_wireInt h₂).bind ((reads_wireHash _).bind ((reads_wireInt h₃).bind
      ((reads_wireInt h₄).bind ((reads_wireInt h₅).bind ((reads_wireInt h₆).last
        (Reads.require _ (decide_eq_true hconfiguration) (Reads.require _ (decide_eq_true hdurable)
          (Reads.pure r)))))))))
  writes := (writes_wireInt 8).bind fun configurationId h₁ => (writes_wireInt 8).bind fun durableStateSlot h₂ =>
    writes_wireHash.bind fun historyHash _ => (writes_wireInt 8).bind fun executedSlot h₃ =>
    (writes_wireInt 8).bind fun persistedSlot h₄ => (writes_wireInt 8).bind fun localDeleteFloor h₅ =>
    (writes_wireInt 8).bind fun retainedFirstSlot h₆ => accepts_require _ fun hconfiguration =>
    accepts_require _ fun hdurable => Accepts.pure ⟨⟨⟨h₁, h₂, h₃, h₄, h₅, h₆⟩, of_decide_eq_true hconfiguration,
      of_decide_eq_true hdurable⟩, by rw [List.append_nil]; rfl⟩

theorem StateReport.decodes : Decodes decode encode Valid :=
  inverts.exact fun r _ => by simp [encode]

theorem OfferedSnapshot.inverts : Inverts read encode Valid where
  reads o h := by
    obtain ⟨⟨h₁, h₂, h₃, h₄, h₅, h₆⟩, hanchor, hsize, hpage⟩ := h
    exact (reads_wireInt h₁).bind ((reads_wireInt h₂).bind ((reads_wireHash _).bind ((reads_wireInt h₃).bind
      ((reads_wireHash _).bind ((reads_wireInt h₄).bind ((reads_wireInt h₅).bind ((reads_wireInt h₆).bind
        ((reads_wireHash _).bind ((reads_wireHash _).last
          (Reads.require _ (by simp [hanchor, hsize, hpage]) (Reads.pure o)))))))))))
  writes := (writes_wireInt 8).bind fun configurationId h₁ => (writes_wireInt 8).bind fun anchorSlot h₂ =>
    writes_wireHash.bind fun historyHash _ => (writes_wireInt 8).bind fun dbSize h₃ =>
    writes_wireHash.bind fun imageSha256 _ => (writes_wireInt 4).bind fun sqlitePageSize h₄ =>
    (writes_wireInt 8).bind fun lastDataSlot h₅ => (writes_wireInt 16).bind fun lastBatchId h₆ =>
    writes_wireHash.bind fun lastChain _ => writes_wireHash.bind fun registryDigest _ =>
    accepts_require _ fun hne => Accepts.pure ⟨⟨⟨h₁, h₂, h₃, h₄, h₅, h₆⟩, by simpa using hne⟩, by
      rw [List.append_nil]; rfl⟩

theorem OfferedSnapshot.decodes : Decodes decode encode Valid :=
  inverts.exact fun o _ => by simp [encode]

theorem RangeRequest.inverts : Inverts read encode Valid where
  reads r h := by
    have hcount : r.count < 256 ^ 4 := h.count.2.trans_lt (by decide)
    exact (reads_wireInt h.fits.1).bind ((reads_wireInt h.fits.2).bind ((reads_wireInt hcount).bind
      ((reads_wireByte _).last (Reads.require _ (by simp [h.nonzero.1, h.nonzero.2])
        (Reads.require _ (by simp [h.count.1, h.count.2]) (Reads.pure r))))))
  writes := (writes_wireInt 8).bind fun configurationId h₁ => (writes_wireInt 8).bind fun firstSlot h₂ =>
    (writes_wireInt 4).bind fun count _ => writes_wireByte.bind fun credit _ => accepts_require _ fun hne =>
    accepts_require _ fun hcount => Accepts.pure ⟨⟨⟨h₁, h₂⟩, by simpa using hne, by simpa using hcount⟩, by
      rw [List.append_nil]; rfl⟩

theorem RangeRequest.decodes : Decodes decode encode Valid :=
  inverts.exact fun r _ => by simp [encode]

end FixedBodies

section BlobBodies

theorem RangeRecord.inverts : Inverts read encode Valid where
  reads r h := by
    have hlength : r.entryBytes.length < 256 ^ 2 := h.length.trans_lt (by decide)
    exact (reads_wireInt h.slot.1).bind ((reads_wireByte _).bind ((reads_wireInt hlength).bind
      (Reads.require _ (by simp [h.slot.2, h.length]) ((Reads.take _ _).last (Reads.pure r)))))
  writes := (writes_wireInt 8).bind fun slot h₁ => writes_wireByte.bind fun kind _ =>
    (writes_wireInt 2).bind fun length _ => accepts_require _ fun hadmitted =>
    (Cursor.writes_take _ length).bind fun entryBytes hlength => Accepts.pure (by
      rw [Bool.and_eq_true, decide_eq_true_eq, decide_eq_true_eq] at hadmitted
      subst hlength
      exact ⟨⟨⟨h₁, hadmitted.1⟩, hadmitted.2⟩, by rw [List.append_nil]; rfl⟩)

theorem RangeData.inverts : Inverts read encode Valid where
  reads d h := by
    have hcount : d.records.length < 256 ^ 2 := h.count.trans_lt (by decide)
    refine (reads_wireInt h.fits.1).bind ((reads_wireInt h.fits.2).bind ((reads_wireByte _).bind
      ((reads_wireInt hcount).bind (Reads.require _ ?_ (Reads.require _ (decide_eq_true h.count)
        ((Reads.many fun r hr => RangeRecord.inverts.reads r (h.records r hr)).last ?_))))))
    · rw [flag_le_one]
      simp [h.nonzero.1, h.nonzero.2]
    · rw [flag_decide]
      exact Reads.pure d
  writes := (writes_wireInt 8).bind fun configurationId h₁ => (writes_wireInt 8).bind fun firstSlot h₂ =>
    writes_wireByte.bind fun moreRaw _ => (writes_wireInt 2).bind fun recordCount _ =>
    accepts_require _ fun hadmitted => accepts_require _ fun hcount =>
    (RangeRecord.inverts.writes.many recordCount).bind fun records hrecords => Accepts.pure (by
      simp only [Bool.and_eq_true, decide_eq_true_eq] at hadmitted hcount
      obtain ⟨rfl, hvalid⟩ := hrecords
      exact ⟨⟨⟨h₁, h₂⟩, ⟨hadmitted.1, hadmitted.2.1⟩, hcount, hvalid⟩, by
        rw [List.append_nil, encode, flag_of_le_one hadmitted.2.2]⟩)

theorem RangeData.decodes : Decodes decode encode Valid :=
  inverts.whole

theorem RangeData.finish_add (d : RangeData) :
    (d.records.foldl Encoder.add (encoder d.configurationId d.firstSlot)).finish d.more = d.encode := by
  have hadds (e : Encoder) (records : List RangeRecord) :
      records.foldl Encoder.add e = ⟨e.buffer ++ records.flatMap RangeRecord.encode, e.count + records.length⟩ := by
    induction records generalizing e with
    | nil => rw [List.foldl_nil, List.flatMap_nil, List.append_nil, List.length_nil, Nat.add_zero]
    | cons r records ih =>
      rw [List.foldl_cons, ih, Encoder.add, List.flatMap_cons, List.append_assoc, List.length_cons,
        Nat.add_right_comm]
      rfl
  rw [hadds, Encoder.finish, encoder, encode]
  have htake (rest : List UInt8) : (encodeLe 8 d.configurationId ++ (encodeLe 8 d.firstSlot ++ rest)).take 16 =
      encodeLe 8 d.configurationId ++ encodeLe 8 d.firstSlot := by
    rw [← List.append_assoc]
    exact List.take_left' (by simp)
  have hdrop (rest : List UInt8) :
      (encodeLe 8 d.configurationId ++ (encodeLe 8 d.firstSlot ++ ([0] ++ encodeLe 2 0)) ++ rest).drop 19 = rest :=
    List.drop_left' (by simp)
  rw [hdrop]
  simp only [List.append_assoc]
  rw [htake, Nat.zero_add, List.append_assoc]

/-- **A range sent record by record is received whole**: exactly while its fields fit and its records are no more
than a range may hold. -/
theorem RangeData.decode_finish (d : RangeData) :
    decode ((d.records.foldl Encoder.add (encoder d.configurationId d.firstSlot)).finish d.more) = .ok d ↔
      d.Valid := by
  rw [finish_add, decodes]
  exact ⟨fun h => h.1, fun h => ⟨h, rfl⟩⟩

theorem inverts_wireInt (width : ℕ) :
    Inverts (wireInt width) (encodeLe width) fun value => value < 256 ^ width :=
  ⟨fun _ h => reads_wireInt h, writes_wireInt width⟩

theorem RegistryData.decode_eq_ok_iff {body : List UInt8} {d : RegistryData} :
    RegistryData.decode body = .ok d ↔ d.Valid ∧ d.encode = .ok body := by
  rw [RegistryData.decode, RegistryData.encode]
  constructor
  · intro hok
    split at hok
    · cases hok
    · next hsize =>
      obtain ⟨configurationId, blob, hfits, rfl, hrest⟩ := (inverts_wireInt 8).headed_eq_ok_iff.1 hok
      split at hrest
      · cases hrest
      · next hne =>
        obtain rfl := Except.ok.inj hrest
        rw [List.length_append, Bytes.length_encodeLe] at hsize
        have hblob : ¬(blob.length = 0 ∨ blob.length > maxBlobBytes) := by omega
        exact ⟨⟨⟨hfits, hne⟩, not_or.1 hblob |>.imp_right not_lt.1⟩, if_neg hblob⟩
  · rintro ⟨hvalid, hencode⟩
    obtain ⟨⟨hfits, hne⟩, hblob⟩ := hvalid
    rw [if_neg (by omega)] at hencode
    obtain rfl := Except.ok.inj hencode
    rw [if_neg (by rw [List.length_append, Bytes.length_encodeLe]; omega)]
    exact (inverts_wireInt 8).headed_eq_ok_iff.2 ⟨_, _, hfits, rfl, if_neg hne⟩

theorem SnapshotChunk.decodes : Decodes decode encode Valid := by
  intro body c
  rw [decode]
  constructor
  · intro hok
    split at hok
    · cases hok
    · obtain ⟨offset, bytes, hfits, rfl, hrest⟩ := (inverts_wireInt 8).headed_eq_ok_iff.1 hok
      obtain rfl := Except.ok.inj hrest
      exact ⟨hfits, rfl⟩
  · rintro ⟨hvalid, rfl⟩
    rw [if_neg (by rw [encode, List.length_append, Bytes.length_encodeLe]; omega)]
    exact (inverts_wireInt 8).headed_eq_ok_iff.2 ⟨_, _, hvalid, rfl, rfl⟩

theorem EnrollmentRequest.inverts_head :
    Inverts readHead (fun head => head.1.toList ++ (encodeLe 4 head.2.1 ++ (encodeLe 16 head.2.2.1 ++
      encodeLe 4 head.2.2.2))) fun head => head.2.1 < 256 ^ 4 ∧ head.2.2.1 < 256 ^ 16 ∧ head.2.2.2 < 256 ^ 4 where
  reads head h := (reads_wireHash _).bind ((reads_wireInt h.1).bind ((reads_wireInt h.2.1).bind
    ((reads_wireInt h.2.2).last (Reads.pure head))))
  writes := writes_wireHash.bind fun secret _ => (writes_wireInt 4).bind fun nodeId h₁ =>
    (writes_wireInt 16).bind fun databaseId h₂ => (writes_wireInt 4).bind fun csrLength h₃ =>
    Accepts.pure ⟨⟨h₁, h₂, h₃⟩, by rw [List.append_nil]⟩

theorem EnrollmentRequest.decode_eq_ok_iff {body : List UInt8} {r : EnrollmentRequest} :
    EnrollmentRequest.decode body = .ok r ↔ r.Valid ∧ r.encode = .ok body := by
  rw [EnrollmentRequest.decode, EnrollmentRequest.encode]
  constructor
  · intro hok
    split at hok
    · cases hok
    · obtain ⟨⟨secret, nodeId, databaseId, csrLength⟩, csr, ⟨h₁, h₂, h₃⟩, rfl, hrest⟩ :=
        EnrollmentRequest.inverts_head.headed_eq_ok_iff.1 hok
      dsimp only at h₁ h₂ h₃ hrest
      split at hrest
      · cases hrest
      · next hcsr =>
        split at hrest
        · cases hrest
        · next hne =>
          obtain rfl := Except.ok.inj hrest
          obtain rfl : csr.length = csrLength := by omega
          refine ⟨⟨⟨h₁, h₂⟩, not_or.1 hne, by dsimp only; omega⟩, ?_⟩
          rw [if_neg (by dsimp only; omega)]
          simp only [List.append_assoc]
  · rintro ⟨⟨⟨h₁, h₂⟩, ⟨hnode, hdatabase⟩, hcsr, hmax⟩, hencode⟩
    rw [if_neg (by omega)] at hencode
    obtain rfl := Except.ok.inj hencode
    have hlength : r.csr.length < 256 ^ 4 := hmax.trans_lt (by decide)
    rw [if_neg (by simp only [List.length_append, Bytes.length_encodeLe, length_toList, fixedSize]; omega)]
    refine EnrollmentRequest.inverts_head.headed_eq_ok_iff.2
      ⟨(r.secret, r.nodeId, r.databaseId, r.csr.length), r.csr, ⟨h₁, h₂, hlength⟩, ?_, ?_⟩
    · simp only [List.append_assoc]
    · dsimp only
      rw [if_neg (by omega), if_neg (not_or.2 ⟨hnode, hdatabase⟩)]

theorem EnrollmentResponse.inverts_binding :
    Inverts readBinding (fun b => encodeLe 4 b.1 ++ (encodeLe 16 b.2.1 ++ (encodeLe 8 b.2.2.1 ++ b.2.2.2.toList)))
      fun b => b.1 < 256 ^ 4 ∧ b.2.1 < 256 ^ 16 ∧ b.2.2.1 < 256 ^ 8 where
  reads b h := (reads_wireInt h.1).bind ((reads_wireInt h.2.1).bind ((reads_wireInt h.2.2).bind
    ((reads_wireHash _).last (Reads.pure b))))
  writes := (writes_wireInt 4).bind fun nodeId h₁ => (writes_wireInt 16).bind fun databaseId h₂ =>
    (writes_wireInt 8).bind fun configurationId h₃ => writes_wireHash.bind fun registryDigest _ =>
    Accepts.pure ⟨⟨h₁, h₂, h₃⟩, by rw [List.append_nil]⟩

theorem inverts_wireByte : Inverts wireByte (fun b => [b]) fun _ => True :=
  ⟨fun b _ => reads_wireByte b, writes_wireByte⟩

theorem EnrollmentResponse.decode_eq_ok_iff {body : List UInt8} {r : EnrollmentResponse} :
    EnrollmentResponse.decode body = .ok r ↔ r.Valid ∧ r.encode = .ok body := by
  rw [EnrollmentResponse.decode]
  constructor
  · intro hok
    split at hok
    · cases hok
    · next hsize =>
      obtain ⟨status, rest, -, rfl, hstatus⟩ := inverts_wireByte.headed_eq_ok_iff.1 hok
      split at hstatus
      · next hone =>
        split at hstatus
        · cases hstatus
        · next hlength =>
          obtain rfl := Except.ok.inj hstatus
          rw [not_not, List.length_append, List.length_singleton] at hlength
          obtain rfl : rest = [] := List.length_eq_zero_iff.1 (by omega)
          subst hone
          exact ⟨trivial, rfl⟩
      · split at hstatus
        · cases hstatus
        · next hzero =>
          obtain rfl := not_not.1 hzero
          split at hstatus
          · cases hstatus
          · next hbinding =>
            obtain ⟨⟨nodeId, databaseId, configurationId, registryDigest⟩, certificate, hfits, rfl, hrest⟩ :=
              EnrollmentResponse.inverts_binding.headed_eq_ok_iff.1 hstatus
            dsimp only at hrest
            split at hrest
            · cases hrest
            · next hne =>
              obtain rfl := Except.ok.inj hrest
              simp only [List.length_append, Bytes.length_encodeLe, length_toList, List.length_singleton,
                bindingSize] at hsize hbinding
              refine ⟨⟨hfits, by simpa [not_or] using hne, by omega⟩, ?_⟩
              rw [EnrollmentResponse.encode, if_neg (by omega)]
              simp only [List.append_assoc]
  · rintro ⟨hvalid, hencode⟩
    cases r with
    | refused =>
      obtain rfl := Except.ok.inj hencode
      rfl
    | ok nodeId databaseId configurationId registryDigest certificate =>
      obtain ⟨hfits, hne, hlength⟩ := hvalid
      rw [EnrollmentResponse.encode, if_neg (by omega)] at hencode
      obtain rfl := Except.ok.inj hencode
      have hsize : ∀ n, n = 61 + certificate.length → ¬(n = 0 ∨ n > bindingSize + maxCertificateBytes) := by
        intro n hn
        rw [bindingSize]
        omega
      rw [if_neg (hsize _ (by simp only [List.length_append, Bytes.length_encodeLe, length_toList,
        List.length_singleton]; omega))]
      refine inverts_wireByte.headed_eq_ok_iff.2 ⟨0, _, trivial, rfl, ?_⟩
      rw [if_neg (by decide), if_neg (by decide), if_neg (by
        simp only [List.length_append, Bytes.length_encodeLe, length_toList, List.length_singleton, bindingSize]
        omega)]
      refine EnrollmentResponse.inverts_binding.headed_eq_ok_iff.2
        ⟨(nodeId, databaseId, configurationId, registryDigest), certificate, hfits, ?_, ?_⟩
      · simp only [List.append_assoc]
      · exact if_neg (by simpa [not_or] using hne)

theorem LearnerCommit.inverts {createStop : StopSign → Bool} :
    Inverts (LearnerCommit.read createStop) LearnerCommit.encode (LearnerCommit.Valid createStop) where
  reads c h := by
    have hreads : Reads (LearnerCommit.read createStop)
        (encodeLe 8 c.configurationId ++ (encodeLe 8 c.slot ++ c.entry.encode)) c :=
      (reads_wireInt h.fits.1).bind ((reads_wireInt h.fits.2).bind ((reads_wireEntry h.entry).last
        (Reads.require _ (by simp [h.nonzero.1, h.nonzero.2]) (Reads.pure c))))
    rwa [← List.append_assoc] at hreads
  writes := (writes_wireInt 8).bind fun configurationId h₁ => (writes_wireInt 8).bind fun slot h₂ =>
    writes_wireEntry.bind fun entry h₃ => accepts_require _ fun hne => Accepts.pure
      ⟨⟨⟨h₁, h₂⟩, by simpa using hne, h₃⟩, by rw [List.append_nil, LearnerCommit.encode, List.append_assoc]⟩

theorem LearnerCommit.decodes {createStop : StopSign → Bool} :
    Decodes (LearnerCommit.decode createStop) LearnerCommit.encode (LearnerCommit.Valid createStop) :=
  LearnerCommit.inverts.whole

theorem ConnectionKind.fromInt_tag (kind : ConnectionKind) : fromInt kind.tag = some kind := by
  cases kind <;> rfl

theorem ConnectionKind.tag_of_fromInt {raw : UInt8} {kind : ConnectionKind} (h : fromInt raw = some kind) :
    raw = kind.tag := by
  have hfound := List.find?_some h
  exact (of_decide_eq_true hfound).symm

theorem Hello.inverts_readKind : Inverts readKind (fun kind => [kind.tag]) fun _ => True where
  reads kind _ := by
    refine (Reads.byte _ _).last ?_
    rw [ConnectionKind.fromInt_tag]
    exact Reads.pure kind
  writes := (Cursor.writes_byte _).bind fun kindRaw _ => by
    cases hkind : ConnectionKind.fromInt kindRaw with
    | none => exact Cursor.accepts_fail _ _
    | some kind =>
      rw [ConnectionKind.tag_of_fromInt hkind]
      exact Accepts.pure ⟨trivial, rfl⟩

theorem Hello.inverts : Inverts read encode Valid where
  reads h hvalid := by
    have hversion : h.version < 256 ^ 2 := by
      rw [hvalid.version]
      decide
    exact (Reads.int _ hversion).bind (Reads.require _ (decide_eq_true hvalid.version)
      ((inverts_readKind.reads _ trivial).bind ((Reads.int _ hvalid.fits.1).bind ((Reads.int _ hvalid.fits.2.1).bind
        ((Reads.int _ hvalid.fits.2.2).last (Reads.pure h))))))
  writes := (Cursor.writes_int _ 2).bind fun version _ => accepts_require _ fun hversion =>
    inverts_readKind.writes.bind fun kind _ => (Cursor.writes_int _ 4).bind fun nodeId h₁ =>
    (Cursor.writes_int _ 16).bind fun databaseId h₂ => (Cursor.writes_int _ 8).bind fun configurationId h₃ =>
    Accepts.pure ⟨⟨of_decide_eq_true hversion, h₁, h₂, h₃⟩, by rw [List.append_nil]; rfl⟩

theorem Hello.decodes : Decodes decode encode Valid :=
  inverts.exact fun h _ => by simp [encode]

end BlobBodies

/-! ### All bodies -/

/-- A frame's body by its kind; the two proof frames carry one probe. -/
inductive FrameBody where
  | envelope (configurationId : ℕ) (envelope : Envelope)
  | payloadData (payload : List UInt8)
  | payloadRequest (hash : HashBytes)
  | payloadStored (hash : HashBytes)
  | fenceRequest (r : FenceRequest)
  | fenceAck (a : FenceAck)
  | snapshotRequest (r : SnapshotRequest)
  | snapshotBegin (o : OfferedSnapshot)
  | snapshotChunk (c : SnapshotChunk)
  | backupBegin (b : BackupBegin)
  | learnerCommit (c : LearnerCommit)
  | learnerHeartbeat (b : LearnerHeartbeat)
  | checkpointProofRequest (p : HistoryProbe)
  | checkpointProofReply (p : HistoryProbe)
  | enrollmentRequest (r : EnrollmentRequest)
  | enrollmentResponse (r : EnrollmentResponse)
  | registryRequest (r : RegistryRequest)
  | registryData (d : RegistryData)
  | installationReady (r : InstallationReady)
  | stateReport (r : StateReport)
  | rangeRequest (r : RangeRequest)
  | rangeData (d : RangeData)

/-- An envelope behind the configuration it was sent in. -/
def readFramedEnvelope (createStop : StopSign → Bool) : Cursor WireError (ℕ × Envelope) := do
  let configurationId ← wireInt 8
  let envelope ← readEnvelope createStop
  pure (configurationId, envelope)

/-- A payload behind its hash. -/
def decodePayloadData (body : List UInt8) : Except WireError (List UInt8) :=
  if body.length < 32 then .error .invalidFrame
  else if body.take 32 ≠ (Sha256.hash (body.drop 32)).toList then .error .invalidFrame
  else .ok (body.drop 32)

def decodeHash : List UInt8 → Except WireError HashBytes := exact .invalidFrame 32 wireHash

namespace FrameBody

def kind : FrameBody → FrameKind
  | envelope .. => .envelope
  | payloadData .. => .payloadData
  | payloadRequest .. => .payloadRequest
  | payloadStored .. => .payloadStored
  | fenceRequest .. => .fenceRequest
  | fenceAck .. => .fenceAck
  | snapshotRequest .. => .snapshotRequest
  | snapshotBegin .. => .snapshotBegin
  | snapshotChunk .. => .snapshotChunk
  | backupBegin .. => .backupBegin
  | learnerCommit .. => .learnerCommit
  | learnerHeartbeat .. => .learnerHeartbeat
  | checkpointProofRequest .. => .checkpointProofRequest
  | checkpointProofReply .. => .checkpointProofReply
  | enrollmentRequest .. => .enrollmentRequest
  | enrollmentResponse .. => .enrollmentResponse
  | registryRequest .. => .registryRequest
  | registryData .. => .registryData
  | installationReady .. => .installationReady
  | stateReport .. => .stateReport
  | rangeRequest .. => .rangeRequest
  | rangeData .. => .rangeData

/-- What a sender puts in the frame. -/
def encode : FrameBody → Except WireError (List UInt8)
  | envelope configurationId e => .ok (encodeLe 8 configurationId ++ encodeEnvelope e)
  | payloadData payload => .ok ((Sha256.hash payload).toList ++ payload)
  | payloadRequest hash => .ok hash.toList
  | payloadStored hash => .ok hash.toList
  | fenceRequest r => .ok r.encode
  | fenceAck a => .ok a.encode
  | snapshotRequest r => .ok r.encode
  | snapshotBegin o => .ok o.encode
  | snapshotChunk c => .ok c.encode
  | backupBegin b => .ok b.encode
  | learnerCommit c => .ok c.encode
  | learnerHeartbeat b => .ok b.encode
  | checkpointProofRequest p => .ok p.encode
  | checkpointProofReply p => .ok p.encode
  | enrollmentRequest r => r.encode
  | enrollmentResponse r => r.encode
  | registryRequest r => .ok r.encode
  | registryData d => d.encode
  | installationReady r => .ok r.encode
  | stateReport r => .ok r.encode
  | rangeRequest r => .ok r.encode
  | rangeData d => .ok d.encode

section Decoding

variable (createStop : StopSign → Bool)

def Valid : FrameBody → Prop
  | envelope configurationId e => configurationId < 256 ^ 8 ∧ e.Canonical createStop
  | payloadData _ => True
  | payloadRequest _ => True
  | payloadStored _ => True
  | fenceRequest r => r.Valid
  | fenceAck a => a.Valid
  | snapshotRequest r => r.Valid
  | snapshotBegin o => o.Valid
  | snapshotChunk c => c.Valid
  | backupBegin b => b.Valid
  | learnerCommit c => c.Valid createStop
  | learnerHeartbeat b => b.Valid
  | checkpointProofRequest p => p.Valid
  | checkpointProofReply p => p.Valid
  | enrollmentRequest r => r.Valid
  | enrollmentResponse r => r.Valid
  | registryRequest r => r.Valid
  | registryData d => d.Valid
  | installationReady r => r.Valid
  | stateReport r => r.Valid
  | rangeRequest r => r.Valid
  | rangeData d => d.Valid

/-- The decoder a frame's handler applies to its body. -/
def decode (kind : FrameKind) (body : List UInt8) : Except WireError FrameBody :=
  match kind with
  | .envelope => (whole .invalidFrame (readFramedEnvelope createStop) body).map fun p => .envelope p.1 p.2
  | .payloadData => (decodePayloadData body).map .payloadData
  | .payloadRequest => (decodeHash body).map .payloadRequest
  | .payloadStored => (decodeHash body).map .payloadStored
  | .fenceRequest => (FenceRequest.decode body).map .fenceRequest
  | .fenceAck => (FenceAck.decode body).map .fenceAck
  | .snapshotRequest => (SnapshotRequest.decode body).map .snapshotRequest
  | .snapshotBegin => (OfferedSnapshot.decode body).map .snapshotBegin
  | .snapshotChunk => (SnapshotChunk.decode body).map .snapshotChunk
  | .backupBegin => (BackupBegin.decode body).map .backupBegin
  | .learnerCommit => (LearnerCommit.decode createStop body).map .learnerCommit
  | .learnerHeartbeat => (LearnerHeartbeat.decode body).map .learnerHeartbeat
  | .checkpointProofRequest => (HistoryProbe.decode body).map .checkpointProofRequest
  | .checkpointProofReply => (HistoryProbe.decode body).map .checkpointProofReply
  | .enrollmentRequest => (EnrollmentRequest.decode body).map .enrollmentRequest
  | .enrollmentResponse => (EnrollmentResponse.decode body).map .enrollmentResponse
  | .registryRequest => (RegistryRequest.decode body).map .registryRequest
  | .registryData => (RegistryData.decode body).map .registryData
  | .installationReady => (InstallationReady.decode body).map .installationReady
  | .stateReport => (StateReport.decode body).map .stateReport
  | .rangeRequest => (RangeRequest.decode body).map .rangeRequest
  | .rangeData => (RangeData.decode body).map .rangeData
  | _ => .error .invalidFrame

end Decoding

section RoundTrip

variable {createStop : StopSign → Bool} {body : List UInt8}

theorem inverts_framedEnvelope :
    Inverts (readFramedEnvelope createStop) (fun p => encodeLe 8 p.1 ++ encodeEnvelope p.2)
      fun p => p.1 < 256 ^ 8 ∧ p.2.Canonical createStop where
  reads p h := (reads_wireInt h.1).bind ((reads_envelope h.2).last (Reads.pure p))
  writes := (writes_wireInt 8).bind fun configurationId h₁ => writes_envelope.bind fun e h₂ =>
    Accepts.pure ⟨⟨h₁, h₂⟩, by rw [List.append_nil]⟩

theorem decodes_hash : Decodes decodeHash Vector.toList fun _ => True :=
  (Inverts.mk (fun hash _ => reads_wireHash hash) writes_wireHash).exact fun hash _ => length_toList hash

theorem decodes_payloadData :
    Decodes decodePayloadData (fun payload => (Sha256.hash payload).toList ++ payload) fun _ => True := by
  intro body payload
  rw [decodePayloadData]
  constructor
  · intro hok
    split_ifs at hok with hlength hdigest
    obtain rfl := Except.ok.inj hok
    refine ⟨trivial, ?_⟩
    dsimp only
    rw [← not_not.1 hdigest, List.take_append_drop]
  · rintro ⟨-, rfl⟩
    have hdigest := length_toList (Sha256.hash payload)
    rw [if_neg (by rw [List.length_append]; omega), List.drop_left' hdigest, List.take_left' hdigest,
      if_neg (not_not.2 rfl)]

theorem map_eq_ok_iff {α : Type} {x : Except WireError α} {make : α → FrameBody}
    (hmake : ∀ a a', make a = make a' → a = a') {a : α} : x.map make = .ok (make a) ↔ x = .ok a := by
  cases x with
  | error e => exact iff_of_false nofun nofun
  | ok a' => exact ⟨fun h => congrArg _ (hmake _ _ (Except.ok.inj h)), fun h => by rw [h]; rfl⟩

/-- A decoder that takes encodings only, under a frame's kind. -/
theorem map_decodes {α : Type} {f : List UInt8 → Except WireError α} {enc : α → List UInt8} {Good : α → Prop}
    {make : α → FrameBody} (h : Decodes f enc Good) (hmake : ∀ a a', make a = make a' → a = a') (a : α) :
    (f body).map make = .ok (make a) ↔ Good a ∧ Except.ok (enc a) = (.ok body : Except WireError _) := by
  rw [map_eq_ok_iff hmake, h, Except.ok.injEq, eq_comm]

theorem decode_kind (b : FrameBody) :
    decode createStop b.kind body = .ok b ↔ b.Valid createStop ∧ b.encode = .ok body := by
  cases b with
  | envelope configurationId e =>
    exact map_decodes inverts_framedEnvelope.whole
      (fun p q h => Prod.ext (envelope.inj h).1 (envelope.inj h).2) (configurationId, e)
  | payloadData payload => exact map_decodes decodes_payloadData (fun _ _ => payloadData.inj) payload
  | payloadRequest hash => exact map_decodes decodes_hash (fun _ _ => payloadRequest.inj) hash
  | payloadStored hash => exact map_decodes decodes_hash (fun _ _ => payloadStored.inj) hash
  | fenceRequest r => exact map_decodes FenceRequest.decodes (fun _ _ => fenceRequest.inj) r
  | fenceAck a => exact map_decodes FenceAck.decodes (fun _ _ => fenceAck.inj) a
  | snapshotRequest r => exact map_decodes SnapshotRequest.decodes (fun _ _ => snapshotRequest.inj) r
  | snapshotBegin o => exact map_decodes OfferedSnapshot.decodes (fun _ _ => snapshotBegin.inj) o
  | snapshotChunk c => exact map_decodes SnapshotChunk.decodes (fun _ _ => snapshotChunk.inj) c
  | backupBegin b => exact map_decodes BackupBegin.decodes (fun _ _ => backupBegin.inj) b
  | learnerCommit c => exact map_decodes LearnerCommit.decodes (fun _ _ => learnerCommit.inj) c
  | learnerHeartbeat b => exact map_decodes LearnerHeartbeat.decodes (fun _ _ => learnerHeartbeat.inj) b
  | checkpointProofRequest p => exact map_decodes HistoryProbe.decodes (fun _ _ => checkpointProofRequest.inj) p
  | checkpointProofReply p => exact map_decodes HistoryProbe.decodes (fun _ _ => checkpointProofReply.inj) p
  | enrollmentRequest r =>
    exact (map_eq_ok_iff fun _ _ => enrollmentRequest.inj).trans EnrollmentRequest.decode_eq_ok_iff
  | enrollmentResponse r =>
    exact (map_eq_ok_iff fun _ _ => enrollmentResponse.inj).trans EnrollmentResponse.decode_eq_ok_iff
  | registryRequest r => exact map_decodes RegistryRequest.decodes (fun _ _ => registryRequest.inj) r
  | registryData d => exact (map_eq_ok_iff fun _ _ => registryData.inj).trans RegistryData.decode_eq_ok_iff
  | installationReady r => exact map_decodes InstallationReady.decodes (fun _ _ => installationReady.inj) r
  | stateReport r => exact map_decodes StateReport.decodes (fun _ _ => stateReport.inj) r
  | rangeRequest r => exact map_decodes RangeRequest.decodes (fun _ _ => rangeRequest.inj) r
  | rangeData d => exact map_decodes RangeData.decodes (fun _ _ => rangeData.inj) d

theorem map_eq_ok {α : Type} {x : Except WireError α} {make : α → FrameBody} {b : FrameBody}
    (h : x.map make = .ok b) : ∃ a, make a = b := by
  cases x with
  | error e => cases h
  | ok a => exact ⟨a, Except.ok.inj h⟩

theorem kind_of_decode {kind : FrameKind} {b : FrameBody} (h : decode createStop kind body = .ok b) :
    b.kind = kind := by
  cases kind with
  | hello | snapshotEnd | rpcRequest | rpcResponse | authChallenge | authResponse | backupChunk | backupEnd => cases h
  | _ =>
    obtain ⟨a, rfl⟩ := map_eq_ok h
    rfl

/-- Every frame's decoder takes what a sender encodes of a valid body, gives the body back, and takes nothing else; so
does the decoder of the greeting. -/
theorem decode_frame_iff (createStop : StopSign → Bool) :
    (∀ (kind : FrameKind) (body : List UInt8) (b : FrameBody),
      decode createStop kind body = .ok b ↔ b.Valid createStop ∧ b.kind = kind ∧ b.encode = .ok body) ∧
    ∀ (body : List UInt8) (hello : Hello), Hello.decode body = .ok hello ↔ hello.Valid ∧ body = hello.encode := by
  refine ⟨fun kind body b => ⟨fun h => ?_, ?_⟩, Hello.decodes⟩
  · obtain rfl := kind_of_decode h
    exact ⟨((decode_kind b).1 h).1, rfl, ((decode_kind b).1 h).2⟩
  · rintro ⟨hvalid, rfl, hencode⟩
    exact (decode_kind b).2 ⟨hvalid, hencode⟩

end RoundTrip

end FrameBody

end Zaxonlite
