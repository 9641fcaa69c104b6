import Zaxonlite.Lib.Cursor
import Zaxonlite.Storage.Journal

/-!
# The record codec

Every journal record carries one encoded write. The encoder is total; the decoder refuses what the
encoder never produces: unknown tags, nonzero padding, a trim policy other than zero, trailing bytes and
stop signs the consensus library would not construct. A write is canonical when its fields fit their
widths and its entry is one the decoder admits, and then decoding gives it back.
-/

namespace Zaxonlite

open Bytes (encodeLe)
open Cursor (Reads)

inductive DecodeError where
  | invalidTag
  | invalidPolicy
  | truncatedCommand
  | nonCanonicalPadding
  | invalidEntryTag
  | invalidWriteTag
  | truncatedRecord
  | invalidStopSign
  deriving DecidableEq, Repr

/-! ### Encoding -/

/-- `encodeBallot`. -/
def Ballot.encode (ballot : Ballot) : List UInt8 :=
  encodeLe 8 ballot.round ++ (encodeLe 4 ballot.priority ++ encodeLe 4 ballot.node)

/-- The tag of a write, which is also its record kind. -/
def Write.tag : Write → UInt8
  | .promise _ => 0
  | .accept _ _ _ => 1
  | .commit _ _ => 2
  | .trimAnchor _ => 3

def encodeWrite : Write → List UInt8
  | .promise ballot => [0] ++ ballot.encode
  | .accept ballot slot value => [1] ++ (ballot.encode ++ (encodeLe 8 slot ++ value.encode))
  | .commit slot value => [2] ++ (encodeLe 8 slot ++ value.encode)
  | .trimAnchor anchor =>
    [3] ++ (encodeLe 8 anchor.trimId ++ (encodeLe 8 anchor.chosenTrimSlot ++ anchor.historyHash.toList))

/-! ### Decoding -/

/-- Thirty-two bytes. -/
def readHash (e : DecodeError) : Cursor DecodeError HashBytes := do
  let bytes ← Cursor.take e 32
  if h : bytes.length = 32 then pure ⟨bytes.toArray, h⟩ else Cursor.fail e

def readCommandFields (tag : UInt8) : Cursor DecodeError Command :=
  let e := DecodeError.truncatedCommand
  match tag.toNat with
  | 0 => pure .noop
  | 1 => do
    let databaseId ← Cursor.int e 16
    let batchId ← Cursor.int e 16
    let baseDataSlot ← Cursor.int e 8
    let baseChainHash ← readHash e
    let resultChainHash ← readHash e
    let payloadHash ← readHash e
    let payloadBytes ← Cursor.int e 8
    let transactionCount ← Cursor.int e 4
    let frameCount ← Cursor.int e 4
    pure (.transactionBatch ⟨databaseId, batchId, baseDataSlot, baseChainHash, resultChainHash,
      payloadHash, payloadBytes, transactionCount, frameCount⟩)
  | 2 => do
    let nonce ← Cursor.int e 16
    pure (.readBarrier nonce)
  | 3 => do
    let throughSlot ← Cursor.int e 8
    let historyHash ← readHash e
    let configurationId ← Cursor.int e 8
    let policy ← Cursor.int e 1
    Cursor.require (policy = 0) .invalidPolicy
    pure (.trim ⟨throughSlot, historyHash, configurationId, policy⟩)
  | 4 => do
    let leaseId ← Cursor.int e 8
    let receiverId ← Cursor.int e 4
    let baseSlot ← Cursor.int e 8
    let baseHistoryHash ← readHash e
    let configurationId ← Cursor.int e 8
    let expiresAfterLeaderTicks ← Cursor.int e 4
    pure (.transferLease ⟨leaseId, receiverId, baseSlot, baseHistoryHash, configurationId,
      expiresAfterLeaderTicks⟩)
  | 5 => do
    let leaseId ← Cursor.int e 8
    pure (.leaseComplete leaseId)
  | _ => Cursor.fail .invalidTag

/-- `decode` of a command: the fields and nothing but zeros after them. -/
def decodeCommand (buffer : List UInt8) : Except DecodeError Command :=
  if buffer.length ≠ Command.encodedSize then .error .truncatedCommand
  else
    match (do readCommandFields (← Cursor.byte .truncatedCommand) : Cursor DecodeError Command) buffer with
    | .error e => .error e
    | .ok (cmd, trailing) =>
      if trailing.all fun b => b = 0 then .ok cmd else .error .nonCanonicalPadding

def maxStopMetadataBytes : ℕ := 512

def maxVoters : ℕ := 9

section Decoder

-- The stop signs the consensus library's constructor accepts.
variable (createStop : StopSign → Bool)

def readStop : Cursor DecodeError StopSign := do
  let configurationId ← Cursor.int .truncatedRecord 8
  let memberCount ← Cursor.int .truncatedRecord 2
  Cursor.require (memberCount ≠ 0 && memberCount ≤ maxVoters) .invalidStopSign
  let members ← Cursor.many (Cursor.int .truncatedRecord 4) memberCount
  let metadataCount ← Cursor.int .truncatedRecord 2
  Cursor.require (metadataCount ≤ maxStopMetadataBytes) .invalidStopSign
  let metadata ← Cursor.take .truncatedRecord metadataCount
  Cursor.require (createStop ⟨configurationId, members, metadata⟩) .invalidStopSign
  pure ⟨configurationId, members, metadata⟩

/-- `decodeEntry`. -/
def readEntry : Cursor DecodeError Entry := do
  let tag ← Cursor.byte .truncatedRecord
  match tag.toNat with
  | 0 => do
    let raw ← Cursor.take .truncatedRecord Command.encodedSize
    match decodeCommand raw with
    | .ok cmd => pure (.command cmd)
    | .error e => Cursor.fail e
  | 1 => do
    let stop ← readStop createStop
    pure (.stop stop)
  | _ => Cursor.fail .invalidEntryTag

/-- `decodeBallot`. -/
def readBallot : Cursor DecodeError Ballot := do
  let round ← Cursor.int .truncatedRecord 8
  let priority ← Cursor.int .truncatedRecord 4
  let node ← Cursor.int .truncatedRecord 4
  pure ⟨round, priority, node⟩

def readWriteFields (tag : UInt8) : Cursor DecodeError Write :=
  match tag.toNat with
  | 0 => do
    let ballot ← readBallot
    pure (.promise ballot)
  | 1 => do
    let ballot ← readBallot
    let slot ← Cursor.int .truncatedRecord 8
    let value ← readEntry createStop
    pure (.accept ballot slot value)
  | 2 => do
    let slot ← Cursor.int .truncatedRecord 8
    let value ← readEntry createStop
    pure (.commit slot value)
  | 3 => do
    let trimId ← Cursor.int .truncatedRecord 8
    let chosenTrimSlot ← Cursor.int .truncatedRecord 8
    let historyHash ← readHash .truncatedRecord
    pure (.trimAnchor ⟨trimId, chosenTrimSlot, historyHash⟩)
  | _ => Cursor.fail .invalidWriteTag

/-- `decodeWrite`: one write and nothing after it. -/
def decodeWrite (buffer : List UInt8) : Except DecodeError Write :=
  match (do readWriteFields createStop (← Cursor.byte .truncatedRecord) : Cursor DecodeError Write) buffer with
  | .error e => .error e
  | .ok (write, rest) => if rest = [] then .ok write else .error .truncatedRecord

end Decoder

/-! ### Canonical writes -/

def Ballot.Fits (ballot : Ballot) : Prop :=
  ballot.round < 256 ^ 8 ∧ ballot.priority < 256 ^ 4 ∧ ballot.node < 256 ^ 4

/-- The fields fit their widths, and a trim names the one policy there is. -/
def Command.Canonical : Command → Prop
  | .noop => True
  | .transactionBatch batch =>
    batch.databaseId < 256 ^ 16 ∧ batch.batchId < 256 ^ 16 ∧ batch.baseDataSlot < 256 ^ 8 ∧
      batch.payloadBytes < 256 ^ 8 ∧ batch.transactionCount < 256 ^ 4 ∧ batch.frameCount < 256 ^ 4
  | .readBarrier nonce => nonce < 256 ^ 16
  | .trim record => record.throughSlot < 256 ^ 8 ∧ record.configurationId < 256 ^ 8 ∧ record.policy = 0
  | .transferLease lease =>
    lease.leaseId < 256 ^ 8 ∧ lease.receiverId < 256 ^ 4 ∧ lease.baseSlot < 256 ^ 8 ∧
      lease.configurationId < 256 ^ 8 ∧ lease.expiresAfterLeaderTicks < 256 ^ 4
  | .leaseComplete leaseId => leaseId < 256 ^ 8

/-- A stop sign the library constructed. -/
def StopSign.Canonical (createStop : StopSign → Bool) (stop : StopSign) : Prop :=
  stop.configurationId < 256 ^ 8 ∧ stop.members.length ≠ 0 ∧ stop.members.length ≤ maxVoters ∧
    (∀ member ∈ stop.members, member < 256 ^ 4) ∧ stop.metadata.length ≤ maxStopMetadataBytes ∧
    createStop stop = true

def Entry.Canonical (createStop : StopSign → Bool) : Entry → Prop
  | .command cmd => cmd.Canonical
  | .stop sign => sign.Canonical createStop

def Write.Canonical (createStop : StopSign → Bool) : Write → Prop
  | .promise ballot => ballot.Fits
  | .accept ballot slot value => ballot.Fits ∧ slot < 256 ^ 8 ∧ value.Canonical createStop
  | .commit slot value => slot < 256 ^ 8 ∧ value.Canonical createStop
  | .trimAnchor anchor => anchor.trimId < 256 ^ 8 ∧ anchor.chosenTrimSlot < 256 ^ 8

section RoundTrip

variable {createStop : StopSign → Bool}

theorem reads_hash (e : DecodeError) (hash : HashBytes) : Reads (readHash e) hash.toList hash := by
  have hlen : hash.toList.length = 32 := hash.toArray.length_toList.trans hash.size_toArray
  have htake := Reads.take e hash.toList
  rw [hlen] at htake
  refine htake.last ?_
  rw [dif_pos hlen]
  exact Reads.pure hash

theorem reads_ballot {ballot : Ballot} (h : ballot.Fits) : Reads readBallot ballot.encode ballot :=
  (Reads.int _ h.1).bind ((Reads.int _ h.2.1).bind ((Reads.int _ h.2.2).last (Reads.pure ballot)))

theorem reads_commandFields {cmd : Command} (h : cmd.Canonical) :
    Reads (do readCommandFields (← Cursor.byte .truncatedCommand) : Cursor DecodeError Command)
      cmd.encodeFields cmd := by
  cases cmd with
  | noop => exact (Reads.byte _ 0).last (Reads.pure _)
  | transactionBatch batch =>
    obtain ⟨h₁, h₂, h₃, h₄, h₅, h₆⟩ := h
    simp only [Command.encodeFields, List.append_assoc]
    exact (Reads.byte _ 1).bind ((Reads.int _ h₁).bind ((Reads.int _ h₂).bind ((Reads.int _ h₃).bind
      ((reads_hash _ _).bind ((reads_hash _ _).bind ((reads_hash _ _).bind ((Reads.int _ h₄).bind
        ((Reads.int _ h₅).bind ((Reads.int _ h₆).last (Reads.pure _))))))))))
  | readBarrier nonce =>
    exact (Reads.byte _ 2).bind ((Reads.int _ h).last (Reads.pure _))
  | trim record =>
    obtain ⟨h₁, h₂, hpolicy⟩ := h
    simp only [Command.encodeFields, List.append_assoc]
    have hfits : record.policy < 256 ^ 1 := by
      rw [hpolicy]
      decide
    exact (Reads.byte _ 3).bind ((Reads.int _ h₁).bind ((reads_hash _ _).bind ((Reads.int _ h₂).bind
      ((Reads.int _ hfits).last (Reads.require _ (decide_eq_true hpolicy) (Reads.pure _))))))
  | transferLease lease =>
    obtain ⟨h₁, h₂, h₃, h₄, h₅⟩ := h
    simp only [Command.encodeFields, List.append_assoc]
    exact (Reads.byte _ 4).bind ((Reads.int _ h₁).bind ((Reads.int _ h₂).bind ((Reads.int _ h₃).bind
      ((reads_hash _ _).bind ((Reads.int _ h₄).bind ((Reads.int _ h₅).last (Reads.pure _)))))))
  | leaseComplete leaseId =>
    exact (Reads.byte _ 5).bind ((Reads.int _ h).last (Reads.pure _))

theorem length_encodeFields_le (cmd : Command) : cmd.encodeFields.length ≤ Command.encodedSize := by
  cases cmd <;> simp [Command.encodeFields, Command.encodedSize]

theorem length_encode (cmd : Command) : cmd.encode.length = Command.encodedSize := by
  have hle := length_encodeFields_le cmd
  rw [Command.encode, List.length_append, List.length_replicate]
  omega

theorem decodeCommand_encode {cmd : Command} (h : cmd.Canonical) :
    decodeCommand cmd.encode = .ok cmd := by
  rw [decodeCommand, if_neg (not_not.2 (length_encode cmd)), Command.encode, reads_commandFields h]
  dsimp only
  rw [if_pos]
  rw [List.all_eq_true]
  intro b hb
  exact decide_eq_true (List.eq_of_mem_replicate hb)

theorem reads_stop {stop : StopSign} (h : stop.Canonical createStop) :
    Reads (readStop createStop)
      (encodeLe 8 stop.configurationId ++ (encodeLe 2 stop.members.length ++
        (stop.members.flatMap (encodeLe 4) ++ (encodeLe 2 stop.metadata.length ++ stop.metadata)))) stop := by
  obtain ⟨hid, hne, hle, hmembers, hmetadata, hcreate⟩ := h
  have hcount : stop.members.length < 256 ^ 2 := by
    rw [maxVoters] at hle
    omega
  have hbytes : stop.metadata.length < 256 ^ 2 := by
    rw [maxStopMetadataBytes] at hmetadata
    omega
  have hmany : Reads (Cursor.many (Cursor.int DecodeError.truncatedRecord 4) stop.members.length)
      (stop.members.flatMap (encodeLe 4)) stop.members :=
    Reads.many fun member hmember => Reads.int _ (hmembers member hmember)
  have hrange : (decide (stop.members.length ≠ 0) && decide (stop.members.length ≤ maxVoters)) = true := by
    rw [Bool.and_eq_true, decide_eq_true_eq, decide_eq_true_eq]
    exact ⟨hne, hle⟩
  refine (Reads.int _ hid).bind ((Reads.int _ hcount).bind ?_)
  refine Reads.require _ hrange (hmany.bind ((Reads.int _ hbytes).bind ?_))
  refine Reads.require _ (decide_eq_true hmetadata) ((Reads.take _ _).last ?_)
  exact Reads.require _ hcreate (Reads.pure stop)

theorem reads_entry {value : Entry} (h : value.Canonical createStop) :
    Reads (readEntry createStop) value.encode value := by
  cases value with
  | command cmd =>
    have htake := Reads.take DecodeError.truncatedRecord cmd.encode
    rw [length_encode] at htake
    refine (Reads.byte _ 0).bind (htake.last ?_)
    rw [decodeCommand_encode h]
    exact Reads.pure _
  | stop stop =>
    rw [Entry.encode]
    simp only [List.append_assoc]
    exact (Reads.byte _ 1).bind ((reads_stop h).last (Reads.pure _))

theorem reads_write {write : Write} (h : write.Canonical createStop) :
    Reads (do readWriteFields createStop (← Cursor.byte .truncatedRecord) : Cursor DecodeError Write)
      (encodeWrite write) write := by
  cases write with
  | promise ballot => exact (Reads.byte _ 0).bind ((reads_ballot h).last (Reads.pure _))
  | accept ballot slot value =>
    exact (Reads.byte _ 1).bind ((reads_ballot h.1).bind ((Reads.int _ h.2.1).bind
      ((reads_entry h.2.2).last (Reads.pure _))))
  | commit slot value =>
    exact (Reads.byte _ 2).bind ((Reads.int _ h.1).bind ((reads_entry h.2).last (Reads.pure _)))
  | trimAnchor anchor =>
    exact (Reads.byte _ 3).bind ((Reads.int _ h.1).bind ((Reads.int _ h.2).bind
      ((reads_hash _ _).last (Reads.pure _))))

/-- **Canonical writes are decoded to what was encoded.** -/
theorem decodeWrite_encodeWrite {write : Write} (h : write.Canonical createStop) :
    decodeWrite createStop (encodeWrite write) = .ok write := by
  have hread := reads_write h []
  rw [List.append_nil] at hread
  rw [decodeWrite, hread]
  exact if_pos rfl

end RoundTrip

/-! ### Nothing else is accepted -/

section Canonicity

open Cursor (Accepts Writes accepts_fail accepts_require writes_byte writes_int writes_take)

variable {createStop : StopSign → Bool}

theorem writes_hash (e : DecodeError) : Writes (readHash e) Vector.toList fun _ => True := by
  refine (writes_take e 32).bind fun bytes hlen => ?_
  rw [dif_pos hlen]
  refine Accepts.pure ⟨trivial, ?_⟩
  rw [List.append_nil]
  rfl

theorem writes_ballot : Writes readBallot Ballot.encode Ballot.Fits := by
  refine (writes_int _ 8).bind fun round hround => (writes_int _ 4).bind fun priority hpriority =>
    (writes_int _ 4).bind fun node hnode => Accepts.pure ⟨⟨hround, hpriority, hnode⟩, ?_⟩
  rw [List.append_nil]
  rfl

theorem accepts_commandFields (tag : UInt8) :
    Accepts (readCommandFields tag) fun cmd used => cmd.Canonical ∧ tag :: used = cmd.encodeFields := by
  have htag : ∀ n, tag.toNat = n → tag = UInt8.ofNat n := fun n hn => by rw [← hn, UInt8.ofNat_toNat]
  unfold readCommandFields
  split
  · rename_i hn
    rw [htag 0 hn]
    exact Accepts.pure ⟨trivial, rfl⟩
  · rename_i hn
    rw [htag 1 hn]
    refine (writes_int _ 16).bind fun databaseId h₁ => (writes_int _ 16).bind fun batchId h₂ =>
      (writes_int _ 8).bind fun baseDataSlot h₃ => (writes_hash _).bind fun baseChainHash _ =>
      (writes_hash _).bind fun resultChainHash _ => (writes_hash _).bind fun payloadHash _ =>
      (writes_int _ 8).bind fun payloadBytes h₄ => (writes_int _ 4).bind fun transactionCount h₅ =>
      (writes_int _ 4).bind fun frameCount h₆ => Accepts.pure ⟨⟨h₁, h₂, h₃, h₄, h₅, h₆⟩, ?_⟩
    simp only [Command.encodeFields, List.append_assoc, List.append_nil]
    rfl
  · rename_i hn
    rw [htag 2 hn]
    refine (writes_int _ 16).bind fun nonce h₁ => Accepts.pure ⟨h₁, ?_⟩
    rw [List.append_nil]
    rfl
  · rename_i hn
    rw [htag 3 hn]
    refine (writes_int _ 8).bind fun throughSlot h₁ => (writes_hash _).bind fun historyHash _ =>
      (writes_int _ 8).bind fun configurationId h₂ => (writes_int _ 1).bind fun policy _ =>
      accepts_require _ fun hpolicy => Accepts.pure ⟨⟨h₁, h₂, of_decide_eq_true hpolicy⟩, ?_⟩
    simp only [Command.encodeFields, List.append_assoc, List.append_nil]
    rfl
  · rename_i hn
    rw [htag 4 hn]
    refine (writes_int _ 8).bind fun leaseId h₁ => (writes_int _ 4).bind fun receiverId h₂ =>
      (writes_int _ 8).bind fun baseSlot h₃ => (writes_hash _).bind fun baseHistoryHash _ =>
      (writes_int _ 8).bind fun configurationId h₄ => (writes_int _ 4).bind fun expires h₅ =>
      Accepts.pure ⟨⟨h₁, h₂, h₃, h₄, h₅⟩, ?_⟩
    simp only [Command.encodeFields, List.append_assoc, List.append_nil]
    rfl
  · rename_i hn
    rw [htag 5 hn]
    refine (writes_int _ 8).bind fun leaseId h₁ => Accepts.pure ⟨h₁, ?_⟩
    rw [List.append_nil]
    rfl
  · exact accepts_fail _ _

theorem writes_commandFields :
    Writes (do readCommandFields (← Cursor.byte .truncatedCommand) : Cursor DecodeError Command)
      Command.encodeFields Command.Canonical :=
  (writes_byte _).bind fun tag _ => accepts_commandFields tag

theorem eq_replicate_of_all_zero {bytes : List UInt8} (h : bytes.all (fun b => b = 0) = true) :
    bytes = List.replicate bytes.length 0 := by
  rw [List.eq_replicate_iff]
  refine ⟨rfl, fun b hb => ?_⟩
  exact of_decide_eq_true (List.all_eq_true.1 h b hb)

theorem encode_of_decodeCommand {buffer : List UInt8} {cmd : Command}
    (h : decodeCommand buffer = .ok cmd) : cmd.Canonical ∧ buffer = cmd.encode := by
  unfold decodeCommand at h
  split at h
  · cases h
  · rename_i hlen
    rw [not_not] at hlen
    split at h
    · cases h
    · rename_i c trailing hread
      split at h
      · rename_i hzero
        cases h
        obtain ⟨used, rfl, hcanonical, rfl⟩ := writes_commandFields buffer cmd trailing hread
        refine ⟨hcanonical, ?_⟩
        have htrailing : trailing.length = Command.encodedSize - cmd.encodeFields.length := by
          rw [List.length_append] at hlen
          omega
        rw [eq_replicate_of_all_zero hzero, htrailing]
        rfl
      · cases h

theorem writes_stop : Writes (readStop createStop)
    (fun stop => encodeLe 8 stop.configurationId ++ (encodeLe 2 stop.members.length ++
      (stop.members.flatMap (encodeLe 4) ++ (encodeLe 2 stop.metadata.length ++ stop.metadata))))
    (StopSign.Canonical createStop) := by
  refine (writes_int _ 8).bind fun configurationId hid => (writes_int _ 2).bind fun count _ =>
    accepts_require _ fun hcount => ((writes_int _ 4).many count).bind fun members hmembers =>
    (writes_int _ 2).bind fun size _ => accepts_require _ fun hsize =>
    (writes_take _ size).bind fun metadata hmetadata =>
    accepts_require _ fun hcreate => Accepts.pure ⟨?_, ?_⟩
  · rw [Bool.and_eq_true, decide_eq_true_eq, decide_eq_true_eq, ← hmembers.1] at hcount
    have hle : metadata.length ≤ maxStopMetadataBytes := by
      rw [hmetadata]
      exact of_decide_eq_true hsize
    exact ⟨hid, hcount.1, hcount.2, hmembers.2, hle, hcreate⟩
  · rw [← hmembers.1, ← hmetadata, List.append_nil]
    rfl

theorem writes_entry : Writes (readEntry createStop) Entry.encode (Entry.Canonical createStop) := by
  refine (writes_byte _).bind fun tag _ => ?_
  have htag : ∀ n, tag.toNat = n → tag = UInt8.ofNat n := fun n hn => by rw [← hn, UInt8.ofNat_toNat]
  split
  · rename_i hn
    rw [htag 0 hn]
    refine (writes_take _ _).bind fun raw _ => ?_
    split
    · rename_i cmd hcmd
      obtain ⟨hcanonical, hraw⟩ := encode_of_decodeCommand hcmd
      refine Accepts.pure ⟨hcanonical, ?_⟩
      rw [List.append_nil, hraw]
      rfl
    · exact accepts_fail _ _
  · rename_i hn
    rw [htag 1 hn]
    refine writes_stop.bind fun stop hstop => Accepts.pure ⟨hstop, ?_⟩
    simp only [Entry.encode, List.append_assoc, List.append_nil]
    rfl
  · exact accepts_fail _ _

theorem writes_write :
    Writes (do readWriteFields createStop (← Cursor.byte .truncatedRecord) : Cursor DecodeError Write)
      encodeWrite (Write.Canonical createStop) := by
  refine (writes_byte _).bind fun tag _ => ?_
  have htag : ∀ n, tag.toNat = n → tag = UInt8.ofNat n := fun n hn => by rw [← hn, UInt8.ofNat_toNat]
  unfold readWriteFields
  split
  · rename_i hn
    rw [htag 0 hn]
    refine writes_ballot.bind fun ballot hballot => Accepts.pure ⟨hballot, ?_⟩
    rw [List.append_nil]
    rfl
  · rename_i hn
    rw [htag 1 hn]
    refine writes_ballot.bind fun ballot hballot => (writes_int _ 8).bind fun slot hslot =>
      writes_entry.bind fun value hvalue => Accepts.pure ⟨⟨hballot, hslot, hvalue⟩, ?_⟩
    rw [List.append_nil]
    rfl
  · rename_i hn
    rw [htag 2 hn]
    refine (writes_int _ 8).bind fun slot hslot => writes_entry.bind fun value hvalue =>
      Accepts.pure ⟨⟨hslot, hvalue⟩, ?_⟩
    rw [List.append_nil]
    rfl
  · rename_i hn
    rw [htag 3 hn]
    refine (writes_int _ 8).bind fun trimId hid => (writes_int _ 8).bind fun chosenTrimSlot hslot =>
      (writes_hash _).bind fun historyHash _ => Accepts.pure ⟨⟨hid, hslot⟩, ?_⟩
    rw [List.append_nil]
    rfl
  · exact accepts_fail _ _

theorem encodeWrite_of_decodeWrite {buffer : List UInt8} {write : Write}
    (h : decodeWrite createStop buffer = .ok write) :
    write.Canonical createStop ∧ buffer = encodeWrite write := by
  unfold decodeWrite at h
  split at h
  · cases h
  · rename_i w rest hread
    split at h
    · rename_i hrest
      cases h
      subst hrest
      exact writes_write.whole hread
    · cases h

end Canonicity

/-! ### Sizes -/

def maxWriteSize : ℕ := 1 + (8 + 4 + 4) + 8 + Entry.maxEntrySize

theorem length_encodeBallot (ballot : Ballot) : ballot.encode.length = 16 := by
  simp [Ballot.encode]

theorem length_encodeEntry_le {createStop : StopSign → Bool} {value : Entry}
    (h : value.Canonical createStop) : value.encode.length ≤ Entry.maxEntrySize := by
  cases value with
  | command cmd =>
    rw [Entry.encode, List.length_cons, length_encode]
    decide
  | stop stop =>
    obtain ⟨-, -, hvoters, -, hmetadata, -⟩ := h
    have hmembers : (stop.members.flatMap (encodeLe 4)).length = stop.members.length * 4 :=
      Bytes.length_records (Bytes.length_encodeLe 4) _
    simp only [Entry.encode, List.length_cons, List.length_append, Bytes.length_encodeLe, hmembers]
    rw [maxVoters] at hvoters
    rw [maxStopMetadataBytes] at hmetadata
    simp only [Entry.maxEntrySize, Command.encodedSize]
    omega

theorem length_encodeWrite_le {createStop : StopSign → Bool} {write : Write}
    (h : write.Canonical createStop) : (encodeWrite write).length ≤ maxWriteSize := by
  cases write with
  | promise ballot =>
    simp only [encodeWrite, List.length_append, length_encodeBallot, List.length_singleton]
    decide
  | accept ballot slot value =>
    have hvalue := length_encodeEntry_le h.2.2
    simp only [encodeWrite, List.length_append, length_encodeBallot, List.length_singleton,
      Bytes.length_encodeLe, maxWriteSize]
    omega
  | commit slot value =>
    have hvalue := length_encodeEntry_le h.2
    simp only [encodeWrite, List.length_append, List.length_singleton, Bytes.length_encodeLe,
      maxWriteSize]
    omega
  | trimAnchor anchor =>
    simp only [encodeWrite, List.length_append, List.length_singleton, Bytes.length_encodeLe,
      Vector.length_toList]
    decide

/-- **The write codec is exact and canonical.** A write whose fields fit and whose entry is admissible
fits the record buffer and is decoded to itself; a byte string that decodes is the encoding of such a
write, so no two byte strings decode to the same one. -/
theorem writeCodec_exact (createStop : StopSign → Bool) :
    (∀ write : Write, write.Canonical createStop → (encodeWrite write).length ≤ maxWriteSize ∧
      decodeWrite createStop (encodeWrite write) = .ok write) ∧
    (∀ bytes write, decodeWrite createStop bytes = .ok write →
      write.Canonical createStop ∧ encodeWrite write = bytes) ∧
    ∀ bytes bytes' write, decodeWrite createStop bytes = .ok write →
      decodeWrite createStop bytes' = .ok write → bytes = bytes' := by
  refine ⟨fun write h => ⟨length_encodeWrite_le h, decodeWrite_encodeWrite h⟩, fun bytes write h => ?_,
    fun bytes bytes' write h h' => ?_⟩
  · obtain ⟨hcanonical, hbytes⟩ := encodeWrite_of_decodeWrite h
    exact ⟨hcanonical, hbytes.symm⟩
  · rw [(encodeWrite_of_decodeWrite h).2, (encodeWrite_of_decodeWrite h').2]

end Zaxonlite
