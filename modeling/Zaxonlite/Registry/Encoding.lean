import Zaxonlite.Registry.Lineage
import Zaxonlite.Storage.Codec
import Mathlib.Data.Set.Function

/-!
# The registry's canonical bytes

A registry blob holds the fence, the node table and the retained operations in logical order. `decode`
refuses everything `encode` would not write, so a registry and its bytes determine each other, up to the
rotation of the ring, which no byte shows. Survivors of a handover compare digests of these bytes only.
-/

namespace Zaxonlite

open Bytes (encodeLe)
open Cursor (Reads Accepts Writes accepts_fail accepts_require writes_byte writes_int writes_take)

namespace Decided

/-! ### Decoding -/

/-- `std.enums.fromInt` for a role. -/
def roleOfByte (b : UInt8) : Option Role :=
  match b.toNat with
  | 0 => some .dataVoter
  | 1 => some .witness
  | 2 => some .standby
  | 3 => some .readReplica
  | 4 => some .gateway
  | _ => none

def readNode : Cursor RegistryError NodeRecord := do
  let id ← Cursor.int .corruptRegistry 4
  let roleByte ← Cursor.byte .corruptRegistry
  match roleOfByte roleByte with
  | none => Cursor.fail .corruptRegistry
  | some role => do
    let endpointLen ← Cursor.byte .corruptRegistry
    Cursor.require (endpointLen.toNat ≤ maxEndpointBytes) .corruptRegistry
    let endpoint ← Cursor.take .corruptRegistry endpointLen.toNat
    match NodeRecord.init id role endpoint with
    | .error _ => Cursor.fail .corruptRegistry
    | .ok record => pure record

def readOperation : Cursor RegistryError OperationRecord := do
  let operationId ← Cursor.int .corruptRegistry 8
  let expectedConfigurationId ← Cursor.int .corruptRegistry 8
  let oldNodeId ← Cursor.int .corruptRegistry 4
  let newNodeId ← Cursor.int .corruptRegistry 4
  let requestDigest ← (readHash .truncatedRecord).mapError fun _ => .corruptRegistry
  let resultConfigurationId ← Cursor.int .corruptRegistry 8
  pure ⟨operationId, expectedConfigurationId, oldNodeId, newNodeId, requestDigest, resultConfigurationId⟩

/-- A cell no operation has been written to. -/
def blankOperation : OperationRecord := ⟨0, 0, 0, 0, Vector.replicate 32 0, 0⟩

def readDecided : Cursor RegistryError Decided := do
  let seenMagic ← Cursor.take .corruptRegistry 4
  Cursor.require (seenMagic = asciiBytes "ZXRG") .corruptRegistry
  let version ← Cursor.int .corruptRegistry 2
  Cursor.require (version = 1) .corruptRegistry
  let databaseId ← Cursor.int .corruptRegistry 16
  let configurationId ← Cursor.int .corruptRegistry 8
  let predecessorConfigurationId ← Cursor.int .corruptRegistry 8
  let highestAllocatedNodeId ← Cursor.int .corruptRegistry 4
  let nodeCount ← Cursor.int .corruptRegistry 2
  Cursor.require (nodeCount ≠ 0 && nodeCount ≤ maxNodes) .corruptRegistry
  let nodes ← Cursor.many readNode nodeCount
  let ringCount ← Cursor.int .corruptRegistry 2
  Cursor.require (ringCount ≤ ringSize) .corruptRegistry
  let operations ← Cursor.many readOperation ringCount
  pure
    { databaseId := databaseId
      configurationId := configurationId
      predecessorConfigurationId := predecessorConfigurationId
      highestAllocatedNodeId := highestAllocatedNodeId
      nodes := nodes
      ring := RingBuffer.ofList blankOperation ringSize_pos operations }

/-- `decode`: one valid registry and nothing after it. -/
def decode (bytes : List UInt8) : Except RegistryError Decided :=
  match readDecided bytes with
  | .error e => .error e
  | .ok (decided, rest) =>
    if rest = [] then do
      validate decided
      pure decided
    else .error .corruptRegistry

/-! ### Registries up to rotation -/

/-- The same registry, wherever the ring starts. -/
structure Same (d e : Decided) : Prop where
  databaseId : d.databaseId = e.databaseId
  configurationId : d.configurationId = e.configurationId
  predecessorConfigurationId : d.predecessorConfigurationId = e.predecessorConfigurationId
  highestAllocatedNodeId : d.highestAllocatedNodeId = e.highestAllocatedNodeId
  nodes : d.nodes = e.nodes
  operations : d.operations = e.operations

theorem count_eq (d : Decided) : d.ring.count = d.operations.length :=
  d.ring.length_toList.symm

theorem Same.encode_eq {d e : Decided} (h : Same d e) : d.encode = e.encode := by
  simp only [encode, count_eq, h.databaseId, h.configurationId, h.predecessorConfigurationId,
    h.highestAllocatedNodeId, h.nodes, h.operations]

theorem Same.valid {d e : Decided} (h : Same d e) (hd : Valid d) : Valid e where
  database := h.databaseId ▸ hd.database
  configuration := h.configurationId ▸ hd.configuration
  predecessor := h.configurationId ▸ h.predecessorConfigurationId ▸ hd.predecessor
  count := h.nodes ▸ hd.count
  nodes := h.nodes ▸ h.highestAllocatedNodeId ▸ hd.nodes
  voters := by
    rw [voterCount, ← h.nodes]
    exact hd.voters
  campaigners := h.nodes ▸ hd.campaigners
  operations := h.operations ▸ h.configurationId ▸ hd.operations

/-! ### Round trip -/

def OperationFits (record : OperationRecord) : Prop :=
  record.operationId < 256 ^ 8 ∧ record.expectedConfigurationId < 256 ^ 8 ∧ record.oldNodeId < 256 ^ 4 ∧
    record.newNodeId < 256 ^ 4 ∧ record.resultConfigurationId < 256 ^ 8

/-- The fields fit their widths. -/
structure Fits (d : Decided) : Prop where
  databaseId : d.databaseId < 256 ^ 16
  configurationId : d.configurationId < 256 ^ 8
  predecessorConfigurationId : d.predecessorConfigurationId < 256 ^ 8
  highestAllocatedNodeId : d.highestAllocatedNodeId < 256 ^ 4
  operations : ∀ record ∈ d.operations, OperationFits record

/-- What the table needs of a record for its bytes to be read back. -/
def NodeFits (record : NodeRecord) : Prop :=
  record.id ≠ 0 ∧ record.id < 256 ^ 4 ∧ validEndpoint record.endpoint = true

theorem roleOfByte_roleByte (role : Role) : roleOfByte (roleByte role) = some role := by
  cases role <;> rfl

theorem roleByte_of_roleOfByte {b : UInt8} {role : Role} (h : roleOfByte b = some role) :
    roleByte role = b := by
  have hb : ∀ n, b.toNat = n → UInt8.ofNat n = b := fun n hn => by rw [← hn, UInt8.ofNat_toNat]
  unfold roleOfByte at h
  split at h
  case h_6 => cases h
  all_goals
    rename_i hn
    cases h
    exact hb _ hn

theorem length_of_validEndpoint {endpoint : List UInt8} (h : validEndpoint endpoint = true) :
    endpoint.length ≤ maxEndpointBytes := by
  simp only [validEndpoint, Bool.and_eq_true, decide_eq_true_eq] at h
  exact h.1.1.2

theorem init_eq_ok {id : ℕ} {role : Role} {endpoint : List UInt8} {record : NodeRecord} :
    NodeRecord.init id role endpoint = .ok record ↔
      id ≠ 0 ∧ validEndpoint endpoint = true ∧ record = ⟨id, role, endpoint⟩ := by
  rw [NodeRecord.init, check_bind_eq_ok, validateEndpoint, check_bind_eq_ok, decide_eq_true_eq]
  constructor
  · rintro ⟨hid, hvalid, hrecord⟩
    exact ⟨hid, hvalid, (Except.ok.inj hrecord).symm⟩
  · rintro ⟨hid, hvalid, rfl⟩
    exact ⟨hid, hvalid, rfl⟩

theorem reads_node {record : NodeRecord} (h : NodeFits record) :
    Reads readNode (encodeNode record) record := by
  obtain ⟨hid, hfits, hvalid⟩ := h
  have hle := length_of_validEndpoint hvalid
  have hlen : (UInt8.ofNat record.endpoint.length).toNat = record.endpoint.length := by
    rw [UInt8.toNat_ofNat', Nat.mod_eq_of_lt]
    rw [maxEndpointBytes] at hle
    omega
  have hinit : NodeRecord.init record.id record.role record.endpoint = .ok record :=
    init_eq_ok.2 ⟨hid, hvalid, rfl⟩
  have htake := Reads.take RegistryError.corruptRegistry record.endpoint
  rw [← hlen] at htake
  rw [encodeNode, List.append_assoc]
  refine (Reads.int _ hfits).bind ((Reads.byte _ _).bind ?_)
  rw [roleOfByte_roleByte]
  refine (Reads.byte _ _).bind (Reads.require _ (decide_eq_true (hlen.symm ▸ hle)) (htake.last ?_))
  rw [hinit]
  exact Reads.pure record

theorem reads_operation {record : OperationRecord} (h : OperationFits record) :
    Reads readOperation (encodeOperation record) record := by
  obtain ⟨h₁, h₂, h₃, h₄, h₅⟩ := h
  simp only [encodeOperation, List.append_assoc]
  exact (Reads.int _ h₁).bind ((Reads.int _ h₂).bind ((Reads.int _ h₃).bind ((Reads.int _ h₄).bind
    (((reads_hash _ _).mapError _).bind ((Reads.int _ h₅).last (Reads.pure _))))))

/-- The registry as a decoder rebuilds it: the ring starts at its first cell. -/
def unrotated (d : Decided) : Decided :=
  { d with ring := RingBuffer.ofList blankOperation ringSize_pos d.operations }

theorem length_operations_le (d : Decided) : d.operations.length ≤ ringSize := by
  rw [← count_eq]
  exact d.ring.count_le

theorem Same.symm {d e : Decided} (h : Same d e) : Same e d :=
  ⟨h.databaseId.symm, h.configurationId.symm, h.predecessorConfigurationId.symm,
    h.highestAllocatedNodeId.symm, h.nodes.symm, h.operations.symm⟩

theorem same_unrotated (d : Decided) : Same d.unrotated d :=
  ⟨rfl, rfl, rfl, rfl, rfl, RingBuffer.toList_ofList _ _ d.length_operations_le⟩

theorem Valid.nodeFits {d : Decided} (h : Valid d) (hfits : Fits d) :
    ∀ record ∈ d.nodes, NodeFits record := by
  intro record hrecord
  have hle := h.nodes.fenced record hrecord
  have hlt := hfits.highestAllocatedNodeId
  exact ⟨Nat.pos_iff_ne_zero.1 (h.nodes.id_pos record hrecord), by omega, h.nodes.endpoints record hrecord⟩

theorem reads_decided {d : Decided} (h : Valid d) (hfits : Fits d) :
    Reads readDecided d.encode d.unrotated := by
  have hnodes : d.nodes.length < 256 ^ 2 := by
    have := h.count.2
    rw [maxNodes, maxMembers] at this
    omega
  have hcount : d.operations.length < 256 ^ 2 := by
    have := d.length_operations_le
    rw [ringSize] at this
    omega
  have htable : Reads (Cursor.many readNode d.nodes.length) (d.nodes.flatMap encodeNode) d.nodes :=
    Reads.many fun record hrecord => reads_node (h.nodeFits hfits record hrecord)
  have hring : Reads (Cursor.many readOperation d.operations.length)
      (d.operations.flatMap encodeOperation) d.operations :=
    Reads.many fun record hrecord => reads_operation (hfits.operations record hrecord)
  have hrange : (decide (d.nodes.length ≠ 0) && decide (d.nodes.length ≤ maxNodes)) = true := by
    rw [Bool.and_eq_true, decide_eq_true_eq, decide_eq_true_eq]
    exact h.count
  have hmagic : Reads (Cursor.take RegistryError.corruptRegistry 4) (asciiBytes "ZXRG") (asciiBytes "ZXRG") :=
    Reads.take _ (asciiBytes "ZXRG")
  simp only [encode, count_eq, List.append_assoc]
  refine hmagic.bind (Reads.require _ (decide_eq_true rfl) ((Reads.int _ (by decide)).bind
    (Reads.require _ (decide_eq_true rfl) ?_)))
  refine (Reads.int _ hfits.databaseId).bind ((Reads.int _ hfits.configurationId).bind
    ((Reads.int _ hfits.predecessorConfigurationId).bind ((Reads.int _ hfits.highestAllocatedNodeId).bind
      ((Reads.int _ hnodes).bind (Reads.require _ hrange (htable.bind ((Reads.int _ hcount).bind ?_)))))))
  exact Reads.require _ (decide_eq_true d.length_operations_le) (hring.last (Reads.pure _))

theorem decode_encode {d : Decided} (h : Valid d) (hfits : Fits d) : decode d.encode = .ok d.unrotated := by
  have hread := reads_decided h hfits []
  rw [List.append_nil] at hread
  have hvalid : validate d.unrotated = .ok () :=
    validate_eq_ok.2 ((same_unrotated d).symm.valid h)
  rw [decode, hread]
  simp only [if_true, hvalid]
  rfl

/-! ### Nothing else is accepted -/

theorem writes_node : Writes readNode encodeNode NodeFits := by
  refine (writes_int _ 4).bind fun id hid => (writes_byte _).bind fun b _ => ?_
  cases hrole : roleOfByte b with
  | none => exact accepts_fail _ _
  | some role =>
    refine (writes_byte _).bind fun endpointLen _ => accepts_require _ fun hle =>
      (writes_take _ _).bind fun endpoint hlen => ?_
    cases hinit : NodeRecord.init id role endpoint with
    | error e => exact accepts_fail _ _
    | ok record =>
      obtain ⟨hne, hvalid, rfl⟩ := init_eq_ok.1 hinit
      refine Accepts.pure ⟨⟨hne, hid, hvalid⟩, ?_⟩
      simp only [encodeNode, roleByte_of_roleOfByte hrole, hlen, UInt8.ofNat_toNat, List.append_nil,
        List.append_assoc]
      rfl

theorem writes_operation : Writes readOperation encodeOperation OperationFits := by
  refine (writes_int _ 8).bind fun operationId h₁ => (writes_int _ 8).bind fun expected h₂ =>
    (writes_int _ 4).bind fun oldNodeId h₃ => (writes_int _ 4).bind fun newNodeId h₄ =>
    ((writes_hash _).mapError _).bind fun requestDigest _ => (writes_int _ 8).bind fun result h₅ =>
    Accepts.pure ⟨⟨h₁, h₂, h₃, h₄, h₅⟩, ?_⟩
  simp only [encodeOperation, List.append_assoc, List.append_nil]

theorem writes_decided : Writes readDecided encode Fits := by
  refine (writes_take _ 4).bind fun seenMagic _ => accepts_require _ fun hmagic =>
    (writes_int _ 2).bind fun version _ => accepts_require _ fun hversion =>
    (writes_int _ 16).bind fun databaseId h₁ => (writes_int _ 8).bind fun configurationId h₂ =>
    (writes_int _ 8).bind fun predecessor h₃ => (writes_int _ 4).bind fun highest h₄ =>
    (writes_int _ 2).bind fun nodeCount _ => accepts_require _ fun _ =>
    (writes_node.many nodeCount).bind fun nodes hnodes => (writes_int _ 2).bind fun ringCount _ =>
    accepts_require _ fun hring => (writes_operation.many ringCount).bind fun operations hops =>
    Accepts.pure ⟨?_, ?_⟩
  all_goals
    have hlen : operations.length ≤ ringSize := by
      rw [hops.1]
      exact of_decide_eq_true hring
    have hlist := RingBuffer.toList_ofList blankOperation ringSize_pos hlen
  · refine ⟨h₁, h₂, h₃, h₄, fun record hrecord => hops.2 record ?_⟩
    rwa [Decided.operations, hlist] at hrecord
  · have hcount : (RingBuffer.ofList blankOperation ringSize_pos operations).count = ringCount := by
      rw [← RingBuffer.length_toList, hlist, hops.1]
    simp only [encode, Decided.operations, hlist, hcount, hnodes.1, List.append_assoc, List.append_nil]
    rw [of_decide_eq_true hversion, of_decide_eq_true hmagic]
    rfl

theorem encode_of_decode {bytes : List UInt8} {d : Decided} (h : decode bytes = .ok d) :
    Valid d ∧ Fits d ∧ d.encode = bytes := by
  unfold decode at h
  split at h
  · cases h
  · rename_i decided rest hread
    split at h
    · rename_i hrest
      subst hrest
      obtain ⟨hvalid, hok⟩ := seq_eq_ok.1 h
      cases hok
      obtain ⟨hfits, hbytes⟩ := writes_decided.whole hread
      exact ⟨validate_eq_ok.1 hvalid, hfits, hbytes.symm⟩
    · cases h

/-! ### Sizes, bootstrap order and digests -/

def maxEncodedBytes : ℕ :=
  (4 + 2 + 16 + 8 + 8 + 4) + (2 + maxNodes * (4 + 1 + 1 + maxEndpointBytes)) +
    (2 + ringSize * (8 + 8 + 4 + 4 + 32 + 8))

theorem length_encode_le {d : Decided} (h : Valid d) : d.encode.length ≤ maxEncodedBytes := by
  have hnodes : (d.nodes.flatMap encodeNode).length ≤ d.nodes.length * 70 := by
    refine Bytes.length_records_le fun record hrecord => ?_
    have hle := length_of_validEndpoint (h.nodes.endpoints record hrecord)
    rw [maxEndpointBytes] at hle
    simp only [encodeNode, List.length_append, Bytes.length_encodeLe, List.length_cons, List.length_nil]
    omega
  have hring : (d.operations.flatMap encodeOperation).length = d.operations.length * 64 := by
    refine Bytes.length_records (fun record => ?_) _
    simp [encodeOperation]
  have hmagic : (asciiBytes "ZXRG").length = 4 := rfl
  have hcount := h.count.2
  have hops := d.length_operations_le
  simp only [encode, List.length_append, Bytes.length_encodeLe, hring, hmagic, maxEncodedBytes, maxNodes,
    maxMembers, maxEndpointBytes, ringSize] at hcount hops ⊢
  omega

theorem sortNodes_congr {records records' : List NodeRecord} (hperm : records.Perm records')
    (hasc : (sortNodes records).Pairwise fun a b => a.id < b.id) :
    sortNodes records' = sortNodes records := by
  have hne : records'.Pairwise fun a b => a.id ≠ b.id := by
    refine ((sortNodes_perm records).trans hperm).pairwise_iff (fun hab => Ne.symm hab) |>.1 ?_
    exact hasc.imp fun hab => ne_of_lt hab
  have hsorted := ((sortNodes_perm records').trans (hperm.symm.trans (sortNodes_perm records).symm))
  refine hsorted.eq_of_pairwise (fun a b _ _ hab hba => ?_) (sortNodes_ascending hne) hasc
  exact absurd (lt_trans hab hba) (lt_irrefl _)

theorem bootstrapAt_perm {databaseId configurationId : ℕ} {records records' : List NodeRecord} {d : Decided}
    (hperm : records.Perm records') (h : bootstrapAt databaseId configurationId records = .ok d) :
    bootstrapAt databaseId configurationId records' = .ok d := by
  rw [bootstrapAt, check_bind_eq_ok, check_bind_eq_ok, check_bind_eq_ok, seq_eq_ok] at h
  obtain ⟨hdb, hconf, hlen, hvalid, hd⟩ := h
  have hasc : (sortNodes records).Pairwise fun a b => a.id < b.id := (validate_eq_ok.1 hvalid).nodes.ascending
  rw [bootstrapAt, check_bind_eq_ok, check_bind_eq_ok, check_bind_eq_ok, seq_eq_ok,
    sortNodes_congr hperm hasc, ← hperm.length_eq]
  exact ⟨hdb, hconf, hlen, hvalid, hd⟩

/-- **The registry encoding is a bijection onto what `decode` accepts.** -/
theorem registryCodec_bijective :
    (∀ d : Decided, d.validate = .ok () → d.Fits → d.encode.length ≤ maxEncodedBytes ∧
      ∃ d', decode d.encode = .ok d' ∧ Same d' d) ∧
    (∀ d e : Decided, Same d e → d.encode = e.encode) ∧
    (∀ databaseId configurationId records records' d, List.Perm records records' →
      bootstrapAt databaseId configurationId records = .ok d →
      bootstrapAt databaseId configurationId records' = .ok d) ∧
    (∀ bytes d, decode bytes = .ok d → d.encode = bytes) ∧
    ∀ d e : Decided, d.validate = .ok () → d.Fits → e.validate = .ok () → e.Fits →
      Set.InjOn Sha256.hash {d.encode, e.encode} → d.digest = e.digest → Same d e := by
  refine ⟨fun d hvalid hfits => ?_, fun d e h => h.encode_eq, fun _ _ _ _ _ hperm h => bootstrapAt_perm hperm h,
    fun bytes d h => (encode_of_decode h).2.2, fun d e hd hdfits he hefits hinj hdigest => ?_⟩
  · have h := validate_eq_ok.1 hvalid
    exact ⟨length_encode_le h, d.unrotated, decode_encode h hfits, same_unrotated d⟩
  · have hbytes : d.encode = e.encode := hinj (by simp) (by simp) hdigest
    have hdecode := decode_encode (validate_eq_ok.1 hd) hdfits
    rw [hbytes, decode_encode (validate_eq_ok.1 he) hefits] at hdecode
    have hsame : e.unrotated = d.unrotated := Except.ok.inj hdecode
    have hde := (same_unrotated d).symm
    have hee := same_unrotated e
    rw [hsame] at hee
    exact ⟨hde.databaseId.trans hee.databaseId, hde.configurationId.trans hee.configurationId,
      hde.predecessorConfigurationId.trans hee.predecessorConfigurationId,
      hde.highestAllocatedNodeId.trans hee.highestAllocatedNodeId, hde.nodes.trans hee.nodes,
      hde.operations.trans hee.operations⟩

end Decided

end Zaxonlite
