import Zaxonlite.Lib.Hex
import Zaxonlite.Registry.Lineage

/-!
# Stop metadata and the registry it names

The proposer of a replacement computes the next registry from the structured request and puts its digest
and a textual seed into the stop sign. Every survivor parses that text back and recomputes the registry
from the one it holds, fast-forwarding through rollovers it has not seen. The digest is the acceptance
test, and it covers the request digest in the ring, so both sides must agree on every byte.
-/

namespace Zaxonlite

/-- The replacement seed of stop metadata. -/
structure StopSeed where
  operationId : ℕ
  oldNodeId : ℕ
  newNodeId : ℕ
  endpoint : List UInt8
  operationId_le : operationId ≤ maxU64
  oldNodeId_le : oldNodeId ≤ maxU32
  newNodeId_le : newNodeId ≤ maxU32

structure StopMetadata where
  registryDigest : HashBytes
  seed : Option StopSeed

def maxMetadataBytes : ℕ := 512

/-- `renderStopMetadata`; `none` where the text outgrows its buffer, which the source holds unreachable. -/
def renderStopMetadata (digest : HashBytes) (request : ReplacementRequest) : Option (List UInt8) :=
  let text := [32].intercalate
    [asciiBytes "zx3", Hex.ofBytes digest.toList, Hex.fixed 16 request.operationId,
      Hex.fixed 8 request.oldNodeId, Hex.fixed 8 request.newNodeId, request.newEndpoint]
  if text.length ≤ maxMetadataBytes then some text else none

/-- `tokenizeScalar` on spaces: runs of the separator count once. -/
def tokenize (text : List UInt8) : List (List UInt8) :=
  (text.splitOn 32).filter fun token => token ≠ []

/-- The digest field: sixty-four digits. -/
def parseDigest (text : List UInt8) : Option HashBytes := do
  let bytes ← Hex.toBytes text
  if h : bytes.length = 32 then some ⟨bytes.toArray, h⟩ else none

/-- The four fields of a seed. -/
def parseSeed (operationHex oldHex newHex endpoint : List UInt8) : Option StopSeed := do
  if operationHex.length ≠ 16 ∨ oldHex.length ≠ 8 ∨ newHex.length ≠ 8 then none
  if validEndpoint endpoint = false then none
  let ⟨operationId, operationId_le⟩ ← Hex.parseInt maxU64 operationHex
  let ⟨oldNodeId, oldNodeId_le⟩ ← Hex.parseInt maxU32 oldHex
  let ⟨newNodeId, newNodeId_le⟩ ← Hex.parseInt maxU32 newHex
  some ⟨operationId, oldNodeId, newNodeId, endpoint, operationId_le, oldNodeId_le, newNodeId_le⟩

/-- The fields of the text, if there are as many as one of the two forms has. -/
def parseFields : List (List UInt8) → Option StopMetadata
  | [tag, registryHex] => do
    if tag ≠ asciiBytes "zx3" then none
    let digest ← parseDigest registryHex
    some ⟨digest, none⟩
  | [tag, registryHex, operationHex, oldHex, newHex, endpoint] => do
    if tag ≠ asciiBytes "zx3" then none
    let digest ← parseDigest registryHex
    let seed ← parseSeed operationHex oldHex newHex endpoint
    some ⟨digest, some seed⟩
  | _ => none

/-- `parseStopMetadata`: every malformed text is the one error. -/
def parseStopMetadata (metadata : List UInt8) : Except RegistryError StopMetadata :=
  match parseFields (tokenize metadata) with
  | some parsed => .ok parsed
  | none => .error .corruptStopSign

namespace Decided

/-- A lagging registry carried to the sealed configuration. -/
def fastForward (d : Decided) (sealed : ℕ) : Decided :=
  if d.configurationId < sealed then
    { d with predecessorConfigurationId := sealed - 1, configurationId := sealed }
  else d

/-- The request a survivor rebuilds from a seed. -/
def requestOf (d : Decided) (seed : StopSeed) : ReplacementRequest where
  operationId := seed.operationId
  expectedConfigurationId := d.configurationId
  oldNodeId := seed.oldNodeId
  newNodeId := seed.newNodeId
  newEndpoint := seed.endpoint
  operationId_le := seed.operationId_le
  oldNodeId_le := seed.oldNodeId_le
  newNodeId_le := seed.newNodeId_le

/-- The registry a survivor proposes to itself. -/
def candidate (d : Decided) (seed : Option StopSeed) (sealed : ℕ) : Except RegistryError Decided :=
  match seed with
  | some seed => (d.fastForward sealed).successor ((d.fastForward sealed).requestOf seed)
  | none => (d.fastForward sealed).checkpointSuccessor

def reconstructNextRegistry (d : Decided) (parsed : StopMetadata) (nextConfiguration : ℕ) :
    Except RegistryError Decided :=
  if d.configurationId = nextConfiguration then
    if d.digest = parsed.registryDigest then .ok d else .error .registryDigestMismatch
  else
    match d.candidate parsed.seed (nextConfiguration - 1) with
    | .error _ => .error .registryDigestMismatch
    | .ok next =>
      if next.configurationId ≠ nextConfiguration then .error .registryDigestMismatch
      else if next.digest ≠ parsed.registryDigest then .error .registryDigestMismatch
      else .ok next

end Decided

/-! ### The text round trip -/

def ReplacementRequest.seed (q : ReplacementRequest) : StopSeed where
  operationId := q.operationId
  oldNodeId := q.oldNodeId
  newNodeId := q.newNodeId
  endpoint := q.newEndpoint
  operationId_le := q.operationId_le
  oldNodeId_le := q.oldNodeId_le
  newNodeId_le := q.newNodeId_le

section Text

variable {q : ReplacementRequest}

theorem validEndpoint_plain {endpoint : List UInt8} (h : validEndpoint endpoint = true) :
    endpoint ≠ [] ∧ endpoint.length ≤ maxEndpointBytes ∧ (32 : UInt8) ∉ endpoint := by
  simp only [validEndpoint, Bool.and_eq_true, decide_eq_true_eq, List.all_eq_true] at h
  obtain ⟨⟨⟨hne, hlen⟩, hall⟩, -⟩ := h
  refine ⟨fun hnil => hne (by rw [hnil]; rfl), hlen, fun hmem => ?_⟩
  exact absurd (hall 32 hmem).1 (by decide)

theorem parseDigest_ofBytes (digest : HashBytes) :
    parseDigest (Hex.ofBytes digest.toList) = some digest := by
  have hlen : digest.toList.length = 32 := digest.toArray.length_toList.trans digest.size_toArray
  rw [parseDigest, Hex.toBytes_ofBytes]
  simp only [bind, Option.bind, dif_pos hlen]
  rfl

theorem parseSeed_fixed (hendpoint : validEndpoint q.newEndpoint = true) :
    parseSeed (Hex.fixed 16 q.operationId) (Hex.fixed 8 q.oldNodeId) (Hex.fixed 8 q.newNodeId)
      q.newEndpoint = some q.seed := by
  have hoperation : Hex.parseInt maxU64 (Hex.fixed 16 q.operationId) =
      some ⟨q.operationId, q.operationId_le⟩ :=
    Hex.parseInt_fixed q.operationId_le (lt_of_le_of_lt q.operationId_le (by decide))
  have hold : Hex.parseInt maxU32 (Hex.fixed 8 q.oldNodeId) = some ⟨q.oldNodeId, q.oldNodeId_le⟩ :=
    Hex.parseInt_fixed q.oldNodeId_le (lt_of_le_of_lt q.oldNodeId_le (by decide))
  have hnew : Hex.parseInt maxU32 (Hex.fixed 8 q.newNodeId) = some ⟨q.newNodeId, q.newNodeId_le⟩ :=
    Hex.parseInt_fixed q.newNodeId_le (lt_of_le_of_lt q.newNodeId_le (by decide))
  simp only [parseSeed, Hex.length_fixed, hendpoint, hoperation, hold, hnew, bind, Option.bind]
  rfl

theorem tokenize_intercalate {fields : List (List UInt8)} (hne : fields ≠ [])
    (hfields : ∀ field ∈ fields, field ≠ [] ∧ (32 : UInt8) ∉ field) :
    tokenize ([32].intercalate fields) = fields := by
  rw [tokenize, List.splitOn_intercalate 32 (fun field hfield => (hfields field hfield).2) hne,
    List.filter_eq_self]
  intro field hfield
  exact decide_eq_true (hfields field hfield).1

theorem space_not_mem_fixed (width value : ℕ) : (32 : UInt8) ∉ Hex.fixed width value := by
  intro hmem
  obtain ⟨n, hn, heq⟩ := Hex.mem_fixed hmem
  exact (Hex.digit_facts n hn).2.1 heq.symm

theorem space_not_mem_ofBytes (bytes : List UInt8) : (32 : UInt8) ∉ Hex.ofBytes bytes := by
  intro hmem
  obtain ⟨n, hn, heq⟩ := Hex.mem_ofBytes hmem
  exact (Hex.digit_facts n hn).2.1 heq.symm

/-- **What the proposer renders every survivor parses back**, whenever the endpoint is a valid one. -/
theorem parseStopMetadata_render (digest : HashBytes) (hendpoint : validEndpoint q.newEndpoint = true) :
    ∃ text, renderStopMetadata digest q = some text ∧
      parseStopMetadata text = .ok ⟨digest, some q.seed⟩ := by
  obtain ⟨hne, hlen, hspace⟩ := validEndpoint_plain hendpoint
  have hdigest : digest.toList.length = 32 :=
    digest.toArray.length_toList.trans digest.size_toArray
  have hpos : ∀ width value : ℕ, Hex.fixed (width + 1) value ≠ [] := fun width value =>
    List.ne_nil_of_length_pos (by rw [Hex.length_fixed]; exact Nat.succ_pos width)
  refine ⟨_, if_pos ?_, ?_⟩
  · rw [maxEndpointBytes] at hlen
    have htag : (asciiBytes "zx3").length = 3 := rfl
    simp only [List.intercalate_cons_cons, List.intercalate_singleton, List.length_append,
      List.length_cons, List.length_nil, Hex.length_ofBytes, Hex.length_fixed, hdigest, htag,
      maxMetadataBytes]
    omega
  · have htokens := tokenize_intercalate (List.cons_ne_nil (asciiBytes "zx3")
      [Hex.ofBytes digest.toList, Hex.fixed 16 q.operationId, Hex.fixed 8 q.oldNodeId,
        Hex.fixed 8 q.newNodeId, q.newEndpoint]) (by
      simp only [List.forall_mem_cons]
      refine ⟨by decide, ⟨?_, space_not_mem_ofBytes _⟩, ⟨hpos 15 _, space_not_mem_fixed _ _⟩,
        ⟨hpos 7 _, space_not_mem_fixed _ _⟩, ⟨hpos 7 _, space_not_mem_fixed _ _⟩, ⟨hne, hspace⟩,
        fun _ hno => absurd hno List.not_mem_nil⟩
      refine List.ne_nil_of_length_pos ?_
      rw [Hex.length_ofBytes, hdigest]
      decide)
    rw [parseStopMetadata, htokens, parseFields, parseDigest_ofBytes, parseSeed_fixed hendpoint]
    rfl

end Text

/-! ### Survivors -/

namespace Decided

variable {d e : Decided} {q : ReplacementRequest}

/-- One checkpoint rollover. -/
def RollsOver (d e : Decided) : Prop :=
  d.checkpointSuccessor = .ok e

theorem RollsOver.eq (h : RollsOver d e) : e = d.rolledOver := by
  rw [RollsOver, checkpointSuccessor, check_bind_eq_ok, seq_eq_ok] at h
  exact (Except.ok.inj h.2.2).symm

theorem fastForward_of_rollsOver (h : Relation.ReflTransGen RollsOver e d) :
    e.configurationId ≤ d.configurationId ∧ e.fastForward d.configurationId = d := by
  have hrun : e = d ∨ (e.configurationId < d.configurationId ∧
      d = { e with
        predecessorConfigurationId := d.configurationId - 1
        configurationId := d.configurationId }) := by
    induction h with
    | refl => exact Or.inl rfl
    | tail _ hstep ih =>
      rw [hstep.eq]
      rcases ih with rfl | ⟨hlt, heq⟩
      · exact Or.inr ⟨Nat.lt_succ_self _, rfl⟩
      · refine Or.inr ⟨Nat.lt_succ_of_lt hlt, ?_⟩
        rw [heq]
        rfl
  rcases hrun with rfl | ⟨hlt, heq⟩
  · exact ⟨le_rfl, if_neg (lt_irrefl _)⟩
  · refine ⟨hlt.le, ?_⟩
    rw [fastForward, if_pos hlt]
    exact heq.symm

theorem requestOf_seed (h : q.expectedConfigurationId = d.configurationId) :
    d.requestOf q.seed = q := by
  cases q
  subst h
  rfl

theorem reconstructNextRegistry_of_candidate {parsed : StopMetadata} {next : Decided} {n : ℕ}
    (hbehind : e.configurationId ≠ n) (hcandidate : e.candidate parsed.seed (n - 1) = .ok next)
    (hid : next.configurationId = n) (hdigest : next.digest = parsed.registryDigest) :
    e.reconstructNextRegistry parsed n = .ok next := by
  rw [reconstructNextRegistry, if_neg hbehind, hcandidate]
  dsimp only
  rw [if_neg (not_not.2 hid), if_neg (not_not.2 hdigest)]

/-- The digest decides: what a survivor accepts carries it, and there is one refusal. -/
theorem reconstructNextRegistry_of_mismatch {parsed : StopMetadata} {n : ℕ}
    (hself : e.configurationId = n → e.digest ≠ parsed.registryDigest)
    (hnext : e.configurationId ≠ n → ∀ next, e.candidate parsed.seed (n - 1) = .ok next →
      next.digest ≠ parsed.registryDigest) :
    e.reconstructNextRegistry parsed n = .error .registryDigestMismatch := by
  rw [reconstructNextRegistry]
  by_cases hid : e.configurationId = n
  · rw [if_pos hid, if_neg (hself hid)]
  · rw [if_neg hid]
    cases hcandidate : e.candidate parsed.seed (n - 1) with
    | error _ => rfl
    | ok next =>
      dsimp only
      rw [if_pos (hnext hid next hcandidate), ite_self]

/-- The text of a fresh request parses back, and leads to the next registry from the proposer's own,
from one that lags behind it by rollovers and from the next one itself. -/
theorem rebuilds_of_fresh (hvalid : Valid d) (hfresh : d.validateRequest q = .ok .fresh) :
    ∃ text, renderStopMetadata (d.replaced q (joining q)).digest q = some text ∧
      parseStopMetadata text = .ok ⟨(d.replaced q (joining q)).digest, some q.seed⟩ ∧
      (∀ e, Relation.ReflTransGen RollsOver e d →
        e.reconstructNextRegistry ⟨(d.replaced q (joining q)).digest, some q.seed⟩
          (d.configurationId + 1) = .ok (d.replaced q (joining q))) ∧
      (d.replaced q (joining q)).reconstructNextRegistry
          ⟨(d.replaced q (joining q)).digest, some q.seed⟩ (d.configurationId + 1) =
        .ok (d.replaced q (joining q)) := by
  have hf := fresh_of_validateRequest hvalid hfresh
  have hstep := (successor_eq_ok hvalid).2 ⟨hfresh, rfl⟩
  obtain ⟨text, hrender, hparse⟩ := parseStopMetadata_render (d.replaced q (joining q)).digest
    hf.endpoint
  refine ⟨text, hrender, hparse, fun e he => ?_, ?_⟩
  · obtain ⟨hle, hforward⟩ := fastForward_of_rollsOver he
    refine reconstructNextRegistry_of_candidate (by omega) ?_ rfl rfl
    rw [candidate, Nat.add_sub_cancel, hforward, requestOf_seed hf.current, hstep]
  · have hid : (d.replaced q (joining q)).configurationId = d.configurationId + 1 := rfl
    rw [reconstructNextRegistry, if_pos hid, if_pos rfl]

/-- **Every survivor rebuilds the proposer's registry.** The text of a fresh request parses back, and
from it the proposer's registry is reached from the proposer's own predecessor, from any registry that
lags behind it by rollovers, and from the result itself; a registry that leads to another digest is
refused. -/
theorem survivor_rebuilds (hvalid : d.validate = .ok ()) (hfresh : d.validateRequest q = .ok .fresh) :
    ∃ next text parsed, d.successor q = .ok next ∧
      renderStopMetadata next.digest q = some text ∧ parseStopMetadata text = .ok parsed ∧
      d.reconstructNextRegistry parsed (d.configurationId + 1) = .ok next ∧
      (∀ e, Relation.ReflTransGen RollsOver e d →
        e.reconstructNextRegistry parsed (d.configurationId + 1) = .ok next) ∧
      next.reconstructNextRegistry parsed (d.configurationId + 1) = .ok next ∧
      ∀ e : Decided, (e.configurationId = d.configurationId + 1 → e.digest ≠ next.digest) →
        (e.configurationId ≠ d.configurationId + 1 → ∀ other,
          (e.fastForward d.configurationId).successor
              { q with expectedConfigurationId := (e.fastForward d.configurationId).configurationId } =
            .ok other → other.digest ≠ next.digest) →
        e.reconstructNextRegistry parsed (d.configurationId + 1) = .error .registryDigestMismatch := by
  have hv := validate_eq_ok.1 hvalid
  have hstep := (successor_eq_ok hv).2 ⟨hfresh, rfl⟩
  obtain ⟨text, hrender, hparse, hlag, hagain⟩ := rebuilds_of_fresh hv hfresh
  refine ⟨_, text, _, hstep, hrender, hparse, hlag d Relation.ReflTransGen.refl, hlag, hagain, ?_⟩
  intro e hself hother
  exact reconstructNextRegistry_of_mismatch hself hother

theorem survivor_rebuilds_sample : ∃ next text parsed,
    sampleRegistry.successor sampleRequest = .ok next ∧
      renderStopMetadata next.digest sampleRequest = some text ∧ parseStopMetadata text = .ok parsed ∧
      sampleRegistry.reconstructNextRegistry parsed 2 = .ok next := by
  obtain ⟨next, text, parsed, hstep, hrender, hparse, hself, -⟩ :=
    survivor_rebuilds (validate_eq_ok.2 sampleRegistry_valid)
      (show sampleRegistry.validateRequest sampleRequest = .ok .fresh by decide)
  exact ⟨next, text, parsed, hstep, hrender, hparse, hself⟩

end Decided

end Zaxonlite
