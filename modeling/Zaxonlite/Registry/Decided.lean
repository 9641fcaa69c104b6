import Mathlib.Data.List.Sort
import Zaxonlite.Lib.RingBuffer
import Zaxonlite.Node.State

/-!
# The decided registry

The registry maps a configuration to its nodes, their roles and their endpoints. The first one comes
from the bootstrap records; every later one is a function of its predecessor and of what the stop sign
decided: the same members again, or one data voter replaced by a new node. Two fences keep identities
apart for good: the highest node id ever allocated, and a ring of the newest replacements whose newest
entry bounds the operation ids.
-/

namespace Zaxonlite

open Bytes (encodeLe)

def maxMembers : ℕ := 9

def maxNodes : ℕ := 4 * maxMembers

def maxEndpointBytes : ℕ := 64

def ringSize : ℕ := 32

theorem ringSize_pos : 0 < ringSize :=
  Nat.succ_pos 31

/-- The largest `u32` and `u64`. -/
def maxU32 : ℕ := 4294967295

def maxU64 : ℕ := 18446744073709551615

inductive RegistryError where
  | corruptRegistry
  | invalidNodeId
  | duplicateNodeId
  | invalidEndpoint
  | duplicateEndpoint
  | invalidVoterSet
  | fenceRegression
  | invalidOperationRing
  | staleConfiguration
  | unknownVoter
  | nodeIdNotFresh
  | nodeIdExhausted
  | endpointInUse
  | tooFewVoters
  | operationConflict
  | operationHistoryExpired
  | operationIdExhausted
  | configurationIdExhausted
  | corruptStopSign
  | registryDigestMismatch
  deriving DecidableEq, Repr

/-- Raise an error unless a condition holds. -/
def check (c : Bool) (e : RegistryError) : Except RegistryError Unit :=
  if c then .ok () else .error e

@[simp] theorem check_bind_eq_ok {α : Type} (c : Bool) (e : RegistryError)
    (f : Unit → Except RegistryError α) (a : α) :
    (check c e >>= f) = .ok a ↔ c = true ∧ f () = .ok a := by
  cases c
  · simp [check, bind, Except.bind]
  · simp [check, bind, Except.bind]

@[simp] theorem check_eq_ok (c : Bool) (e : RegistryError) : check c e = .ok () ↔ c = true := by
  cases c <;> simp [check]

structure NodeRecord where
  id : ℕ
  role : Role
  endpoint : List UInt8
  deriving DecidableEq

structure OperationRecord where
  operationId : ℕ
  expectedConfigurationId : ℕ
  oldNodeId : ℕ
  newNodeId : ℕ
  requestDigest : HashBytes
  resultConfigurationId : ℕ
  deriving DecidableEq

/-- Printable, space-free text with a port separator. -/
def validEndpoint (endpoint : List UInt8) : Bool :=
  endpoint.length ≠ 0 && endpoint.length ≤ maxEndpointBytes &&
    endpoint.all (fun byte => 32 < byte && byte ≤ 126) && endpoint.contains 58

def validateEndpoint (endpoint : List UInt8) : Except RegistryError Unit :=
  check (validEndpoint endpoint) .invalidEndpoint

def NodeRecord.init (id : ℕ) (role : Role) (endpoint : List UInt8) :
    Except RegistryError NodeRecord := do
  check (id ≠ 0) .invalidNodeId
  validateEndpoint endpoint
  pure ⟨id, role, endpoint⟩

/-- One administrative replacement request, of the widths its fields have on the wire. -/
structure ReplacementRequest where
  operationId : ℕ
  expectedConfigurationId : ℕ
  oldNodeId : ℕ
  newNodeId : ℕ
  newEndpoint : List UInt8
  operationId_le : operationId ≤ maxU64
  oldNodeId_le : oldNodeId ≤ maxU32
  newNodeId_le : newNodeId ≤ maxU32
  deriving DecidableEq

/-- `digestOf`: binds every argument of the request. -/
def ReplacementRequest.digestOf (q : ReplacementRequest) : HashBytes :=
  Sha256.hash (asciiBytes "zaxonlite.replace.v1" ++ encodeLe 8 q.operationId ++
    encodeLe 8 q.expectedConfigurationId ++ encodeLe 4 q.oldNodeId ++ encodeLe 4 q.newNodeId ++
    q.newEndpoint)

inductive Disposition where
  | fresh
  | retry (resultConfigurationId : ℕ)
  deriving DecidableEq

/-- The canonical decided registry for one configuration. -/
structure Decided where
  databaseId : ℕ
  configurationId : ℕ
  predecessorConfigurationId : ℕ
  highestAllocatedNodeId : ℕ
  nodes : List NodeRecord
  ring : RingBuffer OperationRecord ringSize

namespace Decided

/-- The retained operations, oldest first. -/
def operations (d : Decided) : List OperationRecord :=
  d.ring.toList

def newestOperation (d : Decided) : Option OperationRecord :=
  d.operations.getLast?

def findNode (d : Decided) (id : ℕ) : Option NodeRecord :=
  d.nodes.find? fun record => record.id = id

def voterCount (d : Decided) : ℕ :=
  d.nodes.countP fun record => record.role.capabilities.votes

/-- The checks of `validate` on one node, given the ones before it. -/
def validateNode (highest : ℕ) (previous : List NodeRecord) (record : NodeRecord) :
    Except RegistryError Unit := do
  check (record.id ≠ 0) .invalidNodeId
  check (previous.getLast?.all fun last => last.id < record.id) .duplicateNodeId
  check (record.id ≤ highest) .fenceRegression
  validateEndpoint record.endpoint
  check (previous.all fun other => other.endpoint ≠ record.endpoint) .duplicateEndpoint

def validateNodes (highest : ℕ) : List NodeRecord → List NodeRecord → Except RegistryError Unit
  | _, [] => .ok ()
  | previous, record :: rest => do
    validateNode highest previous record
    validateNodes highest (previous ++ [record]) rest

/-- The checks of `validate` on the retained operations. -/
def validateOperations (configurationId : ℕ) :
    Option OperationRecord → List OperationRecord → Except RegistryError Unit
  | _, [] => .ok ()
  | previous, record :: rest => do
    check (previous.all fun last => last.operationId < record.operationId) .invalidOperationRing
    check (record.resultConfigurationId ≠ 0 && record.resultConfigurationId ≤ configurationId)
      .invalidOperationRing
    validateOperations configurationId (some record) rest

def validate (d : Decided) : Except RegistryError Unit := do
  check (d.databaseId ≠ 0) .corruptRegistry
  check (d.configurationId ≠ 0) .corruptRegistry
  check (d.predecessorConfigurationId < d.configurationId) .corruptRegistry
  check (d.nodes.length ≠ 0 && d.nodes.length ≤ maxNodes) .corruptRegistry
  check (d.ring.count ≤ ringSize) .invalidOperationRing
  check (d.ring.start < ringSize) .invalidOperationRing
  validateNodes d.highestAllocatedNodeId [] d.nodes
  check (d.voterCount ≠ 0 && d.voterCount ≤ maxMembers) .invalidVoterSet
  check (d.nodes.countP (fun record => record.role.capabilities.campaigns) ≠ 0) .invalidVoterSet
  validateOperations d.configurationId none d.operations

/-- `nodeLessThan`, as the order the table is sorted in. -/
def sortNodes (nodes : List NodeRecord) : List NodeRecord :=
  nodes.mergeSort fun a b => a.id ≤ b.id

def bootstrapAt (databaseId configurationId : ℕ) (records : List NodeRecord) :
    Except RegistryError Decided := do
  check (databaseId ≠ 0) .corruptRegistry
  check (configurationId ≠ 0) .corruptRegistry
  check (records.length ≠ 0 && records.length ≤ maxNodes) .corruptRegistry
  let decided : Decided :=
    { databaseId := databaseId
      configurationId := configurationId
      predecessorConfigurationId := configurationId - 1
      highestAllocatedNodeId := (sortNodes records).foldl (fun highest record => max highest record.id) 0
      nodes := sortNodes records
      ring := RingBuffer.empty ⟨0, 0, 0, 0, Vector.replicate 32 0, 0⟩ ringSize_pos }
  validate decided
  pure decided

/-- The history half of `validateRequest`: what the ring says of the operation id. -/
def lookupOperation (d : Decided) (q : ReplacementRequest) :
    Except RegistryError (Option Disposition) :=
  match d.operations.find? fun record => record.operationId = q.operationId with
  | some record =>
    if record.requestDigest = q.digestOf then .ok (some (.retry record.resultConfigurationId))
    else .error .operationConflict
  | none =>
    match d.newestOperation with
    | none => .ok none
    | some record =>
      if record.operationId = maxU64 then .error .operationIdExhausted
      else if q.operationId ≤ record.operationId then .error .operationHistoryExpired
      else .ok none

/-- The membership half of `validateRequest`. -/
def admitRequest (d : Decided) (q : ReplacementRequest) : Except RegistryError Unit := do
  check (q.expectedConfigurationId = d.configurationId) .staleConfiguration
  check ((d.findNode q.oldNodeId).isSome) .unknownVoter
  check ((d.findNode q.oldNodeId).all fun old => old.role = .dataVoter) .unknownVoter
  check (d.highestAllocatedNodeId ≠ maxU32) .nodeIdExhausted
  check (d.highestAllocatedNodeId < q.newNodeId) .nodeIdNotFresh
  validateEndpoint q.newEndpoint
  check (d.nodes.all fun record => record.id = q.oldNodeId || record.endpoint ≠ q.newEndpoint)
    .endpointInUse
  check (3 ≤ d.voterCount) .tooFewVoters
  check (d.configurationId ≠ maxU64) .configurationIdExhausted

def validateRequest (d : Decided) (q : ReplacementRequest) : Except RegistryError Disposition := do
  match ← d.lookupOperation q with
  | some disposition => pure disposition
  | none =>
    d.admitRequest q
    pure .fresh

def checkpointSuccessor (d : Decided) : Except RegistryError Decided := do
  check (d.configurationId ≠ maxU64) .configurationIdExhausted
  let next : Decided :=
    { d with
      predecessorConfigurationId := d.configurationId
      configurationId := d.configurationId + 1 }
  validate next
  pure next

/-- Put a record in the place of the first one with an id. -/
def replaceNode (old : ℕ) (new : NodeRecord) : List NodeRecord → List NodeRecord
  | [] => []
  | record :: rest => if record.id = old then new :: rest else record :: replaceNode old new rest

/-- The record a decided request leaves in the ring. -/
def operationOf (d : Decided) (q : ReplacementRequest) : OperationRecord where
  operationId := q.operationId
  expectedConfigurationId := q.expectedConfigurationId
  oldNodeId := q.oldNodeId
  newNodeId := q.newNodeId
  requestDigest := q.digestOf
  resultConfigurationId := d.configurationId + 1

/-- The registry a fresh request leads to, before it is validated. -/
def replaced (d : Decided) (q : ReplacementRequest) (record : NodeRecord) : Decided where
  databaseId := d.databaseId
  configurationId := d.configurationId + 1
  predecessorConfigurationId := d.configurationId
  highestAllocatedNodeId := q.newNodeId
  nodes := sortNodes (replaceNode q.oldNodeId record d.nodes)
  ring := d.ring.push (d.operationOf q)

def successor (d : Decided) (q : ReplacementRequest) : Except RegistryError Decided := do
  match ← d.validateRequest q with
  | .retry _ => throw .operationConflict
  | .fresh =>
    let record ←
      match NodeRecord.init q.newNodeId .dataVoter q.newEndpoint with
      | .ok record => pure record
      | .error _ => throw .invalidEndpoint
    validate (d.replaced q record)
    pure (d.replaced q record)

/-! ### The canonical bytes -/

def roleByte : Role → UInt8
  | .dataVoter => 0
  | .witness => 1
  | .standby => 2
  | .readReplica => 3
  | .gateway => 4

def encodeNode (record : NodeRecord) : List UInt8 :=
  encodeLe 4 record.id ++ [roleByte record.role, UInt8.ofNat record.endpoint.length] ++ record.endpoint

def encodeOperation (record : OperationRecord) : List UInt8 :=
  encodeLe 8 record.operationId ++ encodeLe 8 record.expectedConfigurationId ++
    encodeLe 4 record.oldNodeId ++ encodeLe 4 record.newNodeId ++ record.requestDigest.toList ++
    encodeLe 8 record.resultConfigurationId

def encode (d : Decided) : List UInt8 :=
  asciiBytes "ZXRG" ++ encodeLe 2 1 ++ encodeLe 16 d.databaseId ++ encodeLe 8 d.configurationId ++
    encodeLe 8 d.predecessorConfigurationId ++ encodeLe 4 d.highestAllocatedNodeId ++
    encodeLe 2 d.nodes.length ++ d.nodes.flatMap encodeNode ++
    encodeLe 2 d.ring.count ++ d.operations.flatMap encodeOperation

def digest (d : Decided) : HashBytes :=
  Sha256.hash d.encode

end Decided

end Zaxonlite
