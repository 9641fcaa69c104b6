import Zaxonlite.Node.Handover
import Zaxonlite.Registry.Members

/-!
# The files of a membership change

A handover advances the registry blob, the registry pointer and the identity file one after another, and
each of them is read again when the node opens. The request a leader has proposed is kept in a file of
its own until the handover it asked for is complete. The model keeps these files, what the journal holds
of the stop sign, and every state the directory passed through, so that a crash point is a directory on
the trail. Pages and anchors are the subject of the other node modules; an anchor counts here by its slot.
-/

namespace Zaxonlite

inductive PendingPhase where
  | prepared
  | proposed
  deriving DecidableEq, Repr

/-- The durably recorded replacement request in flight. -/
structure PendingOperation where
  request : ReplacementRequest
  phase : PendingPhase
  deriving DecidableEq

/-- `PendingOperation.matches`. -/
def PendingOperation.matchesRequest (pending : PendingOperation) (request : ReplacementRequest) : Bool :=
  pending.request = request

structure JoinDescriptor where
  databaseId : ℕ
  configurationId : ℕ
  registryDigest : HashBytes
  deriving DecidableEq

structure DataDirectory where
  blobs : ℕ → Option Decided
  pointer : Option ℕ
  identity : Identity
  role : Role
  join : Option JoinDescriptor
  pending : Option PendingOperation
  /-- The newest stop sign the journal has decided, with its slot. -/
  stop : Option (StopSign × ℕ)
  decidedThrough : ℕ
  anchorSlot : ℕ

inductive MemberError where
  | node (error : NodeError)
  | registry (error : RegistryError)
  | nodeIdMismatch
  | nodeRoleMismatch
  | joinRequiresDataVoter
  | noDecidedRegistry
  | operationPending
  | operationAlreadyProposed
  | operationAlreadyComplete
  deriving DecidableEq, Repr

/-- The protocol core, as far as membership goes. -/
structure Core where
  configurationId : ℕ
  members : List ℕ
  leads : Bool
  /-- A stop sign accepted but not decided. -/
  pendingStop : Option StopSign

/-- A node on its data directory, with every directory its operations passed through. -/
structure Host where
  directory : DataDirectory
  trail : List DataDirectory
  identity : Identity
  role : Role
  decidedRegistry : Option Decided
  joinDescriptor : Option JoinDescriptor
  members : List ℕ
  single : Bool
  joinCampaignHold : Bool
  appliedSlot : ℕ
  durableStateSlot : ℕ
  fatalStorageError : Bool
  membershipChangePending : Bool
  core : Core

abbrev HostOp (α : Type) := EStateM MemberError Host α

/-- Change the directory; the new directory is a crash point. -/
def save (f : DataDirectory → DataDirectory) : HostOp Unit :=
  modify fun h => { h with directory := f h.directory, trail := h.trail ++ [f h.directory] }

def setHost (f : Host → Host) : HostOp Unit :=
  modify f

def failIf (c : Bool) (e : MemberError) : HostOp Unit :=
  if c then throw e else pure ()

def ofRegistry {α : Type} : Except RegistryError α → HostOp α
  | .ok a => pure a
  | .error e => throw (.registry e)

/-- `registry.load`. -/
def DataDirectory.loadRegistry (dir : DataDirectory) : Except MemberError (Option Decided) :=
  match dir.pointer with
  | none => .ok none
  | some configurationId =>
    match dir.blobs configurationId with
    | none => .error (.node .fileNotFound)
    | some decided =>
      if decided.configurationId ≠ configurationId then .error (.registry .corruptRegistry)
      else .ok (some decided)

def storeBlob (decided : Decided) : HostOp Unit :=
  save fun dir => { dir with blobs := Function.update dir.blobs decided.configurationId (some decided) }

def activatePointer (configurationId : ℕ) : HostOp Unit :=
  save fun dir => { dir with pointer := some configurationId }

def writeIdentity (identity : Identity) : HostOp Unit :=
  save fun dir => { dir with identity := identity }

def persistPendingOperation (request : ReplacementRequest) (phase : PendingPhase) : HostOp Unit :=
  save fun dir => { dir with pending := some ⟨request, phase⟩ }

def clearPendingOperation : HostOp Unit :=
  save fun dir => { dir with pending := none }

namespace Host

/-- `isReconfigured`: a core reports the stop sign it was restored at while the sign's configuration is
above its own. -/
def isReconfigured (h : Host) : Option (StopSign × ℕ) :=
  h.directory.stop.filter fun stop => h.core.configurationId < stop.1.configurationId

def adoptDecidedMembers (next : Decided) : HostOp Unit := do
  let h ← get
  failIf (next.voterIds.contains h.identity.nodeId != h.role.capabilities.votes)
    (.node .roleMembershipMismatch)
  setHost fun h => { h with
    members := next.voterIds
    single := h.role.capabilities.votes && next.voterIds.length == 1 }

/-- `continueOnConfiguration`: a core of the new configuration, with nothing accepted in it. -/
def continueOnConfiguration : HostOp Unit :=
  setHost fun h => { h with
    core := ⟨h.identity.configurationId, h.members, h.single && h.role.capabilities.campaigns, none⟩
    joinCampaignHold := h.role.capabilities.campaigns && h.role.capabilities.materializes &&
      decide (1 < h.identity.configurationId) && h.appliedSlot == 0 }

/-- `createStateAnchor`, for a node that has no write in flight. -/
def createStateAnchor : HostOp Unit := do
  let h ← get
  save fun dir => { dir with anchorSlot := h.appliedSlot }
  setHost fun h => { h with durableStateSlot := h.appliedSlot }

/-- The end of `completeMembershipChange`: the record of the operation that was completed goes. -/
def clearCompleted (parsed : StopMetadata) : HostOp Unit := do
  let h ← get
  match h.directory.pending, parsed.seed with
  | some pending, some seed =>
    if pending.request.operationId = seed.operationId then clearPendingOperation else pure ()
  | _, _ => pure ()

/-- Install a rebuilt registry and continue in its configuration. -/
def install (next : Decided) (parsed : StopMetadata) : HostOp Unit := do
  storeBlob next
  activatePointer next.configurationId
  setHost fun h => { h with identity := { h.identity with configurationId := next.configurationId } }
  let h ← get
  writeIdentity h.identity
  setHost fun h => { h with decidedRegistry := some next }
  adoptDecidedMembers next
  continueOnConfiguration
  let h ← get
  if h.joinDescriptor.isNone && !h.joinCampaignHold && h.role.capabilities.materializes &&
      decide (h.durableStateSlot < h.appliedSlot) then createStateAnchor else pure ()
  clearCompleted parsed
  setHost fun h => { h with membershipChangePending := false }

def completeMembershipChange : HostOp Unit := do
  let h ← get
  match h.isReconfigured with
  | none => throw (.node .noStopSign)
  | some (sign, stopSlot) =>
    failIf (decide (h.appliedSlot < stopSlot)) (.node .stopNotApplied)
    let parsed ← ofRegistry (parseStopMetadata sign.metadata)
    failIf (h.role.capabilities.votes && !sign.members.contains h.identity.nodeId)
      (.node .retiredByReconfiguration)
    match h.decidedRegistry with
    | none => throw .noDecidedRegistry
    | some decided =>
      let next ← ofRegistry (decided.reconstructNextRegistry parsed sign.configurationId)
      install next parsed

/-- The node's part of the pump: a decided membership stop completes. -/
def settle : HostOp Unit := do
  let h ← get
  if h.membershipChangePending then completeMembershipChange else pure ()

/-! ### Replacement requests -/

/-- `reconcilePendingOperation`: repairs the phase after a crash, and only that of a prepared record. -/
def reconcilePendingOperation : HostOp Unit := do
  let h ← get
  match h.directory.pending with
  | none => pure ()
  | some pending =>
    if pending.phase = .proposed then pure ()
    else
      match h.core.pendingStop with
      | none => pure ()
      | some sign =>
        let parsed ← ofRegistry (parseStopMetadata sign.metadata)
        match parsed.seed with
        | none => clearPendingOperation
        | some seed =>
          if seed.operationId ≠ pending.request.operationId ∨
              seed.oldNodeId ≠ pending.request.oldNodeId ∨
              seed.newNodeId ≠ pending.request.newNodeId ∨
              seed.endpoint ≠ pending.request.newEndpoint then clearPendingOperation
          else persistPendingOperation pending.request .proposed

/-- A request the registry has not seen. -/
def freshRequest (decided : Decided) (request : ReplacementRequest) : HostOp Decided := do
  match ← ofRegistry (decided.validateRequest request) with
  | .fresh => pure decided
  | .retry _ => throw .operationAlreadyComplete

/-- The guards `prepareReplacement` reads of the record and the registry. -/
def admitReplacement (request : ReplacementRequest) : HostOp Decided := do
  let h ← get
  failIf (!h.role.capabilities.servesWrites) (.node .roleCannotWrite)
  failIf h.fatalStorageError (.node .storageFailed)
  match h.decidedRegistry with
  | none => throw .noDecidedRegistry
  | some decided =>
    match h.directory.pending with
    | none => pure ()
    | some pending =>
      failIf (!pending.matchesRequest request) (.registry .operationConflict)
      failIf (pending.phase = .proposed) .operationAlreadyProposed
    freshRequest decided request

/-- `prepareReplacement`. What the image is busy with, and whether the core takes the stop sign, are
given. -/
def prepareReplacement (request : ReplacementRequest) (busy : Option MemberError)
    (proposal : Except MemberError Unit) : HostOp Unit := do
  let decided ← admitReplacement request
  match busy with
  | some e => throw e
  | none =>
    persistPendingOperation request .prepared
    let _next ← ofRegistry (decided.successor request)
    match proposal with
    | .error e => throw e
    | .ok () => persistPendingOperation request .proposed

inductive ReplacementOutcome where
  | notLeader
  | rejected (error : MemberError)
  | complete (configurationId : ℕ)
  | proposed (configurationId : ℕ)
  deriving DecidableEq, Repr

/-- The answer that does not need a new proposal. -/
def answerReplacement (h : Host) (decided : Decided) (request : ReplacementRequest) :
    Option ReplacementOutcome :=
  match decided.validateRequest request with
  | .error e => some (.rejected (.registry e))
  | .ok (.retry result) => some (.complete result)
  | .ok .fresh =>
    if !h.core.leads then some .notLeader
    else
      match h.directory.pending with
      | none => none
      | some pending =>
        if !pending.matchesRequest request then
          if pending.request.operationId = request.operationId then
            some (.rejected (.registry .operationConflict))
          else some (.rejected .operationPending)
        else if pending.phase = .proposed then some (.proposed (decided.configurationId + 1))
        else none

def replaceVoterLocked (h : Host) (request : ReplacementRequest) (busy : Option MemberError)
    (proposal : Except MemberError Unit) : ReplacementOutcome × Host :=
  match h.decidedRegistry with
  | none => (.rejected .noDecidedRegistry, h)
  | some decided =>
    match h.answerReplacement decided request with
    | some outcome => (outcome, h)
    | none =>
      match prepareReplacement request busy proposal h with
      | .error e h' => (.rejected e, h')
      | .ok _ h' => (.proposed (decided.configurationId + 1), h')

/-! ### Opening -/

/-- What a process is started with. -/
structure OpenOptions where
  nodeId : ℕ
  role : Role
  /-- The voters named by flags. -/
  members : List ℕ
  databaseId : Option ℕ
  registryNodes : Option (List NodeRecord)

/-- A process that has read nothing yet. -/
def booted (dir : DataDirectory) : Host where
  directory := dir
  trail := []
  identity := dir.identity
  role := dir.role
  decidedRegistry := none
  joinDescriptor := dir.join
  members := []
  single := false
  joinCampaignHold := false
  appliedSlot := 0
  durableStateSlot := 0
  fatalStorageError := false
  membershipChangePending := false
  core := ⟨0, [], false, none⟩

def ofMember {α : Type} : Except MemberError α → HostOp α
  | .ok a => pure a
  | .error e => throw e

/-- `loadOrCreateIdentity` of an identity that is there. -/
def checkIdentity (options : OpenOptions) (expectedDatabaseId : Option ℕ) : HostOp Unit := do
  let h ← get
  failIf (h.identity.nodeId ≠ options.nodeId) .nodeIdMismatch
  failIf (h.role ≠ options.role) .nodeRoleMismatch
  failIf (expectedDatabaseId.any fun id => h.identity.databaseId ≠ id) (.node .databaseMismatch)

def JoinDescriptor.names (join : JoinDescriptor) (decided : Decided) : Bool :=
  join.databaseId = decided.databaseId && join.configurationId = decided.configurationId &&
    join.registryDigest = decided.digest

/-- The registry of an open, and its voters: the decided one, none while joining, the bootstrap one, or
the flags. -/
def openRegistry (options : OpenOptions) (loaded : Option Decided) : HostOp (Option Decided × List ℕ) := do
  let h ← get
  match loaded with
  | some decided =>
    failIf (decided.databaseId ≠ h.identity.databaseId) (.node .registryMismatch)
    failIf (h.joinDescriptor.any fun join => !JoinDescriptor.names join decided) (.node .registryMismatch)
    pure (some decided, decided.voterIds)
  | none =>
    match h.joinDescriptor, options.registryNodes with
    | none, some records =>
      let bootstrapped ← ofRegistry (Decided.bootstrapAt h.identity.databaseId
        h.identity.configurationId records)
      storeBlob bootstrapped
      activatePointer bootstrapped.configurationId
      pure (some bootstrapped, bootstrapped.voterIds)
    | _, _ => pure (none, options.members)

/-- `Node.open` on a directory that holds an identity, as far as membership goes. The journal brings the
applied slot back to the end of its decided run and the core to the configuration of the identity;
`pendingStop` is what the core then reports accepted. -/
def openNode (options : OpenOptions) (pendingStop : Option StopSign) : HostOp Unit := do
  let h ← get
  let loaded ← ofMember h.directory.loadRegistry
  failIf (h.joinDescriptor.isSome && options.role ≠ .dataVoter) .joinRequiresDataVoter
  checkIdentity options (match loaded, h.joinDescriptor with
    | some decided, _ => some decided.databaseId
    | none, some join => some join.databaseId
    | none, none => options.databaseId)
  let (registry, members) ← openRegistry options loaded
  failIf (members.contains options.nodeId != options.role.capabilities.votes)
    (.node .roleMembershipMismatch)
  setHost fun h => { h with
    decidedRegistry := registry
    members := members
    single := options.role.capabilities.votes && members.length == 1
    appliedSlot := h.directory.decidedThrough
    durableStateSlot := h.directory.anchorSlot }
  let h ← get
  let freshVoter := options.role.capabilities.campaigns && options.role.capabilities.materializes &&
    decide (1 < h.identity.configurationId)
  failIf (freshVoter && h.joinDescriptor.isNone && h.appliedSlot == 0) (.node .joinDescriptorRequired)
  setHost fun h => { h with
    joinCampaignHold := freshVoter && h.joinDescriptor.isSome
    core := ⟨h.identity.configurationId, h.members, h.single && h.role.capabilities.campaigns,
      pendingStop⟩ }
  setHost fun h => { h with membershipChangePending := h.isReconfigured.isSome }
  reconcilePendingOperation

end Host

/-! ### The server around it -/

structure Server where
  node : Host
  generation : MemberGeneration
  transportConfigurationId : ℕ
  retired : Bool
  /-- Envelopes parked until their payload is stored. -/
  held : ℕ

namespace Server

def start (node : Host) (fallback : List PeerAddress) : Except RegistryError Server := do
  let generation ← buildMemberGeneration node.decidedRegistry node.identity.configurationId fallback
  pure ⟨node, generation, generation.configurationId, false, 0⟩

def transportStaleLocked (s : Server) : Bool :=
  match s.node.decidedRegistry with
  | none => false
  | some decided => !membershipMatchesRegistry s.generation decided

def enterConfigurationLocked (s : Server) : Server :=
  if s.transportStaleLocked then s
  else { s with transportConfigurationId := s.node.identity.configurationId }

/-- The server after the node's part of the pump, whether it returned or failed. -/
def settled (s : Server) : Server :=
  if s.retired then { s with node := { s.node with trail := [] } }
  else
    match Host.settle { s.node with trail := [] } with
    | .ok _ node => { s with node := node }
    | .error e node => { s with node := node, retired := e = .node .retiredByReconfiguration }

/-- `pumpFallible`, as far as membership goes. -/
def pump (s : Server) : Server :=
  if s.settled.node.identity.configurationId ≠ s.node.identity.configurationId then
    s.settled.enterConfigurationLocked
  else s.settled

def rebuildTransport (s : Server) (fallback : List PeerAddress) : Except RegistryError Server :=
  match s.node.decidedRegistry with
  | none => .ok s
  | some decided =>
    if membershipMatchesRegistry s.generation decided then .ok s
    else do
      let generation ← buildMemberGeneration s.node.decidedRegistry s.node.identity.configurationId
        fallback
      pure { s with generation := generation, transportConfigurationId := generation.configurationId }

/-- The gate of `drainOutbox`. -/
def sendsEnvelopes (s : Server) : Bool :=
  s.node.identity.configurationId = s.transportConfigurationId

/-- The gate of `onEnvelopeFrame`, for a frame of the given configuration. -/
def stepsEnvelope (s : Server) (frameConfiguration : ℕ) : Bool :=
  frameConfiguration = s.node.identity.configurationId &&
    s.node.identity.configurationId = s.transportConfigurationId && s.node.joinDescriptor.isNone

/-- `onEnvelopeFrame`, as far as parking goes: an envelope past the gate is stepped, or held when its
payload is missing. -/
def onEnvelopeFrame (s : Server) (frameConfiguration : ℕ) (missing : Bool) : Server :=
  if s.stepsEnvelope frameConfiguration && missing then { s with held := s.held + 1 } else s

/-- `onPayloadData`: the envelopes held for the payload are stepped, past no gate. -/
def onPayloadData (s : Server) (count : ℕ) : Server :=
  { s with held := s.held - count }

/-- A replacement request, with the directories of its own writes on the trail. -/
def requested (s : Server) (request : ReplacementRequest) (busy : Option MemberError)
    (proposal : Except MemberError Unit) : Server :=
  { s with node := (Host.replaceVoterLocked { s.node with trail := [] } request busy proposal).2 }

end Server

end Zaxonlite
