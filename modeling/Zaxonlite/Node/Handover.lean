import Zaxonlite.Node.Transfer
import Zaxonlite.Registry.Stop

/-!
# Handing over to the next configuration

A stop sign is the last entry of its configuration. A survivor that has applied it rebuilds the registry
the sign names, takes its configuration as its own and continues on the same slot line; from then on its
entries are hashed under the new configuration.
-/

namespace Zaxonlite

open Program

def Decided.voterIds (d : Decided) : List ℕ :=
  (d.nodes.filter fun record => record.role.capabilities.votes).map NodeRecord.id

def adoptDecidedMembers (next : Decided) : Op Unit := do
  let m ← get
  refuseIf (next.voterIds.contains m.node.identity.nodeId != m.node.capabilities.votes)
    .roleMembershipMismatch
  setNode fun n => { n with single := n.capabilities.votes && next.voterIds.length == 1 }

def Node.inConfiguration (n : Node) (configurationId : ℕ) : Node :=
  { n with identity := { n.identity with configurationId := configurationId } }

/-- The handover to a rebuilt registry. A one-member configuration campaigns at once, with these turns of
effects; a node that is still joining publishes no anchor. -/
def handOver (next : Decided) (joining : Bool) (campaign : List Effects) : Op Unit := do
  setNode fun n => n.inConfiguration next.configurationId
  adoptDecidedMembers next
  let m ← get
  doIf m.node.single (consumeEffects campaign)
  let m ← get
  doIf (!joining && m.node.capabilities.materializes &&
    decide (m.node.durableStateSlot < m.node.appliedSlot)) createStateAnchor
  setNode fun n => { n with membershipChangePending := false }

/-- `completeMembershipChange`, given the stop the core has decided and its slot. Returns the registry of
the new configuration. -/
def completeMembershipChange (decided : Decided) (stop : Option (StopSign × ℕ)) (joining : Bool)
    (campaign : List Effects) : Op Decided := do
  let m ← get
  match stop with
  | none => throw .noStopSign
  | some (sign, stopSlot) =>
    refuseIf (decide (m.node.appliedSlot < stopSlot)) .stopNotApplied
    match parseStopMetadata sign.metadata with
    | .error _ => throw .invalidStopMetadata
    | .ok parsed =>
      refuseIf (m.node.capabilities.votes && !sign.members.contains m.node.identity.nodeId)
        .retiredByReconfiguration
      match decided.reconstructNextRegistry parsed sign.configurationId with
      | .error _ => throw .registryMismatch
      | .ok next =>
        handOver next joining campaign
        pure next

end Zaxonlite
