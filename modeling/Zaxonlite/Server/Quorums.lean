import Zaxonlite.Lib.Run
import Zaxonlite.Registry.Decided
import Zaxonlite.Storage.Journal

/-!
# Quorum waiters

Two operations wait for a quorum. A linearizable read asks every peer whether it is still bound by this
leader's ballot, and a transfer asks the voters to vouch for the history it installs. Both count distinct
node ids in a nine-entry array. The history probe counts voters only. The fence counts any node whose
promise is the ballot, and fails on any other answer: also on that of a learner, which promises nothing,
and on that of a voter that lags behind.
-/

namespace Zaxonlite

open Run

/-- `noteAck`: one more distinct id, as long as the array has room. -/
def noteMember (acked : List ℕ) (member : ℕ) : List ℕ :=
  if member ∈ acked then acked
  else if maxMembers ≤ acked.length then acked
  else acked ++ [member]

theorem nodup_noteMember {acked : List ℕ} (h : acked.Nodup) (member : ℕ) :
    (noteMember acked member).Nodup := by
  rw [noteMember]
  split
  · exact h
  · rename_i hnew
    split
    · exact h
    · apply h.append (List.nodup_singleton member)
      intro n hn hmember
      rw [List.mem_singleton] at hmember
      exact hnew (hmember ▸ hn)

theorem mem_noteMember {acked : List ℕ} {member n : ℕ} (h : n ∈ noteMember acked member) :
    n ∈ acked ∨ n = member := by
  rw [noteMember] at h
  split at h
  · exact Or.inl h
  · split at h
    · exact Or.inl h
    · rw [List.mem_append, List.mem_singleton] at h
      exact h

/-! ### Read fences -/

structure FenceRequest where
  ballot : Ballot
  fenceId : ℕ
  fenceSlot : ℕ
  deriving DecidableEq

structure FenceAck where
  fenceId : ℕ
  ok : Bool
  promised : Ballot
  deriving DecidableEq

structure FenceWaiter where
  id : ℕ
  ballot : Ballot
  fenceSlot : ℕ
  acked : List ℕ
  needed : ℕ
  failed : Bool
  done : Bool
  deriving DecidableEq

def FenceWaiter.noteAck (w : FenceWaiter) (member : ℕ) : FenceWaiter :=
  { w with acked := noteMember w.acked member }

/-- What the fences read of the consensus core. -/
structure FenceCore where
  ballot : Ballot
  leader : Bool
  appliedSlot : ℕ
  decidedThrough : ℕ
  leaderBase : ℕ

structure FenceServer where
  nodeId : ℕ
  core : FenceCore
  failed : Bool
  nextFenceId : ℕ
  fences : List FenceWaiter

/-- `onFenceRequest` on a node with this promise. -/
def onFenceRequest (promised : Ballot) (request : FenceRequest) : FenceAck :=
  ⟨request.fenceId, request.ballot = promised, promised⟩

/-- The loop of `onFenceAck`: the first fence with the id takes the acknowledgement. -/
def noteFenceAck (ack : FenceAck) (sender : ℕ) : List FenceWaiter → List FenceWaiter
  | [] => []
  | w :: rest =>
    if w.id ≠ ack.fenceId then w :: noteFenceAck ack sender rest
    else if ack.ok ∧ ack.promised = w.ballot then w.noteAck sender :: rest
    else { w with failed := true } :: rest

namespace FenceServer

/-- One turn of the fence resolution in `pumpFallible`. -/
def resolve (core : FenceCore) (w : FenceWaiter) : FenceWaiter :=
  let failed := w.failed || decide (w.ballot ≠ core.ballot) || !core.leader
  { w with
    failed := failed
    done := failed || (decide (w.needed ≤ w.acked.length) && decide (w.fenceSlot ≤ core.appliedSlot)) }

/-- The fence resolution in `pumpFallible`: the fences that are complete leave the list. -/
def pump (s : FenceServer) : FenceServer × List FenceWaiter :=
  let resolved := s.fences.map (resolve s.core)
  ({ s with fences := resolved.filter fun w => !w.done }, resolved.filter fun w => w.done)

/-- The waiter `awaitReadFence` registers; it counts this node already. -/
def newFence (s : FenceServer) (needed : ℕ) : FenceWaiter where
  id := s.nextFenceId
  ballot := s.core.ballot
  fenceSlot := max s.core.decidedThrough (s.core.leaderBase - 1)
  acked := [s.nodeId]
  needed := needed
  failed := false
  done := false

def register (s : FenceServer) (w : FenceWaiter) : FenceServer :=
  { s with nextFenceId := s.nextFenceId + 1, fences := s.fences ++ [w] }

/-- `failEverything`, for the fences. -/
def failEverything (s : FenceServer) : FenceServer × List FenceWaiter :=
  ({ s with fences := [] }, s.fences.map fun w => { w with failed := true, done := true })

end FenceServer

/-! ### History probes -/

structure HistoryProbe where
  nonce : ℕ
  slot : ℕ
  hash : HashBytes
  deriving DecidableEq

structure HistoryProbeWaiter where
  nonce : ℕ
  slot : ℕ
  hash : HashBytes
  voters : List ℕ
  acked : List ℕ
  needed : ℕ

/-- `HistoryProbeWaiter.noteAck`: ids of voters only. -/
def HistoryProbeWaiter.noteAck (w : HistoryProbeWaiter) (member : ℕ) : HistoryProbeWaiter :=
  if member ∈ w.voters then { w with acked := noteMember w.acked member } else w

/-- `onCheckpointProofRequest` on a node with this history: the probe is echoed if the hash is its own. -/
def onCheckpointProofRequest (historyHashAt : ℕ → Option HashBytes) (probe : HistoryProbe) :
    Option HistoryProbe :=
  if historyHashAt probe.slot = some probe.hash then some probe else none

def onCheckpointProofReply (vouch : HistoryProbe) (sender : ℕ) (w : HistoryProbeWaiter) :
    HistoryProbeWaiter :=
  if w.nonce ≠ vouch.nonce ∨ w.slot ≠ vouch.slot ∨ w.hash ≠ vouch.hash then w else w.noteAck sender

/-- The nonce after this one, wrapping around past zero. -/
def nextProofNonce (nonce : ℕ) : ℕ :=
  if (nonce + 1) % 2 ^ 64 = 0 then 1 else (nonce + 1) % 2 ^ 64

/-- The waiter `confirmHistoryQuorum` registers; the source of the transfer vouches for it. -/
def newProbe (members : List ℕ) (nonce slot : ℕ) (hash : HashBytes) (source : ℕ) : HistoryProbeWaiter :=
  HistoryProbeWaiter.noteAck
    ⟨if nonce = 0 then 1 else nonce, slot, hash, members, [], members.length / 2 + 1⟩ source

end Zaxonlite
