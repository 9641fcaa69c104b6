import Zaxonlite.Lib.LatestTable
import Zaxonlite.Lib.Run
import Zaxonlite.Node.Trimming
import Zaxonlite.Registry.Decided

/-!
# Trim candidates

A leader proposes to trim through the least durable slot its data replicas have reported. Reports come
from every registered node, in any order, and are kept in a table of nine slots, one for each node id
that has spoken. Membership and configuration move on underneath; the table forgets nobody. A proposed
trim is always covered by the latest reports of the current data replicas. What the table loses is the
reports of ids it had no slot for.
-/

namespace Zaxonlite

open Run

/-- One replica's reported progress. -/
structure Frontier where
  nodeId : ℕ
  configurationId : ℕ
  durableStateSlot : ℕ
  historyHash : HashBytes
  executedSlot : ℕ
  persistedSlot : ℕ
  localDeleteFloor : ℕ
  deriving DecidableEq

structure Candidate where
  throughSlot : ℕ
  historyHash : HashBytes
  deriving DecidableEq

inductive ProposalError where
  | historyMismatch
  | storageFailed
  deriving DecidableEq

/-! ### The policy -/

def findFrontier (frontiers : List (Option Frontier)) (id configurationId : ℕ) : Option Frontier :=
  frontiers.findSome? fun slot =>
    slot.filter fun frontier => frontier.nodeId = id ∧ frontier.configurationId = configurationId

/-- The first loop of `candidate`: the least durable slot over the replicas, or nothing when one of them
has no report in the configuration. -/
def minimumFrontier (frontiers : List (Option Frontier)) (configurationId : ℕ) :
    List ℕ → Option Candidate → Option (Option Candidate)
  | [], minimum => some minimum
  | id :: rest, minimum =>
    match findFrontier frontiers id configurationId with
    | none => none
    | some frontier =>
      minimumFrontier frontiers configurationId rest
        (match minimum with
        | none => some ⟨frontier.durableStateSlot, frontier.historyHash⟩
        | some held =>
          if frontier.durableStateSlot < held.throughSlot then
            some ⟨frontier.durableStateSlot, frontier.historyHash⟩
          else some held)

/-- A replica at the candidate's slot reported another history. -/
def disagrees (frontiers : List (Option Frontier)) (configurationId : ℕ) (chosen : Candidate) (id : ℕ) :
    Bool :=
  match findFrontier frontiers id configurationId with
  | none => false
  | some frontier =>
    frontier.durableStateSlot = chosen.throughSlot && frontier.historyHash ≠ chosen.historyHash

def candidate (frontiers : List (Option Frontier)) (dataReplicas : List ℕ) (configurationId : ℕ) :
    Except ProposalError (Option Candidate) :=
  match minimumFrontier frontiers configurationId dataReplicas none with
  | none => .ok none
  | some none => .ok none
  | some (some chosen) =>
    if dataReplicas.any (disagrees frontiers configurationId chosen) then .error .historyMismatch
    else if chosen.throughSlot = 0 then .ok none
    else .ok (some chosen)

/-! ### The server -/

/-- What the server reads of its node. -/
structure TrimNode where
  identity : Identity
  materializes : Bool
  members : List ℕ
  decidedRegistry : Option Decided
  durableStateSlot : ℕ
  historyHashAtAnchor : HashBytes
  appliedSlot : ℕ
  persistedThrough : ℕ
  trimmedThrough : ℕ
  membershipChangePending : Bool
  stopPending : Bool
  proposalFrontier : ℕ
  trimState : TrimState
  fatalStorageError : Bool

namespace TrimNode

def frontier (n : TrimNode) : Frontier where
  nodeId := n.identity.nodeId
  configurationId := n.identity.configurationId
  durableStateSlot := if n.materializes then n.durableStateSlot else 0
  historyHash := n.historyHashAtAnchor
  executedSlot := n.appliedSlot
  persistedSlot := n.persistedThrough
  localDeleteFloor := n.trimmedThrough

def proposalFrontierSettled (n : TrimNode) : Bool :=
  decide (n.proposalFrontier ≤ n.appliedSlot + 1)

/-- The decided registry gives the member a role that holds no data. -/
def holdsNoData (n : TrimNode) (member : ℕ) : Bool :=
  match n.decidedRegistry with
  | none => false
  | some decided =>
    match decided.findNode member with
    | none => false
    | some record => !record.role.capabilities.materializes

def dataReplicaIds (n : TrimNode) : List ℕ :=
  n.members.filter fun member => !n.holdsNoData member

/-- `Node.proposeTrim`: the record it appends to the log. -/
def proposeTrim (n : TrimNode) (chosen : Candidate) : Except ProposalError (Option TrimRecord) :=
  if n.fatalStorageError then .error .storageFailed
  else if !n.proposalFrontierSettled then .ok none
  else .ok (Zaxonlite.proposeTrim n.trimState chosen.throughSlot chosen.historyHash
    n.identity.configurationId)

end TrimNode

/-- The server's table beside its node. -/
structure TrimServer where
  node : TrimNode
  frontiers : List (Option Frontier)

namespace TrimServer

def recordFrontier (s : TrimServer) (frontier : Frontier) : TrimServer :=
  { s with frontiers := LatestTable.put Frontier.nodeId s.frontiers frontier }

/-- The trim `maybeProposeTrim` proposes from the table as it stands. -/
def proposal (s : TrimServer) : Except ProposalError (Option TrimRecord) :=
  if s.node.dataReplicaIds = [] then .ok none
  else
    match candidate s.frontiers s.node.dataReplicaIds s.node.identity.configurationId with
    | .error e => .error e
    | .ok none => .ok none
    | .ok (some chosen) =>
      if chosen.throughSlot ≤ s.node.trimState.throughSlot then .ok none
      else s.node.proposeTrim chosen

/-- The gates of `maybeProposeTrim`. -/
def mayPropose (s : TrimServer) : Bool :=
  !(s.node.membershipChangePending || s.node.stopPending) && s.node.proposalFrontierSettled

/-- `maybeProposeTrim`: the node's own report is recorded first. -/
def maybeProposeTrim (s : TrimServer) : TrimServer × Except ProposalError (Option TrimRecord) :=
  if s.mayPropose then
    (s.recordFrontier s.node.frontier, (s.recordFrontier s.node.frontier).proposal)
  else (s, .ok none)

end TrimServer

/-! ### What a candidate rests on -/

section Candidate

variable {frontiers : List (Option Frontier)} {configurationId : ℕ} {dataReplicas : List ℕ}

/-- The least durable slot so far is at most every report met, and one of them. -/
theorem minimumFrontier_spec {ids : List ℕ} {minimum : Option Candidate} {chosen : Candidate}
    (h : minimumFrontier frontiers configurationId ids minimum = some (some chosen)) :
    (∀ id ∈ ids, ∃ f, findFrontier frontiers id configurationId = some f ∧
        chosen.throughSlot ≤ f.durableStateSlot) ∧
      (∀ held ∈ minimum, chosen.throughSlot ≤ held.throughSlot) ∧
      (minimum = some chosen ∨ ∃ id ∈ ids, ∃ f, findFrontier frontiers id configurationId = some f ∧
        chosen = ⟨f.durableStateSlot, f.historyHash⟩) := by
  induction ids generalizing minimum with
  | nil =>
    rw [minimumFrontier, Option.some.injEq] at h
    subst h
    refine ⟨fun id hid => absurd hid List.not_mem_nil, ?_, Or.inl rfl⟩
    intro held hheld
    rw [Option.mem_some_iff] at hheld
    rw [hheld]
  | cons id ids ih =>
    rw [minimumFrontier] at h
    cases hfind : findFrontier frontiers id configurationId with
    | none =>
      rw [hfind] at h
      cases h
    | some f =>
      rw [hfind] at h
      obtain ⟨hall, hheld, hfrom⟩ := ih h
      -- What the minimum is after this replica.
      have hnext : chosen.throughSlot ≤ f.durableStateSlot ∧
          (∀ held ∈ minimum, chosen.throughSlot ≤ held.throughSlot) := by
        cases minimum with
        | none =>
          exact ⟨hheld _ rfl, fun held hnone => absurd hnone (Option.not_mem_none held)⟩
        | some held =>
          simp only [Option.mem_some_iff, forall_eq'] at hheld ⊢
          split at hheld
          · rename_i hless
            have hle := hheld _ rfl
            simp only at hle
            omega
          · rename_i hge
            have hle := hheld _ rfl
            omega
      refine ⟨?_, hnext.2, ?_⟩
      · intro id' hid'
        rcases List.mem_cons.1 hid' with rfl | hid'
        · exact ⟨f, hfind, hnext.1⟩
        · exact hall id' hid'
      · rcases hfrom with hsame | ⟨id', hid', f', hf', hchosen⟩
        · cases minimum with
          | none =>
            simp only [Option.some.injEq] at hsame
            exact Or.inr ⟨id, List.mem_cons_self, f, hfind, hsame.symm⟩
          | some held =>
            simp only at hsame
            split at hsame
            · rw [Option.some.injEq] at hsame
              exact Or.inr ⟨id, List.mem_cons_self, f, hfind, hsame.symm⟩
            · exact Or.inl hsame
        · exact Or.inr ⟨id', List.mem_cons_of_mem id hid', f', hf', hchosen⟩

/-- The minimum is missing exactly when some replica has no report in the configuration. -/
theorem minimumFrontier_eq_none {ids : List ℕ} {minimum : Option Candidate} :
    minimumFrontier frontiers configurationId ids minimum = none ↔
      ∃ id ∈ ids, findFrontier frontiers id configurationId = none := by
  induction ids generalizing minimum with
  | nil => simp [minimumFrontier]
  | cons id ids ih =>
    rw [minimumFrontier]
    cases hfind : findFrontier frontiers id configurationId with
    | none => simp [hfind]
    | some f => simp [hfind, ih]

/-- A candidate is at most every replica's report, is reached by one of them, and carries the history
every replica at its slot reported. -/
theorem candidate_spec {chosen : Candidate}
    (h : candidate frontiers dataReplicas configurationId = .ok (some chosen)) :
    (∀ id ∈ dataReplicas, ∃ f, findFrontier frontiers id configurationId = some f ∧
        chosen.throughSlot ≤ f.durableStateSlot ∧
        (f.durableStateSlot = chosen.throughSlot → f.historyHash = chosen.historyHash)) ∧
      ∃ id ∈ dataReplicas, ∃ f, findFrontier frontiers id configurationId = some f ∧
        f.durableStateSlot = chosen.throughSlot := by
  rw [candidate] at h
  cases hmin : minimumFrontier frontiers configurationId dataReplicas none with
  | none =>
    rw [hmin] at h
    cases h
  | some minimum =>
    rw [hmin] at h
    cases minimum with
    | none => cases h
    | some least =>
      simp only at h
      by_cases hany : dataReplicas.any (disagrees frontiers configurationId least) = true
      · rw [if_pos hany] at h
        cases h
      rw [if_neg hany] at h
      by_cases hzero : least.throughSlot = 0
      · rw [if_pos hzero] at h
        cases h
      rw [if_neg hzero] at h
      obtain rfl : least = chosen := Option.some.inj (Except.ok.inj h)
      obtain ⟨hall, -, hfrom⟩ := minimumFrontier_spec hmin
      constructor
      · intro id hid
        obtain ⟨f, hf, hle⟩ := hall id hid
        refine ⟨f, hf, hle, ?_⟩
        intro hsame
        by_contra hne
        apply hany
        rw [List.any_eq_true]
        refine ⟨id, hid, ?_⟩
        rw [disagrees, hf]
        simp [hsame, hne]
      · rcases hfrom with hnone | ⟨id, hid, f, hf, hchosen⟩
        · cases hnone
        · exact ⟨id, hid, f, hf, by rw [hchosen]⟩

end Candidate

/-! ### Runs of reports -/

/-- A proposed trim with the node that proposed it and the reports received by then. -/
structure TrimProposal where
  node : TrimNode
  received : List Frontier
  record : TrimRecord

/-- A server with the reports it has recorded since it started, and every trim proposed. -/
structure TrimRun where
  server : TrimServer
  received : List Frontier
  proposals : List TrimProposal

namespace TrimRun

def started (n : TrimNode) : TrimRun :=
  ⟨⟨n, List.replicate maxMembers none⟩, [], []⟩

def record (s : TrimRun) (f : Frontier) : TrimRun :=
  { s with server := s.server.recordFrontier f, received := s.received ++ [f] }

def proposalsOf (s : TrimRun) : Except ProposalError (Option TrimRecord) → List TrimProposal
  | .ok (some record) => s.proposals ++ [⟨s.server.node, s.received, record⟩]
  | _ => s.proposals

/-- `maybeProposeTrim` in a run. -/
def attempt (s : TrimRun) : TrimRun :=
  if s.server.mayPropose then
    let s := s.record s.server.node.frontier
    { s with proposals := s.proposalsOf s.server.proposal }
  else s

end TrimRun

/-- One step: a report arrives from any node, the node reports its own progress, its state, membership and
configuration move in any way, the leader attempts a trim, or the process restarts. -/
inductive TrimRunStep : TrimRun → TrimRun → Prop
  | report {s : TrimRun} (f : Frontier) : TrimRunStep s (s.record f)
  | broadcast {s : TrimRun} : TrimRunStep s (s.record s.server.node.frontier)
  | node {s : TrimRun} (n : TrimNode) : TrimRunStep s { s with server := { s.server with node := n } }
  | attempt {s : TrimRun} : TrimRunStep s s.attempt
  | restart {s : TrimRun} (n : TrimNode) :
      TrimRunStep s { TrimRun.started n with proposals := s.proposals }

def latestReport (received : List Frontier) (id : ℕ) : Option Frontier :=
  LatestTable.latest Frontier.nodeId received id

/-- The first nine node ids a report was received from. -/
def firstReporters (received : List Frontier) : List ℕ :=
  LatestTable.admitted Frontier.nodeId maxMembers received

/-- The trim is covered by the latest reports of the data replicas of its configuration. -/
structure TrimProposal.Covered (p : TrimProposal) : Prop where
  configuration : p.record.configurationId = p.node.identity.configurationId
  reported : ∀ id ∈ p.node.dataReplicaIds, ∃ f, latestReport p.received id = some f ∧
    f.configurationId = p.node.identity.configurationId ∧
    p.record.throughSlot ≤ f.durableStateSlot ∧
    (f.durableStateSlot = p.record.throughSlot → f.historyHash = p.record.historyHash)
  attained : ∃ id ∈ p.node.dataReplicaIds, ∃ f, latestReport p.received id = some f ∧
    f.configurationId = p.node.identity.configurationId ∧ f.durableStateSlot = p.record.throughSlot

/-- The table is the one the received reports make, and every proposal was covered. -/
structure TrimRun.Sound (s : TrimRun) : Prop where
  table : s.server.frontiers =
    s.received.foldl (LatestTable.put Frontier.nodeId) (List.replicate maxMembers none)
  covered : ∀ p ∈ s.proposals, p.Covered

namespace TrimRun

variable {s t : TrimRun}

theorem sound_started (n : TrimNode) : (started n).Sound :=
  ⟨rfl, fun _ hp => absurd hp List.not_mem_nil⟩

theorem Sound.record (h : s.Sound) (f : Frontier) : (s.record f).Sound := by
  constructor
  · show LatestTable.put Frontier.nodeId s.server.frontiers f = _
    rw [h.table]
    show _ = (s.received ++ [f]).foldl _ _
    rw [List.foldl_append]
    rfl
  · exact h.covered

/-- What the table finds for a node in a configuration. -/
theorem Sound.findFrontier_eq (h : s.Sound) (id configurationId : ℕ) :
    findFrontier s.server.frontiers id configurationId =
      if id ∈ firstReporters s.received then
        (latestReport s.received id).filter (fun f => f.configurationId = configurationId)
      else none := by
  rw [h.table]
  exact LatestTable.find_foldl_put (fun f : Frontier => f.configurationId = configurationId) maxMembers
    s.received id

theorem Sound.latest_of_find (h : s.Sound) {id configurationId : ℕ} {f : Frontier}
    (hf : findFrontier s.server.frontiers id configurationId = some f) :
    latestReport s.received id = some f ∧ f.configurationId = configurationId := by
  rw [h.findFrontier_eq] at hf
  split at hf
  · rw [Option.filter_eq_some_iff] at hf
    exact ⟨hf.1, of_decide_eq_true hf.2⟩
  · cases hf

theorem Sound.covered_of_proposal (h : s.Sound) {record : TrimRecord}
    (hproposal : s.server.proposal = .ok (some record)) :
    (⟨s.server.node, s.received, record⟩ : TrimProposal).Covered := by
  rw [TrimServer.proposal] at hproposal
  by_cases hnone : s.server.node.dataReplicaIds = []
  · rw [if_pos hnone] at hproposal
    cases hproposal
  rw [if_neg hnone] at hproposal
  cases hcandidate : candidate s.server.frontiers s.server.node.dataReplicaIds
      s.server.node.identity.configurationId with
  | error e =>
    rw [hcandidate] at hproposal
    cases hproposal
  | ok found =>
    rw [hcandidate] at hproposal
    cases found with
    | none => cases hproposal
    | some chosen =>
      simp only at hproposal
      split at hproposal
      · cases hproposal
      · rename_i hfurther
        rw [TrimNode.proposeTrim] at hproposal
        split at hproposal
        · cases hproposal
        split at hproposal
        · cases hproposal
        rw [Zaxonlite.proposeTrim, if_neg hfurther, Except.ok.injEq, Option.some.injEq] at hproposal
        subst hproposal
        obtain ⟨hall, id, hid, f, hf, hreach⟩ := candidate_spec hcandidate
        refine ⟨rfl, ?_, ?_⟩
        · intro id' hid'
          obtain ⟨f', hf', hle, hhash⟩ := hall id' hid'
          obtain ⟨hlatest, hconfiguration⟩ := h.latest_of_find hf'
          exact ⟨f', hlatest, hconfiguration, hle, hhash⟩
        · obtain ⟨hlatest, hconfiguration⟩ := h.latest_of_find hf
          exact ⟨id, hid, f, hlatest, hconfiguration, hreach⟩

theorem Sound.attempt (h : s.Sound) : s.attempt.Sound := by
  rw [TrimRun.attempt]
  split
  · have hrecord := h.record s.server.node.frontier
    refine ⟨hrecord.table, ?_⟩
    intro p hp
    simp only [proposalsOf] at hp
    cases hproposal : (s.record s.server.node.frontier).server.proposal with
    | error e =>
      rw [hproposal] at hp
      exact hrecord.covered p hp
    | ok found =>
      rw [hproposal] at hp
      cases found with
      | none => exact hrecord.covered p hp
      | some record =>
        rcases List.mem_append.1 hp with hp | hp
        · exact hrecord.covered p hp
        · rw [List.mem_singleton] at hp
          rw [hp]
          exact hrecord.covered_of_proposal hproposal
  · exact h

theorem Sound.step (h : s.Sound) (hstep : TrimRunStep s t) : t.Sound := by
  cases hstep with
  | report f => exact h.record f
  | broadcast => exact h.record _
  | node n => exact ⟨h.table, h.covered⟩
  | attempt => exact h.attempt
  | restart n => exact ⟨rfl, h.covered⟩

def Starts (s : TrimRun) : Prop :=
  ∃ n, s = started n

theorem sound_of_reachable (h : Reachable Starts TrimRunStep s) : s.Sound := by
  apply h.invariant
  · rintro _ ⟨n, rfl⟩
    exact sound_started n
  · intro _ _ hsound hstep
    exact hsound.step hstep

/-! ### Reports that are lost -/

/-- A replica has reported in the current configuration. -/
def HasReported (s : TrimRun) (id : ℕ) : Prop :=
  ∃ f ∈ s.received, f.nodeId = id ∧ f.configurationId = s.server.node.identity.configurationId

/-- The report used for a replica: the one the table gives in the current configuration. -/
def usedReport (s : TrimRun) (id : ℕ) : Option Frontier :=
  findFrontier s.server.frontiers id s.server.node.identity.configurationId

/-- The candidate is withheld for want of a report. -/
def Frozen (s : TrimRun) : Prop :=
  minimumFrontier s.server.frontiers s.server.node.identity.configurationId s.server.node.dataReplicaIds
    none = none

instance (s : TrimRun) : Decidable s.Frozen :=
  inferInstanceAs (Decidable (minimumFrontier s.server.frontiers _ s.server.node.dataReplicaIds none = none))

theorem proposal_of_frozen (h : s.Frozen) : s.server.proposal = .ok none := by
  rw [TrimServer.proposal]
  split
  · rfl
  · rw [candidate, h]

/-- Every data replica whose latest report is in the current configuration was among the first nine nodes
to report; and once all of them have reported in it, none has since reported in another one. -/
structure TableSuffices (s : TrimRun) : Prop where
  roomFor : ∀ id ∈ s.server.node.dataReplicaIds, ∀ f ∈ latestReport s.received id,
    f.configurationId = s.server.node.identity.configurationId → id ∈ firstReporters s.received
  noneStale : (∀ id ∈ s.server.node.dataReplicaIds, s.HasReported id) →
    ∀ id ∈ s.server.node.dataReplicaIds, ∀ f ∈ latestReport s.received id,
      f.configurationId = s.server.node.identity.configurationId

theorem HasReported.latest {id : ℕ} (h : s.HasReported id) : ∃ f, latestReport s.received id = some f := by
  obtain ⟨f, hf, rfl, -⟩ := h
  exact LatestTable.exists_latest hf

theorem Sound.usedReport_eq (h : s.Sound) (hroom : s.TableSuffices) {id : ℕ}
    (hid : id ∈ s.server.node.dataReplicaIds) :
    s.usedReport id = (latestReport s.received id).filter
      (fun f => f.configurationId = s.server.node.identity.configurationId) := by
  rw [usedReport, h.findFrontier_eq]
  split
  · rfl
  · rename_i hout
    symm
    rw [Option.filter_eq_none_iff]
    intro f hf hconfiguration
    exact hout (hroom.roomFor id hid f hf (of_decide_eq_true hconfiguration))

theorem Sound.not_frozen (h : s.Sound) (hroom : s.TableSuffices)
    (hall : ∀ id ∈ s.server.node.dataReplicaIds, s.HasReported id) : ¬ s.Frozen := by
  intro hfrozen
  obtain ⟨id, hid, hnone⟩ := minimumFrontier_eq_none.1 hfrozen
  obtain ⟨f, hf⟩ := (hall id hid).latest
  have hconfiguration := hroom.noneStale hall id hid f hf
  rw [h.findFrontier_eq, if_pos (hroom.roomFor id hid f hf hconfiguration), hf, Option.filter_some,
    if_pos (decide_eq_true hconfiguration)] at hnone
  cases hnone

/-- **Chosen trims are covered; reports are lost once nine ids have spoken.** In every run each proposed
trim is covered by the latest reports of the data replicas. The report used for each of them is the
latest, and nothing freezes once all have reported, exactly while the table suffices. -/
theorem trims_covered (h : Reachable Starts TrimRunStep s) :
    (∀ p ∈ s.proposals, p.Covered) ∧
      (((∀ id ∈ s.server.node.dataReplicaIds, s.usedReport id = (latestReport s.received id).filter
            (fun f => f.configurationId = s.server.node.identity.configurationId)) ∧
          ((∀ id ∈ s.server.node.dataReplicaIds, s.HasReported id) → ¬ s.Frozen)) ↔
        s.TableSuffices) := by
  have hsound := sound_of_reachable h
  refine ⟨hsound.covered, ?_, ?_⟩
  · rintro ⟨hused, hfree⟩
    have hroom : ∀ id ∈ s.server.node.dataReplicaIds, ∀ f ∈ latestReport s.received id,
        f.configurationId = s.server.node.identity.configurationId →
          id ∈ firstReporters s.received := by
      intro id hid f hf hconfiguration
      by_contra hout
      have hnone := hused id hid
      rw [usedReport, hsound.findFrontier_eq, if_neg hout, hf, Option.filter_some,
        if_pos (decide_eq_true hconfiguration)] at hnone
      cases hnone
    refine ⟨hroom, ?_⟩
    intro hall id hid f hf
    by_contra hstale
    apply hfree hall
    apply minimumFrontier_eq_none.2
    refine ⟨id, hid, ?_⟩
    have hnone := hused id hid
    rwa [hf, Option.filter_some, if_neg (by simpa using hstale)] at hnone
  · intro hroom
    exact ⟨fun id hid => hsound.usedReport_eq hroom hid, hsound.not_frozen hroom⟩

/-! ### Voters and learners -/

def leaderOfThree : TrimNode where
  identity := ⟨1, 1, 1⟩
  materializes := true
  members := [1, 2, 3]
  decidedRegistry := none
  durableStateSlot := 10
  historyHashAtAnchor := Journal.zeroHash
  appliedSlot := 10
  persistedThrough := 10
  trimmedThrough := 0
  membershipChangePending := false
  stopPending := false
  proposalFrontier := 11
  trimState := TrimState.initial
  fatalStorageError := false

/-- A node's report that it is durable through slot ten. -/
def reportOfTen (id : ℕ) : Frontier :=
  ⟨id, 1, 10, Journal.zeroHash, 10, 10, 0⟩

theorem reachable_reports (h : Reachable Starts TrimRunStep s) (reports : List Frontier) :
    Reachable Starts TrimRunStep (reports.foldl record s) := by
  induction reports generalizing s with
  | nil => exact h
  | cons f reports ih => exact ih (h.step (.report f))

/-- Voters two and three report, the leader proposes a trim, and eight learners report after it. -/
def votersFirst : TrimRun :=
  ([4, 5, 6, 7, 8, 9, 10, 11].map reportOfTen).foldl record
    (([2, 3].map reportOfTen).foldl record (started leaderOfThree)).attempt

theorem trims_covered_votersFirst :
    votersFirst.proposals.map (fun p => p.record.throughSlot) = [10] ∧
      (∀ p ∈ votersFirst.proposals, p.Covered) ∧
      (((∀ id ∈ votersFirst.server.node.dataReplicaIds, votersFirst.usedReport id =
            (latestReport votersFirst.received id).filter
              (fun f => f.configurationId = votersFirst.server.node.identity.configurationId)) ∧
          ((∀ id ∈ votersFirst.server.node.dataReplicaIds, votersFirst.HasReported id) →
            ¬ votersFirst.Frozen)) ↔ votersFirst.TableSuffices) := by
  have hreports : Reachable Starts TrimRunStep (([2, 3].map reportOfTen).foldl record (started leaderOfThree)) :=
    reachable_reports (.start ⟨leaderOfThree, rfl⟩) _
  exact ⟨by decide, trims_covered (reachable_reports (hreports.step .attempt) _)⟩

/-- The leader and eight learners report, then the other two voters. -/
def learnersFirst : TrimRun :=
  ([1, 4, 5, 6, 7, 8, 9, 10, 11, 2, 3].map reportOfTen).foldl record (started leaderOfThree)

theorem reachable_learnersFirst : Reachable Starts TrimRunStep learnersFirst :=
  reachable_reports (.start ⟨leaderOfThree, rfl⟩) _

/-- Every data replica has reported in the configuration, and trimming is frozen: the reports of voters
two and three were dropped. -/
theorem frozen_after_learners :
    Reachable Starts TrimRunStep learnersFirst ∧
      (∀ id ∈ learnersFirst.server.node.dataReplicaIds, learnersFirst.HasReported id) ∧
      latestReport learnersFirst.received 2 = some (reportOfTen 2) ∧ learnersFirst.usedReport 2 = none ∧
      learnersFirst.Frozen ∧ learnersFirst.server.maybeProposeTrim.2 = .ok none := by
  refine ⟨reachable_learnersFirst, ?_, by decide, by decide, by decide, by decide⟩
  intro id hid
  have hmem : id ∈ [1, 2, 3] := hid
  refine ⟨reportOfTen id, ?_, rfl, rfl⟩
  show reportOfTen id ∈ [1, 4, 5, 6, 7, 8, 9, 10, 11, 2, 3].map reportOfTen
  apply List.mem_map_of_mem
  simp only [List.mem_cons, List.not_mem_nil, or_false] at hmem ⊢
  omega

end TrimRun

end Zaxonlite
