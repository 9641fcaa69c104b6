import Zaxonlite.Server.Quorums

/-!
# Quorum waiters over whole runs

A leader with its fences among the registered nodes. Requests and acknowledgements may be reordered,
duplicated or lost; every node may promise further ballots, the leader's own core may move in any way, and
the membership may change. Beside the server stand its history probes, with the same freedom.
-/

namespace Zaxonlite

open Run

/-! ### Fences among their nodes -/

/-- A node's answer to a fence request, with the promise it was bound by. -/
structure FenceAnswer where
  node : ℕ
  request : FenceRequest
  promised : Ballot

/-- The acknowledgement the answer is sent as. -/
def FenceAnswer.ack (a : FenceAnswer) : FenceAck :=
  onFenceRequest a.promised a.request

/-- When a fence was registered: the voters it is to hear, and how far the run had come. -/
structure FenceBirth where
  id : ℕ
  voters : List ℕ
  answered : ℕ
  viewed : ℕ

/-- An acknowledgement on arrival: the fence it is for, if that is registered, and the voters then. -/
structure FenceDelivery where
  answer : FenceAnswer
  fence : Option FenceWaiter
  voters : List ℕ

/-- A server with the nodes around it. `answers`, `views`, `births` and `delivered` are the history of the
run: every answer given, the ballot the server led at after each change (none when it led nothing), the
registered fences and the acknowledgements that arrived. An answer once given may arrive at any time. -/
structure FenceSystem where
  server : FenceServer
  voters : List ℕ
  registered : List ℕ
  promised : ℕ → Ballot
  requests : List (ℕ × FenceRequest)
  answers : List FenceAnswer
  finished : List FenceWaiter
  births : List FenceBirth
  views : List (Option Ballot)
  delivered : List FenceDelivery

def FenceCore.view (core : FenceCore) : Option Ballot :=
  if core.leader then some core.ballot else none

namespace FenceSystem

/-- The server works on, with its completed fences set aside. -/
def pump (s : FenceSystem) : FenceSystem :=
  { s with server := s.server.pump.1, finished := s.finished ++ s.server.pump.2 }

/-- `awaitReadFence` up to its pump. -/
def await (s : FenceSystem) (readQuorum : List ℕ → ℕ) : FenceSystem :=
  let w := s.server.newFence (readQuorum s.voters)
  { s with
    server := s.server.register w
    requests := s.requests ++ s.registered.map fun n => (n, ⟨w.ballot, w.id, w.fenceSlot⟩)
    births := s.births ++ [⟨w.id, s.voters, s.answers.length, s.views.length - 1⟩] }

/-- `onFenceAck` up to its pump. -/
def deliver (s : FenceSystem) (a : FenceAnswer) : FenceSystem :=
  { s with
    server := { s.server with fences := noteFenceAck a.ack a.node s.server.fences }
    delivered := s.delivered ++
      [⟨a, s.server.fences.find? fun w => w.id = a.request.fenceId, s.voters⟩] }

def moved (s : FenceSystem) (core : FenceCore) : FenceSystem :=
  { s with server := { s.server with core := core }, views := s.views ++ [core.view] }

end FenceSystem

/-- One step. The core leads only as a voter and at a ballot of its own; a ballot of this node's is promised
by voters only, which are the nodes it prepares; and a registered node of a new configuration that is no
voter of it has promised none. A server that fails or retires leads nothing. -/
inductive FenceStep (readQuorum : List ℕ → ℕ) : FenceSystem → FenceSystem → Prop
  | await {s : FenceSystem} : s.server.failed = false → FenceStep readQuorum s (s.await readQuorum)
  | answer {s : FenceSystem} {n : ℕ} {request : FenceRequest} : (n, request) ∈ s.requests →
      FenceStep readQuorum s { s with answers := s.answers ++ [⟨n, request, s.promised n⟩] }
  | deliver {s : FenceSystem} {a : FenceAnswer} : a ∈ s.answers → FenceStep readQuorum s (s.deliver a)
  | promise {s : FenceSystem} {n : ℕ} {ballot : Ballot} :
      (ballot.node = s.server.nodeId → n ∈ s.voters) →
      FenceStep readQuorum s { s with promised := Function.update s.promised n ballot }
  | core {s : FenceSystem} {core : FenceCore} :
      (core.leader = true → core.ballot.node = s.server.nodeId ∧ s.server.nodeId ∈ s.voters) →
      FenceStep readQuorum s (s.moved core)
  | pump {s : FenceSystem} : FenceStep readQuorum s s.pump
  | timeout {s : FenceSystem} (id : ℕ) :
      FenceStep readQuorum s { s with server :=
        { s.server with fences := s.server.fences.filter fun w => w.id ≠ id } }
  | failEverything {s : FenceSystem} (failed : Bool) :
      FenceStep readQuorum s { s with
        server := { s.server.failEverything.1 with failed := s.server.failed || failed }
        finished := s.finished ++ s.server.failEverything.2
        views := s.views ++ [none, s.server.core.view] }
  | reconfigure {s : FenceSystem} {core : FenceCore} {voters registered : List ℕ} : core.leader = false →
      (∀ n ∈ registered, (s.promised n).node = s.server.nodeId → n ∈ voters) →
      FenceStep readQuorum s
        ({ s.moved core with voters := voters, registered := registered } : FenceSystem).pump

/-- A process that has just started, among nodes of which only voters promised one of its ballots. -/
def FenceSystem.Starts (s : FenceSystem) : Prop :=
  s.server.core.leader = false ∧ s.server.fences = [] ∧ s.server.nextFenceId = 1 ∧
    (∀ n ∈ s.registered, (s.promised n).node = s.server.nodeId → n ∈ s.voters) ∧
    s.requests = [] ∧ s.answers = [] ∧ s.finished = [] ∧ s.births = [] ∧ s.views = [none] ∧
    s.delivered = []

/-- The acknowledgement tells its fence nothing wrong: it confirms the ballot, or comes from a voter bound
to a higher one. -/
def FenceDelivery.Fair (d : FenceDelivery) : Prop :=
  ∀ w ∈ d.fence, (d.answer.ack.ok = true ∧ d.answer.promised = w.ballot) ∨
    (d.answer.node ∈ d.voters ∧ w.ballot < d.answer.promised)

instance (d : FenceDelivery) : Decidable d.Fair :=
  inferInstanceAs (Decidable (∀ w ∈ d.fence, (d.answer.ack.ok = true ∧ d.answer.promised = w.ballot) ∨
    (d.answer.node ∈ d.voters ∧ w.ballot < d.answer.promised)))

namespace FenceSystem

def Fair (s : FenceSystem) : Prop :=
  ∀ d ∈ s.delivered, d.Fair

instance (s : FenceSystem) : Decidable s.Fair :=
  inferInstanceAs (Decidable (∀ d ∈ s.delivered, d.Fair))

/-- Since the fence was registered the server has not led at its ballot all along. -/
def LostLead (s : FenceSystem) (b : FenceBirth) (w : FenceWaiter) : Prop :=
  ∃ view ∈ s.views.drop b.viewed, view ≠ some w.ballot

/-- Since the fence was registered the node reported this promise to it. -/
def Reported (s : FenceSystem) (b : FenceBirth) (w : FenceWaiter) (n : ℕ) (promised : Ballot) : Prop :=
  ∃ a ∈ s.answers.drop b.answered, a.node = n ∧ a.request.fenceId = w.id ∧ a.promised = promised

/-- What holds of a fence, registered or finished. -/
structure Holds (readQuorum : List ℕ → ℕ) (s : FenceSystem) (b : FenceBirth) (w : FenceWaiter) : Prop where
  id : b.id = w.id
  needed : w.needed = readQuorum b.voters
  nodup : w.acked.Nodup
  reported : ∀ n ∈ w.acked, n = s.server.nodeId ∨ s.Reported b w n w.ballot
  failure : w.failed = true → s.Fair → s.LostLead b w ∨
    ∃ n ∈ b.voters, ∃ promised, w.ballot < promised ∧ s.Reported b w n promised

/-- What holds of a registered fence besides. -/
structure Active (readQuorum : List ℕ → ℕ) (s : FenceSystem) (b : FenceBirth) (w : FenceWaiter) : Prop
    extends Holds readQuorum s b w where
  voters : b.voters = s.voters
  viewed : b.viewed < s.views.length
  since : ∀ a ∈ s.answers, a.request.fenceId = w.id → a ∈ s.answers.drop b.answered
  answered : b.answered ≤ s.answers.length
  ours : ∀ a ∈ s.answers, a.request.fenceId = w.id → a.promised.node = s.server.nodeId → a.node ∈ s.voters
  targets : ∀ r ∈ s.requests, r.2.fenceId = w.id → r.1 ∈ s.registered

/-- The fence completed and did not fail: a read quorum of voters stands behind it. -/
def Confirmed (w : FenceWaiter) (b : FenceBirth) : Prop :=
  w.failed = false → w.needed ≤ w.acked.length ∧ ∀ n ∈ w.acked, n ∈ b.voters

/-- The invariant of the run. -/
structure Sound (readQuorum : List ℕ → ℕ) (s : FenceSystem) : Prop where
  leads : s.server.core.leader = true →
    s.server.core.ballot.node = s.server.nodeId ∧ s.server.nodeId ∈ s.voters
  promises : ∀ n ∈ s.registered, (s.promised n).node = s.server.nodeId → n ∈ s.voters
  view : ∃ earlier, s.views = earlier ++ [s.server.core.view]
  freshRequests : ∀ r ∈ s.requests, r.2.fenceId < s.server.nextFenceId
  freshAnswers : ∀ a ∈ s.answers, a.request.fenceId < s.server.nextFenceId
  active : ∀ w ∈ s.server.fences, ∃ b ∈ s.births, Active readQuorum s b w
  finished : ∀ w ∈ s.finished, ∃ b ∈ s.births, Holds readQuorum s b w ∧ Confirmed w b

section Grow

variable {readQuorum : List ℕ → ℕ} {s t : FenceSystem} {b : FenceBirth} {w : FenceWaiter}

/-- The history of one state is the beginning of that of another. -/
structure Grows (s t : FenceSystem) : Prop where
  nodeId : t.server.nodeId = s.server.nodeId
  answers : s.answers <+: t.answers
  views : s.views <+: t.views
  delivered : s.delivered ⊆ t.delivered
  births : s.births ⊆ t.births

theorem mem_drop_of_prefix {α : Type} {l l' : List α} (h : l <+: l') {k : ℕ} {x : α} (hx : x ∈ l.drop k) :
    x ∈ l'.drop k := by
  obtain ⟨rest, rfl⟩ := h
  rw [List.drop_append]
  exact List.mem_append_left _ hx

theorem Reported.mono (hgrow : s.Grows t) {n : ℕ} {promised : Ballot} (h : s.Reported b w n promised) :
    t.Reported b w n promised := by
  obtain ⟨a, ha, hrest⟩ := h
  exact ⟨a, mem_drop_of_prefix hgrow.answers ha, hrest⟩

theorem Holds.mono (hgrow : s.Grows t) (h : Holds readQuorum s b w) : Holds readQuorum t b w where
  id := h.id
  needed := h.needed
  nodup := h.nodup
  reported := by
    intro n hn
    rw [hgrow.nodeId]
    exact (h.reported n hn).imp_right fun hreported => hreported.mono hgrow
  failure := by
    intro hfailed hfair
    rcases h.failure hfailed (fun d hd => hfair d (hgrow.delivered hd)) with ⟨view, hview, hne⟩ |
      ⟨n, hn, promised, hlt, hreported⟩
    · exact Or.inl ⟨view, mem_drop_of_prefix hgrow.views hview, hne⟩
    · exact Or.inr ⟨n, hn, promised, hlt, hreported.mono hgrow⟩

/-- A registered fence stays registered over a step that answers nothing new and asks nobody new. -/
theorem Active.mono (hgrow : s.Grows t) (hvoters : t.voters = s.voters)
    (hregistered : t.registered = s.registered) (hanswers : t.answers = s.answers)
    (hrequests : t.requests = s.requests) (h : Active readQuorum s b w) : Active readQuorum t b w where
  toHolds := h.toHolds.mono hgrow
  voters := h.voters.trans hvoters.symm
  viewed := h.viewed.trans_le hgrow.views.length_le
  since := by
    rw [hanswers]
    exact h.since
  answered := by
    rw [hanswers]
    exact h.answered
  ours := by
    rw [hanswers, hvoters, hgrow.nodeId]
    exact h.ours
  targets := by
    rw [hrequests, hregistered]
    exact h.targets

/-! ### The pump -/

theorem mem_drop_of_last {α : Type} {l earlier : List α} {x : α} (h : l = earlier ++ [x]) {k : ℕ}
    (hk : k < l.length) : x ∈ l.drop k := by
  subst h
  rw [List.length_append, List.length_singleton] at hk
  rw [List.drop_append_of_le_length (by omega)]
  exact List.mem_append_right _ List.mem_cons_self

theorem resolve_failed {core : FenceCore} (h : (FenceServer.resolve core w).failed = true) :
    w.failed = true ∨ core.view ≠ some w.ballot := by
  simp only [FenceServer.resolve, Bool.or_eq_true, decide_eq_true_eq, Bool.not_eq_true'] at h
  rcases h with (hfailed | hballot) | hleader
  · exact Or.inl hfailed
  · right
    rw [FenceCore.view]
    split
    · intro hsame
      exact hballot (Option.some.inj hsame).symm
    · exact Option.some_ne_none _ |>.symm
  · right
    rw [FenceCore.view, if_neg (by rw [hleader]; decide)]
    exact (Option.some_ne_none _).symm

theorem resolve_alive {core : FenceCore} (h : (FenceServer.resolve core w).failed = false) :
    w.failed = false ∧ w.ballot = core.ballot ∧ core.leader = true := by
  simp only [FenceServer.resolve, Bool.or_eq_false_iff, decide_eq_false_iff_not, not_not,
    Bool.not_eq_false'] at h
  exact ⟨h.1.1, h.1.2, h.2⟩

theorem Holds.resolve (h : Holds readQuorum s b w) (hview : s.server.core.view ∈ s.views.drop b.viewed) :
    Holds readQuorum s b (FenceServer.resolve s.server.core w) where
  id := h.id
  needed := h.needed
  nodup := h.nodup
  reported := h.reported
  failure := by
    intro hfailed hfair
    rcases resolve_failed hfailed with hold | hlost
    · exact h.failure hold hfair
    · exact Or.inl ⟨_, hview, hlost⟩

/-- A completed fence that did not fail has a read quorum of voters: the ballot is this node's own, and
only voters promise one of those. -/
theorem Active.confirmed (hsound : Sound readQuorum s) (h : Active readQuorum s b w)
    (hdone : (FenceServer.resolve s.server.core w).done = true) :
    Confirmed (FenceServer.resolve s.server.core w) b := by
  intro halive
  obtain ⟨-, hballot, hleader⟩ := resolve_alive halive
  obtain ⟨hown, hvoter⟩ := hsound.leads hleader
  have hcomplete : (decide (w.needed ≤ w.acked.length) &&
      decide (w.fenceSlot ≤ s.server.core.appliedSlot)) = true := by
    have hor : ((FenceServer.resolve s.server.core w).failed ||
        (decide (w.needed ≤ w.acked.length) && decide (w.fenceSlot ≤ s.server.core.appliedSlot))) = true :=
      hdone
    rwa [halive, Bool.false_or] at hor
  rw [Bool.and_eq_true, decide_eq_true_eq] at hcomplete
  refine ⟨hcomplete.1, ?_⟩
  intro n hn
  rw [h.voters]
  rcases h.reported n hn with rfl | ⟨a, ha, rfl, hid, hpromised⟩
  · exact hvoter
  · apply h.ours a (List.mem_of_mem_drop ha) hid
    rw [hpromised, hballot]
    exact hown

theorem Active.resolve (h : Active readQuorum s b w)
    (hview : s.server.core.view ∈ s.views.drop b.viewed) :
    Active readQuorum s b (FenceServer.resolve s.server.core w) where
  toHolds := h.toHolds.resolve hview
  voters := h.voters
  viewed := h.viewed
  since := h.since
  answered := h.answered
  ours := h.ours
  targets := h.targets

theorem grows_pump (s : FenceSystem) : s.Grows s.pump where
  nodeId := rfl
  answers := List.prefix_rfl
  views := List.prefix_rfl
  delivered := List.Subset.refl _
  births := List.Subset.refl _

theorem Sound.pump (h : Sound readQuorum s) : Sound readQuorum s.pump where
  leads := h.leads
  promises := h.promises
  view := h.view
  freshRequests := h.freshRequests
  freshAnswers := h.freshAnswers
  active := by
    intro w hw
    obtain ⟨hw, -⟩ := List.mem_filter.1 hw
    obtain ⟨w₀, hw₀, rfl⟩ := List.mem_map.1 hw
    obtain ⟨b, hb, hactive⟩ := h.active w₀ hw₀
    obtain ⟨earlier, hview⟩ := h.view
    refine ⟨b, hb, ?_⟩
    exact (hactive.resolve (mem_drop_of_last hview hactive.viewed)).mono (grows_pump s) rfl rfl rfl rfl
  finished := by
    intro w hw
    rcases List.mem_append.1 hw with hw | hw
    · obtain ⟨b, hb, hholds, hconfirmed⟩ := h.finished w hw
      exact ⟨b, hb, hholds.mono (grows_pump s), hconfirmed⟩
    · obtain ⟨hw, hdone⟩ := List.mem_filter.1 hw
      obtain ⟨w₀, hw₀, rfl⟩ := List.mem_map.1 hw
      obtain ⟨b, hb, hactive⟩ := h.active w₀ hw₀
      obtain ⟨earlier, hview⟩ := h.view
      refine ⟨b, hb, ?_, hactive.confirmed h hdone⟩
      exact (hactive.toHolds.resolve (mem_drop_of_last hview hactive.viewed)).mono (grows_pump s)

/-! ### The other steps -/

/-- A step that leaves the fences alone and asks, answers and reconfigures nothing keeps the invariant. -/
theorem Sound.frame (h : Sound readQuorum s) (hgrow : s.Grows t) (hvoters : t.voters = s.voters)
    (hregistered : t.registered = s.registered) (hanswers : t.answers = s.answers)
    (hrequests : t.requests = s.requests) (hnext : t.server.nextFenceId = s.server.nextFenceId)
    (hfences : t.server.fences ⊆ s.server.fences) (hfinished : t.finished = s.finished)
    (hleads : t.server.core.leader = true →
      t.server.core.ballot.node = t.server.nodeId ∧ t.server.nodeId ∈ t.voters)
    (hpromises : ∀ n ∈ t.registered, (t.promised n).node = t.server.nodeId → n ∈ t.voters)
    (hview : ∃ earlier, t.views = earlier ++ [t.server.core.view]) : Sound readQuorum t where
  leads := hleads
  promises := hpromises
  view := hview
  freshRequests := by
    rw [hrequests, hnext]
    exact h.freshRequests
  freshAnswers := by
    rw [hanswers, hnext]
    exact h.freshAnswers
  active := by
    intro w hw
    obtain ⟨b, hb, hactive⟩ := h.active w (hfences hw)
    exact ⟨b, hgrow.births hb, hactive.mono hgrow hvoters hregistered hanswers hrequests⟩
  finished := by
    intro w hw
    rw [hfinished] at hw
    obtain ⟨b, hb, hholds, hconfirmed⟩ := h.finished w hw
    exact ⟨b, hgrow.births hb, hholds.mono hgrow, hconfirmed⟩

/-- What an acknowledgement makes of the registered fences. -/
theorem mem_noteFenceAck {ack : FenceAck} {n : ℕ} {fences : List FenceWaiter}
    (h : w ∈ noteFenceAck ack n fences) : w ∈ fences ∨
      ∃ w₀ ∈ fences, fences.find? (fun w => w.id = ack.fenceId) = some w₀ ∧ w₀.id = ack.fenceId ∧
        ((ack.ok = true ∧ ack.promised = w₀.ballot ∧ w = w₀.noteAck n) ∨
          (¬(ack.ok = true ∧ ack.promised = w₀.ballot) ∧ w = { w₀ with failed := true })) := by
  induction fences with
  | nil => exact absurd h List.not_mem_nil
  | cons first rest ih =>
    rw [noteFenceAck] at h
    by_cases hid : first.id = ack.fenceId
    · have hfind : (first :: rest).find? (fun w => w.id = ack.fenceId) = some first :=
        List.find?_cons_of_pos (by simpa using hid)
      rw [if_neg (not_not.2 hid)] at h
      split at h
      · rename_i hok
        rcases List.mem_cons.1 h with rfl | hrest
        · exact Or.inr ⟨first, List.mem_cons_self, hfind, hid, Or.inl ⟨hok.1, hok.2, rfl⟩⟩
        · exact Or.inl (List.mem_cons_of_mem first hrest)
      · rename_i hnot
        rcases List.mem_cons.1 h with rfl | hrest
        · exact Or.inr ⟨first, List.mem_cons_self, hfind, hid, Or.inr ⟨hnot, rfl⟩⟩
        · exact Or.inl (List.mem_cons_of_mem first hrest)
    · rw [if_pos hid] at h
      rcases List.mem_cons.1 h with rfl | hrest
      · exact Or.inl List.mem_cons_self
      · rcases ih hrest with hold | ⟨w₀, hw₀, hfind, hsame, hchange⟩
        · exact Or.inl (List.mem_cons_of_mem first hold)
        · refine Or.inr ⟨w₀, List.mem_cons_of_mem first hw₀, ?_, hsame, hchange⟩
          rw [List.find?_cons_of_neg (by simpa using hid)]
          exact hfind

theorem grows_deliver (s : FenceSystem) (a : FenceAnswer) : s.Grows (s.deliver a) where
  nodeId := rfl
  answers := List.prefix_rfl
  views := List.prefix_rfl
  delivered := List.subset_append_left _ _
  births := List.Subset.refl _

theorem Sound.deliver (h : Sound readQuorum s) {a : FenceAnswer} (ha : a ∈ s.answers) :
    Sound readQuorum (s.deliver a) where
  leads := h.leads
  promises := h.promises
  view := h.view
  freshRequests := h.freshRequests
  freshAnswers := h.freshAnswers
  active := by
    intro w hw
    rcases mem_noteFenceAck hw with hw | ⟨w₀, hw₀, hfind, hid, hchange⟩
    · obtain ⟨b, hb, hactive⟩ := h.active w hw
      exact ⟨b, hb, hactive.mono (grows_deliver s a) rfl rfl rfl rfl⟩
    · obtain ⟨b, hb, hactive⟩ := h.active w₀ hw₀
      have hnow := hactive.mono (grows_deliver s a) rfl rfl rfl rfl
      have hreported : (s.deliver a).Reported b w₀ a.node a.promised :=
        ⟨a, hactive.since a ha hid.symm, rfl, hid.symm, rfl⟩
      refine ⟨b, hb, ?_⟩
      rcases hchange with ⟨-, hpromised, rfl⟩ | ⟨hnot, rfl⟩
      · have hballot : a.promised = w₀.ballot := hpromised
        have hmore : Holds readQuorum (s.deliver a) b (w₀.noteAck a.node) :=
          { id := hnow.id
            needed := hnow.needed
            nodup := nodup_noteMember hnow.nodup a.node
            reported := by
              intro n hn
              rcases mem_noteMember hn with hn | rfl
              · exact hnow.reported n hn
              · right
                rw [hballot] at hreported
                exact hreported
            failure := hnow.failure }
        exact ⟨hmore, hnow.voters, hnow.viewed, hnow.since, hnow.answered, hnow.ours, hnow.targets⟩
      · have hfail : Holds readQuorum (s.deliver a) b { w₀ with failed := true } :=
          { id := hnow.id
            needed := hnow.needed
            nodup := hnow.nodup
            reported := hnow.reported
            failure := by
              intro _ hfair
              -- A fair acknowledgement that does not confirm reports a voter's higher promise.
              have hlast := hfair ⟨a, s.server.fences.find? fun w => w.id = a.request.fenceId, s.voters⟩
                (List.mem_append_right _ List.mem_cons_self) w₀ hfind
              rcases hlast with hconfirms | ⟨hvoter, hhigher⟩
              · exact absurd hconfirms hnot
              · right
                refine ⟨a.node, ?_, a.promised, hhigher, hreported⟩
                rw [hactive.voters]
                exact hvoter }
        exact ⟨hfail, hnow.voters, hnow.viewed, hnow.since, hnow.answered, hnow.ours, hnow.targets⟩
  finished := by
    intro w hw
    obtain ⟨b, hb, hholds, hconfirmed⟩ := h.finished w hw
    exact ⟨b, hb, hholds.mono (grows_deliver s a), hconfirmed⟩

theorem grows_await (s : FenceSystem) (readQuorum : List ℕ → ℕ) : s.Grows (s.await readQuorum) where
  nodeId := rfl
  answers := List.prefix_rfl
  views := List.prefix_rfl
  delivered := List.Subset.refl _
  births := List.subset_append_left _ _

theorem Sound.await (h : Sound readQuorum s) : Sound readQuorum (s.await readQuorum) where
  leads := h.leads
  promises := h.promises
  view := h.view
  freshRequests := by
    intro r hr
    show r.2.fenceId < s.server.nextFenceId + 1
    rcases List.mem_append.1 hr with hr | hr
    · exact (h.freshRequests r hr).trans (Nat.lt_succ_self _)
    · obtain ⟨n, -, rfl⟩ := List.mem_map.1 hr
      exact Nat.lt_succ_self _
  freshAnswers := by
    intro a ha
    exact (h.freshAnswers a ha).trans (Nat.lt_succ_self _)
  active := by
    intro w hw
    rcases List.mem_append.1 hw with hw | hw
    · obtain ⟨b, hb, hactive⟩ := h.active w hw
      refine ⟨b, List.mem_append_left _ hb, ?_⟩
      have hholds := hactive.toHolds.mono (grows_await s readQuorum)
      refine ⟨hholds, hactive.voters, hactive.viewed, hactive.since, hactive.answered, hactive.ours, ?_⟩
      intro r hr hid
      rcases List.mem_append.1 hr with hr | hr
      · exact hactive.targets r hr hid
      · obtain ⟨n, hn, rfl⟩ := List.mem_map.1 hr
        exact hn
    · rw [List.mem_singleton] at hw
      subst hw
      obtain ⟨earlier, hview⟩ := h.view
      refine ⟨_, List.mem_append_right _ List.mem_cons_self, ⟨⟨rfl, rfl, ?_, ?_, ?_⟩, rfl, ?_, ?_, le_rfl,
        ?_, ?_⟩⟩
      · exact List.nodup_singleton _
      · intro n hn
        exact Or.inl (List.mem_singleton.1 hn)
      · intro hfailed
        cases hfailed
      · show s.views.length - 1 < s.views.length
        rw [hview, List.length_append, List.length_singleton]
        omega
      · intro a ha hid
        exact absurd hid (h.freshAnswers a ha).ne
      · intro a ha hid
        exact absurd hid (h.freshAnswers a ha).ne
      · intro r hr hid
        rcases List.mem_append.1 hr with hr | hr
        · exact absurd hid (h.freshRequests r hr).ne
        · obtain ⟨n, hn, rfl⟩ := List.mem_map.1 hr
          exact hn
  finished := by
    intro w hw
    obtain ⟨b, hb, hholds, hconfirmed⟩ := h.finished w hw
    exact ⟨b, List.mem_append_left _ hb, hholds.mono (grows_await s readQuorum), hconfirmed⟩

theorem Sound.answer (h : Sound readQuorum s) {n : ℕ} {request : FenceRequest}
    (hr : (n, request) ∈ s.requests) :
    Sound readQuorum { s with answers := s.answers ++ [⟨n, request, s.promised n⟩] } := by
  have hgrow : s.Grows { s with answers := s.answers ++ [⟨n, request, s.promised n⟩] } :=
    ⟨rfl, List.prefix_append _ _, List.prefix_rfl, List.Subset.refl _, List.Subset.refl _⟩
  refine ⟨h.leads, h.promises, h.view, h.freshRequests, ?_, ?_, ?_⟩
  · intro a ha
    rcases List.mem_append.1 ha with ha | ha
    · exact h.freshAnswers a ha
    · rw [List.mem_singleton] at ha
      subst ha
      exact h.freshRequests _ hr
  · intro w hw
    obtain ⟨b, hb, hactive⟩ := h.active w hw
    refine ⟨b, hb, hactive.toHolds.mono hgrow, hactive.voters, hactive.viewed, ?_, ?_, ?_, hactive.targets⟩
    · intro a ha hid
      show a ∈ (s.answers ++ [FenceAnswer.mk n request (s.promised n)]).drop b.answered
      rw [List.drop_append_of_le_length hactive.answered]
      rcases List.mem_append.1 ha with ha | ha
      · exact List.mem_append_left _ (hactive.since a ha hid)
      · exact List.mem_append_right _ ha
    · exact hactive.answered.trans (by rw [List.length_append]; omega)
    · intro a ha hid hown
      rcases List.mem_append.1 ha with ha | ha
      · exact hactive.ours a ha hid hown
      · rw [List.mem_singleton] at ha
        subst ha
        exact h.promises n (hactive.targets _ hr hid) hown
  · intro w hw
    obtain ⟨b, hb, hholds, hconfirmed⟩ := h.finished w hw
    exact ⟨b, hb, hholds.mono hgrow, hconfirmed⟩

theorem Sound.failEverything (h : Sound readQuorum s) (failed : Bool) : Sound readQuorum { s with
    server := { s.server.failEverything.1 with failed := s.server.failed || failed }
    finished := s.finished ++ s.server.failEverything.2
    views := s.views ++ [none, s.server.core.view] } := by
  set t : FenceSystem := { s with
    server := { s.server.failEverything.1 with failed := s.server.failed || failed }
    finished := s.finished ++ s.server.failEverything.2
    views := s.views ++ [none, s.server.core.view] } with ht
  have hgrow : s.Grows t :=
    ⟨rfl, List.prefix_rfl, List.prefix_append _ _, List.Subset.refl _, List.Subset.refl _⟩
  refine ⟨h.leads, h.promises, ⟨s.views ++ [none], ?_⟩, h.freshRequests, h.freshAnswers, ?_, ?_⟩
  · rw [List.append_assoc]
    rfl
  · intro w hw
    exact absurd hw List.not_mem_nil
  · intro w hw
    rcases List.mem_append.1 hw with hw | hw
    · obtain ⟨b, hb, hholds, hconfirmed⟩ := h.finished w hw
      exact ⟨b, hb, hholds.mono hgrow, hconfirmed⟩
    · obtain ⟨w₀, hw₀, rfl⟩ := List.mem_map.1 hw
      obtain ⟨b, hb, hactive⟩ := h.active w₀ hw₀
      have hnow := hactive.toHolds.mono hgrow
      refine ⟨b, hb, ⟨hnow.id, hnow.needed, hnow.nodup, hnow.reported, ?_⟩, ?_⟩
      · intro _ _
        refine Or.inl ⟨none, ?_, (Option.some_ne_none _).symm⟩
        show none ∈ (s.views ++ [none, s.server.core.view]).drop b.viewed
        rw [List.drop_append_of_le_length hactive.viewed.le]
        exact List.mem_append_right _ List.mem_cons_self
      · intro halive
        cases halive

/-- A new configuration: the core no longer leads, and the pump fails every registered fence. -/
theorem Sound.reconfigure (h : Sound readQuorum s) {core : FenceCore} {voters registered : List ℕ}
    (hleader : core.leader = false)
    (hpromises : ∀ n ∈ registered, (s.promised n).node = s.server.nodeId → n ∈ voters) :
    Sound readQuorum ({ s.moved core with voters := voters, registered := registered } : FenceSystem).pump := by
  set t : FenceSystem := { s.moved core with voters := voters, registered := registered } with ht
  have hgrow : s.Grows t :=
    ⟨rfl, List.prefix_rfl, List.prefix_append _ _, List.Subset.refl _, List.Subset.refl _⟩
  have hview : t.views = s.views ++ [t.server.core.view] := rfl
  have hfails : ∀ w, (FenceServer.resolve t.server.core w).failed = true := by
    intro w
    have hnot : t.server.core.leader = false := hleader
    simp [FenceServer.resolve, hnot]
  refine ⟨fun hlead => ?_, hpromises, ⟨s.views, hview⟩, h.freshRequests, h.freshAnswers, ?_, ?_⟩
  · have hnot : t.server.core.leader = false := hleader
    exact absurd hlead (by rw [show t.pump.server.core.leader = false from hnot]; decide)
  · intro w hw
    obtain ⟨hw, hdone⟩ := List.mem_filter.1 hw
    obtain ⟨w₀, -, rfl⟩ := List.mem_map.1 hw
    have hcomplete : (FenceServer.resolve t.server.core w₀).done = true := by
      have hfailed := hfails w₀
      show ((FenceServer.resolve t.server.core w₀).failed || _) = true
      rw [hfailed, Bool.true_or]
    rw [hcomplete] at hdone
    cases hdone
  · intro w hw
    rcases List.mem_append.1 hw with hw | hw
    · obtain ⟨b, hb, hholds, hconfirmed⟩ := h.finished w hw
      exact ⟨b, hb, (hholds.mono hgrow).mono (grows_pump t), hconfirmed⟩
    · obtain ⟨hw, -⟩ := List.mem_filter.1 hw
      obtain ⟨w₀, hw₀, rfl⟩ := List.mem_map.1 hw
      obtain ⟨b, hb, hactive⟩ := h.active w₀ hw₀
      have hlast : t.server.core.view ∈ t.views.drop b.viewed := by
        apply mem_drop_of_last hview
        rw [hview, List.length_append]
        exact hactive.viewed.trans_le (Nat.le_add_right _ _)
      refine ⟨b, hb, ((hactive.toHolds.mono hgrow).resolve hlast).mono (grows_pump t), ?_⟩
      intro halive
      exact absurd (hfails w₀) (by rw [halive]; decide)

theorem Sound.step (h : Sound readQuorum s) (hstep : FenceStep readQuorum s t) : Sound readQuorum t := by
  cases hstep with
  | await _ => exact h.await
  | answer hr => exact h.answer hr
  | deliver ha => exact h.deliver ha
  | @promise n ballot hown =>
    have hgrow : s.Grows { s with promised := Function.update s.promised n ballot } :=
      ⟨rfl, List.prefix_rfl, List.prefix_rfl, List.Subset.refl _, List.Subset.refl _⟩
    apply h.frame hgrow rfl rfl rfl rfl rfl (List.Subset.refl _) rfl h.leads
    · intro n' hn' hnode
      show n' ∈ s.voters
      simp only [Function.update_apply] at hnode
      by_cases hsame : n' = n
      · rw [if_pos hsame] at hnode
        rw [hsame]
        exact hown hnode
      · rw [if_neg hsame] at hnode
        exact h.promises n' hn' hnode
    · exact h.view
  | @core core hleads =>
    exact h.frame ⟨rfl, List.prefix_rfl, List.prefix_append _ _, List.Subset.refl _, List.Subset.refl _⟩ rfl
      rfl rfl rfl rfl (List.Subset.refl _) rfl hleads h.promises ⟨s.views, rfl⟩
  | pump => exact h.pump
  | timeout id =>
    exact h.frame ⟨rfl, List.prefix_rfl, List.prefix_rfl, List.Subset.refl _, List.Subset.refl _⟩ rfl rfl rfl
      rfl rfl (fun w hw => (List.mem_filter.1 hw).1) rfl h.leads h.promises h.view
  | failEverything failed => exact h.failEverything failed
  | reconfigure hleader hpromises => exact h.reconfigure hleader hpromises

theorem Starts.sound (h : s.Starts) : Sound readQuorum s := by
  obtain ⟨hleader, hfences, hnext, hpromises, hrequests, hanswers, hfinished, -, hviews, -⟩ := h
  refine ⟨fun hlead => ?_, hpromises, ⟨[], ?_⟩, ?_, ?_, ?_, ?_⟩
  · rw [hleader] at hlead
    cases hlead
  · rw [hviews, FenceCore.view, hleader]
    rfl
  · rw [hrequests]
    exact fun r hr => absurd hr List.not_mem_nil
  · rw [hanswers]
    exact fun a ha => absurd ha List.not_mem_nil
  · rw [hfences]
    exact fun w hw => absurd hw List.not_mem_nil
  · rw [hfinished]
    exact fun w hw => absurd hw List.not_mem_nil

end Grow

end FenceSystem

/-! ### History probes among the voters -/

/-- A node's echo of a probe, with the hash it holds at the slot. -/
structure ProbeReply where
  node : ℕ
  probe : HistoryProbe
  held : HashBytes

/-- A registered probe with the node the transfer comes from. -/
structure SourcedProbe where
  waiter : HistoryProbeWaiter
  source : ℕ

/-- A server's history probe with the nodes around it. `history` is what every node holds. -/
structure ProbeSystem where
  members : List ℕ
  history : ℕ → ℕ → Option HashBytes
  nextNonce : ℕ
  waiter : Option SourcedProbe
  probes : List HistoryProbe
  replies : List ProbeReply
  confirmed : List SourcedProbe

/-- One step: membership and histories move in any way, a probe begins, any node answers one, a reply
arrives, and the waiting thread confirms its quorum or gives up. -/
inductive ProbeStep : ProbeSystem → ProbeSystem → Prop
  | members {s : ProbeSystem} (members : List ℕ) : ProbeStep s { s with members := members }
  | history {s : ProbeSystem} (history : ℕ → ℕ → Option HashBytes) :
      ProbeStep s { s with history := history }
  | begin {s : ProbeSystem} (slot : ℕ) (hash : HashBytes) (source : ℕ) : s.members ≠ [] →
      s.waiter = none → ProbeStep s { s with
        nextNonce := nextProofNonce s.nextNonce
        waiter := some ⟨newProbe s.members s.nextNonce slot hash source, source⟩
        probes := s.probes ++ [⟨(newProbe s.members s.nextNonce slot hash source).nonce, slot, hash⟩] }
  | answer {s : ProbeSystem} {n : ℕ} {probe reply : HistoryProbe} : probe ∈ s.probes →
      onCheckpointProofRequest (s.history n) probe = some reply →
      ProbeStep s { s with replies := s.replies ++ [⟨n, reply, probe.hash⟩] }
  | deliver {s : ProbeSystem} {w : SourcedProbe} {r : ProbeReply} : s.waiter = some w → r ∈ s.replies →
      ProbeStep s { s with
        waiter := some { w with waiter := onCheckpointProofReply r.probe r.node w.waiter } }
  | confirm {s : ProbeSystem} {w : SourcedProbe} : s.waiter = some w →
      w.waiter.needed ≤ w.waiter.acked.length →
      ProbeStep s { s with waiter := none, confirmed := s.confirmed ++ [w] }
  | giveUp {s : ProbeSystem} : ProbeStep s { s with waiter := none }

namespace ProbeSystem

def Starts (s : ProbeSystem) : Prop :=
  s.waiter = none ∧ s.probes = [] ∧ s.replies = [] ∧ s.confirmed = []

/-- The node vouched for the slot and the hash: as the source of the transfer, or by echoing the probe
while it held the hash. -/
def Vouched (s : ProbeSystem) (w : SourcedProbe) (n : ℕ) : Prop :=
  n = w.source ∨ ∃ r ∈ s.replies, r.node = n ∧ r.held = w.waiter.hash ∧
    r.probe = ⟨w.waiter.nonce, w.waiter.slot, w.waiter.hash⟩

/-- The ids a probe has counted are distinct voters that vouched. -/
structure Counts (s : ProbeSystem) (w : SourcedProbe) : Prop where
  needed : w.waiter.needed = w.waiter.voters.length / 2 + 1
  nodup : w.waiter.acked.Nodup
  voters : ∀ n ∈ w.waiter.acked, n ∈ w.waiter.voters
  vouched : ∀ n ∈ w.waiter.acked, s.Vouched w n

/-- A majority of distinct voters vouched. -/
def Confirmed (s : ProbeSystem) (w : SourcedProbe) : Prop :=
  s.Counts w ∧ w.waiter.needed ≤ w.waiter.acked.length

structure Sound (s : ProbeSystem) : Prop where
  waiter : ∀ w ∈ s.waiter, s.Counts w
  replies : ∀ r ∈ s.replies, r.held = r.probe.hash
  confirmed : ∀ w ∈ s.confirmed, s.Confirmed w

section Steps

variable {s t : ProbeSystem} {w : SourcedProbe}

theorem Counts.mono (h : s.Counts w) (hreplies : s.replies ⊆ t.replies) : t.Counts w where
  needed := h.needed
  nodup := h.nodup
  voters := h.voters
  vouched := by
    intro n hn
    rcases h.vouched n hn with hsource | ⟨r, hr, hrest⟩
    · exact Or.inl hsource
    · exact Or.inr ⟨r, hreplies hr, hrest⟩

theorem Counts.noteAck (h : s.Counts w) {n : ℕ} (hvouched : s.Vouched w n) :
    s.Counts { w with waiter := w.waiter.noteAck n } := by
  rw [HistoryProbeWaiter.noteAck]
  split
  · rename_i hvoter
    refine ⟨h.needed, nodup_noteMember h.nodup n, ?_, ?_⟩
    · intro n' hn'
      rcases mem_noteMember hn' with hn' | rfl
      · exact h.voters n' hn'
      · exact hvoter
    · intro n' hn'
      rcases mem_noteMember hn' with hn' | rfl
      · exact h.vouched n' hn'
      · exact hvouched
  · exact h

theorem counts_newProbe (s : ProbeSystem) (nonce slot : ℕ) (hash : HashBytes) (source : ℕ) :
    s.Counts ⟨newProbe s.members nonce slot hash source, source⟩ := by
  have hempty : s.Counts ⟨⟨if nonce = 0 then 1 else nonce, slot, hash, s.members, [],
      s.members.length / 2 + 1⟩, source⟩ :=
    ⟨rfl, List.nodup_nil, fun n hn => absurd hn List.not_mem_nil, fun n hn => absurd hn List.not_mem_nil⟩
  exact hempty.noteAck (Or.inl rfl)

theorem Counts.deliver (h : s.Counts w) (hsound : s.Sound) {r : ProbeReply} (hr : r ∈ s.replies) :
    s.Counts { w with waiter := onCheckpointProofReply r.probe r.node w.waiter } := by
  rw [onCheckpointProofReply]
  split
  · exact h
  · rename_i hmatch
    simp only [not_or, not_not] at hmatch
    obtain ⟨hnonce, hslot, hhash⟩ := hmatch
    apply h.noteAck
    refine Or.inr ⟨r, hr, rfl, ?_, ?_⟩
    · rw [hsound.replies r hr, hhash]
    · rw [hnonce, hslot, hhash]

theorem Sound.step (h : s.Sound) (hstep : ProbeStep s t) : t.Sound := by
  cases hstep with
  | members members => exact ⟨fun w hw => (h.waiter w hw).mono (List.Subset.refl _), h.replies,
      fun w hw => ⟨(h.confirmed w hw).1.mono (List.Subset.refl _), (h.confirmed w hw).2⟩⟩
  | history history => exact ⟨fun w hw => (h.waiter w hw).mono (List.Subset.refl _), h.replies,
      fun w hw => ⟨(h.confirmed w hw).1.mono (List.Subset.refl _), (h.confirmed w hw).2⟩⟩
  | begin slot hash source hmembers hnone =>
    refine ⟨?_, h.replies, fun w hw =>
      ⟨(h.confirmed w hw).1.mono (List.Subset.refl _), (h.confirmed w hw).2⟩⟩
    intro w hw
    obtain rfl := Option.mem_some_iff.1 hw
    exact (counts_newProbe s _ slot hash source).mono (List.Subset.refl _)
  | @answer n probe reply hprobe hreply =>
    have hsub : s.replies ⊆ s.replies ++ [⟨n, reply, probe.hash⟩] := List.subset_append_left _ _
    refine ⟨fun w hw => (h.waiter w hw).mono hsub, ?_,
      fun w hw => ⟨(h.confirmed w hw).1.mono hsub, (h.confirmed w hw).2⟩⟩
    intro r hr
    rcases List.mem_append.1 hr with hr | hr
    · exact h.replies r hr
    · rw [List.mem_singleton] at hr
      subst hr
      rw [onCheckpointProofRequest] at hreply
      split at hreply
      · rw [Option.some.injEq] at hreply
        rw [hreply]
      · cases hreply
  | @deliver w r hwaiter hr =>
    refine ⟨?_, h.replies, fun w hw =>
      ⟨(h.confirmed w hw).1.mono (List.Subset.refl _), (h.confirmed w hw).2⟩⟩
    intro w' hw'
    obtain rfl := Option.mem_some_iff.1 hw'
    exact ((h.waiter w hwaiter).deliver h hr).mono (List.Subset.refl _)
  | @confirm w hwaiter hneeded =>
    refine ⟨fun w hw => absurd hw (Option.not_mem_none w), h.replies, ?_⟩
    intro w' hw'
    rcases List.mem_append.1 hw' with hw' | hw'
    · exact ⟨(h.confirmed w' hw').1.mono (List.Subset.refl _), (h.confirmed w' hw').2⟩
    · rw [List.mem_singleton] at hw'
      subst hw'
      exact ⟨(h.waiter w' hwaiter).mono (List.Subset.refl _), hneeded⟩
  | giveUp =>
    exact ⟨fun w hw => absurd hw (Option.not_mem_none w), h.replies,
      fun w hw => ⟨(h.confirmed w hw).1.mono (List.Subset.refl _), (h.confirmed w hw).2⟩⟩

theorem Starts.sound (h : s.Starts) : s.Sound := by
  obtain ⟨hwaiter, -, hreplies, hconfirmed⟩ := h
  refine ⟨?_, ?_, ?_⟩
  · rw [hwaiter]
    exact fun w hw => absurd hw (Option.not_mem_none w)
  · rw [hreplies]
    exact fun r hr => absurd hr List.not_mem_nil
  · rw [hconfirmed]
    exact fun w hw => absurd hw List.not_mem_nil

end Steps

end ProbeSystem

/-! ### Both waiters -/

/-- One server's fences and history probes. -/
structure QuorumSystem where
  fences : FenceSystem
  probes : ProbeSystem

inductive QuorumStep (readQuorum : List ℕ → ℕ) : QuorumSystem → QuorumSystem → Prop
  | fences {s : QuorumSystem} {t : FenceSystem} : FenceStep readQuorum s.fences t →
      QuorumStep readQuorum s { s with fences := t }
  | probes {s : QuorumSystem} {t : ProbeSystem} : ProbeStep s.probes t →
      QuorumStep readQuorum s { s with probes := t }

namespace QuorumSystem

def Starts (s : QuorumSystem) : Prop :=
  s.fences.Starts ∧ s.probes.Starts

variable {readQuorum : List ℕ → ℕ} {s : QuorumSystem}

theorem sound_of_reachable (h : Reachable Starts (QuorumStep readQuorum) s) :
    FenceSystem.Sound readQuorum s.fences ∧ s.probes.Sound := by
  apply h.invariant
  · intro _ hstart
    exact ⟨hstart.1.sound, hstart.2.sound⟩
  · intro _ _ hsound hstep
    cases hstep with
    | fences hstep => exact ⟨hsound.1.step hstep, hsound.2⟩
    | probes hstep => exact ⟨hsound.1, hsound.2.step hstep⟩

theorem reachable_fences {probes : ProbeSystem} (hprobes : probes.Starts) {t : FenceSystem}
    (h : Reachable FenceSystem.Starts (FenceStep readQuorum) t) :
    Reachable Starts (QuorumStep readQuorum) ⟨t, probes⟩ := by
  induction h with
  | start hstart => exact .start ⟨hstart, hprobes⟩
  | step _ hstep ih => exact ih.step (.fences hstep)

theorem reachable_probes {t : FenceSystem} (hfences : Reachable FenceSystem.Starts (FenceStep readQuorum) t)
    {probes : ProbeSystem} (h : Reachable ProbeSystem.Starts ProbeStep probes) :
    Reachable Starts (QuorumStep readQuorum) ⟨t, probes⟩ := by
  induction h with
  | start hstart => exact reachable_fences hstart hfences
  | step _ hstep ih => exact ih.step (.probes hstep)

/-- A read quorum of distinct voters, this node among them perhaps, reported the fence's own ballot after
the fence was created. -/
def FenceQuorum (readQuorum : List ℕ → ℕ) (s : QuorumSystem) (w : FenceWaiter) : Prop :=
  ∃ b ∈ s.fences.births, b.id = w.id ∧ ∃ quorum : List ℕ, quorum.Nodup ∧
    readQuorum b.voters ≤ quorum.length ∧ ∀ n ∈ quorum, n ∈ b.voters ∧
      (n = s.fences.server.nodeId ∨ s.fences.Reported b w n w.ballot)

/-- The server lost its leadership or its ballot since the fence was created, or a voter reported a promise
above it. -/
def FenceRefused (s : QuorumSystem) (w : FenceWaiter) : Prop :=
  ∃ b ∈ s.fences.births, b.id = w.id ∧ (s.fences.LostLead b w ∨
    ∃ n ∈ b.voters, ∃ promised, w.ballot < promised ∧ s.fences.Reported b w n promised)

/-- A majority of distinct voters vouched for the slot and the hash under the nonce. -/
def HistoryQuorum (s : QuorumSystem) (w : SourcedProbe) : Prop :=
  ∃ quorum : List ℕ, quorum.Nodup ∧ w.waiter.voters.length / 2 + 1 ≤ quorum.length ∧
    ∀ n ∈ quorum, n ∈ w.waiter.voters ∧ s.probes.Vouched w n

/-- **Quorum waiters count exactly their evidence**: a fence that completes has a read quorum of voters
behind it and a confirmed history a majority. A fence fails only for a lost leadership or a higher promise
of a voter, in every run whose acknowledgements each confirm the ballot or report such a promise. -/
theorem quorum_evidence (h : Reachable Starts (QuorumStep readQuorum) s) :
    (∀ w ∈ s.fences.finished, w.failed = false → s.FenceQuorum readQuorum w) ∧
      (∀ w ∈ s.probes.confirmed, s.HistoryQuorum w) ∧
      (s.fences.Fair → ∀ w, w ∈ s.fences.finished ∨ w ∈ s.fences.server.fences → w.failed = true →
        s.FenceRefused w) := by
  obtain ⟨hfences, hprobes⟩ := sound_of_reachable h
  refine ⟨?_, ?_, ?_⟩
  · intro w hw halive
    obtain ⟨b, hb, hholds, hconfirmed⟩ := hfences.finished w hw
    obtain ⟨hcount, hvoters⟩ := hconfirmed halive
    refine ⟨b, hb, hholds.id, w.acked, hholds.nodup, ?_, ?_⟩
    · rw [← hholds.needed]
      exact hcount
    · intro n hn
      exact ⟨hvoters n hn, hholds.reported n hn⟩
  · intro w hw
    obtain ⟨hcounts, hcount⟩ := hprobes.confirmed w hw
    refine ⟨w.waiter.acked, hcounts.nodup, ?_, ?_⟩
    · rw [← hcounts.needed]
      exact hcount
    · intro n hn
      exact ⟨hcounts.voters n hn, hcounts.vouched n hn⟩
  · intro hfair w hw hfailed
    have hholds : ∃ b ∈ s.fences.births, FenceSystem.Holds readQuorum s.fences b w := by
      rcases hw with hw | hw
      · obtain ⟨b, hb, hholds, -⟩ := hfences.finished w hw
        exact ⟨b, hb, hholds⟩
      · obtain ⟨b, hb, hactive⟩ := hfences.active w hw
        exact ⟨b, hb, hactive.toHolds⟩
    obtain ⟨b, hb, hholds⟩ := hholds
    exact ⟨b, hb, hholds.id, hholds.failure hfailed hfair⟩

/-! ### A learner's answer -/

/-- Three voters, each bound by the leader's ballot, and a learner that has promised nothing. -/
def fenceStart : FenceSystem where
  server := ⟨1, ⟨Ballot.zero, false, 0, 0, 1⟩, false, 1, []⟩
  voters := [1, 2, 3]
  registered := [2, 3, 4]
  promised n := if n = 4 then Ballot.zero else ⟨1, 0, 1⟩
  requests := []
  answers := []
  finished := []
  births := []
  views := [none]
  delivered := []

/-- Node one leads, and a read asks the three others. -/
def fenceAsked : FenceSystem :=
  (fenceStart.moved ⟨⟨1, 0, 1⟩, true, 0, 0, 1⟩).await fun voters => voters.length / 2 + 1

def askedRequest : FenceRequest :=
  ⟨⟨1, 0, 1⟩, 1, 0⟩

def learnerAnswered : FenceSystem :=
  { fenceAsked with answers := fenceAsked.answers ++ [⟨4, askedRequest, fenceAsked.promised 4⟩] }

/-- The learner's answer is the first to arrive. -/
def learnerFirst : FenceSystem :=
  (learnerAnswered.deliver ⟨4, askedRequest, Ballot.zero⟩).pump

def voterAnswered : FenceSystem :=
  { fenceAsked with answers := fenceAsked.answers ++ [⟨2, askedRequest, fenceAsked.promised 2⟩] }

/-- The voter's answer makes a quorum. -/
def voterFirst : FenceSystem :=
  (voterAnswered.deliver ⟨2, askedRequest, ⟨1, 0, 1⟩⟩).pump

/-- The third voter promises a higher ballot, and a second read asks it. -/
def askedAgain : FenceSystem :=
  ({ voterFirst with promised := Function.update voterFirst.promised 3 ⟨2, 0, 3⟩ } : FenceSystem).await
    fun voters => voters.length / 2 + 1

def refusedRequest : FenceRequest :=
  ⟨⟨1, 0, 1⟩, 2, 0⟩

/-- Its answer fails the second fence. -/
def voterRefused : FenceSystem :=
  (({ askedAgain with answers := askedAgain.answers ++ [⟨3, refusedRequest, askedAgain.promised 3⟩] } :
    FenceSystem).deliver ⟨3, refusedRequest, ⟨2, 0, 3⟩⟩).pump

theorem starts_fenceStart : fenceStart.Starts := by
  refine ⟨rfl, rfl, rfl, ?_, rfl, rfl, rfl, rfl, rfl, rfl⟩
  intro n hn hown
  have hmem : n ∈ [2, 3, 4] := hn
  simp only [List.mem_cons, List.not_mem_nil, or_false] at hmem
  show n ∈ [1, 2, 3]
  rcases hmem with rfl | rfl | rfl
  · decide
  · decide
  · exact absurd hown (by decide)

theorem reachable_fenceAsked : Reachable FenceSystem.Starts
    (FenceStep fun voters => voters.length / 2 + 1) fenceAsked := by
  apply Reachable.step _ (.await rfl)
  apply Reachable.step (.start starts_fenceStart)
  apply FenceStep.core
  intro _
  exact ⟨rfl, by decide⟩

theorem reachable_learnerFirst : Reachable FenceSystem.Starts
    (FenceStep fun voters => voters.length / 2 + 1) learnerFirst := by
  have hasked : (4, askedRequest) ∈ fenceAsked.requests := by decide
  have hanswered : FenceAnswer.mk 4 askedRequest Ballot.zero ∈ learnerAnswered.answers := List.mem_cons_self
  exact ((reachable_fenceAsked.step (.answer hasked)).step (.deliver hanswered)).step .pump

theorem reachable_voterFirst : Reachable FenceSystem.Starts
    (FenceStep fun voters => voters.length / 2 + 1) voterFirst := by
  have hasked : (2, askedRequest) ∈ fenceAsked.requests := by decide
  have hanswered : FenceAnswer.mk 2 askedRequest ⟨1, 0, 1⟩ ∈ voterAnswered.answers := List.mem_cons_self
  exact ((reachable_fenceAsked.step (.answer hasked)).step (.deliver hanswered)).step .pump

theorem reachable_voterRefused : Reachable FenceSystem.Starts
    (FenceStep fun voters => voters.length / 2 + 1) voterRefused := by
  have hpromised : FenceStep (fun voters => voters.length / 2 + 1) voterFirst
      { voterFirst with promised := Function.update voterFirst.promised 3 ⟨2, 0, 3⟩ } :=
    .promise fun _ => by decide
  have hasked : Reachable FenceSystem.Starts (FenceStep fun voters => voters.length / 2 + 1) askedAgain :=
    (reachable_voterFirst.step hpromised).step (.await rfl)
  have hrequested : (3, refusedRequest) ∈ askedAgain.requests := by decide
  exact ((hasked.step (.answer hrequested)).step (.deliver (List.mem_append_right _ List.mem_cons_self))).step
    .pump

/-- Before its first probe a server knows three members, of which the second holds the zero hash at
slot ten. -/
def noProbes : ProbeSystem where
  members := [1, 2, 3]
  history n slot := if n = 2 ∧ slot = 10 then some Journal.zeroHash else none
  nextNonce := 1
  waiter := none
  probes := []
  replies := []
  confirmed := []

theorem exists_confirmed : ∃ probes : ProbeSystem, Reachable ProbeSystem.Starts ProbeStep probes ∧
    probes.confirmed.map (fun w => w.waiter.acked) = [[3, 2]] := by
  have hstarts : noProbes.Starts := ⟨rfl, rfl, rfl, rfl⟩
  have hbegun := (Reachable.start hstarts).step
    (ProbeStep.begin 10 Journal.zeroHash 3 (List.cons_ne_nil _ _) rfl)
  have hanswered := hbegun.step (ProbeStep.answer (n := 2) List.mem_cons_self rfl)
  have hdelivered := hanswered.step (.deliver rfl List.mem_cons_self)
  exact ⟨_, hdelivered.step (.confirm rfl (by decide)), by decide⟩

/-- One fence completes, the next one fails, and a history is confirmed. -/
theorem quorum_evidence_sample : ∃ probes : ProbeSystem,
    voterRefused.finished.map FenceWaiter.failed = [false, true] ∧ probes.confirmed ≠ [] ∧
      (∀ w ∈ voterRefused.finished, w.failed = false →
        FenceQuorum (fun voters => voters.length / 2 + 1) ⟨voterRefused, probes⟩ w) ∧
      (∀ w ∈ probes.confirmed, HistoryQuorum ⟨voterRefused, probes⟩ w) ∧
      ∀ w, w ∈ voterRefused.finished ∨ w ∈ voterRefused.server.fences →
        w.failed = true → FenceRefused ⟨voterRefused, probes⟩ w := by
  obtain ⟨probes, hprobes, hconfirmed⟩ := exists_confirmed
  obtain ⟨hfences, hhistories, hfails⟩ :=
    quorum_evidence (reachable_probes reachable_voterRefused hprobes)
  have hfair : voterRefused.Fair := by decide
  refine ⟨probes, by decide, ?_, hfences, hhistories, hfails hfair⟩
  intro hnone
  rw [hnone] at hconfirmed
  cases hconfirmed

/-- The fence has failed. The server leads at its ballot, and no voter has answered. -/
theorem fence_failed_by_learner :
    Reachable Starts (QuorumStep fun voters => voters.length / 2 + 1) ⟨learnerFirst, noProbes⟩ ∧
      ∃ w ∈ learnerFirst.finished, w.failed = true ∧ ¬ FenceRefused ⟨learnerFirst, noProbes⟩ w := by
  refine ⟨reachable_fences ⟨rfl, rfl, rfl, rfl⟩ reachable_learnerFirst, ?_⟩
  refine ⟨⟨1, ⟨1, 0, 1⟩, 0, [1], 2, true, true⟩, by decide, rfl, ?_⟩
  rintro ⟨b, hb, -, ⟨view, hview, hne⟩ | ⟨n, hn, promised, hlt, a, ha, rfl, -, rfl⟩⟩
  · have hbirth : b = ⟨1, [1, 2, 3], 0, 1⟩ := List.mem_singleton.1 hb
    subst hbirth
    exact hne (List.mem_singleton.1 hview)
  · have hbirth : b = ⟨1, [1, 2, 3], 0, 1⟩ := List.mem_singleton.1 hb
    subst hbirth
    have hanswer : a = ⟨4, askedRequest, Ballot.zero⟩ := List.mem_singleton.1 ha
    subst hanswer
    exact absurd hn (by decide)

end QuorumSystem

end Zaxonlite
