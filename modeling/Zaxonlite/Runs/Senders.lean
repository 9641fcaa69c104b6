import Zaxonlite.Server.Sender

/-!
# Senders over whole connections

Frames are offered to a sender in any order and of any kind, acknowledgements arrive for any hash and any
number of times, and the send loop takes frames from the queue, until the connection drops; then everything
is cleared and a new connection begins. Counters and bounds hold throughout. As long as an acknowledgement
finds the memory it needs, every accepted frame is in exactly one place: sent, in the queue, or behind the
gate for want of an acknowledgement.
-/

namespace Zaxonlite

open Run

/-- A sender, whether its send loop is running, and what happened on the connection: the frames for which
true was returned, the frames sent, the frames gated and their hashes, and the acknowledgements. -/
structure SenderRun where
  lists : SenderLists
  sending : Bool
  offered : ℕ
  accepted : List OwnedFrame
  sent : List OwnedFrame
  gatedLog : List GatedFrame
  acked : List HashBytes

def idsUnder (hash : HashBytes) (items : List GatedFrame) : List ℕ :=
  (framesUnder hash items).map OwnedFrame.id

namespace SenderRun

def start : SenderRun where
  lists := ⟨false, [], 0, [], 0, []⟩
  sending := false
  offered := 0
  accepted := []
  sent := []
  gatedLog := []
  acked := []

/-- The frame that is offered next. -/
def owned (r : SenderRun) (frame : PeerFrame) : OwnedFrame :=
  ⟨r.offered, frame⟩

def took (r : SenderRun) (frame : PeerFrame) (result : SenderLists × Bool) : SenderRun :=
  { r with
    lists := result.1
    offered := r.offered + 1
    accepted := if result.2 then r.accepted ++ [r.owned frame] else r.accepted }

/-- Nothing fails to be allocated. -/
def Allocates (stores : Bool) (grows : OwnedFrame → Bool) : Prop :=
  stores = true ∧ ∀ owned, grows owned = true

/-- One operation on the sender, or on its connection. Allocations of an acknowledgement go as allowed. -/
inductive Step (allowed : Bool → (OwnedFrame → Bool) → Prop) : SenderRun → SenderRun → Prop
  | enqueueChecked {r : SenderRun} (frame : PeerFrame) (grows : Bool) :
    Step allowed r (r.took frame (r.lists.enqueueChecked (r.owned frame) grows))
  | enqueueBackpressure {r : SenderRun} {frame : PeerFrame} {stops grows : Bool}
    {result : SenderLists × Bool} :
    r.lists.enqueueBackpressure (r.owned frame) stops grows = some result →
    Step allowed r (r.took frame result)
  | gatePayload {r : SenderRun} (hash : HashBytes) (frame : PeerFrame) (grows : Bool) :
    Step allowed r
      { r.took frame (r.lists.gatePayload hash (r.owned frame) grows) with
        gatedLog :=
          if (r.lists.gatePayload hash (r.owned frame) grows).2 then r.gatedLog ++ [⟨hash, r.owned frame⟩]
          else r.gatedLog }
  | ackPayload {r : SenderRun} {stores : Bool} {grows : OwnedFrame → Bool} (hash : HashBytes) :
    allowed stores grows →
    Step allowed r
      { r with lists := r.lists.ackPayload hash stores grows, acked := r.acked ++ [hash] }
  | dequeue {r : SenderRun} {taken : OwnedFrame} {lists : SenderLists} :
    r.lists.dequeue = some (taken, lists) →
    Step allowed r { r with lists := lists, sent := r.sent ++ [taken] }
  | disconnect {r : SenderRun} : Step allowed r { r with lists := { r.lists with connected := false } }
  | reset {r : SenderRun} : r.sending = true →
    Step allowed r { r with lists := r.lists.reset, sending := false }
  | connect {r : SenderRun} : r.sending = false →
    Step allowed r
      { r with
        lists := r.lists.connect, sending := true, accepted := [], sent := [], gatedLog := [], acked := [] }

/-- What a connection promises while it is up. -/
structure Delivers (r : SenderRun) : Prop where
  accounted : r.accepted.Perm (r.sent ++ r.lists.queue ++ r.lists.gated.map GatedFrame.owned)
  once : (r.accepted.map OwnedFrame.id).Nodup
  ordered : ∀ hash, (r.sent ++ r.lists.queue).filter
    (fun owned => decide (owned.id ∈ idsUnder hash r.gatedLog)) ++ framesUnder hash r.lists.gated =
      framesUnder hash r.gatedLog
  released : ∀ item ∈ r.gatedLog, item.owned ∈ r.sent ++ r.lists.queue → item.hash ∈ r.acked
  waiting : ∀ item ∈ r.lists.gated, item.hash ∉ r.acked

/-! ### Bounds -/

/-- Counters and bounds hold, and nothing is held between connections. -/
structure Held (r : SenderRun) : Prop where
  bounded : r.lists.Bounded
  idle : r.sending = false → r.lists.connected = false ∧ r.lists.queue = [] ∧ r.lists.gated = []

section Bounds

variable {allowed : Bool → (OwnedFrame → Bool) → Prop} {r r' : SenderRun}

theorem enqueueLocked_idle {s : SenderLists} (h : s.connected = false) (owned : OwnedFrame) (grows : Bool) :
    s.enqueueLocked owned grows = (s, false) := by
  rcases s.enqueueLocked_cases owned grows with ⟨hconnected, -⟩ | heq
  · cases h.symm.trans hconnected
  · exact heq

theorem gatePayload_idle {s : SenderLists} (h : s.connected = false) (hash : HashBytes) (owned : OwnedFrame)
    (grows : Bool) : s.gatePayload hash owned grows = (s, false) := by
  rcases s.gatePayload_cases hash owned grows with ⟨-, heq⟩ | ⟨-, hconnected, -⟩ | heq
  · rw [heq]
    exact enqueueLocked_idle h owned grows
  · cases h.symm.trans hconnected
  · exact heq

theorem held_step (h : r.Held) (hstep : Step allowed r r') : r'.Held := by
  cases hstep with
  | enqueueChecked frame grows =>
    refine ⟨h.bounded.enqueueLocked _ _, ?_⟩
    intro hsending
    obtain ⟨hconnected, hempty⟩ := h.idle hsending
    show (r.lists.enqueueLocked _ _).1.connected = false ∧ _
    rw [took, SenderLists.enqueueChecked, enqueueLocked_idle hconnected]
    exact ⟨hconnected, hempty⟩
  | @enqueueBackpressure frame stops grows result hresult =>
    rcases SenderLists.enqueueBackpressure_cases hresult with rfl | rfl
    · refine ⟨h.bounded.enqueueLocked _ _, ?_⟩
      intro hsending
      obtain ⟨hconnected, hempty⟩ := h.idle hsending
      rw [took, enqueueLocked_idle hconnected]
      exact ⟨hconnected, hempty⟩
    · exact ⟨h.bounded, h.idle⟩
  | gatePayload hash frame grows =>
    refine ⟨h.bounded.gatePayload _ _ _, ?_⟩
    intro hsending
    obtain ⟨hconnected, hempty⟩ := h.idle hsending
    show (r.lists.gatePayload _ _ _).1.connected = false ∧ (r.lists.gatePayload _ _ _).1.queue = [] ∧
      (r.lists.gatePayload _ _ _).1.gated = []
    rw [gatePayload_idle hconnected]
    exact ⟨hconnected, hempty⟩
  | @ackPayload stores grows hash hallowed =>
    refine ⟨h.bounded.ackPayload _ _ _, ?_⟩
    intro hsending
    obtain ⟨hconnected, hqueue, hgated⟩ := h.idle hsending
    show (r.lists.ackPayload hash stores grows).connected = false ∧ _
    rw [SenderLists.ackPayload]
    split
    · rw [hgated]
      exact ⟨hconnected, hqueue, rfl⟩
    · exact ⟨hconnected, hqueue, hgated⟩
  | @dequeue taken lists hdequeue =>
    refine ⟨h.bounded.dequeue hdequeue, ?_⟩
    intro hsending
    cases (h.idle hsending).1.symm.trans (SenderLists.dequeue_eq_some hdequeue).1
  | disconnect =>
    refine ⟨⟨h.bounded.queueBytes, h.bounded.gatedBytes, h.bounded.frames, h.bounded.bytes⟩, ?_⟩
    exact fun hsending => ⟨rfl, (h.idle hsending).2⟩
  | reset hsending => exact ⟨SenderLists.bounded_reset r.lists, fun _ => ⟨rfl, rfl, rfl⟩⟩
  | connect hidle => exact ⟨h.bounded.connect, fun hsending => by cases hsending⟩

end Bounds

/-! ### Delivery -/

/-- What holds of a connection that is up and whose acknowledgements found their memory. -/
structure Live (r : SenderRun) : Prop extends r.Delivers where
  fresh : ∀ owned ∈ r.accepted, owned.id < r.offered
  logged : ∀ item ∈ r.gatedLog, item.owned ∈ r.accepted
  logOnce : (r.gatedLog.map fun item => item.owned.id).Nodup
  stored : r.lists.storedPayloads = r.acked

theorem mem_idsUnder {hash : HashBytes} {items : List GatedFrame} {id : ℕ} :
    id ∈ idsUnder hash items ↔ ∃ item ∈ items, item.hash = hash ∧ item.owned.id = id := by
  rw [idsUnder, List.mem_map]
  constructor
  · intro h
    obtain ⟨owned, howned, rfl⟩ := h
    exact ⟨_, mem_framesUnder.1 howned, rfl, rfl⟩
  · intro h
    obtain ⟨item, hitem, rfl, rfl⟩ := h
    exact ⟨item.owned, mem_framesUnder.2 hitem, rfl⟩

section Delivery

variable {r : SenderRun}

theorem Live.held_mem (h : r.Live) {owned : OwnedFrame} (howned : owned ∈ r.sent ++ r.lists.queue) :
    owned ∈ r.accepted :=
  h.accounted.mem_iff.2 (List.mem_append_left _ howned)

theorem Live.gated_mem (h : r.Live) {item : GatedFrame} (hitem : item ∈ r.lists.gated) :
    item ∈ r.gatedLog := by
  have hmem : item.owned ∈ framesUnder item.hash r.lists.gated := mem_framesUnder.2 hitem
  have hlog : item.owned ∈ framesUnder item.hash r.gatedLog := by
    rw [← h.ordered item.hash]
    exact List.mem_append_right _ hmem
  exact mem_framesUnder.1 hlog

theorem Live.item_eq (h : r.Live) {item item' : GatedFrame} (hitem : item ∈ r.gatedLog)
    (hitem' : item' ∈ r.gatedLog) (hid : item.owned.id = item'.owned.id) : item = item' :=
  List.inj_on_of_nodup_map h.logOnce hitem hitem' hid

theorem Live.not_logged (h : r.Live) (hash : HashBytes) : r.offered ∉ idsUnder hash r.gatedLog := by
  intro hmem
  obtain ⟨item, hitem, -, hid⟩ := mem_idsUnder.1 hmem
  have hless := h.fresh _ (h.logged item hitem)
  omega

theorem Live.once_took (h : r.Live) (frame : PeerFrame) :
    ((r.accepted ++ [r.owned frame]).map OwnedFrame.id).Nodup := by
  rw [List.map_append, List.map_singleton, List.nodup_append]
  refine ⟨h.once, List.nodup_singleton _, ?_⟩
  intro id hid id' hid' heq
  obtain ⟨owned, howned, rfl⟩ := List.mem_map.1 hid
  have hless := h.fresh owned howned
  rw [List.mem_singleton.1 hid'] at heq
  exact hless.ne heq

theorem Live.fresh_took (h : r.Live) (frame : PeerFrame) :
    ∀ owned ∈ r.accepted ++ [r.owned frame], owned.id < r.offered + 1 := by
  intro owned howned
  rcases List.mem_append.1 howned with howned | howned
  · exact Nat.lt_succ_of_lt (h.fresh owned howned)
  · rw [List.mem_singleton.1 howned]
    exact Nat.lt_succ_self _

theorem Live.refused (h : r.Live) (frame : PeerFrame) : (r.took frame (r.lists, false)).Live :=
  { h with fresh := fun owned howned => Nat.lt_succ_of_lt (h.fresh owned howned) }

theorem Live.accounted_queue (h : r.Live) (frame : PeerFrame) :
    (r.accepted ++ [r.owned frame]).Perm
      (r.sent ++ (r.lists.queue ++ [r.owned frame]) ++ r.lists.gated.map GatedFrame.owned) := by
  have hperm := h.accounted.append_right [r.owned frame]
  rw [List.append_assoc (r.sent ++ r.lists.queue)] at hperm
  refine hperm.trans ?_
  rw [← List.append_assoc r.sent, List.append_assoc (r.sent ++ r.lists.queue)]
  exact List.perm_append_comm.append_left _

theorem Live.enqueued (h : r.Live) (frame : PeerFrame) (queueBytes : ℕ) :
    (r.took frame ({ r.lists with queue := r.lists.queue ++ [r.owned frame], queueBytes := queueBytes },
      true)).Live where
  accounted := h.accounted_queue frame
  once := h.once_took frame
  ordered := by
    intro hash
    show (r.sent ++ (r.lists.queue ++ [r.owned frame])).filter
        (fun owned => decide (owned.id ∈ idsUnder hash r.gatedLog)) ++ framesUnder hash r.lists.gated =
      framesUnder hash r.gatedLog
    rw [← List.append_assoc r.sent, List.filter_append, List.filter_cons_of_neg, List.filter_nil,
      List.append_nil]
    · exact h.ordered hash
    · rw [decide_eq_true_iff]
      exact h.not_logged hash
  released := by
    intro item hitem hmem
    replace hmem : item.owned ∈ r.sent ++ (r.lists.queue ++ [r.owned frame]) := hmem
    rw [← List.append_assoc] at hmem
    rcases List.mem_append.1 hmem with hmem | hmem
    · exact h.released item hitem hmem
    · have hless := h.fresh _ (h.logged item hitem)
      rw [List.mem_singleton.1 hmem] at hless
      exact absurd hless (lt_irrefl _)
  waiting := h.waiting
  fresh := h.fresh_took frame
  logged := fun item hitem => List.mem_append_left _ (h.logged item hitem)
  logOnce := h.logOnce
  stored := h.stored

theorem Live.logOnce_took (h : r.Live) (hash : HashBytes) (frame : PeerFrame) :
    ((r.gatedLog ++ [GatedFrame.mk hash (r.owned frame)]).map fun item => item.owned.id).Nodup := by
  rw [List.map_append, List.map_singleton, List.nodup_append]
  refine ⟨h.logOnce, List.nodup_singleton _, ?_⟩
  intro id hid id' hid' heq
  obtain ⟨item, hitem, rfl⟩ := List.mem_map.1 hid
  have hless := h.fresh _ (h.logged item hitem)
  rw [List.mem_singleton.1 hid'] at heq
  exact hless.ne heq

theorem Live.logged_took (h : r.Live) (hash : HashBytes) (frame : PeerFrame) :
    ∀ item ∈ r.gatedLog ++ [GatedFrame.mk hash (r.owned frame)], item.owned ∈ r.accepted ++ [r.owned frame] := by
  intro item hitem
  rcases List.mem_append.1 hitem with hitem | hitem
  · exact List.mem_append_left _ (h.logged item hitem)
  · rw [List.mem_singleton.1 hitem]
    exact List.mem_append_right _ List.mem_cons_self

/-- Among older frames the longer log selects the same ones. -/
theorem Live.filter_took (h : r.Live) (hash hash' : HashBytes) (frame : PeerFrame) :
    (r.sent ++ r.lists.queue).filter (fun owned =>
      decide (owned.id ∈ idsUnder hash' (r.gatedLog ++ [⟨hash, r.owned frame⟩]))) =
    (r.sent ++ r.lists.queue).filter (fun owned => decide (owned.id ∈ idsUnder hash' r.gatedLog)) := by
  apply List.filter_congr
  intro owned howned
  have hless := h.fresh owned (h.held_mem howned)
  rw [decide_eq_decide, mem_idsUnder, mem_idsUnder]
  constructor
  · intro hfound
    obtain ⟨item, hitem, hhash, hid⟩ := hfound
    rcases List.mem_append.1 hitem with hitem | hitem
    · exact ⟨item, hitem, hhash, hid⟩
    · rw [List.mem_singleton.1 hitem] at hid
      exact absurd hid hless.ne'
  · intro hfound
    obtain ⟨item, hitem, hhash, hid⟩ := hfound
    exact ⟨item, List.mem_append_left _ hitem, hhash, hid⟩

theorem framesUnder_concat (hash hash' : HashBytes) (items : List GatedFrame) (owned : OwnedFrame) :
    framesUnder hash' (items ++ [⟨hash, owned⟩]) =
      framesUnder hash' items ++ if hash = hash' then [owned] else [] := by
  rw [framesUnder_append, framesUnder_cons]
  rfl

theorem Live.gatedStored (h : r.Live) (frame : PeerFrame) (queueBytes : ℕ) {hash : HashBytes}
    (hstored : hash ∈ r.lists.storedPayloads) :
    ({ r.took frame ({ r.lists with queue := r.lists.queue ++ [r.owned frame], queueBytes := queueBytes },
        true) with gatedLog := r.gatedLog ++ [⟨hash, r.owned frame⟩] } : SenderRun).Live where
  accounted := h.accounted_queue frame
  once := h.once_took frame
  ordered := by
    intro hash'
    show (r.sent ++ (r.lists.queue ++ [r.owned frame])).filter
        (fun owned => decide (owned.id ∈ idsUnder hash' (r.gatedLog ++ [⟨hash, r.owned frame⟩]))) ++
          framesUnder hash' r.lists.gated = framesUnder hash' (r.gatedLog ++ [⟨hash, r.owned frame⟩])
    rw [← List.append_assoc r.sent, List.filter_append, h.filter_took, framesUnder_concat]
    have hold := h.ordered hash'
    by_cases hhash : hash = hash'
    · subst hhash
      -- An acknowledged hash has nothing behind the gate.
      have hnone : framesUnder hash r.lists.gated = [] := by
        rw [List.eq_nil_iff_forall_not_mem]
        intro owned howned
        exact h.waiting _ (mem_framesUnder.1 howned) (h.stored ▸ hstored)
      rw [hnone, List.append_nil] at hold
      rw [hnone, hold, if_pos rfl, List.append_nil, List.filter_cons_of_pos, List.filter_nil]
      rw [decide_eq_true_iff, mem_idsUnder]
      exact ⟨_, List.mem_append_right _ List.mem_cons_self, rfl, rfl⟩
    · rw [if_neg hhash, List.append_nil, List.filter_cons_of_neg, List.filter_nil, List.append_nil]
      · exact hold
      · rw [decide_eq_true_iff, mem_idsUnder]
        intro hfound
        obtain ⟨item, hitem, hitemHash, hid⟩ := hfound
        rcases List.mem_append.1 hitem with hitem | hitem
        · exact h.not_logged hash' (mem_idsUnder.2 ⟨item, hitem, hitemHash, hid⟩)
        · rw [List.mem_singleton.1 hitem] at hitemHash
          exact hhash hitemHash
  released := by
    intro item hitem hmem
    rcases List.mem_append.1 hitem with hitem | hitem
    · exact (h.enqueued frame queueBytes).released item hitem hmem
    · rw [List.mem_singleton.1 hitem]
      exact h.stored ▸ hstored
  waiting := h.waiting
  fresh := h.fresh_took frame
  logged := h.logged_took hash frame
  logOnce := h.logOnce_took hash frame
  stored := h.stored

/-- A frame was gated behind a payload that is not stored. -/
theorem Live.gated (h : r.Live) (frame : PeerFrame) (gatedBytes : ℕ) {hash : HashBytes}
    (hstored : hash ∉ r.lists.storedPayloads) :
    ({ r.took frame ({ r.lists with
          gated := r.lists.gated ++ [⟨hash, r.owned frame⟩], gatedBytes := gatedBytes }, true) with
        gatedLog := r.gatedLog ++ [⟨hash, r.owned frame⟩] } : SenderRun).Live where
  accounted := by
    show (r.accepted ++ [r.owned frame]).Perm (r.sent ++ r.lists.queue ++
      (r.lists.gated ++ [GatedFrame.mk hash (r.owned frame)]).map GatedFrame.owned)
    rw [List.map_append, List.map_singleton, ← List.append_assoc]
    exact h.accounted.append_right _
  once := h.once_took frame
  ordered := by
    intro hash'
    show (r.sent ++ r.lists.queue).filter
        (fun owned => decide (owned.id ∈ idsUnder hash' (r.gatedLog ++ [⟨hash, r.owned frame⟩]))) ++
          framesUnder hash' (r.lists.gated ++ [⟨hash, r.owned frame⟩]) =
      framesUnder hash' (r.gatedLog ++ [⟨hash, r.owned frame⟩])
    rw [h.filter_took, framesUnder_concat, framesUnder_concat, ← List.append_assoc, h.ordered hash']
  released := by
    intro item hitem hmem
    rcases List.mem_append.1 hitem with hitem | hitem
    · exact h.released item hitem hmem
    · rw [List.mem_singleton.1 hitem] at hmem
      have hless := h.fresh _ (h.held_mem hmem)
      exact absurd hless (lt_irrefl _)
  waiting := by
    intro item hitem
    rcases List.mem_append.1 hitem with hitem | hitem
    · exact h.waiting item hitem
    · rw [List.mem_singleton.1 hitem]
      exact fun hacked => hstored (h.stored ▸ hacked)
  fresh := h.fresh_took frame
  logged := h.logged_took hash frame
  logOnce := h.logOnce_took hash frame
  stored := h.stored

/-- An acknowledgement released every frame under its hash. -/
theorem Live.acked (h : r.Live) {lists : SenderLists} {hash : HashBytes}
    (hqueue : lists.queue = r.lists.queue ++ framesUnder hash r.lists.gated)
    (hgated : lists.gated = r.lists.gated.filter fun item => decide (item.hash ≠ hash))
    (hstored : lists.storedPayloads = r.lists.storedPayloads ++ [hash]) :
    ({ r with lists := lists, acked := r.acked ++ [hash] } : SenderRun).Live where
  accounted := by
    show r.accepted.Perm (r.sent ++ lists.queue ++ lists.gated.map GatedFrame.owned)
    have hsplit : (r.lists.gated.map GatedFrame.owned).Perm
        (framesUnder hash r.lists.gated ++ lists.gated.map GatedFrame.owned) := by
      rw [hgated, framesUnder, ← List.map_append]
      have hperm := List.filter_append_perm (fun item => decide (item.hash = hash)) r.lists.gated
      simp only [decide_not, ne_eq]
      exact (hperm.map _).symm
    rw [hqueue, ← List.append_assoc r.sent, List.append_assoc (r.sent ++ r.lists.queue)]
    exact h.accounted.trans (hsplit.append_left _)
  once := h.once
  ordered := by
    intro hash'
    show (r.sent ++ lists.queue).filter (fun owned => decide (owned.id ∈ idsUnder hash' r.gatedLog)) ++
      framesUnder hash' lists.gated = framesUnder hash' r.gatedLog
    have hold := h.ordered hash'
    rw [hqueue, ← List.append_assoc, List.filter_append, hgated]
    by_cases hhash : hash = hash'
    · subst hhash
      have hall : (framesUnder hash r.lists.gated).filter
          (fun owned => decide (owned.id ∈ idsUnder hash r.gatedLog)) = framesUnder hash r.lists.gated := by
        rw [List.filter_eq_self]
        intro owned howned
        rw [decide_eq_true_iff, mem_idsUnder]
        exact ⟨_, h.gated_mem (mem_framesUnder.1 howned), rfl, rfl⟩
      have hnone : framesUnder hash (r.lists.gated.filter fun item => decide (item.hash ≠ hash)) = [] := by
        rw [List.eq_nil_iff_forall_not_mem]
        intro owned howned
        have hne := (List.mem_filter.1 (mem_framesUnder.1 howned)).2
        rw [decide_eq_true_iff] at hne
        exact hne rfl
      rw [hall, hnone, List.append_nil]
      exact hold
    · have hnone : (framesUnder hash r.lists.gated).filter
          (fun owned => decide (owned.id ∈ idsUnder hash' r.gatedLog)) = [] := by
        rw [List.filter_eq_nil_iff]
        intro owned howned
        rw [decide_eq_true_iff, mem_idsUnder]
        intro hfound
        obtain ⟨item, hitem, hitemHash, hid⟩ := hfound
        have heq := h.item_eq hitem (h.gated_mem (mem_framesUnder.1 howned)) hid
        rw [heq] at hitemHash
        exact hhash hitemHash
      have hsame : framesUnder hash' (r.lists.gated.filter fun item => decide (item.hash ≠ hash)) =
          framesUnder hash' r.lists.gated := by
        rw [framesUnder, framesUnder, List.filter_filter]
        congr 1
        apply List.filter_congr
        intro item _
        rw [Bool.and_eq_left_iff_imp, decide_eq_true_iff, decide_eq_true_iff]
        exact fun hitem heq => hhash (heq.symm.trans hitem)
      rw [hnone, hsame, List.append_nil]
      exact hold
  released := by
    intro item hitem hmem
    replace hmem : item.owned ∈ r.sent ++ lists.queue := hmem
    rw [hqueue, ← List.append_assoc] at hmem
    rcases List.mem_append.1 hmem with hmem | hmem
    · exact List.mem_append_left _ (h.released item hitem hmem)
    · have heq := h.item_eq hitem (h.gated_mem (mem_framesUnder.1 hmem)) rfl
      rw [heq]
      exact List.mem_append_right _ List.mem_cons_self
  waiting := by
    intro item hitem
    replace hitem : item ∈ lists.gated := hitem
    rw [hgated, List.mem_filter, decide_eq_true_iff] at hitem
    intro hacked
    rcases List.mem_append.1 hacked with hacked | hacked
    · exact h.waiting item hitem.1 hacked
    · exact hitem.2 (List.mem_singleton.1 hacked)
  fresh := h.fresh
  logged := h.logged
  logOnce := h.logOnce
  stored := by
    show lists.storedPayloads = r.acked ++ [hash]
    rw [hstored, h.stored]

theorem Live.dequeued (h : r.Live) {taken : OwnedFrame} {lists : SenderLists}
    (hdequeue : r.lists.dequeue = some (taken, lists)) :
    ({ r with lists := lists, sent := r.sent ++ [taken] } : SenderRun).Live := by
  obtain ⟨-, hqueue, hlists⟩ := SenderLists.dequeue_eq_some hdequeue
  have hsame : r.sent ++ [taken] ++ lists.queue = r.sent ++ r.lists.queue := by
    rw [hqueue, List.append_assoc]
    rfl
  have hgated : lists.gated = r.lists.gated := by rw [hlists]
  have hstored : lists.storedPayloads = r.lists.storedPayloads := by rw [hlists]
  refine ⟨⟨?_, h.once, ?_, ?_, ?_⟩, h.fresh, h.logged, h.logOnce, hstored.trans h.stored⟩
  · show r.accepted.Perm (r.sent ++ [taken] ++ lists.queue ++ lists.gated.map GatedFrame.owned)
    rw [hsame, hgated]
    exact h.accounted
  · intro hash
    show (r.sent ++ [taken] ++ lists.queue).filter _ ++ framesUnder hash lists.gated = _
    rw [hsame, hgated]
    exact h.ordered hash
  · intro item hitem hmem
    replace hmem : item.owned ∈ r.sent ++ [taken] ++ lists.queue := hmem
    rw [hsame] at hmem
    exact h.released item hitem hmem
  · intro item hitem
    exact h.waiting item (hgated ▸ hitem)

theorem Live.enqueueLocked (h : r.Live) (frame : PeerFrame) (grows : Bool) :
    (r.took frame (r.lists.enqueueLocked (r.owned frame) grows)).Live := by
  rcases r.lists.enqueueLocked_cases (r.owned frame) grows with ⟨-, -, heq⟩ | heq
  · rw [heq]
    exact h.enqueued frame _
  · rw [heq]
    exact h.refused frame

theorem connected_of_took {frame : PeerFrame} {grows : Bool}
    (h : (r.lists.enqueueLocked (r.owned frame) grows).1.connected = true) : r.lists.connected = true :=
  (SenderLists.gated_enqueueLocked _ _ _).2.symm.trans h

theorem connected_gatePayload {s : SenderLists} {hash : HashBytes} {owned : OwnedFrame} {grows : Bool}
    (h : (s.gatePayload hash owned grows).1.connected = true) : s.connected = true := by
  rcases s.gatePayload_cases hash owned grows with ⟨-, heq⟩ | ⟨-, hconnected, -⟩ | heq
  · rw [heq] at h
    exact (SenderLists.gated_enqueueLocked _ _ _).2.symm.trans h
  · exact hconnected
  · rw [heq] at h
    exact h

theorem connected_releaseLoop {s : SenderLists} {hash : HashBytes} {grows : OwnedFrame → Bool}
    {kept rest : List GatedFrame} :
    (SenderLists.releaseLoop hash grows kept rest s).connected = s.connected := by
  induction rest generalizing kept s with
  | nil => rfl
  | cons item rest ih =>
    rw [SenderLists.releaseLoop]
    split
    · rw [ih]
      exact (SenderLists.gated_enqueueLocked _ _ _).2
    · exact ih

theorem live_step {r' : SenderRun} (h : r.Held) (hlive : r.lists.connected = true → r.Live)
    (hstep : Step Allocates r r') : r'.lists.connected = true → r'.Live := by
  intro hconnected
  cases hstep with
  | enqueueChecked frame grows => exact (hlive (connected_of_took hconnected)).enqueueLocked frame grows
  | @enqueueBackpressure frame stops grows result hresult =>
    rcases SenderLists.enqueueBackpressure_cases hresult with rfl | rfl
    · exact (hlive (connected_of_took hconnected)).enqueueLocked frame grows
    · exact (hlive hconnected).refused frame
  | gatePayload hash frame grows =>
    have hbefore := hlive (connected_gatePayload hconnected)
    rcases r.lists.gatePayload_cases hash (r.owned frame) grows with ⟨hstored, heq⟩ | ⟨hstored, -, -, heq⟩ | heq
    · rcases r.lists.enqueueLocked_cases (r.owned frame) grows with ⟨-, -, hresult⟩ | hresult
      · rw [heq, hresult]
        exact hbefore.gatedStored frame _ hstored
      · rw [heq, hresult]
        exact hbefore.refused frame
    · rw [heq]
      exact hbefore.gated frame _ hstored
    · rw [heq]
      exact hbefore.refused frame
  | @ackPayload stores grows hash hallowed =>
    obtain ⟨rfl, hgrows⟩ := hallowed
    have hsame : (r.lists.ackPayload hash true grows).connected = r.lists.connected := by
      rw [SenderLists.ackPayload, if_pos rfl, connected_releaseLoop]
    have hup : r.lists.connected = true := hsame.symm.trans hconnected
    obtain ⟨hqueue, hgated, -, hstored⟩ := SenderLists.ackPayload_eq hgrows h.bounded hup hash
    exact (hlive hup).acked hqueue hgated hstored
  | @dequeue taken lists hdequeue =>
    exact (hlive (SenderLists.dequeue_eq_some hdequeue).1).dequeued hdequeue
  | disconnect => cases hconnected
  | reset hsending => cases hconnected
  | connect hidle =>
    obtain ⟨-, hqueue, -⟩ := h.idle hidle
    refine ⟨⟨?_, List.nodup_nil, ?_, ?_, ?_⟩, ?_, ?_, List.nodup_nil, rfl⟩
    · show ([] : List OwnedFrame).Perm ([] ++ r.lists.queue ++ [])
      rw [hqueue]
      exact List.Perm.refl _
    · intro hash
      show ([] ++ r.lists.queue).filter _ ++ [] = []
      rw [hqueue]
      rfl
    · exact fun _ hitem => absurd hitem List.not_mem_nil
    · exact fun _ hitem => absurd hitem List.not_mem_nil
    · exact fun _ howned => absurd howned List.not_mem_nil
    · exact fun _ hitem => absurd hitem List.not_mem_nil

end Delivery

theorem held_start : start.Held :=
  ⟨⟨rfl, rfl, Nat.zero_le _, Nat.zero_le _⟩, fun _ => ⟨rfl, rfl, rfl⟩⟩

/-- **Senders keep their bounds, and lose nothing they accepted** unless an acknowledgement runs out of
memory. -/
theorem sender_delivers (r : SenderRun) :
    (∀ allowed : Bool → (OwnedFrame → Bool) → Prop,
      Reachable (fun r => r = start) (Step allowed) r → r.lists.Bounded) ∧
    (Reachable (fun r => r = start) (Step Allocates) r → r.lists.connected = true → r.Delivers) := by
  constructor
  · intro allowed h
    have hheld : r.Held := by
      apply h.invariant
      · rintro r rfl
        exact held_start
      · exact fun r r' hr hstep => held_step hr hstep
    exact hheld.bounded
  · intro h
    have hboth : r.Held ∧ (r.lists.connected = true → r.Live) := by
      apply h.invariant (I := fun r => r.Held ∧ (r.lists.connected = true → r.Live))
      · rintro r rfl
        exact ⟨held_start, fun hconnected => by cases hconnected⟩
      · exact fun r r' hr hstep => ⟨held_step hr.1 hstep, live_step hr.1 hr.2 hstep⟩
    exact fun hconnected => (hboth.2 hconnected).toDelivers

def smallFrame : PeerFrame :=
  .other ⟨.envelope, [1]⟩

/-- A frame is gated under a hash, the hash is acknowledged, and the frame is sent. -/
theorem sender_delivers_gated : ∃ r : SenderRun,
    Reachable (fun r => r = start) (Step Allocates) r ∧ r.sent = [⟨0, smallFrame⟩] ∧ r.lists.Bounded ∧
      r.Delivers := by
  have h₀ : Reachable (fun r => r = start) (Step Allocates) start := .start rfl
  have h₁ := h₀.step (Step.connect rfl)
  have h₂ := h₁.step (Step.gatePayload Journal.zeroHash smallFrame true)
  have h₃ := h₂.step (Step.ackPayload Journal.zeroHash
    (⟨rfl, fun _ => rfl⟩ : Allocates true fun _ => true))
  have h₄ := h₃.step (Step.dequeue rfl)
  exact ⟨_, h₄, rfl, (sender_delivers _).1 _ h₄, (sender_delivers _).2 h₄ rfl⟩

/-- The queue cannot grow when the acknowledgement comes: the frame that was accepted is nowhere. -/
theorem sender_drops_released : ∃ r : SenderRun,
    Reachable (fun r => r = start) (Step fun _ _ => True) r ∧ r.lists.connected = true ∧
      r.accepted = [⟨0, smallFrame⟩] ∧ r.sent = [] ∧ r.lists.queue = [] ∧ r.lists.gated = [] := by
  have h₀ : Reachable (fun r => r = start) (Step fun _ _ => True) start := .start rfl
  have h₁ := h₀.step (Step.connect rfl)
  have h₂ := h₁.step (Step.gatePayload Journal.zeroHash smallFrame true)
  have h₃ := h₂.step
    (@Step.ackPayload (fun _ _ => True) _ true (fun _ => false) Journal.zeroHash trivial)
  exact ⟨_, h₃, rfl, rfl, rfl, rfl, rfl⟩

end SenderRun

end Zaxonlite
