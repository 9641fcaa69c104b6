import Mathlib.Algebra.GroupWithZero.Nat
import Zaxonlite.Lib.Run
import Zaxonlite.Node.State
import Zaxonlite.Wire.Session

/-!
# The stream to the learners

A leader streams the chosen prefix to the nodes that store the log without voting. Each connection has a
cursor, `learned_through`, which starts at zero and moves only over slots the log can still read. A pass
stops at the first slot that has left the in-memory window. A learner that reconnects is therefore resumed
exactly when the window still holds everything from the first slot on.
-/

namespace Zaxonlite

open Bytes (encodeLe)
open Run

/-! ### Frames and senders -/

structure LearnerCommit where
  configurationId : ℕ
  slot : ℕ
  entry : Entry
  deriving DecidableEq

def LearnerCommit.encode (commit : LearnerCommit) : List UInt8 :=
  encodeLe 8 commit.configurationId ++ encodeLe 8 commit.slot ++ commit.entry.encode

inductive PeerFrame where
  | payloadData (hash : HashBytes) (payload : List UInt8)
  | learnerCommit (commit : LearnerCommit)
  | other (frame : Frame)

/-- `frameAlloc`; payloads and entries are bounded below the frame limit. -/
def PeerFrame.bytes : PeerFrame → List UInt8
  | payloadData hash payload => plainFrame .payloadData (hash.toList ++ payload)
  | learnerCommit commit => plainFrame .learnerCommit commit.encode
  | other frame => plainFrame frame.kind frame.body

def senderQueueLimit : ℕ := 4096

def senderQueueByteLimit : ℕ := 128 * 1024 * 1024

structure PeerSender where
  role : Role
  queue : List PeerFrame
  gated : List (HashBytes × PeerFrame)
  connected : Bool
  storedPayloads : List HashBytes
  learnedThrough : ℕ

namespace PeerSender

def queueBytes (s : PeerSender) : ℕ :=
  (s.queue.map fun frame => frame.bytes.length).sum

def gatedBytes (s : PeerSender) : ℕ :=
  (s.gated.map fun item => item.2.bytes.length).sum

/-- The bounds a frame must meet to enter the queue or the gate. -/
def admits (s : PeerSender) (frame : PeerFrame) : Bool :=
  s.connected && decide (s.queue.length + s.gated.length < senderQueueLimit) &&
    decide (s.queueBytes + s.gatedBytes + frame.bytes.length ≤ senderQueueByteLimit)

/-- `enqueueChecked`: the sender and whether the frame entered the queue. -/
def enqueueChecked (s : PeerSender) (frame : PeerFrame) : PeerSender × Bool :=
  if s.admits frame then ({ s with queue := s.queue ++ [frame] }, true) else (s, false)

/-- `gatePayload`: the frame waits until the peer has stored the payload. -/
def gatePayload (s : PeerSender) (hash : HashBytes) (frame : PeerFrame) : PeerSender × Bool :=
  if hash ∈ s.storedPayloads then s.enqueueChecked frame
  else if s.admits frame then ({ s with gated := s.gated ++ [(hash, frame)] }, true)
  else (s, false)

/-- The frames taken and not yet sent. -/
def held (s : PeerSender) : List PeerFrame :=
  s.queue ++ s.gated.map Prod.snd

/-- What `run` does once the connection is up. -/
def connect (s : PeerSender) : PeerSender :=
  { s with connected := true, storedPayloads := [], gated := [], learnedThrough := 0 }

end PeerSender

/-! ### A pass -/

def entryPayloadHash : Entry → Option HashBytes
  | .command (.transactionBatch batch) => some batch.payloadHash
  | _ => none

/-- What the stream reads of the leader's node; `read` is `log.read`. -/
structure LearnerLeader where
  configurationId : ℕ
  isLeader : Bool
  appliedSlot : ℕ
  read : ℕ → Option Entry
  store : PayloadStore

namespace LearnerLeader

/-- The payload goes ahead of its commit, unless the peer has stored it. -/
def offerPayload (n : LearnerLeader) (s : PeerSender) (entry : Entry) : PeerSender × Bool :=
  match entryPayloadHash entry with
  | none => (s, true)
  | some hash =>
    if hash ∈ s.storedPayloads then (s, true)
    else
      match n.store.load hash with
      | none => (s, false)
      | some payload => s.enqueueChecked (.payloadData hash payload)

def queueCommit (s : PeerSender) (commit : LearnerCommit) : PeerSender × Bool :=
  match entryPayloadHash commit.entry with
  | some hash => s.gatePayload hash (.learnerCommit commit)
  | none => s.enqueueChecked (.learnerCommit commit)

/-- One turn of the loop in `drainLearners`, with the commit it queued; without one the loop breaks. -/
def drainSlot (n : LearnerLeader) (s : PeerSender) : PeerSender × Option LearnerCommit :=
  let slot := s.learnedThrough + 1
  match n.read slot with
  | none => (s, none)
  | some entry =>
    let (offered, offeredOk) := n.offerPayload s entry
    if !offeredOk then (offered, none)
    else
      let commit : LearnerCommit := ⟨n.configurationId, slot, entry⟩
      let (queued, accepted) := queueCommit offered commit
      if !accepted then (queued, none) else ({ queued with learnedThrough := slot }, some commit)

/-- The loop: as many turns as slots are missing, with the commits queued, in their order. -/
def drainSlots (n : LearnerLeader) : ℕ → PeerSender → PeerSender × List LearnerCommit
  | 0, s => (s, [])
  | missing + 1, s =>
    match n.drainSlot s with
    | (t, none) => (t, [])
    | (t, some commit) =>
      let (u, commits) := drainSlots n missing t
      (u, commit :: commits)

/-- What `drainLearners` does for one sender. -/
def drainSender (n : LearnerLeader) (s : PeerSender) : PeerSender × List LearnerCommit :=
  if !n.isLeader then (s, [])
  else if s.role.capabilities.votes then (s, [])
  else if !s.role.capabilities.storesLog then (s, [])
  else n.drainSlots (n.appliedSlot - s.learnedThrough) s

def drainLearners (n : LearnerLeader) (senders : List PeerSender) :
    List (PeerSender × List LearnerCommit) :=
  senders.map n.drainSender

/-- The commits of consecutive slots, as far as the log reads them. -/
def commits (n : LearnerLeader) (first count : ℕ) : List LearnerCommit :=
  (List.range' first count).filterMap fun slot =>
    (n.read slot).map fun entry => ⟨n.configurationId, slot, entry⟩

/-- The slot can be sent: the log reads it, and its payload is stored by the peer or by this node. -/
def Available (n : LearnerLeader) (stored : List HashBytes) (slot : ℕ) : Prop :=
  ∃ entry, n.read slot = some entry ∧
    ∀ hash ∈ entryPayloadHash entry, hash ∈ stored ∨ (n.store.load hash).isSome

def slotFrames (n : LearnerLeader) (stored : List HashBytes) (slot : ℕ) : List PeerFrame :=
  match n.read slot with
  | none => []
  | some entry =>
    (match entryPayloadHash entry with
      | none => []
      | some hash =>
        if hash ∈ stored then []
        else (n.store.load hash).toList.map (PeerFrame.payloadData hash)) ++
      [.learnerCommit ⟨n.configurationId, slot, entry⟩]

end LearnerLeader

/-! ### Room in the queue -/

namespace PeerSender

/-- The sender takes all these frames, whether into its queue or its gate. -/
structure HasRoomFor (s : PeerSender) (frames : List PeerFrame) : Prop where
  connected : s.connected = true
  count : s.queue.length + s.gated.length + frames.length ≤ senderQueueLimit
  bytes : s.queueBytes + s.gatedBytes + (frames.map fun frame => frame.bytes.length).sum ≤
    senderQueueByteLimit

variable {s : PeerSender} {frame : PeerFrame} {rest : List PeerFrame}

theorem HasRoomFor.admits (h : s.HasRoomFor (frame :: rest)) : s.admits frame = true := by
  have hcount := h.count
  have hbytes := h.bytes
  rw [List.length_cons] at hcount
  rw [List.map_cons, List.sum_cons] at hbytes
  simp only [PeerSender.admits, h.connected, Bool.true_and, Bool.and_eq_true, decide_eq_true_eq]
  omega

theorem HasRoomFor.enqueued (h : s.HasRoomFor (frame :: rest)) :
    HasRoomFor { s with queue := s.queue ++ [frame] } rest where
  connected := h.connected
  count := by
    have hcount := h.count
    simp only [List.length_append, List.length_cons, List.length_nil] at hcount ⊢
    omega
  bytes := by
    have hbytes := h.bytes
    simp only [queueBytes, gatedBytes, List.map_append, List.map_cons, List.map_nil, List.sum_append,
      List.sum_cons, List.sum_nil] at hbytes ⊢
    omega

theorem HasRoomFor.gated (h : s.HasRoomFor (frame :: rest)) (hash : HashBytes) :
    HasRoomFor { s with gated := s.gated ++ [(hash, frame)] } rest where
  connected := h.connected
  count := by
    have hcount := h.count
    simp only [List.length_append, List.length_cons, List.length_nil] at hcount ⊢
    omega
  bytes := by
    have hbytes := h.bytes
    simp only [queueBytes, gatedBytes, List.map_append, List.map_cons, List.map_nil, List.sum_append,
      List.sum_cons, List.sum_nil] at hbytes ⊢
    omega

theorem HasRoomFor.moved (h : s.HasRoomFor rest) (slot : ℕ) :
    HasRoomFor { s with learnedThrough := slot } rest :=
  ⟨h.connected, h.count, h.bytes⟩

/-- The queue and the gate leave the cursor and the acknowledged payloads alone. -/
structure SameCursor (s t : PeerSender) : Prop where
  learned : t.learnedThrough = s.learnedThrough
  stored : t.storedPayloads = s.storedPayloads

theorem SameCursor.refl (s : PeerSender) : s.SameCursor s :=
  ⟨rfl, rfl⟩

theorem SameCursor.trans {t u : PeerSender} (h : s.SameCursor t) (h' : t.SameCursor u) : s.SameCursor u :=
  ⟨h'.learned.trans h.learned, h'.stored.trans h.stored⟩

theorem sameCursor_enqueueChecked (s : PeerSender) (frame : PeerFrame) :
    s.SameCursor (s.enqueueChecked frame).1 := by
  rw [PeerSender.enqueueChecked]
  split
  · exact ⟨rfl, rfl⟩
  · exact SameCursor.refl s

theorem sameCursor_gatePayload (s : PeerSender) (hash : HashBytes) (frame : PeerFrame) :
    s.SameCursor (s.gatePayload hash frame).1 := by
  rw [PeerSender.gatePayload]
  split
  · exact sameCursor_enqueueChecked s frame
  · split
    · exact ⟨rfl, rfl⟩
    · exact SameCursor.refl s

/-- The sender took a frame and has room for the rest. -/
def Takes (taken : PeerSender × Bool) (rest : List PeerFrame) : Prop :=
  taken.2 = true ∧ taken.1.HasRoomFor rest

theorem HasRoomFor.enqueueChecked (h : s.HasRoomFor (frame :: rest)) :
    Takes (s.enqueueChecked frame) rest := by
  rw [PeerSender.enqueueChecked, if_pos h.admits]
  exact ⟨rfl, h.enqueued⟩

theorem HasRoomFor.gatePayload (h : s.HasRoomFor (frame :: rest)) (hash : HashBytes) :
    Takes (s.gatePayload hash frame) rest := by
  rw [PeerSender.gatePayload]
  split
  · exact h.enqueueChecked
  · rw [if_pos h.admits]
    exact ⟨rfl, h.gated hash⟩

end PeerSender

/-! ### What a pass queues -/

namespace LearnerLeader

open PeerSender (SameCursor Takes sameCursor_enqueueChecked sameCursor_gatePayload)

variable {n : LearnerLeader} {s : PeerSender}

theorem sameCursor_offerPayload (n : LearnerLeader) (s : PeerSender) (entry : Entry) :
    s.SameCursor (n.offerPayload s entry).1 := by
  rw [offerPayload]
  split
  · exact SameCursor.refl s
  · split
    · exact SameCursor.refl s
    · split
      · exact SameCursor.refl s
      · exact sameCursor_enqueueChecked s _

theorem sameCursor_queueCommit (s : PeerSender) (commit : LearnerCommit) :
    s.SameCursor (queueCommit s commit).1 := by
  rw [queueCommit]
  split
  · exact sameCursor_gatePayload s _ _
  · exact sameCursor_enqueueChecked s _

theorem stored_of_offerPayload {entry : Entry} (h : (n.offerPayload s entry).2 = true) :
    ∀ hash ∈ entryPayloadHash entry, hash ∈ s.storedPayloads ∨ (n.store.load hash).isSome := by
  intro hash hmem
  rw [offerPayload, Option.mem_def.1 hmem] at h
  by_cases hstored : hash ∈ s.storedPayloads
  · exact Or.inl hstored
  · right
    cases hload : n.store.load hash with
    | none =>
      simp only [hstored, if_false, hload] at h
      cases h
    | some payload => rfl

/-- One turn queues the next slot's commit and moves on, or leaves the cursor where it is. -/
theorem drainSlot_cases (n : LearnerLeader) (s : PeerSender) :
    ((n.drainSlot s).2 = none ∧ s.SameCursor (n.drainSlot s).1) ∨
      ∃ entry, n.read (s.learnedThrough + 1) = some entry ∧
        (∀ hash ∈ entryPayloadHash entry, hash ∈ s.storedPayloads ∨ (n.store.load hash).isSome) ∧
        (n.drainSlot s).2 = some ⟨n.configurationId, s.learnedThrough + 1, entry⟩ ∧
        (n.drainSlot s).1.learnedThrough = s.learnedThrough + 1 ∧
        (n.drainSlot s).1.storedPayloads = s.storedPayloads := by
  rw [drainSlot]
  cases hread : n.read (s.learnedThrough + 1) with
  | none => exact Or.inl ⟨rfl, SameCursor.refl s⟩
  | some entry =>
    simp only
    cases hoffered : (n.offerPayload s entry).2 with
    | false => exact Or.inl ⟨rfl, sameCursor_offerPayload n s entry⟩
    | true =>
      simp only [Bool.not_true, Bool.false_eq_true, if_false]
      have hsame := (sameCursor_offerPayload n s entry).trans (sameCursor_queueCommit _
        ⟨n.configurationId, s.learnedThrough + 1, entry⟩)
      cases haccepted : (queueCommit (n.offerPayload s entry).1
          ⟨n.configurationId, s.learnedThrough + 1, entry⟩).2 with
      | false => exact Or.inl ⟨rfl, hsame⟩
      | true => exact Or.inr ⟨entry, rfl, stored_of_offerPayload hoffered, rfl, rfl, hsame.stored⟩

theorem commits_succ {first : ℕ} {entry : Entry} (h : n.read first = some entry) (count : ℕ) :
    n.commits first (count + 1) = ⟨n.configurationId, first, entry⟩ :: n.commits (first + 1) count := by
  rw [commits, List.range'_succ, List.filterMap_cons]
  simp only [h, Option.map_some]
  rfl

/-- **A pass queues consecutive slots**, each of them available, and the cursor says how far. -/
theorem drainSlots_commits (n : LearnerLeader) (missing : ℕ) (s : PeerSender) :
    ∃ count ≤ missing, (n.drainSlots missing s).1.learnedThrough = s.learnedThrough + count ∧
      (n.drainSlots missing s).2 = n.commits (s.learnedThrough + 1) count ∧
      ∀ slot, s.learnedThrough < slot → slot ≤ s.learnedThrough + count →
        n.Available s.storedPayloads slot := by
  induction missing generalizing s with
  | zero => exact ⟨0, le_rfl, rfl, rfl, fun slot hlo hhi => absurd hlo (by omega)⟩
  | succ missing ih =>
    rw [drainSlots]
    rcases drainSlot_cases n s with ⟨hnone, hsame⟩ | ⟨entry, hread, hpayload, hsome, hcursor, hstored⟩
    · refine ⟨0, Nat.zero_le _, ?_, ?_, fun slot hlo hhi => absurd hlo (by omega)⟩
      · rw [← Prod.mk.eta (p := n.drainSlot s), hnone]
        exact hsame.learned
      · rw [← Prod.mk.eta (p := n.drainSlot s), hnone]
        rfl
    · obtain ⟨count, hcount, hlearned, hcommits, havailable⟩ := ih (n.drainSlot s).1
      rw [hcursor] at hlearned hcommits havailable
      refine ⟨count + 1, Nat.succ_le_succ hcount, ?_, ?_, ?_⟩
      · rw [← Prod.mk.eta (p := n.drainSlot s), hsome]
        show (n.drainSlots missing (n.drainSlot s).1).1.learnedThrough = _
        rw [hlearned]
        omega
      · rw [← Prod.mk.eta (p := n.drainSlot s), hsome]
        show _ :: (n.drainSlots missing (n.drainSlot s).1).2 = _
        rw [hcommits, commits_succ hread]
      · intro slot hlo hhi
        by_cases hnext : slot = s.learnedThrough + 1
        · rw [hnext]
          exact ⟨entry, hread, hpayload⟩
        · rw [← hstored]
          exact havailable slot (by omega) (by omega)

/-! ### Where the frames are -/

theorem held_enqueueChecked (s : PeerSender) (frame : PeerFrame) :
    s.held ⊆ (s.enqueueChecked frame).1.held ∧
      ((s.enqueueChecked frame).2 = true → frame ∈ (s.enqueueChecked frame).1.held) := by
  rw [PeerSender.enqueueChecked]
  split
  · constructor
    · intro f hf
      rcases List.mem_append.1 hf with hf | hf
      · exact List.mem_append_left _ (List.mem_append_left _ hf)
      · exact List.mem_append_right _ hf
    · intro _
      exact List.mem_append_left _ (List.mem_append_right _ List.mem_cons_self)
  · exact ⟨List.Subset.refl _, fun h => by cases h⟩

theorem held_gatePayload (s : PeerSender) (hash : HashBytes) (frame : PeerFrame) :
    s.held ⊆ (s.gatePayload hash frame).1.held ∧
      ((s.gatePayload hash frame).2 = true → frame ∈ (s.gatePayload hash frame).1.held) := by
  rw [PeerSender.gatePayload]
  split
  · exact held_enqueueChecked s frame
  · split
    · simp only [PeerSender.held, List.map_append, List.map_cons, List.map_nil]
      constructor
      · rw [← List.append_assoc]
        exact List.subset_append_left _ _
      · intro _
        exact List.mem_append_right _ (List.mem_append_right _ List.mem_cons_self)
    · exact ⟨List.Subset.refl _, fun h => by cases h⟩

theorem held_offerPayload (n : LearnerLeader) (s : PeerSender) (entry : Entry) :
    s.held ⊆ (n.offerPayload s entry).1.held := by
  rw [offerPayload]
  split
  · exact List.Subset.refl _
  · split
    · exact List.Subset.refl _
    · split
      · exact List.Subset.refl _
      · exact (held_enqueueChecked s _).1

theorem held_queueCommit (s : PeerSender) (commit : LearnerCommit) :
    s.held ⊆ (queueCommit s commit).1.held ∧
      ((queueCommit s commit).2 = true → .learnerCommit commit ∈ (queueCommit s commit).1.held) := by
  rw [queueCommit]
  split
  · exact held_gatePayload s _ _
  · exact held_enqueueChecked s _

theorem held_drainSlot (n : LearnerLeader) (s : PeerSender) :
    s.held ⊆ (n.drainSlot s).1.held ∧
      ∀ commit ∈ (n.drainSlot s).2, PeerFrame.learnerCommit commit ∈ (n.drainSlot s).1.held := by
  rw [drainSlot]
  cases hread : n.read (s.learnedThrough + 1) with
  | none => exact ⟨List.Subset.refl _, fun commit h => absurd h (Option.not_mem_none commit)⟩
  | some entry =>
    simp only
    split
    · exact ⟨held_offerPayload n s entry, fun commit h => absurd h (Option.not_mem_none commit)⟩
    · have hqueue := held_queueCommit (n.offerPayload s entry).1
        ⟨n.configurationId, s.learnedThrough + 1, entry⟩
      have hsub := List.Subset.trans (held_offerPayload n s entry) hqueue.1
      split
      · exact ⟨hsub, fun commit h => absurd h (Option.not_mem_none commit)⟩
      · rename_i haccepted
        refine ⟨hsub, ?_⟩
        intro commit hcommit
        obtain rfl := Option.mem_some_iff.1 hcommit
        exact hqueue.2 (by simpa using haccepted)

/-- Every commit a pass queues is in the queue or behind the gate. -/
theorem held_drainSlots (n : LearnerLeader) (missing : ℕ) (s : PeerSender) :
    s.held ⊆ (n.drainSlots missing s).1.held ∧
      ∀ commit ∈ (n.drainSlots missing s).2,
        PeerFrame.learnerCommit commit ∈ (n.drainSlots missing s).1.held := by
  induction missing generalizing s with
  | zero => exact ⟨List.Subset.refl _, fun commit h => absurd h List.not_mem_nil⟩
  | succ missing ih =>
    obtain ⟨hsub, hheld⟩ := held_drainSlot n s
    rw [drainSlots]
    cases hturn : n.drainSlot s with
    | mk t queued =>
      rw [hturn] at hsub hheld
      cases queued with
      | none => exact ⟨hsub, fun commit h => absurd h List.not_mem_nil⟩
      | some first =>
        obtain ⟨hrest, hmore⟩ := ih t
        refine ⟨List.Subset.trans hsub hrest, ?_⟩
        intro commit hcommit
        rcases List.mem_cons.1 hcommit with rfl | hcommit
        · exact hrest (hheld _ rfl)
        · exact hmore commit hcommit

/-! ### A pass with room -/

/-- A slot that is available is sent, payload first, when the sender has room for its frames. -/
theorem drainSlot_of_room {rest : List PeerFrame} (h : n.Available s.storedPayloads (s.learnedThrough + 1))
    (hroom : s.HasRoomFor (n.slotFrames s.storedPayloads (s.learnedThrough + 1) ++ rest)) :
    (n.drainSlot s).2.isSome = true ∧ (n.drainSlot s).1.HasRoomFor rest := by
  obtain ⟨entry, hread, hpayload⟩ := h
  have hoffer : Takes (n.offerPayload s entry)
      (.learnerCommit ⟨n.configurationId, s.learnedThrough + 1, entry⟩ :: rest) := by
    rw [slotFrames, hread] at hroom
    rw [offerPayload]
    cases hhash : entryPayloadHash entry with
    | none =>
      simp only [hhash, List.nil_append] at hroom
      exact ⟨rfl, hroom⟩
    | some hash =>
      simp only [hhash] at hroom ⊢
      by_cases hstored : hash ∈ s.storedPayloads
      · rw [if_pos hstored] at hroom ⊢
        exact ⟨rfl, hroom⟩
      · obtain ⟨payload, hload⟩ := Option.isSome_iff_exists.1
          ((hpayload hash hhash).resolve_left hstored)
        rw [if_neg hstored] at hroom ⊢
        simp only [hload, Option.toList_some, List.map_cons, List.map_nil] at hroom ⊢
        exact hroom.enqueueChecked
  have hcommit : Takes (queueCommit (n.offerPayload s entry).1
      ⟨n.configurationId, s.learnedThrough + 1, entry⟩) rest := by
    rw [queueCommit]
    split
    · exact hoffer.2.gatePayload _
    · exact hoffer.2.enqueueChecked
  rw [drainSlot, hread]
  simp only [hoffer.1, hcommit.1, Bool.not_true, Bool.false_eq_true, if_false]
  exact ⟨rfl, hcommit.2.moved _⟩

/-- With room for their frames, a pass sends every slot it is to send if all of them are available. -/
theorem drainSlots_of_room (missing : ℕ)
    (h : ∀ slot, s.learnedThrough < slot → slot ≤ s.learnedThrough + missing →
      n.Available s.storedPayloads slot)
    (hroom : s.HasRoomFor ((List.range' (s.learnedThrough + 1) missing).flatMap
      (n.slotFrames s.storedPayloads))) :
    (n.drainSlots missing s).2 = n.commits (s.learnedThrough + 1) missing := by
  induction missing generalizing s with
  | zero => rfl
  | succ missing ih =>
    rw [List.range'_succ, List.flatMap_cons] at hroom
    obtain ⟨hsent, hrest⟩ := drainSlot_of_room (h _ (by omega) (by omega)) hroom
    rcases drainSlot_cases n s with ⟨hnone, -⟩ | ⟨entry, hread, -, hsome, hcursor, hstored⟩
    · rw [hnone] at hsent
      cases hsent
    · rw [drainSlots, ← Prod.mk.eta (p := n.drainSlot s), hsome]
      show _ :: (n.drainSlots missing (n.drainSlot s).1).2 = _
      rw [ih, hcursor, commits_succ hread]
      · intro slot hlo hhi
        rw [hcursor] at hlo hhi
        rw [hstored]
        exact h slot (by omega) (by omega)
      · rw [hcursor, hstored]
        exact hrest

end LearnerLeader

/-! ### A connection -/

/-- One connection to a learner, with the commits queued on it so far. -/
structure LearnerRun where
  leader : LearnerLeader
  sender : PeerSender
  queued : List LearnerCommit

namespace LearnerRun

/-- The connection has just been established. -/
def connected (leader : LearnerLeader) (sender : PeerSender) : LearnerRun :=
  ⟨leader, sender.connect, []⟩

/-- `drainLearners` passes by. -/
def pass (r : LearnerRun) : LearnerRun :=
  { r with
    sender := (r.leader.drainSender r.sender).1
    queued := r.queued ++ (r.leader.drainSender r.sender).2 }

end LearnerRun

/-- One step on the connection. A slot that left the window stays out of it; queue, gate and
acknowledgements move in any way; a new configuration resets the cursor. -/
inductive LearnerStep : LearnerRun → LearnerRun → Prop
  | pass {r : LearnerRun} : LearnerStep r r.pass
  | move {r : LearnerRun} {leader : LearnerLeader} : r.leader.appliedSlot ≤ leader.appliedSlot →
      (∀ slot ≤ r.leader.appliedSlot, r.leader.read slot = none → leader.read slot = none) →
      LearnerStep r { r with leader := leader }
  | traffic {r : LearnerRun} {sender : PeerSender} : sender.learnedThrough = r.sender.learnedThrough →
      LearnerStep r { r with sender := sender }
  | reset {r : LearnerRun} : LearnerStep r { r with sender := { r.sender with learnedThrough := 0 } }

namespace LearnerRun

variable {n : LearnerLeader} {s : PeerSender} {r t : LearnerRun} {a k : ℕ}

/-- The commits above the learner's slot begin with every one the leader had applied, in order. -/
def Resumed (r : LearnerRun) (n : LearnerLeader) (a : ℕ) : Prop :=
  n.commits (a + 1) (n.appliedSlot - a) <+: r.queued.filter fun commit => a < commit.slot

/-- Nothing at the slot or above it was queued, and nothing will be: the log has lost the slot. -/
structure Stuck (k : ℕ) (r : LearnerRun) : Prop where
  lost : r.leader.read k = none
  applied : k ≤ r.leader.appliedSlot
  cursor : r.sender.learnedThrough < k
  queued : ∀ commit ∈ r.queued, commit.slot < k

theorem Resumed.append (h : r.Resumed n a) (more : List LearnerCommit) :
    n.commits (a + 1) (n.appliedSlot - a) <+:
      (r.queued ++ more).filter fun commit => a < commit.slot := by
  rw [List.filter_append]
  exact h.trans (List.prefix_append _ _)

theorem Resumed.step (h : r.Resumed n a) (hstep : LearnerStep r t) : t.Resumed n a := by
  cases hstep with
  | pass => exact h.append _
  | move _ _ => exact h
  | traffic _ => exact h
  | reset => exact h

theorem mem_commits {first count : ℕ} {commit : LearnerCommit} (h : commit ∈ n.commits first count) :
    first ≤ commit.slot ∧ commit.slot < first + count ∧ n.read commit.slot = some commit.entry := by
  obtain ⟨slot, hslot, hcommit⟩ := List.mem_filterMap.1 h
  obtain ⟨hlo, hhi⟩ := List.mem_range'_1.1 hslot
  obtain ⟨entry, hread, rfl⟩ := Option.map_eq_some_iff.1 hcommit
  exact ⟨hlo, hhi, hread⟩

/-- Whoever it is for, a pass queues consecutive slots the log can read. -/
theorem drainSender_commits (n : LearnerLeader) (s : PeerSender) :
    ∃ count, (n.drainSender s).1.learnedThrough = s.learnedThrough + count ∧
      (n.drainSender s).2 = n.commits (s.learnedThrough + 1) count ∧
      ∀ slot, s.learnedThrough < slot → slot ≤ s.learnedThrough + count →
        n.Available s.storedPayloads slot := by
  have hidle : ∃ count, s.learnedThrough = s.learnedThrough + count ∧
      [] = n.commits (s.learnedThrough + 1) count ∧
      ∀ slot, s.learnedThrough < slot → slot ≤ s.learnedThrough + count →
        n.Available s.storedPayloads slot :=
    ⟨0, rfl, rfl, fun slot hlo hhi => absurd hlo (by omega)⟩
  rw [LearnerLeader.drainSender]
  split
  · exact hidle
  · split
    · exact hidle
    · split
      · exact hidle
      · obtain ⟨count, -, hrest⟩ := n.drainSlots_commits (n.appliedSlot - s.learnedThrough) s
        exact ⟨count, hrest⟩

theorem Stuck.pass (h : r.Stuck k) : r.pass.Stuck k := by
  obtain ⟨count, hcursor, hcommits, havailable⟩ := drainSender_commits r.leader r.sender
  have hshort : r.sender.learnedThrough + count < k := by
    by_contra hreached
    obtain ⟨entry, hread, -⟩ := havailable k h.cursor (by omega)
    rw [h.lost] at hread
    cases hread
  refine ⟨h.lost, h.applied, ?_, ?_⟩
  · show (r.leader.drainSender r.sender).1.learnedThrough < k
    rw [hcursor]
    exact hshort
  · intro commit hcommit
    rcases List.mem_append.1 hcommit with hold | hnew
    · exact h.queued commit hold
    · rw [hcommits] at hnew
      have hslot := (mem_commits hnew).2.1
      omega

theorem Stuck.step (h : r.Stuck k) (hk : 0 < k) (hstep : LearnerStep r t) : t.Stuck k := by
  cases hstep with
  | pass => exact h.pass
  | move happlied hlost => exact ⟨hlost k h.applied h.lost, h.applied.trans happlied, h.cursor, h.queued⟩
  | traffic hcursor => exact ⟨h.lost, h.applied, hcursor.trans_lt h.cursor, h.queued⟩
  | reset => exact ⟨h.lost, h.applied, hk, h.queued⟩

theorem stuck_connected (hk : 0 < k) (happlied : k ≤ n.appliedSlot) (hlost : n.read k = none) :
    (connected n s).Stuck k :=
  ⟨hlost, happlied, hk, fun _ hcommit => absurd hcommit List.not_mem_nil⟩

theorem stuck_of_reachable (hk : 0 < k) (happlied : k ≤ n.appliedSlot) (hlost : n.read k = none)
    (h : Reachable (fun r => r = (connected n s).pass) LearnerStep r) : r.Stuck k := by
  apply h.invariant
  · rintro _ rfl
    exact (stuck_connected hk happlied hlost).pass
  · intro _ _ hstuck hstep
    exact hstuck.step hk hstep

/-- The commits above a slot are those of the slots above it. -/
theorem filter_commits (n : LearnerLeader) (a first count : ℕ) (h : first ≤ a + 1) :
    (n.commits first count).filter (fun commit => a < commit.slot) =
      n.commits (a + 1) (first + count - (a + 1)) := by
  rw [LearnerLeader.commits, LearnerLeader.commits, List.filter_filterMap]
  have hsplit : List.range' first count =
      List.range' first (min count (a + 1 - first)) ++
        List.range' (a + 1) (first + count - (a + 1)) := by
    by_cases hshort : count ≤ a + 1 - first
    · rw [Nat.min_eq_left hshort, show first + count - (a + 1) = 0 by omega]
      simp
    · have hjoin := List.range'_append_1 (s := first) (m := a + 1 - first)
        (n := first + count - (a + 1))
      rw [show first + (a + 1 - first) = a + 1 by omega,
        show a + 1 - first + (first + count - (a + 1)) = count by omega] at hjoin
      rw [Nat.min_eq_right (by omega), hjoin]
  rw [hsplit, List.filterMap_append]
  have hbelow : (List.range' first (min count (a + 1 - first))).filterMap (fun slot =>
      ((n.read slot).map fun entry => (⟨n.configurationId, slot, entry⟩ : LearnerCommit)).filter
        fun commit => decide (a < commit.slot)) = [] := by
    rw [List.filterMap_eq_nil_iff]
    intro slot hslot
    obtain ⟨-, hhi⟩ := List.mem_range'_1.1 hslot
    cases hread : n.read slot with
    | none => rfl
    | some entry =>
      have hle : slot ≤ a := by omega
      simp [hle]
  rw [hbelow, List.nil_append]
  apply List.filterMap_congr
  intro slot hslot
  obtain ⟨hlo, -⟩ := List.mem_range'_1.1 hslot
  cases hread : n.read slot with
  | none => rfl
  | some entry =>
    have hlt : a < slot := by omega
    simp [hlt]

/-- The frames of a whole pass on a fresh connection. -/
def passFrames (n : LearnerLeader) : List PeerFrame :=
  (List.range' 1 n.appliedSlot).flatMap (n.slotFrames [])

/-- The learner lacks nothing, or the window still reaches back to the first slot. -/
def Resumable (n : LearnerLeader) (a : ℕ) : Prop :=
  a < n.appliedSlot → ∀ slot, 0 < slot → slot ≤ n.appliedSlot → n.Available [] slot

section FirstPass

variable (hleader : n.isLeader = true) (hvotes : s.role.capabilities.votes = false)
  (hlog : s.role.capabilities.storesLog = true)

include hleader hvotes hlog

theorem drainSender_connect : n.drainSender s.connect = n.drainSlots n.appliedSlot s.connect := by
  simp [LearnerLeader.drainSender, hleader, hvotes, hlog, PeerSender.connect]

theorem queued_first_pass :
    (connected n s).pass.queued = (n.drainSlots n.appliedSlot s.connect).2 := by
  show [] ++ (n.drainSender s.connect).2 = _
  rw [List.nil_append, drainSender_connect hleader hvotes hlog]

theorem held_first_pass : ∀ commit ∈ (connected n s).pass.queued,
    PeerFrame.learnerCommit commit ∈ (connected n s).pass.sender.held := by
  rw [queued_first_pass hleader hvotes hlog]
  show ∀ commit ∈ _, _ ∈ (n.drainSender s.connect).1.held
  rw [drainSender_connect hleader hvotes hlog]
  exact (n.held_drainSlots n.appliedSlot s.connect).2

theorem resumed_first_pass (hroom : s.connect.HasRoomFor (passFrames n)) (h : Resumable n a) :
    (connected n s).pass.Resumed n a := by
  by_cases hbehind : a < n.appliedSlot
  · have hall : (n.drainSlots n.appliedSlot s.connect).2 = n.commits 1 n.appliedSlot := by
      apply LearnerLeader.drainSlots_of_room n.appliedSlot _ hroom
      intro slot hlo hhi
      exact h hbehind slot hlo (hhi.trans_eq (Nat.zero_add _))
    rw [Resumed, queued_first_pass hleader hvotes hlog, hall, filter_commits n a 1 n.appliedSlot (by omega)]
    rw [show 1 + n.appliedSlot - (a + 1) = n.appliedSlot - a by omega]
  · rw [Resumed, show n.appliedSlot - a = 0 by omega]
    exact List.nil_prefix

theorem resumable_of_first_pass (hread : ∀ slot, a < slot → slot ≤ n.appliedSlot → (n.read slot).isSome)
    (h : (connected n s).pass.Resumed n a) : Resumable n a := by
  intro hbehind slot hlo hhi
  obtain ⟨count, -, -, hcommits, havailable⟩ := n.drainSlots_commits n.appliedSlot s.connect
  obtain ⟨entry, hentry⟩ := Option.isSome_iff_exists.1 (hread n.appliedSlot hbehind le_rfl)
  have hlast : (⟨n.configurationId, n.appliedSlot, entry⟩ : LearnerCommit) ∈
      n.commits (a + 1) (n.appliedSlot - a) := by
    refine List.mem_filterMap.2 ⟨n.appliedSlot, List.mem_range'_1.2 ⟨by omega, by omega⟩, ?_⟩
    rw [hentry]
    rfl
  have hqueued := (List.mem_filter.1 (h.subset hlast)).1
  rw [queued_first_pass hleader hvotes hlog, hcommits] at hqueued
  have hreached : n.appliedSlot < s.connect.learnedThrough + 1 + count := (mem_commits hqueued).2.1
  exact havailable slot hlo (by omega)

end FirstPass

/-- **A reconnecting learner is resumed exactly when the window reaches back to the first slot.** The first
pass then queues every slot the learner lacks, in order, and they stay queued; and from a slot that has
left the window on, nothing is queued as long as the connection lasts. -/
theorem learner_resumed_iff (hleader : n.isLeader = true) (hvotes : s.role.capabilities.votes = false)
    (hlog : s.role.capabilities.storesLog = true)
    (hread : ∀ slot, a < slot → slot ≤ n.appliedSlot → (n.read slot).isSome)
    (hroom : s.connect.HasRoomFor (passFrames n)) :
    (((connected n s).pass.Resumed n a ∧ ∀ commit ∈ (connected n s).pass.queued,
        PeerFrame.learnerCommit commit ∈ (connected n s).pass.sender.held) ↔ Resumable n a) ∧
      ∀ r, Reachable (fun r => r = (connected n s).pass) LearnerStep r →
        (Resumable n a → r.Resumed n a) ∧
          ∀ slot, 0 < slot → slot ≤ n.appliedSlot → n.read slot = none →
            ∀ commit ∈ r.queued, commit.slot < slot := by
  refine ⟨⟨fun h => resumable_of_first_pass hleader hvotes hlog hread h.1, fun h =>
    ⟨resumed_first_pass hleader hvotes hlog hroom h, held_first_pass hleader hvotes hlog⟩⟩, ?_⟩
  intro r hr
  constructor
  · intro hresumable
    apply hr.invariant
    · rintro _ rfl
      exact resumed_first_pass hleader hvotes hlog hroom hresumable
    · intro _ _ hresumed hstep
      exact hresumed.step hstep
  · intro slot hlo hhi hlost
    exact (stuck_of_reachable hlo hhi hlost hr).queued

/-! ### A window that has moved on -/

/-- A leader of three applied slots whose window begins at `first`. -/
def leaderFrom (first : ℕ) : LearnerLeader where
  configurationId := 1
  isLeader := true
  appliedSlot := 3
  read slot := if first ≤ slot ∧ slot ≤ 3 then some (.command .noop) else none
  store := .empty

def standbySender : PeerSender where
  role := .standby
  queue := []
  gated := []
  connected := false
  storedPayloads := []
  learnedThrough := 3

theorem hasRoomFor_leaderFrom (first : ℕ) (h : first = 1 ∨ first = 2) :
    standbySender.connect.HasRoomFor (passFrames (leaderFrom first)) := by
  rcases h with rfl | rfl
  · exact ⟨rfl, by decide +kernel, by decide +kernel⟩
  · exact ⟨rfl, by decide +kernel, by decide +kernel⟩

theorem learner_resumed_iff_full_window :
    (((connected (leaderFrom 1) standbySender).pass.Resumed (leaderFrom 1) 2 ∧
        ∀ commit ∈ (connected (leaderFrom 1) standbySender).pass.queued,
          PeerFrame.learnerCommit commit ∈
            (connected (leaderFrom 1) standbySender).pass.sender.held) ↔
        Resumable (leaderFrom 1) 2) ∧
      ∀ r, Reachable (fun r => r = (connected (leaderFrom 1) standbySender).pass) LearnerStep r →
        (Resumable (leaderFrom 1) 2 → r.Resumed (leaderFrom 1) 2) ∧
          ∀ slot, 0 < slot → slot ≤ 3 → (leaderFrom 1).read slot = none →
            ∀ commit ∈ r.queued, commit.slot < slot := by
  refine learner_resumed_iff rfl rfl rfl ?_ (hasRoomFor_leaderFrom 1 (Or.inl rfl))
  intro slot hlo hhi
  have hslot : slot = 3 := le_antisymm hhi hlo
  rw [hslot]
  rfl

/-- The learner lacks slot three only, which the log can read, and is never sent it: slot one has left the
window. -/
theorem learner_stuck_below_window :
    (∀ slot, 2 < slot → slot ≤ 3 → ((leaderFrom 2).read slot).isSome = true) ∧
      standbySender.connect.HasRoomFor (passFrames (leaderFrom 2)) ∧
      ∀ r, Reachable (fun r => r = (connected (leaderFrom 2) standbySender).pass) LearnerStep r →
        (∀ commit ∈ r.queued, commit.slot ≠ 3) ∧ ¬ r.Resumed (leaderFrom 2) 2 := by
  refine ⟨?_, hasRoomFor_leaderFrom 2 (Or.inr rfl), ?_⟩
  · intro slot hlo hhi
    have hslot : slot = 3 := le_antisymm hhi hlo
    rw [hslot]
    rfl
  · intro r hr
    have hstuck : r.Stuck 1 := stuck_of_reachable Nat.one_pos (by decide) rfl hr
    have hnever : ∀ commit ∈ r.queued, commit.slot ≠ 3 := by
      intro commit hcommit hslot
      have hbelow := hstuck.queued commit hcommit
      omega
    refine ⟨hnever, fun hresumed => ?_⟩
    have hlacked : (⟨1, 3, .command .noop⟩ : LearnerCommit) ∈ (leaderFrom 2).commits 3 1 := by decide
    exact hnever _ (List.mem_filter.1 (hresumed.subset hlacked)).1 rfl

end LearnerRun

end Zaxonlite
