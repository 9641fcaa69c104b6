import Zaxonlite.Server.Learners

/-!
# A sender's two lists

Frames for a peer wait in a queue, and frames that need a payload at the peer wait behind the gate until
the peer acknowledges it. Both lists share a bound on frames and one on bytes, kept by two counters. An
acknowledgement moves every frame gated under its hash to the end of the queue, in order; the move takes
each frame out of the gate before the queue takes it, and a queue that cannot grow drops it.
-/

namespace Zaxonlite

/-- A frame in memory: which allocation it is, and what it holds. -/
structure OwnedFrame where
  id : ℕ
  frame : PeerFrame

def OwnedFrame.length (owned : OwnedFrame) : ℕ :=
  owned.frame.bytes.length

structure GatedFrame where
  hash : HashBytes
  owned : OwnedFrame

structure SenderLists where
  connected : Bool
  queue : List OwnedFrame
  queueBytes : ℕ
  gated : List GatedFrame
  gatedBytes : ℕ
  storedPayloads : List HashBytes

def lengthOfFrames (frames : List OwnedFrame) : ℕ :=
  (frames.map OwnedFrame.length).sum

def framesUnder (hash : HashBytes) (items : List GatedFrame) : List OwnedFrame :=
  (items.filter fun item => decide (item.hash = hash)).map GatedFrame.owned

namespace SenderLists

/-- Both bounds leave room for a frame. -/
def hasRoom (s : SenderLists) (owned : OwnedFrame) : Bool :=
  decide (s.queue.length + s.gated.length < senderQueueLimit) &&
    decide (s.queueBytes + s.gatedBytes + owned.length ≤ senderQueueByteLimit)

/-- `enqueueLocked`; the list may fail to grow. -/
def enqueueLocked (s : SenderLists) (owned : OwnedFrame) (grows : Bool) : SenderLists × Bool :=
  if s.connected && s.hasRoom owned && grows then
    ({ s with queue := s.queue ++ [owned], queueBytes := s.queueBytes + owned.length }, true)
  else (s, false)

def enqueueChecked (s : SenderLists) (owned : OwnedFrame) (grows : Bool) : SenderLists × Bool :=
  s.enqueueLocked owned grows

/-- `enqueueBackpressure` when it looks at the lists: nothing while it waits for room. -/
def enqueueBackpressure (s : SenderLists) (owned : OwnedFrame) (stops grows : Bool) :
    Option (SenderLists × Bool) :=
  if s.connected && !stops && !s.hasRoom owned then none
  else if !s.connected || stops then some (s, false)
  else some (s.enqueueLocked owned grows)

def gatePayload (s : SenderLists) (hash : HashBytes) (owned : OwnedFrame) (grows : Bool) :
    SenderLists × Bool :=
  if hash ∈ s.storedPayloads then s.enqueueLocked owned grows
  else if s.connected && s.hasRoom owned && grows then
    ({ s with gated := s.gated ++ [⟨hash, owned⟩], gatedBytes := s.gatedBytes + owned.length }, true)
  else (s, false)

/-- Take a frame out of the gate and enqueue it. -/
def releaseFrame (s : SenderLists) (before after : List GatedFrame) (owned : OwnedFrame) (grows : Bool) :
    SenderLists :=
  (({ s with gated := before ++ after, gatedBytes := s.gatedBytes - owned.length } :
    SenderLists).enqueueLocked owned grows).1

/-- The loop of `ackPayload` over the gated frames, past those it keeps. -/
def releaseLoop (hash : HashBytes) (grows : OwnedFrame → Bool) :
    List GatedFrame → List GatedFrame → SenderLists → SenderLists
  | _, [], s => s
  | kept, item :: rest, s =>
    if item.hash = hash then
      releaseLoop hash grows kept rest (s.releaseFrame kept rest item.owned (grows item.owned))
    else releaseLoop hash grows (kept ++ [item]) rest s

/-- `ackPayload`; the set of stored payloads may fail to take the hash. -/
def ackPayload (s : SenderLists) (hash : HashBytes) (stores : Bool) (grows : OwnedFrame → Bool) :
    SenderLists :=
  if stores then
    releaseLoop hash grows [] s.gated { s with storedPayloads := s.storedPayloads ++ [hash] }
  else s

/-- The frame the send loop of `run` takes. -/
def dequeue (s : SenderLists) : Option (OwnedFrame × SenderLists) :=
  match s.queue with
  | [] => none
  | owned :: rest =>
    if s.connected then some (owned, { s with queue := rest, queueBytes := s.queueBytes - owned.length })
    else none

/-- `run` once the connection is up. -/
def connect (s : SenderLists) : SenderLists :=
  { s with connected := true, storedPayloads := [], gated := [], gatedBytes := 0 }

/-- `run` after its send loop. -/
def reset (s : SenderLists) : SenderLists :=
  { s with connected := false, queue := [], queueBytes := 0, gated := [], gatedBytes := 0, storedPayloads := [] }

/-! ### Counters and bounds -/

/-- The counters are right and the bounds hold. -/
structure Bounded (s : SenderLists) : Prop where
  queueBytes : s.queueBytes = lengthOfFrames s.queue
  gatedBytes : s.gatedBytes = lengthOfFrames (s.gated.map GatedFrame.owned)
  frames : s.queue.length + s.gated.length ≤ senderQueueLimit
  bytes : s.queueBytes + s.gatedBytes ≤ senderQueueByteLimit

end SenderLists

theorem lengthOfFrames_append (xs ys : List OwnedFrame) :
    lengthOfFrames (xs ++ ys) = lengthOfFrames xs + lengthOfFrames ys := by
  rw [lengthOfFrames, List.map_append, List.sum_append]
  rfl

theorem lengthOfFrames_singleton (owned : OwnedFrame) : lengthOfFrames [owned] = owned.length := by
  rw [lengthOfFrames, List.map_singleton, List.sum_singleton]

theorem framesUnder_append (hash : HashBytes) (xs ys : List GatedFrame) :
    framesUnder hash (xs ++ ys) = framesUnder hash xs ++ framesUnder hash ys := by
  rw [framesUnder, List.filter_append, List.map_append]
  rfl

theorem framesUnder_cons (hash : HashBytes) (item : GatedFrame) (rest : List GatedFrame) :
    framesUnder hash (item :: rest) =
      if item.hash = hash then item.owned :: framesUnder hash rest else framesUnder hash rest := by
  rw [framesUnder, List.filter_cons]
  by_cases h : item.hash = hash
  · rw [if_pos (decide_eq_true h), if_pos h]
    rfl
  · rw [if_neg (by rw [decide_eq_true_iff]; exact h), if_neg h]
    rfl

theorem mem_framesUnder {hash : HashBytes} {items : List GatedFrame} {owned : OwnedFrame} :
    owned ∈ framesUnder hash items ↔ ⟨hash, owned⟩ ∈ items := by
  rw [framesUnder, List.mem_map]
  constructor
  · intro h
    obtain ⟨item, hitem, rfl⟩ := h
    obtain ⟨hmem, hhash⟩ := List.mem_filter.1 hitem
    rw [← of_decide_eq_true hhash]
    exact hmem
  · intro h
    exact ⟨_, List.mem_filter.2 ⟨h, decide_eq_true rfl⟩, rfl⟩

namespace SenderLists

variable {s t : SenderLists} {owned : OwnedFrame} {grows : Bool} {hash : HashBytes}

theorem hasRoom_iff : s.hasRoom owned = true ↔ s.queue.length + s.gated.length < senderQueueLimit ∧
    s.queueBytes + s.gatedBytes + owned.length ≤ senderQueueByteLimit := by
  rw [hasRoom, Bool.and_eq_true, decide_eq_true_iff, decide_eq_true_iff]

/-- What enqueueing does: the frame is last in the queue of a connection with room, or nothing changes. -/
theorem enqueueLocked_cases (s : SenderLists) (owned : OwnedFrame) (grows : Bool) :
    (s.connected = true ∧ s.hasRoom owned = true ∧ s.enqueueLocked owned grows =
      ({ s with queue := s.queue ++ [owned], queueBytes := s.queueBytes + owned.length }, true)) ∨
    s.enqueueLocked owned grows = (s, false) := by
  rw [enqueueLocked]
  split
  · rename_i h
    rw [Bool.and_eq_true, Bool.and_eq_true] at h
    exact .inl ⟨h.1.1, h.1.2, rfl⟩
  · exact .inr rfl

theorem Bounded.enqueued (h : s.Bounded) (hroom : s.hasRoom owned = true) :
    ({ s with queue := s.queue ++ [owned], queueBytes := s.queueBytes + owned.length } :
      SenderLists).Bounded where
  queueBytes := by
    show s.queueBytes + owned.length = lengthOfFrames (s.queue ++ [owned])
    rw [lengthOfFrames_append, lengthOfFrames_singleton, h.queueBytes]
  gatedBytes := h.gatedBytes
  frames := by
    obtain ⟨hframes, -⟩ := hasRoom_iff.1 hroom
    show (s.queue ++ [owned]).length + s.gated.length ≤ senderQueueLimit
    rw [List.length_append, List.length_singleton]
    omega
  bytes := by
    obtain ⟨-, hbytes⟩ := hasRoom_iff.1 hroom
    show s.queueBytes + owned.length + s.gatedBytes ≤ senderQueueByteLimit
    omega

theorem Bounded.enqueueLocked (h : s.Bounded) (owned : OwnedFrame) (grows : Bool) :
    (s.enqueueLocked owned grows).1.Bounded := by
  rcases s.enqueueLocked_cases owned grows with ⟨-, hroom, heq⟩ | heq
  · rw [heq]
    exact h.enqueued hroom
  · rw [heq]
    exact h

theorem Bounded.gated (h : s.Bounded) (hroom : s.hasRoom owned = true) (hash : HashBytes) :
    ({ s with gated := s.gated ++ [⟨hash, owned⟩], gatedBytes := s.gatedBytes + owned.length } :
      SenderLists).Bounded where
  queueBytes := h.queueBytes
  gatedBytes := by
    show s.gatedBytes + owned.length = lengthOfFrames ((s.gated ++ [GatedFrame.mk hash owned]).map GatedFrame.owned)
    rw [List.map_append, List.map_singleton, lengthOfFrames_append, lengthOfFrames_singleton, h.gatedBytes]
  frames := by
    obtain ⟨hframes, -⟩ := hasRoom_iff.1 hroom
    show s.queue.length + (s.gated ++ [GatedFrame.mk hash owned]).length ≤ senderQueueLimit
    rw [List.length_append, List.length_singleton]
    omega
  bytes := by
    obtain ⟨-, hbytes⟩ := hasRoom_iff.1 hroom
    show s.queueBytes + (s.gatedBytes + owned.length) ≤ senderQueueByteLimit
    omega

/-- What gating does: the frame is enqueued, or last behind the gate, or nothing changes. -/
theorem gatePayload_cases (s : SenderLists) (hash : HashBytes) (owned : OwnedFrame) (grows : Bool) :
    (hash ∈ s.storedPayloads ∧ s.gatePayload hash owned grows = s.enqueueLocked owned grows) ∨
    (hash ∉ s.storedPayloads ∧ s.connected = true ∧ s.hasRoom owned = true ∧
      s.gatePayload hash owned grows =
        ({ s with gated := s.gated ++ [⟨hash, owned⟩], gatedBytes := s.gatedBytes + owned.length }, true)) ∨
    s.gatePayload hash owned grows = (s, false) := by
  rw [gatePayload]
  split
  · rename_i hstored
    exact .inl ⟨hstored, rfl⟩
  · rename_i hstored
    split
    · rename_i h
      rw [Bool.and_eq_true, Bool.and_eq_true] at h
      exact .inr (.inl ⟨hstored, h.1.1, h.1.2, rfl⟩)
    · exact .inr (.inr rfl)

theorem Bounded.gatePayload (h : s.Bounded) (hash : HashBytes) (owned : OwnedFrame) (grows : Bool) :
    (s.gatePayload hash owned grows).1.Bounded := by
  rcases s.gatePayload_cases hash owned grows with ⟨-, heq⟩ | ⟨-, -, hroom, heq⟩ | heq
  · rw [heq]
    exact h.enqueueLocked owned grows
  · rw [heq]
    exact h.gated hroom hash
  · rw [heq]
    exact h

theorem enqueueBackpressure_cases {stops : Bool} {result : SenderLists × Bool}
    (h : s.enqueueBackpressure owned stops grows = some result) :
    result = s.enqueueLocked owned grows ∨ result = (s, false) := by
  rw [enqueueBackpressure] at h
  split at h
  · cases h
  · split at h
    · exact .inr (Option.some.inj h).symm
    · exact .inl (Option.some.inj h).symm

theorem Bounded.ungated {before after : List GatedFrame} {item : GatedFrame} (h : s.Bounded)
    (hgated : s.gated = before ++ item :: after) :
    ({ s with gated := before ++ after, gatedBytes := s.gatedBytes - item.owned.length } :
      SenderLists).Bounded ∧ item.owned.length ≤ s.gatedBytes ∧
      ({ s with gated := before ++ after, gatedBytes := s.gatedBytes - item.owned.length } :
        SenderLists).hasRoom item.owned = true := by
  have hsum : s.gatedBytes = lengthOfFrames ((before ++ after).map GatedFrame.owned) + item.owned.length := by
    rw [h.gatedBytes, hgated, List.map_append, List.map_cons, List.map_append, lengthOfFrames_append,
      lengthOfFrames_append, ← List.singleton_append, lengthOfFrames_append, lengthOfFrames_singleton]
    omega
  have hlength : s.gated.length = (before ++ after).length + 1 := by
    rw [hgated, List.length_append, List.length_append, List.length_cons]
    omega
  have hframes := h.frames
  have hbytes := h.bytes
  refine ⟨⟨h.queueBytes, ?_, ?_, ?_⟩, ?_, hasRoom_iff.2 ⟨?_, ?_⟩⟩
  · show s.gatedBytes - item.owned.length = lengthOfFrames ((before ++ after).map GatedFrame.owned)
    omega
  · show s.queue.length + (before ++ after).length ≤ senderQueueLimit
    omega
  · show s.queueBytes + (s.gatedBytes - item.owned.length) ≤ senderQueueByteLimit
    omega
  · omega
  · show s.queue.length + (before ++ after).length < senderQueueLimit
    omega
  · show s.queueBytes + (s.gatedBytes - item.owned.length) + item.owned.length ≤ senderQueueByteLimit
    omega

theorem gated_enqueueLocked (s : SenderLists) (owned : OwnedFrame) (grows : Bool) :
    (s.enqueueLocked owned grows).1.gated = s.gated ∧
      (s.enqueueLocked owned grows).1.connected = s.connected := by
  rcases s.enqueueLocked_cases owned grows with ⟨-, -, heq⟩ | heq <;> rw [heq] <;> exact ⟨rfl, rfl⟩

theorem Bounded.releaseLoop {grows : OwnedFrame → Bool} {kept rest : List GatedFrame} (h : s.Bounded)
    (hgated : s.gated = kept ++ rest) : (SenderLists.releaseLoop hash grows kept rest s).Bounded := by
  induction rest generalizing kept s with
  | nil => exact h
  | cons item rest ih =>
    rw [SenderLists.releaseLoop]
    split
    · apply ih
      · exact (h.ungated hgated).1.enqueueLocked _ _
      · exact (gated_enqueueLocked _ _ _).1
    · apply ih h
      rw [hgated, List.append_assoc]
      rfl

theorem Bounded.ackPayload (h : s.Bounded) (hash : HashBytes) (stores : Bool) (grows : OwnedFrame → Bool) :
    (s.ackPayload hash stores grows).Bounded := by
  rw [SenderLists.ackPayload]
  split
  · exact Bounded.releaseLoop ⟨h.queueBytes, h.gatedBytes, h.frames, h.bytes⟩ rfl
  · exact h

/-- When the queue can grow, the loop moves every frame under the hash to the end of the queue. -/
theorem releaseLoop_eq {grows : OwnedFrame → Bool} (hgrows : ∀ owned, grows owned = true)
    {kept rest : List GatedFrame} (h : s.Bounded) (hgated : s.gated = kept ++ rest)
    (hconnected : s.connected = true) (hkept : ∀ item ∈ kept, item.hash ≠ hash) :
    (releaseLoop hash grows kept rest s).queue = s.queue ++ framesUnder hash rest ∧
      (releaseLoop hash grows kept rest s).gated =
        kept ++ rest.filter (fun item => decide (item.hash ≠ hash)) ∧
      (releaseLoop hash grows kept rest s).connected = true ∧
      (releaseLoop hash grows kept rest s).storedPayloads = s.storedPayloads := by
  induction rest generalizing kept s with
  | nil => exact ⟨(List.append_nil _).symm, hgated, hconnected, rfl⟩
  | cons item rest ih =>
    rw [releaseLoop]
    by_cases hhash : item.hash = hash
    · obtain ⟨hbounded, -, hroom⟩ := h.ungated hgated
      have hreleased : s.releaseFrame kept rest item.owned (grows item.owned) =
          { s with
            queue := s.queue ++ [item.owned]
            queueBytes := s.queueBytes + item.owned.length
            gated := kept ++ rest
            gatedBytes := s.gatedBytes - item.owned.length } := by
        rw [releaseFrame, enqueueLocked, hroom, hgrows]
        simp only [hconnected, Bool.and_true, if_true]
      rw [if_pos hhash, hreleased]
      have hnext := hbounded.enqueued hroom
      obtain ⟨hqueue, hrest, hstill, hstored⟩ := ih hnext rfl hconnected hkept
      refine ⟨?_, ?_, hstill, hstored⟩
      · rw [hqueue, framesUnder_cons, if_pos hhash, List.append_assoc]
        rfl
      · rw [hrest, List.filter_cons_of_neg]
        rw [decide_eq_true_iff, not_not]
        exact hhash
    · rw [if_neg hhash]
      have hkept' : ∀ other ∈ kept ++ [item], other.hash ≠ hash := by
        intro other hother
        rcases List.mem_append.1 hother with hother | hother
        · exact hkept other hother
        · rw [List.mem_singleton.1 hother]
          exact hhash
      obtain ⟨hqueue, hrest, hstill, hstored⟩ :=
        ih h (hgated.trans (List.append_cons kept item rest)) hconnected hkept'
      refine ⟨?_, ?_, hstill, hstored⟩
      · rw [hqueue, framesUnder_cons, if_neg hhash]
      · rw [hrest, List.filter_cons, if_pos (decide_eq_true hhash), List.append_assoc]
        rfl

/-- `ackPayload` when nothing fails to be allocated. -/
theorem ackPayload_eq {grows : OwnedFrame → Bool} (hgrows : ∀ owned, grows owned = true) (h : s.Bounded)
    (hconnected : s.connected = true) (hash : HashBytes) :
    (s.ackPayload hash true grows).queue = s.queue ++ framesUnder hash s.gated ∧
      (s.ackPayload hash true grows).gated = s.gated.filter (fun item => decide (item.hash ≠ hash)) ∧
      (s.ackPayload hash true grows).connected = true ∧
      (s.ackPayload hash true grows).storedPayloads = s.storedPayloads ++ [hash] := by
  have hstored : ({ s with storedPayloads := s.storedPayloads ++ [hash] } : SenderLists).Bounded :=
    ⟨h.queueBytes, h.gatedBytes, h.frames, h.bytes⟩
  exact releaseLoop_eq hgrows hstored rfl hconnected fun _ hitem => absurd hitem List.not_mem_nil

theorem dequeue_eq_some (h : s.dequeue = some (owned, t)) : s.connected = true ∧
    s.queue = owned :: t.queue ∧
      t = { s with queue := t.queue, queueBytes := s.queueBytes - owned.length } := by
  rw [dequeue] at h
  cases hqueue : s.queue with
  | nil =>
    rw [hqueue] at h
    cases h
  | cons first rest =>
    rw [hqueue] at h
    simp only at h
    split at h
    · rename_i hconnected
      obtain ⟨rfl, rfl⟩ := Prod.mk.inj (Option.some.inj h)
      exact ⟨hconnected, rfl, rfl⟩
    · cases h

theorem Bounded.dequeue (h : s.Bounded) (hdequeue : s.dequeue = some (owned, t)) : t.Bounded := by
  obtain ⟨-, hqueue, ht⟩ := dequeue_eq_some hdequeue
  have hsum : s.queueBytes = owned.length + lengthOfFrames t.queue := by
    rw [h.queueBytes, hqueue, ← List.singleton_append, lengthOfFrames_append, lengthOfFrames_singleton]
  have hlength : s.queue.length = t.queue.length + 1 := by
    rw [hqueue, List.length_cons]
  have hframes := h.frames
  have hbytes := h.bytes
  rw [ht]
  refine ⟨?_, h.gatedBytes, ?_, ?_⟩
  · show s.queueBytes - owned.length = lengthOfFrames t.queue
    omega
  · show t.queue.length + s.gated.length ≤ senderQueueLimit
    omega
  · show s.queueBytes - owned.length + s.gatedBytes ≤ senderQueueByteLimit
    omega

theorem Bounded.connect (h : s.Bounded) : s.connect.Bounded where
  queueBytes := h.queueBytes
  gatedBytes := rfl
  frames := by
    have hframes := h.frames
    show s.queue.length + 0 ≤ senderQueueLimit
    omega
  bytes := by
    have hbytes := h.bytes
    show s.queueBytes + 0 ≤ senderQueueByteLimit
    omega

theorem bounded_reset (s : SenderLists) : s.reset.Bounded :=
  ⟨rfl, rfl, Nat.zero_le _, Nat.zero_le _⟩

/-! ### The sender without its counters -/

/-- The sender of a learner's stream, which sums the lengths itself. -/
def toPeerSender (s : SenderLists) (role : Role) (learnedThrough : ℕ) : PeerSender where
  role := role
  queue := s.queue.map OwnedFrame.frame
  gated := s.gated.map fun item => (item.hash, item.owned.frame)
  connected := s.connected
  storedPayloads := s.storedPayloads
  learnedThrough := learnedThrough

theorem admits_toPeerSender (h : s.Bounded) (role : Role) (learnedThrough : ℕ) (owned : OwnedFrame) :
    (s.toPeerSender role learnedThrough).admits owned.frame = (s.connected && s.hasRoom owned) := by
  have hqueue : (s.toPeerSender role learnedThrough).queueBytes = s.queueBytes := by
    rw [h.queueBytes, PeerSender.queueBytes, toPeerSender, List.map_map]
    rfl
  have hgated : (s.toPeerSender role learnedThrough).gatedBytes = s.gatedBytes := by
    rw [h.gatedBytes, PeerSender.gatedBytes, toPeerSender, lengthOfFrames, List.map_map, List.map_map]
    rfl
  rw [PeerSender.admits, hqueue, hgated, hasRoom, ← Bool.and_assoc]
  show (s.connected && decide ((s.queue.map _).length + (s.gated.map _).length < _) && _) = _
  rw [List.length_map, List.length_map]
  rfl

/-- With right counters and lists that grow, enqueueing and gating are those of the learner's sender. -/
theorem refines_peerSender (h : s.Bounded) (role : Role) (learnedThrough : ℕ) (hash : HashBytes)
    (owned : OwnedFrame) :
    (s.toPeerSender role learnedThrough).enqueueChecked owned.frame =
        (((s.enqueueChecked owned true).1.toPeerSender role learnedThrough),
          (s.enqueueChecked owned true).2) ∧
      (s.toPeerSender role learnedThrough).gatePayload hash owned.frame =
        (((s.gatePayload hash owned true).1.toPeerSender role learnedThrough),
          (s.gatePayload hash owned true).2) := by
  have hadmits := admits_toPeerSender h role learnedThrough owned
  have henqueue : (s.toPeerSender role learnedThrough).enqueueChecked owned.frame =
      ((s.enqueueLocked owned true).1.toPeerSender role learnedThrough, (s.enqueueLocked owned true).2) := by
    rw [PeerSender.enqueueChecked, hadmits, enqueueLocked, Bool.and_true]
    split
    · simp only [toPeerSender, List.map_append, List.map_singleton]
    · rfl
  refine ⟨henqueue, ?_⟩
  rw [PeerSender.gatePayload, gatePayload]
  show (if hash ∈ s.storedPayloads then _ else _) = _
  split
  · exact henqueue
  · rw [hadmits, Bool.and_true]
    split
    · simp only [toPeerSender, List.map_append, List.map_singleton]
    · rfl

end SenderLists

end Zaxonlite
