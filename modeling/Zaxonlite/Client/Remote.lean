import Mathlib.Data.Int.Notation
import Mathlib.Data.List.Nodup
import Zaxonlite.Lib.Run

/-!
# The remote client's write lane

A remote client sends its writes one at a time under one session, each with the next sequence number. It
resends a write until the server gives a reply it takes as final, and keeps the number for the next write
when that reply is a rejection. Which replies are final is a table of error codes. The server has errors
outside that table that it raises after the accept request has left the leader, and a request that was
resent may still be executed from an earlier attempt. In both cases the number is used again while the
first write can still be chosen.
-/

namespace Zaxonlite

open Run

/-! ### Replies -/

inductive ErrorCode where
  | notLeader
  | ambiguous
  | timeout
  | retry
  | unavailable
  | sql
  | session
  | tooLarge
  | badRequest
  | internal
  deriving DecidableEq, Repr

/-- The errors of the server's write path, as far as `writeWriteError` tells them apart. -/
inductive ServerError where
  | notLeader
  | ambiguous
  | opTimeout
  | opTimeoutQueued
  | leaderNotReady
  | leaderCatchingUp
  | unavailable
  | sqliteError
  | sqliteBusy
  | unknownSession
  | sequenceGap
  | resultExpired
  | logSealed
  | transactionTooLarge
  | storageFailed
  | recoveryRetentionExceeded
  /-- Any other error, by its name. -/
  | other (name : String)
  deriving DecidableEq, Repr

def writeWriteError : ServerError → ErrorCode
  | .notLeader => .notLeader
  | .ambiguous => .ambiguous
  | .opTimeout => .timeout
  | .opTimeoutQueued => .timeout
  | .leaderNotReady => .retry
  | .leaderCatchingUp => .retry
  | .unavailable => .unavailable
  | .sqliteError => .sql
  | .sqliteBusy => .sql
  | .unknownSession => .session
  | .sequenceGap => .session
  | .resultExpired => .session
  | .logSealed => .retry
  | .transactionTooLarge => .tooLarge
  | .storageFailed => .unavailable
  | .recoveryRetentionExceeded => .unavailable
  | .other _ => .internal

/-- The errors a write can end with after its batch went to the log: those of the wait for its slot, and
whatever `consumeEffects` meets once the accept request has left. -/
def ServerError.afterAppend : ServerError → Bool
  | .ambiguous => true
  | .opTimeout => true
  | .other _ => true
  | _ => false

structure ExecInfo where
  changes : ℤ
  lastInsertRowid : Option ℤ
  replayed : Bool
  deriving DecidableEq

inductive Reply where
  | ok (info : ExecInfo)
  | error (code : ErrorCode)
  deriving DecidableEq

def writeRetryable (code : ErrorCode) : Bool :=
  code = .timeout || code = .ambiguous || code = .retry || code = .unavailable

/-- What one attempt tells `driveWrite`. -/
inductive Attempted where
  | done (info : ExecInfo)
  | rejected
  | again

/-- `writeOnce`; the connection itself follows `not_leader`. -/
def writeOnce : Reply → Attempted
  | .ok info => .done info
  | .error code => if code = .notLeader ∨ writeRetryable code = true then .again else .rejected

theorem rejected_afterAppend {e : ServerError} (h : e.afterAppend = true) :
    writeOnce (.error (writeWriteError e)) = .rejected ↔ ∃ name, e = .other name := by
  cases e with
  | other name => simp [writeOnce, writeWriteError, writeRetryable]
  | ambiguous => simp [writeOnce, writeWriteError, writeRetryable]
  | opTimeout => simp [writeOnce, writeWriteError, writeRetryable]
  | _ => cases h

/-! ### The client -/

/-- A serialized write. `call` stands for the statement: no two calls share one. -/
structure WriteRequest where
  sequence : ℕ
  call : ℕ
  deriving DecidableEq

/-- A request on the wire, told apart from its other attempts. -/
structure Attempt where
  number : ℕ
  request : WriteRequest
  deriving DecidableEq

/-- A thread inside `exec` or `execBatch`, or inside `resolvePending`. -/
structure Caller where
  id : ℕ
  resolving : Bool
  deriving DecidableEq

inductive RemoteError where
  | closed
  | writeQueueTimeout
  | writePending
  | noPendingWrite
  | serverRejected
  /-- The probe or the session met no answer: nothing was sent. -/
  | notSent
  deriving DecidableEq

/-- The thread that holds the write lane, and the attempt it waits for. -/
structure LaneHolder where
  caller : Caller
  attempt : Option Attempt
  deriving DecidableEq

structure Remote where
  closing : Bool
  holder : Option LaneHolder
  queue : List Caller
  nextSequence : ℕ
  pending : Option WriteRequest
  deriving DecidableEq

namespace Remote

/-- `acquireWriteLane` up to the wait, of a client that is not closing. -/
def acquireWriteLane (r : Remote) (caller : Caller) : Remote :=
  if r.holder = none ∧ r.queue = [] then { r with holder := some ⟨caller, none⟩ }
  else { r with queue := r.queue ++ [caller] }

/-- `removeWriteTicketLocked`. -/
def removeWriteTicket (r : Remote) (caller : Caller) : Remote :=
  { r with queue := r.queue.filter fun waiting => waiting ≠ caller }

/-- `releaseWriteLane`: the lane goes to the oldest ticket. -/
def releaseWriteLane (r : Remote) : Remote :=
  if r.closing then { r with holder := none }
  else
    match r.queue with
    | [] => { r with holder := none }
    | next :: rest => { r with holder := some ⟨next, none⟩, queue := rest }

/-- The request the holder of the lane is to drive: a new one, or the pending one. -/
def request (r : Remote) (caller : Caller) : Except RemoteError WriteRequest :=
  match r.pending with
  | some pending => if caller.resolving then .ok pending else .error .writePending
  | none => if caller.resolving then .error .noPendingWrite else .ok ⟨r.nextSequence, caller.id⟩

/-- The request the client is at: the pending one, or the one the holder of the lane drives. -/
def current (r : Remote) : Option WriteRequest :=
  match r.pending with
  | some request => some request
  | none => (r.holder.bind LaneHolder.attempt).map Attempt.request

/-- The threads that have entered and sent nothing yet. -/
def waiting (r : Remote) : List Caller :=
  r.queue ++
    match r.holder with
    | some ⟨caller, none⟩ => [caller]
    | _ => []

/-- The end of `driveNewWrite` and of `resolvePending` on success. -/
def succeeded (r : Remote) : Remote :=
  { r with pending := none, nextSequence := r.nextSequence + 1 }

/-- Their end on a rejection; only `resolvePending` has something to clear. -/
def rejected (r : Remote) : Remote :=
  { r with pending := none }

/-- Their end when the fate is unknown: a new write is kept, a pending one stays. -/
def unresolved (r : Remote) (request : WriteRequest) : Remote :=
  { r with pending := some request }

end Remote

/-! ### Clients, network and servers -/

/-- A reply that the client took for a rejection, with every request of the session that was still to be
executed then, or whose batch could still be chosen. -/
structure Rejection where
  request : WriteRequest
  unsettled : List WriteRequest

/-- A client of many threads with its network and its servers. `copies` are attempts no server has taken
up; `answering` are those whose batch went to the log and whose reply is still to come; `proposals` are
all batches whose accept request has left a leader, `chosen` those that were chosen. `callers`, `sent`,
`outcomes` and `rejections` are the history of the run; an outcome is filed under the statement. -/
structure RemoteSystem where
  remote : Remote
  copies : List Attempt
  answering : List Attempt
  proposals : List WriteRequest
  chosen : List WriteRequest
  replies : List (Attempt × Reply)
  callers : List ℕ
  sent : List (WriteRequest × Option WriteRequest)
  outcomes : List (ℕ × Except RemoteError ExecInfo)
  rejections : List Rejection

namespace RemoteSystem

/-- The requests a server may still execute and the batches it may still choose. -/
def live (s : RemoteSystem) : List WriteRequest :=
  s.copies.map Attempt.request ++ s.proposals

/-- The next attempt at a request goes out. -/
def send (s : RemoteSystem) (caller : Caller) (request : WriteRequest) : RemoteSystem :=
  { s with
    remote := { s.remote with holder := some ⟨caller, some ⟨s.sent.length, request⟩⟩ }
    copies := s.copies ++ [⟨s.sent.length, request⟩]
    sent := s.sent ++ [(request, s.remote.pending)] }

/-- A call is over: its outcome, and the client it leaves behind. -/
def finish (s : RemoteSystem) (remote : Remote) (call : ℕ) (outcome : Except RemoteError ExecInfo) :
    RemoteSystem :=
  { s with remote := remote, outcomes := s.outcomes ++ [(call, outcome)] }

def enter (s : RemoteSystem) (caller : Caller) : RemoteSystem :=
  let entered := { s with callers := s.callers ++ [caller.id] }
  if s.remote.closing then entered.finish s.remote caller.id (.error .closed)
  else { entered with remote := s.remote.acquireWriteLane caller }

/-- A ticket gives up, at its deadline or because the client closes. -/
def leaveQueue (s : RemoteSystem) (caller : Caller) (error : RemoteError) : RemoteSystem :=
  s.finish (s.remote.removeWriteTicket caller) caller.id (.error error)

/-- The holder of the lane returns before it has sent anything. -/
def giveUp (s : RemoteSystem) (caller : Caller) (error : RemoteError) : RemoteSystem :=
  s.finish s.remote.releaseWriteLane caller.id (.error error)

def succeed (s : RemoteSystem) (request : WriteRequest) (info : ExecInfo) : RemoteSystem :=
  s.finish s.remote.succeeded.releaseWriteLane request.call (.ok info)

def reject (s : RemoteSystem) (request : WriteRequest) : RemoteSystem :=
  { s.finish s.remote.rejected.releaseWriteLane request.call (.error .serverRejected) with
    rejections := s.rejections ++ [⟨request, s.live⟩] }

def suspend (s : RemoteSystem) (request : WriteRequest) : RemoteSystem :=
  s.finish (s.remote.unresolved request).releaseWriteLane request.call (.error .writePending)

end RemoteSystem

/-- One step. Threads enter with fresh calls; attempts and replies may be delayed and lost; a server refuses
an attempt, replays a chosen result, or hands a batch to the log and answers later; and the log chooses at
most one batch of a sequence. -/
inductive RemoteStep : RemoteSystem → RemoteSystem → Prop
  | enter {s : RemoteSystem} {caller : Caller} : caller.id ∉ s.callers → RemoteStep s (s.enter caller)
  | queueTimeout {s : RemoteSystem} {caller : Caller} : caller ∈ s.remote.queue →
      RemoteStep s (s.leaveQueue caller .writeQueueTimeout)
  | queueClosed {s : RemoteSystem} {caller : Caller} : s.remote.closing = true →
      caller ∈ s.remote.queue → RemoteStep s (s.leaveQueue caller .closed)
  | close {s : RemoteSystem} : RemoteStep s { s with remote := { s.remote with closing := true } }
  | giveUp {s : RemoteSystem} {caller : Caller} {error : RemoteError} :
      s.remote.holder = some ⟨caller, none⟩ →
      s.remote.request caller = .error error ∨ error = .notSent ∨ error = .closed →
      RemoteStep s (s.giveUp caller error)
  /-- `ensureSession` is refused; `resolvePending` has its session. -/
  | sessionRefused {s : RemoteSystem} {caller : Caller} :
      s.remote.holder = some ⟨caller, none⟩ → caller.resolving = false →
      RemoteStep s (s.giveUp caller .serverRejected)
  | send {s : RemoteSystem} {caller : Caller} {request : WriteRequest} :
      s.remote.holder = some ⟨caller, none⟩ → s.remote.request caller = .ok request →
      RemoteStep s (s.send caller request)
  | resend {s : RemoteSystem} {caller : Caller} {attempt : Attempt} :
      s.remote.holder = some ⟨caller, some attempt⟩ → RemoteStep s (s.send caller attempt.request)
  | suspend {s : RemoteSystem} {caller : Caller} {attempt : Attempt} :
      s.remote.holder = some ⟨caller, some attempt⟩ → RemoteStep s (s.suspend attempt.request)
  | succeed {s : RemoteSystem} {caller : Caller} {attempt : Attempt} {reply : Reply} {info : ExecInfo} :
      s.remote.holder = some ⟨caller, some attempt⟩ → (attempt, reply) ∈ s.replies →
      writeOnce reply = .done info → RemoteStep s (s.succeed attempt.request info)
  | reject {s : RemoteSystem} {caller : Caller} {attempt : Attempt} {reply : Reply} :
      s.remote.holder = some ⟨caller, some attempt⟩ → (attempt, reply) ∈ s.replies →
      writeOnce reply = .rejected → RemoteStep s (s.reject attempt.request)
  | lose {s : RemoteSystem} {attempt : Attempt} :
      RemoteStep s { s with copies := s.copies.erase attempt }
  | refuse {s : RemoteSystem} {attempt : Attempt} (code : ErrorCode) : attempt ∈ s.copies →
      RemoteStep s { s with
        copies := s.copies.erase attempt
        replies := s.replies ++ [(attempt, .error code)] }
  | replay {s : RemoteSystem} {attempt : Attempt} {batch : WriteRequest} (info : ExecInfo) :
      attempt ∈ s.copies → batch ∈ s.chosen → batch.sequence = attempt.request.sequence →
      RemoteStep s { s with
        copies := s.copies.erase attempt
        replies := s.replies ++ [(attempt, .ok { info with replayed := true })] }
  | propose {s : RemoteSystem} {attempt : Attempt} : attempt ∈ s.copies →
      RemoteStep s { s with
        copies := s.copies.erase attempt
        answering := s.answering ++ [attempt]
        proposals := s.proposals ++ [attempt.request] }
  | choose {s : RemoteSystem} {batch : WriteRequest} : batch ∈ s.proposals →
      (∀ earlier ∈ s.chosen, earlier.sequence ≠ batch.sequence) →
      RemoteStep s { s with chosen := s.chosen ++ [batch] }
  | answer {s : RemoteSystem} {attempt : Attempt} (info : ExecInfo) : attempt ∈ s.answering →
      attempt.request ∈ s.chosen → RemoteStep s { s with
        answering := s.answering.erase attempt
        replies := s.replies ++ [(attempt, .ok { info with replayed := false })] }
  | fail {s : RemoteSystem} {attempt : Attempt} {e : ServerError} : attempt ∈ s.answering →
      e.afterAppend = true → RemoteStep s { s with
        answering := s.answering.erase attempt
        replies := s.replies ++ [(attempt, .error (writeWriteError e))] }

namespace RemoteSystem

/-- A client that was just opened. -/
def Starts (s : RemoteSystem) : Prop :=
  s.remote = ⟨false, none, [], 1, none⟩ ∧ s.copies = [] ∧ s.answering = [] ∧ s.proposals = [] ∧
    s.chosen = [] ∧ s.replies = [] ∧ s.callers = [] ∧ s.sent = [] ∧ s.outcomes = [] ∧ s.rejections = []

/-- Each rejection was final: nothing of its sequence could be executed or chosen any more. -/
def Fair (s : RemoteSystem) : Prop :=
  ∀ rejection ∈ s.rejections, ∀ request ∈ rejection.unsettled,
    request.sequence ≠ rejection.request.sequence

instance (s : RemoteSystem) : Decidable s.Fair :=
  inferInstanceAs (Decidable (∀ rejection ∈ s.rejections, ∀ request ∈ rejection.unsettled,
    request.sequence ≠ rejection.request.sequence))

end RemoteSystem

/-! ### The lane -/

namespace Remote

variable {r : Remote} {caller : Caller}

theorem waiting_of_admitted (h : r.holder = some ⟨caller, none⟩) : r.waiting = r.queue ++ [caller] := by
  rw [waiting, h]

theorem waiting_of_driving {attempt : Attempt} (h : r.holder = some ⟨caller, some attempt⟩) :
    r.waiting = r.queue := by
  rw [waiting, h, List.append_nil]

theorem perm_waiting_release (r : Remote) : r.releaseWriteLane.waiting.Perm r.queue := by
  rw [releaseWriteLane]
  split
  · rw [waiting, List.append_nil]
  · split
    · rename_i hqueue
      rw [waiting, List.append_nil]
    · rename_i next rest hqueue
      rw [hqueue]
      exact List.perm_append_comm

theorem perm_waiting_acquire (r : Remote) (caller : Caller) :
    (r.acquireWriteLane caller).waiting.Perm (caller :: r.waiting) := by
  rw [acquireWriteLane]
  split
  · rename_i hfree
    rw [waiting, waiting, hfree.1, hfree.2]
    exact List.Perm.refl _
  · show ((r.queue ++ [caller]) ++ _).Perm (caller :: (r.queue ++ _))
    rw [List.append_assoc, List.singleton_append]
    exact List.perm_middle

theorem sublist_waiting_remove (r : Remote) (caller : Caller) :
    (r.removeWriteTicket caller).waiting.Sublist r.waiting :=
  List.Sublist.append List.filter_sublist (List.Sublist.refl _)

theorem current_of_driving {attempt : Attempt} (h : r.holder = some ⟨caller, some attempt⟩)
    (hpending : r.pending = none ∨ r.pending = some attempt.request) :
    r.current = some attempt.request := by
  rcases hpending with hpending | hpending
  · rw [current, hpending, h]
    rfl
  · rw [current, hpending]

theorem current_of_admitted (h : r.holder = some ⟨caller, none⟩) : r.current = r.pending := by
  rw [current, h]
  split
  · rename_i hpending
    exact hpending.symm
  · rename_i hpending
    exact hpending.symm

@[simp] theorem pending_release (r : Remote) : r.releaseWriteLane.pending = r.pending := by
  rw [releaseWriteLane]
  split
  · rfl
  · split <;> rfl

@[simp] theorem nextSequence_release (r : Remote) :
    r.releaseWriteLane.nextSequence = r.nextSequence := by
  rw [releaseWriteLane]
  split
  · rfl
  · split <;> rfl

theorem attempt_release (r : Remote) {holder : LaneHolder} (h : r.releaseWriteLane.holder = some holder) :
    holder.attempt = none := by
  rw [releaseWriteLane] at h
  split at h
  · cases h
  · split at h
    · cases h
    · obtain rfl := Option.some.inj h
      rfl

theorem current_release (r : Remote) : r.releaseWriteLane.current = r.pending := by
  cases hholder : r.releaseWriteLane.holder with
  | none =>
    rw [current, hholder, pending_release]
    cases r.pending <;> rfl
  | some holder =>
    obtain ⟨caller, attempt⟩ := holder
    obtain rfl : attempt = none := attempt_release r hholder
    rw [current_of_admitted hholder, pending_release]

@[simp] theorem pending_acquire (r : Remote) (caller : Caller) :
    (r.acquireWriteLane caller).pending = r.pending := by
  rw [acquireWriteLane]
  split <;> rfl

@[simp] theorem nextSequence_acquire (r : Remote) (caller : Caller) :
    (r.acquireWriteLane caller).nextSequence = r.nextSequence := by
  rw [acquireWriteLane]
  split <;> rfl

theorem current_acquire (r : Remote) (caller : Caller) :
    (r.acquireWriteLane caller).current = r.current := by
  rw [acquireWriteLane]
  split
  · rename_i hfree
    rw [current, current, hfree.1]
    rfl
  · rfl

theorem holder_acquire {holder : LaneHolder} (h : (r.acquireWriteLane caller).holder = some holder) :
    r.holder = some holder ∨ holder.attempt = none := by
  rw [acquireWriteLane] at h
  split at h
  · obtain rfl := Option.some.inj h
    exact Or.inr rfl
  · exact Or.inl h

theorem request_cases {request : WriteRequest} (h : r.request caller = .ok request) :
    (r.pending = none ∧ request = ⟨r.nextSequence, caller.id⟩) ∨ r.pending = some request := by
  rw [Remote.request] at h
  cases hpending : r.pending with
  | none =>
    rw [hpending] at h
    simp only at h
    split at h
    · cases h
    · exact Or.inl ⟨rfl, (Except.ok.inj h).symm⟩
  | some pending =>
    rw [hpending] at h
    simp only at h
    split at h
    · exact Or.inr (by rw [Except.ok.inj h])
    · cases h

end Remote

/-! ### The invariant -/

namespace RemoteSystem

/-- The lane: every call sends one request, and while a write is pending nothing else is sent. -/
structure Lane (s : RemoteSystem) : Prop where
  driving : ∀ caller attempt, s.remote.holder = some ⟨caller, some attempt⟩ →
    s.remote.pending = none ∨ s.remote.pending = some attempt.request
  nodup : (s.remote.waiting.map Caller.id).Nodup
  fresh : ∀ caller ∈ s.remote.waiting, caller.id ∈ s.callers ∧ ∀ e ∈ s.sent, e.1.call ≠ caller.id
  entered : ∀ e ∈ s.sent, e.1.call ∈ s.callers
  once : ∀ e ∈ s.sent, ∀ e' ∈ s.sent, e.1.call = e'.1.call → e.1 = e'.1
  current : ∀ r ∈ s.remote.current, ∃ e ∈ s.sent, e.1 = r
  pending : ∀ e ∈ s.sent, e.2 = none ∨ e.2 = some e.1

/-- The network and the servers: what lives there was sent, and what is replayed was chosen. -/
structure Net (s : RemoteSystem) : Prop where
  sent : ∀ r ∈ s.live, ∃ e ∈ s.sent, e.1 = r
  chosen : s.chosen ⊆ s.proposals
  once : s.chosen.Pairwise fun batch batch' => batch.sequence ≠ batch'.sequence
  replies : ∀ attempt info, (attempt, Reply.ok info) ∈ s.replies →
    ∃ batch ∈ s.chosen, batch.sequence = attempt.request.sequence

/-- The call is over and nothing of it is left. -/
structure Dead (s : RemoteSystem) (call : ℕ) : Prop where
  live : ∀ r ∈ s.live, r.call ≠ call
  current : ∀ r ∈ s.remote.current, r.call ≠ call
  waiting : ∀ caller ∈ s.remote.waiting, caller.id ≠ call
  entered : call ∈ s.callers

/-- The rejections, timeouts and failures that say a write will never happen. -/
def Never (error : RemoteError) : Prop :=
  error = .serverRejected ∨ error = .writeQueueTimeout ∨ error = .notSent

/-- What final rejections keep: the current sequence belongs to the current request alone. -/
structure Final (s : RemoteSystem) : Prop where
  bound : ∀ r ∈ s.live, r.sequence ≤ s.remote.nextSequence
  alone : ∀ r ∈ s.live, r.sequence = s.remote.nextSequence → s.remote.current = some r
  sequence : ∀ r ∈ s.remote.current, r.sequence = s.remote.nextSequence
  ok : ∀ call info, (call, Except.ok info) ∈ s.outcomes → ∃ batch ∈ s.chosen, batch.call = call
  dead : ∀ call error, (call, Except.error error) ∈ s.outcomes → Never error → s.Dead call

structure Sound (s : RemoteSystem) : Prop where
  lane : s.Lane
  net : s.Net
  final : s.Fair → s.Final

section Steps

variable {s t : RemoteSystem} {caller : Caller} {request : WriteRequest}

/-- A step of the network or of a server. -/
structure Quiet (s t : RemoteSystem) : Prop where
  remote : t.remote = s.remote
  callers : t.callers = s.callers
  sent : t.sent = s.sent
  outcomes : t.outcomes = s.outcomes
  rejections : t.rejections = s.rejections
  live : ∀ r ∈ t.live, r ∈ s.live
  chosen : s.chosen ⊆ t.chosen

theorem Lane.congr (h : s.Lane) (hremote : t.remote = s.remote) (hcallers : t.callers = s.callers)
    (hsent : t.sent = s.sent) : t.Lane := by
  refine ⟨?_, ?_, ?_, ?_, ?_, ?_, ?_⟩
  · rw [hremote]
    exact h.driving
  · rw [hremote]
    exact h.nodup
  · rw [hremote, hcallers, hsent]
    exact h.fresh
  · rw [hcallers, hsent]
    exact h.entered
  · rw [hsent]
    exact h.once
  · rw [hremote, hsent]
    exact h.current
  · rw [hsent]
    exact h.pending

/-- A step of the client that sends nothing leaves the network alone. -/
theorem Net.congr (h : s.Net) (hcopies : t.copies = s.copies) (hproposals : t.proposals = s.proposals)
    (hchosen : t.chosen = s.chosen) (hreplies : t.replies = s.replies) (hsent : t.sent = s.sent) :
    t.Net := by
  refine ⟨?_, ?_, ?_, ?_⟩
  · rw [live, hcopies, hproposals, hsent]
    exact h.sent
  · rw [hchosen, hproposals]
    exact h.chosen
  · rw [hchosen]
    exact h.once
  · rw [hreplies, hchosen]
    exact h.replies

theorem Dead.quiet {call : ℕ} (h : s.Dead call) (hquiet : s.Quiet t) : t.Dead call := by
  refine ⟨fun r hr => h.live r (hquiet.live r hr), ?_, ?_, ?_⟩
  · rw [hquiet.remote]
    exact h.current
  · rw [hquiet.remote]
    exact h.waiting
  · rw [hquiet.callers]
    exact h.entered

theorem Final.quiet (h : s.Final) (hquiet : s.Quiet t) : t.Final := by
  refine ⟨?_, ?_, ?_, ?_, ?_⟩
  · intro r hr
    rw [hquiet.remote]
    exact h.bound r (hquiet.live r hr)
  · intro r hr
    rw [hquiet.remote]
    exact h.alone r (hquiet.live r hr)
  · rw [hquiet.remote]
    exact h.sequence
  · intro call info hok
    rw [hquiet.outcomes] at hok
    obtain ⟨batch, hbatch, hcall⟩ := h.ok call info hok
    exact ⟨batch, hquiet.chosen hbatch, hcall⟩
  · intro call error herror hnever
    rw [hquiet.outcomes] at herror
    exact (h.dead call error herror hnever).quiet hquiet

theorem Sound.quiet (h : s.Sound) (hquiet : s.Quiet t) (hnet : t.Net) : t.Sound := by
  refine ⟨h.lane.congr hquiet.remote hquiet.callers hquiet.sent, hnet, ?_⟩
  intro hfair
  apply (h.final _).quiet hquiet
  rw [Fair, ← hquiet.rejections]
  exact hfair

/-! ### The network -/

theorem mem_live_of_copy {attempt : Attempt} (h : attempt ∈ s.copies) : attempt.request ∈ s.live :=
  List.mem_append_left _ (List.mem_map_of_mem h)

theorem live_erase (s : RemoteSystem) (attempt : Attempt) :
    ∀ r ∈ (s.copies.erase attempt).map Attempt.request ++ s.proposals, r ∈ s.live := by
  intro r hr
  rcases List.mem_append.1 hr with hr | hr
  · obtain ⟨a, ha, rfl⟩ := List.mem_map.1 hr
    exact mem_live_of_copy (List.mem_of_mem_erase ha)
  · exact List.mem_append_right _ hr

theorem live_propose {attempt : Attempt} (h : attempt ∈ s.copies) :
    ∀ r ∈ (s.copies.erase attempt).map Attempt.request ++ (s.proposals ++ [attempt.request]),
      r ∈ s.live := by
  intro r hr
  rw [← List.append_assoc] at hr
  rcases List.mem_append.1 hr with hr | hr
  · exact live_erase s attempt r hr
  · rw [List.mem_singleton] at hr
    rw [hr]
    exact mem_live_of_copy h

theorem Sound.refuse (h : s.Sound) (attempt : Attempt) {replies : List (Attempt × Reply)}
    (hreplies : ∀ attempt info, (attempt, Reply.ok info) ∈ replies →
      ∃ batch ∈ s.chosen, batch.sequence = attempt.request.sequence) :
    Sound { s with copies := s.copies.erase attempt, replies := replies } := by
  apply h.quiet
  · exact ⟨rfl, rfl, rfl, rfl, rfl, live_erase s attempt, List.Subset.refl _⟩
  · exact ⟨fun r hr => h.net.sent r (live_erase s attempt r hr), h.net.chosen, h.net.once, hreplies⟩

/-- One more reply: what holds of the earlier ones and of it holds of all. -/
theorem Net.replies_append (h : s.Net) {attempt : Attempt} {reply : Reply}
    (hreply : ∀ info, reply = .ok info →
      ∃ batch ∈ s.chosen, batch.sequence = attempt.request.sequence) :
    ∀ attempt' info, (attempt', Reply.ok info) ∈ s.replies ++ [(attempt, reply)] →
      ∃ batch ∈ s.chosen, batch.sequence = attempt'.request.sequence := by
  intro attempt' info hmem
  rcases List.mem_append.1 hmem with hmem | hmem
  · exact h.replies attempt' info hmem
  · rw [List.mem_singleton, Prod.mk.injEq] at hmem
    obtain ⟨rfl, heq⟩ := hmem
    exact hreply info heq.symm

theorem Sound.propose (h : s.Sound) {attempt : Attempt} (hcopy : attempt ∈ s.copies) : Sound { s with
    copies := s.copies.erase attempt
    answering := s.answering ++ [attempt]
    proposals := s.proposals ++ [attempt.request] } := by
  apply h.quiet
  · exact ⟨rfl, rfl, rfl, rfl, rfl, live_propose hcopy, List.Subset.refl _⟩
  · exact ⟨fun r hr => h.net.sent r (live_propose hcopy r hr),
      fun r hr => List.mem_append_left _ (h.net.chosen hr), h.net.once, h.net.replies⟩

theorem Sound.choose (h : s.Sound) {batch : WriteRequest} (hbatch : batch ∈ s.proposals)
    (honce : ∀ earlier ∈ s.chosen, earlier.sequence ≠ batch.sequence) :
    Sound { s with chosen := s.chosen ++ [batch] } := by
  apply h.quiet
  · exact ⟨rfl, rfl, rfl, rfl, rfl, fun r hr => hr, List.subset_append_left _ _⟩
  · refine ⟨h.net.sent, ?_, ?_, ?_⟩
    · intro r hr
      rcases List.mem_append.1 hr with hr | hr
      · exact h.net.chosen hr
      · rw [List.mem_singleton] at hr
        exact hr ▸ hbatch
    · rw [List.pairwise_append]
      refine ⟨h.net.once, List.pairwise_singleton _ _, ?_⟩
      intro earlier hearlier later hlater
      rw [List.mem_singleton] at hlater
      exact hlater ▸ honce earlier hearlier
    · intro attempt info hmem
      obtain ⟨r, hr, hsequence⟩ := h.net.replies attempt info hmem
      exact ⟨r, List.mem_append_left _ hr, hsequence⟩

theorem Sound.answer (h : s.Sound) (attempt : Attempt) {reply : Reply}
    (hreply : ∀ info, reply = .ok info →
      ∃ batch ∈ s.chosen, batch.sequence = attempt.request.sequence) : Sound { s with
    answering := s.answering.erase attempt
    replies := s.replies ++ [(attempt, reply)] } := by
  apply h.quiet
  · exact ⟨rfl, rfl, rfl, rfl, rfl, fun r hr => hr, List.Subset.refl _⟩
  · exact ⟨h.net.sent, h.net.chosen, h.net.once, h.net.replies_append hreply⟩

/-! ### The lane is handed over -/

/-- The holder of the lane has left it, with this client behind. -/
structure Released (s t : RemoteSystem) (remote : Remote) : Prop where
  handed : t.remote = remote.releaseWriteLane
  queue : remote.queue = s.remote.queue
  callers : t.callers = s.callers
  sent : t.sent = s.sent
  copies : t.copies = s.copies
  proposals : t.proposals = s.proposals
  chosen : t.chosen = s.chosen
  replies : t.replies = s.replies

variable {remote : Remote}

theorem Released.live (h : s.Released t remote) : t.live = s.live := by
  rw [RemoteSystem.live, h.copies, h.proposals]
  rfl

theorem Released.waiting (h : s.Released t remote) {caller : Caller} (hmem : caller ∈ t.remote.waiting) :
    caller ∈ s.remote.queue := by
  rw [h.handed] at hmem
  rw [← h.queue]
  exact (Remote.perm_waiting_release remote).mem_iff.1 hmem

theorem mem_waiting_of_queue {r : Remote} {caller : Caller} (h : caller ∈ r.queue) : caller ∈ r.waiting :=
  List.mem_append_left _ h

theorem Lane.released (h : s.Lane) (hreleased : s.Released t remote)
    (hpending : ∀ r ∈ remote.pending, ∃ e ∈ s.sent, e.1 = r) : t.Lane := by
  refine ⟨?_, ?_, ?_, ?_, ?_, ?_, ?_⟩
  · intro caller attempt hholder
    rw [hreleased.handed] at hholder
    cases Remote.attempt_release remote hholder
  · rw [hreleased.handed, ((Remote.perm_waiting_release remote).map Caller.id).nodup_iff, hreleased.queue]
    exact h.nodup.sublist ((List.sublist_append_left _ _).map _)
  · intro caller hcaller
    rw [hreleased.callers, hreleased.sent]
    exact h.fresh caller (mem_waiting_of_queue (hreleased.waiting hcaller))
  · rw [hreleased.callers, hreleased.sent]
    exact h.entered
  · rw [hreleased.sent]
    exact h.once
  · rw [hreleased.handed, Remote.current_release, hreleased.sent]
    exact hpending
  · rw [hreleased.sent]
    exact h.pending

theorem Net.released (h : s.Net) (hreleased : s.Released t remote) : t.Net :=
  h.congr hreleased.copies hreleased.proposals hreleased.chosen hreleased.replies hreleased.sent

theorem Dead.released {call : ℕ} (h : s.Dead call) (hreleased : s.Released t remote)
    (hpending : ∀ r ∈ remote.pending, r.call ≠ call) : t.Dead call := by
  refine ⟨?_, ?_, ?_, ?_⟩
  · rw [hreleased.live]
    exact h.live
  · rw [hreleased.handed, Remote.current_release]
    exact hpending
  · intro caller hcaller
    exact h.waiting caller (mem_waiting_of_queue (hreleased.waiting hcaller))
  · rw [hreleased.callers]
    exact h.entered

/-- The part of the invariant on outcomes, when the lane is handed over with one outcome more. -/
theorem Final.released (h : s.Final) (hreleased : s.Released t remote)
    {call : ℕ} {outcome : Except RemoteError ExecInfo} (houtcomes : t.outcomes = s.outcomes ++ [(call, outcome)])
    (hbound : ∀ r ∈ s.live, r.sequence ≤ remote.nextSequence)
    (halone : ∀ r ∈ s.live, r.sequence = remote.nextSequence → remote.pending = some r)
    (hsequence : ∀ r ∈ remote.pending, r.sequence = remote.nextSequence)
    (hok : ∀ info, outcome = .ok info → ∃ batch ∈ s.chosen, batch.call = call)
    (hdead : ∀ error, outcome = .error error → Never error → t.Dead call)
    (hpending : ∀ r ∈ remote.pending, s.remote.current = some r) : t.Final := by
  refine ⟨?_, ?_, ?_, ?_, ?_⟩
  · rw [hreleased.live, hreleased.handed, Remote.nextSequence_release]
    exact hbound
  · rw [hreleased.live, hreleased.handed, Remote.nextSequence_release, Remote.current_release]
    exact halone
  · rw [hreleased.handed, Remote.nextSequence_release, Remote.current_release]
    exact hsequence
  · intro call' info hmem
    rw [houtcomes] at hmem
    rw [hreleased.chosen]
    rcases List.mem_append.1 hmem with hmem | hmem
    · exact h.ok call' info hmem
    · rw [List.mem_singleton, Prod.mk.injEq] at hmem
      obtain ⟨rfl, heq⟩ := hmem
      exact hok info heq.symm
  · intro call' error hmem hnever
    rw [houtcomes] at hmem
    rcases List.mem_append.1 hmem with hmem | hmem
    · apply (h.dead call' error hmem hnever).released hreleased
      intro r hr
      exact (h.dead call' error hmem hnever).current r (hpending r hr)
    · rw [List.mem_singleton, Prod.mk.injEq] at hmem
      obtain ⟨rfl, heq⟩ := hmem
      exact hdead error heq.symm hnever

theorem not_waiting_of_released (h : s.Lane) (hreleased : s.Released t remote)
    (hholder : s.remote.holder = some ⟨caller, none⟩) : ∀ other ∈ t.remote.waiting, other.id ≠ caller.id := by
  intro other hother
  have hnodup := h.nodup
  rw [Remote.waiting_of_admitted hholder, List.map_append, List.nodup_append] at hnodup
  have hqueue := List.mem_map_of_mem (f := Caller.id) (hreleased.waiting hother)
  exact hnodup.2.2 other.id hqueue caller.id (List.mem_singleton.2 rfl)

theorem Sound.giveUp (h : s.Sound) (hholder : s.remote.holder = some ⟨caller, none⟩) (error : RemoteError) :
    (s.giveUp caller error).Sound := by
  have hreleased : s.Released (s.giveUp caller error) s.remote :=
    ⟨rfl, rfl, rfl, rfl, rfl, rfl, rfl, rfl⟩
  have hcurrent := Remote.current_of_admitted hholder
  have hwaits : caller ∈ s.remote.waiting := by
    rw [Remote.waiting_of_admitted hholder]
    exact List.mem_append_right _ (List.mem_singleton.2 rfl)
  obtain ⟨hentered, hfresh⟩ := h.lane.fresh caller hwaits
  refine ⟨h.lane.released hreleased ?_, h.net.released hreleased, ?_⟩
  · rw [← hcurrent]
    exact h.lane.current
  · intro hfair
    have hfinal := h.final hfair
    apply hfinal.released hreleased rfl hfinal.bound
    · rw [← hcurrent]
      exact hfinal.alone
    · rw [← hcurrent]
      exact hfinal.sequence
    · intro info hok
      cases hok
    · intro error' _ _
      refine ⟨?_, ?_, not_waiting_of_released h.lane hreleased hholder, hentered⟩
      · intro r hr
        rw [hreleased.live] at hr
        obtain ⟨e, he, rfl⟩ := h.net.sent r hr
        exact hfresh e he
      · intro r hr
        rw [hreleased.handed, Remote.current_release, ← hcurrent] at hr
        obtain ⟨e, he, rfl⟩ := h.lane.current r hr
        exact hfresh e he
    · intro r hr
      rw [hcurrent]
      exact hr

variable {attempt : Attempt}

theorem Lane.current_eq (h : s.Lane) (hholder : s.remote.holder = some ⟨caller, some attempt⟩) :
    s.remote.current = some attempt.request :=
  Remote.current_of_driving hholder (h.driving caller attempt hholder)

theorem Sound.suspend (h : s.Sound) (hholder : s.remote.holder = some ⟨caller, some attempt⟩) :
    (s.suspend attempt.request).Sound := by
  have hreleased : s.Released (s.suspend attempt.request) (s.remote.unresolved attempt.request) :=
    ⟨rfl, rfl, rfl, rfl, rfl, rfl, rfl, rfl⟩
  have hcurrent := h.lane.current_eq hholder
  refine ⟨h.lane.released hreleased ?_, h.net.released hreleased, ?_⟩
  · intro r hr
    exact h.lane.current r (hcurrent.trans hr)
  · intro hfair
    have hfinal := h.final hfair
    apply hfinal.released hreleased rfl hfinal.bound
    · intro r hr hsequence
      exact hcurrent.symm.trans (hfinal.alone r hr hsequence)
    · intro r hr
      exact hfinal.sequence r (hcurrent.trans hr)
    · intro info hok
      cases hok
    · intro error heq hnever
      obtain rfl := Except.error.inj heq
      rcases hnever with hnever | hnever | hnever <;> cases hnever
    · intro r hr
      exact hcurrent.trans hr

theorem Sound.succeed (h : s.Sound) {reply : Reply} {info : ExecInfo}
    (hholder : s.remote.holder = some ⟨caller, some attempt⟩) (hreply : (attempt, reply) ∈ s.replies)
    (hdone : writeOnce reply = .done info) : (s.succeed attempt.request info).Sound := by
  have hreleased : s.Released (s.succeed attempt.request info) s.remote.succeeded :=
    ⟨rfl, rfl, rfl, rfl, rfl, rfl, rfl, rfl⟩
  have hcurrent := h.lane.current_eq hholder
  refine ⟨h.lane.released hreleased ?_, h.net.released hreleased, ?_⟩
  · intro r hr
    cases hr
  · intro hfair
    have hfinal := h.final hfair
    apply hfinal.released hreleased rfl
    · intro r hr
      exact Nat.le_succ_of_le (hfinal.bound r hr)
    · intro r hr hsequence
      have hbound := hfinal.bound r hr
      have hnext : r.sequence = s.remote.nextSequence + 1 := hsequence
      omega
    · intro r hr
      cases hr
    · -- The batch that was chosen has the current sequence, so it is the current request's.
      intro info' _
      have hok : ∃ info, reply = .ok info := by
        cases reply with
        | ok info => exact ⟨info, rfl⟩
        | error code =>
          rw [writeOnce] at hdone
          split at hdone <;> cases hdone
      obtain ⟨info, rfl⟩ := hok
      obtain ⟨batch, hbatch, hsequence⟩ := h.net.replies attempt info hreply
      have hlive : batch ∈ s.live := List.mem_append_right _ (h.net.chosen hbatch)
      rw [hfinal.sequence _ hcurrent] at hsequence
      have hsame := hfinal.alone batch hlive hsequence
      rw [hcurrent] at hsame
      exact ⟨batch, hbatch, by rw [Option.some.inj hsame]⟩
    · intro error heq
      cases heq
    · intro r hr
      cases hr

theorem Sound.reject (h : s.Sound) (hholder : s.remote.holder = some ⟨caller, some attempt⟩) :
    (s.reject attempt.request).Sound := by
  have hreleased : s.Released (s.reject attempt.request) s.remote.rejected :=
    ⟨rfl, rfl, rfl, rfl, rfl, rfl, rfl, rfl⟩
  have hcurrent := h.lane.current_eq hholder
  refine ⟨h.lane.released hreleased ?_, h.net.released hreleased, ?_⟩
  · intro r hr
    cases hr
  · intro hfair
    have hfinal := h.final fun rejection hrejection => hfair rejection (List.mem_append_left _ hrejection)
    have hsettled : ∀ r ∈ s.live, r.sequence ≠ attempt.request.sequence :=
      hfair ⟨attempt.request, s.live⟩ (List.mem_append_right _ List.mem_cons_self)
    rw [hfinal.sequence _ hcurrent] at hsettled
    obtain ⟨e, he, hrequest⟩ := h.lane.current _ hcurrent
    apply hfinal.released hreleased rfl hfinal.bound
    · intro r hr hsequence
      exact absurd hsequence (hsettled r hr)
    · intro r hr
      cases hr
    · intro info hok
      cases hok
    · -- A request of the same call would be this one, and this one is settled.
      intro error heq hnever
      refine ⟨?_, ?_, ?_, ?_⟩
      · intro r hr hcall
        rw [hreleased.live] at hr
        obtain ⟨e', he', hr'⟩ := h.net.sent r hr
        have hsame : e'.1 = e.1 := by
          apply h.lane.once e' he' e he
          rw [hr', hrequest, hcall]
        apply hsettled r hr
        rw [← hr', hsame, hrequest]
        exact hfinal.sequence _ hcurrent
      · intro r hr
        rw [hreleased.handed, Remote.current_release] at hr
        cases hr
      · intro caller' hcaller' hcall
        apply (h.lane.fresh caller' (mem_waiting_of_queue (hreleased.waiting hcaller'))).2 e he
        rw [hrequest, hcall]
      · show attempt.request.call ∈ s.callers
        rw [← hrequest]
        exact h.lane.entered e he
    · intro r hr
      cases hr

/-! ### Entering, waiting and sending -/

/-- Fewer threads wait, and nothing else of the client moves. -/
theorem Lane.fewer (h : s.Lane) (hpending : t.remote.pending = s.remote.pending)
    (hholder : t.remote.holder = s.remote.holder) (hwaiting : t.remote.waiting.Sublist s.remote.waiting)
    (hcallers : t.callers = s.callers) (hsent : t.sent = s.sent) : t.Lane := by
  have hcurrent : t.remote.current = s.remote.current := by
    rw [Remote.current, Remote.current, hpending, hholder]
  refine ⟨?_, h.nodup.sublist (hwaiting.map _), ?_, ?_, ?_, ?_, ?_⟩
  · rw [hpending, hholder]
    exact h.driving
  · intro caller hcaller
    rw [hcallers, hsent]
    exact h.fresh caller (hwaiting.subset hcaller)
  · rw [hcallers, hsent]
    exact h.entered
  · rw [hsent]
    exact h.once
  · rw [hcurrent, hsent]
    exact h.current
  · rw [hsent]
    exact h.pending

theorem not_waiting_of_removed (h : s.Lane) (hcaller : caller ∈ s.remote.queue) :
    ∀ other ∈ (s.remote.removeWriteTicket caller).waiting, other.id ≠ caller.id := by
  intro other hother hid
  have hnodup := h.nodup
  rw [Remote.waiting, List.map_append, List.nodup_append'] at hnodup
  rcases List.mem_append.1 hother with hqueue | hholder
  · obtain ⟨hmem, hne⟩ := List.mem_filter.1 hqueue
    have hsame : other = caller := List.inj_on_of_nodup_map hnodup.1 hmem hcaller hid
    simp [hsame] at hne
  · apply hnodup.2.2 (List.mem_map_of_mem hcaller)
    rw [← hid]
    exact List.mem_map_of_mem hholder

theorem Sound.leaveQueue (h : s.Sound) (hcaller : caller ∈ s.remote.queue) (error : RemoteError) :
    (s.leaveQueue caller error).Sound := by
  have hsub := Remote.sublist_waiting_remove s.remote caller
  have hwaits := mem_waiting_of_queue hcaller
  refine ⟨h.lane.fewer rfl rfl hsub rfl rfl, h.net.congr rfl rfl rfl rfl rfl, ?_⟩
  intro hfair
  have hfinal := h.final hfair
  refine ⟨hfinal.bound, hfinal.alone, hfinal.sequence, ?_, ?_⟩
  · intro call info hmem
    rcases List.mem_append.1 hmem with hmem | hmem
    · exact hfinal.ok call info hmem
    · rw [List.mem_singleton, Prod.mk.injEq] at hmem
      cases hmem.2
  · intro call error' hmem hnever
    rcases List.mem_append.1 hmem with hmem | hmem
    · have hdead := hfinal.dead call error' hmem hnever
      exact ⟨hdead.live, hdead.current, fun other hother => hdead.waiting other (hsub.subset hother),
        hdead.entered⟩
    · rw [List.mem_singleton, Prod.mk.injEq] at hmem
      obtain ⟨rfl, -⟩ := hmem
      obtain ⟨hentered, hfresh⟩ := h.lane.fresh caller hwaits
      refine ⟨?_, ?_, not_waiting_of_removed h.lane hcaller, hentered⟩
      · intro r hr
        obtain ⟨e, he, rfl⟩ := h.net.sent r hr
        exact hfresh e he
      · intro r hr
        obtain ⟨e, he, rfl⟩ := h.lane.current r hr
        exact hfresh e he

theorem Sound.close (h : s.Sound) :
    Sound { s with remote := { s.remote with closing := true } } := by
  refine ⟨h.lane.fewer rfl rfl (List.Sublist.refl _) rfl rfl, h.net.congr rfl rfl rfl rfl rfl, ?_⟩
  intro hfair
  have hfinal := h.final hfair
  refine ⟨hfinal.bound, hfinal.alone, hfinal.sequence, hfinal.ok, ?_⟩
  intro call error hmem hnever
  have hdead := hfinal.dead call error hmem hnever
  exact ⟨hdead.live, hdead.current, hdead.waiting, hdead.entered⟩

theorem Lane.enter (h : s.Lane) (hnew : caller.id ∉ s.callers) {remote : Remote}
    (hremote : remote = s.remote ∨ remote = s.remote.acquireWriteLane caller)
    (hstate : t.remote = remote) (hcallers : t.callers = s.callers ++ [caller.id])
    (hsent : t.sent = s.sent) : t.Lane := by
  subst hstate
  have hwaits : ∀ other ∈ t.remote.waiting, other = caller ∨ other ∈ s.remote.waiting := by
    intro other hother
    rcases hremote with hremote | hremote
    · exact Or.inr (hremote ▸ hother)
    · rw [hremote] at hother
      exact List.mem_cons.1 ((Remote.perm_waiting_acquire s.remote caller).mem_iff.1 hother)
  refine ⟨?_, ?_, ?_, ?_, ?_, ?_, ?_⟩
  · intro other attempt hholder
    rcases hremote with hremote | hremote
    · rw [hremote] at hholder ⊢
      exact h.driving other attempt hholder
    · rw [hremote] at hholder ⊢
      rw [Remote.pending_acquire]
      rcases Remote.holder_acquire hholder with hheld | hnone
      · exact h.driving other attempt hheld
      · cases hnone
  · rcases hremote with hremote | hremote
    · rw [hremote]
      exact h.nodup
    · rw [hremote, ((Remote.perm_waiting_acquire s.remote caller).map Caller.id).nodup_iff, List.map_cons,
        List.nodup_cons]
      refine ⟨?_, h.nodup⟩
      intro hmem
      obtain ⟨other, hother, hid⟩ := List.mem_map.1 hmem
      exact hnew (hid ▸ (h.fresh other hother).1)
  · intro other hother
    rw [hcallers, hsent]
    rcases hwaits other hother with rfl | hold
    · refine ⟨List.mem_append_right _ List.mem_cons_self, ?_⟩
      intro e he hcall
      exact hnew (hcall ▸ h.entered e he)
    · exact ⟨List.mem_append_left _ (h.fresh other hold).1, (h.fresh other hold).2⟩
  · intro e he
    rw [hsent] at he
    rw [hcallers]
    exact List.mem_append_left _ (h.entered e he)
  · rw [hsent]
    exact h.once
  · rw [hsent]
    rcases hremote with hremote | hremote
    · rw [hremote]
      exact h.current
    · rw [hremote, Remote.current_acquire]
      exact h.current
  · rw [hsent]
    exact h.pending

theorem Sound.enter (h : s.Sound) (hnew : caller.id ∉ s.callers) : (s.enter caller).Sound := by
  rw [RemoteSystem.enter]
  split
  · refine ⟨h.lane.enter hnew (Or.inl rfl) rfl rfl rfl, h.net.congr rfl rfl rfl rfl rfl, ?_⟩
    intro hfair
    have hfinal := h.final hfair
    refine ⟨hfinal.bound, hfinal.alone, hfinal.sequence, ?_, ?_⟩
    · intro call info hmem
      rcases List.mem_append.1 hmem with hmem | hmem
      · exact hfinal.ok call info hmem
      · rw [List.mem_singleton, Prod.mk.injEq] at hmem
        cases hmem.2
    · intro call error hmem hnever
      rcases List.mem_append.1 hmem with hmem | hmem
      · have hdead := hfinal.dead call error hmem hnever
        exact ⟨hdead.live, hdead.current, hdead.waiting, List.mem_append_left _ hdead.entered⟩
      · rw [List.mem_singleton, Prod.mk.injEq] at hmem
        obtain rfl := Except.error.inj hmem.2
        rcases hnever with hnever | hnever | hnever <;> cases hnever
  · refine ⟨h.lane.enter hnew (Or.inr rfl) rfl rfl rfl, h.net.congr rfl rfl rfl rfl rfl, ?_⟩
    intro hfair
    have hfinal := h.final hfair
    have hcurrent := Remote.current_acquire s.remote caller
    refine ⟨?_, ?_, ?_, hfinal.ok, ?_⟩
    · intro r hr
      show r.sequence ≤ (s.remote.acquireWriteLane caller).nextSequence
      rw [Remote.nextSequence_acquire]
      exact hfinal.bound r hr
    · intro r hr hsequence
      exact hcurrent.trans (hfinal.alone r hr
        (hsequence.trans (Remote.nextSequence_acquire s.remote caller)))
    · intro r hr
      exact (hfinal.sequence r (hcurrent.symm.trans hr)).trans
        (Remote.nextSequence_acquire s.remote caller).symm
    · intro call error hmem hnever
      have hdead := hfinal.dead call error hmem hnever
      refine ⟨hdead.live, fun r hr => hdead.current r (hcurrent.symm.trans hr), ?_,
        List.mem_append_left _ hdead.entered⟩
      intro other hother
      have hperm := Remote.perm_waiting_acquire s.remote caller
      rcases List.mem_cons.1 (hperm.mem_iff.1 hother) with rfl | hold
      · intro hid
        exact hnew (hid ▸ hdead.entered)
      · exact hdead.waiting other hold

/-- What the holder of the lane may send: the current request, or a new one of its own. -/
structure Sends (s : RemoteSystem) (caller : Caller) (request : WriteRequest) : Prop where
  pending : s.remote.pending = none ∨ s.remote.pending = some request
  sequence : s.remote.current = none → request.sequence = s.remote.nextSequence
  current : s.remote.current = none ∨ s.remote.current = some request
  fresh : s.remote.current = none →
    request.call = caller.id ∧ s.remote.waiting = s.remote.queue ++ [caller]

theorem Lane.sends_first (h : s.remote.holder = some ⟨caller, none⟩)
    (hrequest : s.remote.request caller = .ok request) : s.Sends caller request := by
  have hcurrent := Remote.current_of_admitted h
  rcases Remote.request_cases hrequest with ⟨hpending, rfl⟩ | hpending
  · exact ⟨Or.inl hpending, fun _ => rfl, Or.inl (hcurrent.trans hpending),
      fun _ => ⟨rfl, Remote.waiting_of_admitted h⟩⟩
  · have hsome := hcurrent.trans hpending
    refine ⟨Or.inr hpending, ?_, Or.inr hsome, ?_⟩
    · intro hnone
      rw [hsome] at hnone
      cases hnone
    · intro hnone
      rw [hsome] at hnone
      cases hnone

theorem Lane.sends_again (h : s.Lane) (hholder : s.remote.holder = some ⟨caller, some attempt⟩) :
    s.Sends caller attempt.request := by
  have hcurrent := h.current_eq hholder
  refine ⟨h.driving caller attempt hholder, ?_, Or.inr hcurrent, ?_⟩
  · intro hnone
    rw [hcurrent] at hnone
    cases hnone
  · intro hnone
    rw [hcurrent] at hnone
    cases hnone

theorem Sends.mem_waiting (h : s.Sends caller request) (hnone : s.remote.current = none) :
    caller ∈ s.remote.waiting := by
  rw [(h.fresh hnone).2]
  exact List.mem_append_right _ List.mem_cons_self

theorem holder_send (s : RemoteSystem) (caller : Caller) (request : WriteRequest) :
    (s.send caller request).remote.holder = some ⟨caller, some ⟨s.sent.length, request⟩⟩ :=
  rfl

theorem Sends.current_send (h : s.Sends caller request) :
    (s.send caller request).remote.current = some request :=
  Remote.current_of_driving (holder_send s caller request) h.pending

theorem waiting_send (s : RemoteSystem) (caller : Caller) (request : WriteRequest) :
    (s.send caller request).remote.waiting = s.remote.queue :=
  Remote.waiting_of_driving (holder_send s caller request)

theorem Lane.same_request (h : s.Lane) (hsends : s.Sends caller request) {e : WriteRequest × Option WriteRequest}
    (he : e ∈ s.sent) (hcall : e.1.call = request.call) : e.1 = request := by
  rcases hsends.current with hnone | hsome
  · obtain ⟨-, hfresh⟩ := h.fresh caller (hsends.mem_waiting hnone)
    exact absurd (hcall.trans (hsends.fresh hnone).1) (hfresh e he)
  · obtain ⟨e', he', hrequest⟩ := h.current request hsome
    rw [← hrequest]
    apply h.once e he e' he'
    rw [hrequest]
    exact hcall

theorem Lane.send (h : s.Lane) (hsends : s.Sends caller request) : (s.send caller request).Lane := by
  have hqueue : (s.remote.queue.map Caller.id).Nodup :=
    h.nodup.sublist ((List.sublist_append_left _ _).map _)
  refine ⟨?_, ?_, ?_, ?_, ?_, ?_, ?_⟩
  · intro other attempt hholder
    have hattempt := (LaneHolder.mk.inj (Option.some.inj hholder)).2
    rw [← Option.some.inj hattempt]
    exact hsends.pending
  · rw [waiting_send]
    exact hqueue
  · intro other hother
    rw [waiting_send] at hother
    obtain ⟨hentered, hfresh⟩ := h.fresh other (mem_waiting_of_queue hother)
    refine ⟨hentered, ?_⟩
    intro e he
    rcases List.mem_append.1 he with he | he
    · exact hfresh e he
    · rw [List.mem_singleton] at he
      subst he
      intro hcall
      rcases hsends.current with hnone | hsome
      · obtain ⟨hid, hwaiting⟩ := hsends.fresh hnone
        have hnodup := h.nodup
        rw [hwaiting, List.map_append, List.nodup_append'] at hnodup
        apply hnodup.2.2 (List.mem_map_of_mem hother)
        rw [← hcall]
        exact List.mem_singleton.2 hid
      · obtain ⟨e', he', hrequest⟩ := h.current request hsome
        exact hfresh e' he' (by rw [hrequest]; exact hcall)
  · intro e he
    rcases List.mem_append.1 he with he | he
    · exact h.entered e he
    · rw [List.mem_singleton] at he
      subst he
      rcases hsends.current with hnone | hsome
      · show request.call ∈ s.callers
        rw [(hsends.fresh hnone).1]
        exact (h.fresh caller (hsends.mem_waiting hnone)).1
      · obtain ⟨e', he', hrequest⟩ := h.current request hsome
        show request.call ∈ s.callers
        rw [← hrequest]
        exact h.entered e' he'
  · intro e he e' he' hcall
    rcases List.mem_append.1 he with he | he
    · rcases List.mem_append.1 he' with he' | he'
      · exact h.once e he e' he' hcall
      · rw [List.mem_singleton] at he'
        subst he'
        exact h.same_request hsends he hcall
    · rw [List.mem_singleton] at he
      subst he
      rcases List.mem_append.1 he' with he' | he'
      · exact (h.same_request hsends he' hcall.symm).symm
      · rw [List.mem_singleton] at he'
        rw [he']
  · intro r hr
    obtain rfl := Option.some.inj (hsends.current_send.symm.trans hr)
    exact ⟨(request, s.remote.pending), List.mem_append_right _ List.mem_cons_self, rfl⟩
  · intro e he
    rcases List.mem_append.1 he with he | he
    · exact h.pending e he
    · rw [List.mem_singleton] at he
      subst he
      exact hsends.pending

theorem live_send (s : RemoteSystem) (caller : Caller) (request : WriteRequest) {r : WriteRequest}
    (h : r ∈ (s.send caller request).live) : r ∈ s.live ∨ r = request := by
  have hlive : r ∈ (s.copies ++ [Attempt.mk s.sent.length request]).map Attempt.request ++
      s.proposals := h
  rw [List.map_append] at hlive
  rcases List.mem_append.1 hlive with hmem | hmem
  · rcases List.mem_append.1 hmem with hmem | hmem
    · exact Or.inl (List.mem_append_left _ hmem)
    · exact Or.inr (List.mem_singleton.1 hmem)
  · exact Or.inl (List.mem_append_right _ hmem)

theorem Net.send (h : s.Net) (caller : Caller) (request : WriteRequest) : (s.send caller request).Net := by
  refine ⟨?_, h.chosen, h.once, h.replies⟩
  intro r hr
  rcases live_send s caller request hr with hr | rfl
  · obtain ⟨e, he, hrequest⟩ := h.sent r hr
    exact ⟨e, List.mem_append_left _ he, hrequest⟩
  · exact ⟨(r, s.remote.pending), List.mem_append_right _ List.mem_cons_self, rfl⟩

theorem Final.send (h : s.Final) (hsends : s.Sends caller request) :
    (s.send caller request).Final := by
  have hsequence : request.sequence = s.remote.nextSequence := by
    rcases hsends.current with hnone | hsome
    · exact hsends.sequence hnone
    · exact h.sequence request hsome
  refine ⟨?_, ?_, ?_, h.ok, ?_⟩
  · intro r hr
    rcases live_send s caller request hr with hr | rfl
    · exact h.bound r hr
    · exact Nat.le_of_eq hsequence
  · intro r hr hnext
    rw [hsends.current_send]
    rcases live_send s caller request hr with hr | rfl
    · have hcurrent := h.alone r hr hnext
      rcases hsends.current with hnone | hsome
      · rw [hnone] at hcurrent
        cases hcurrent
      · rw [← hcurrent, hsome]
    · rfl
  · intro r hr
    obtain rfl := Option.some.inj (hsends.current_send.symm.trans hr)
    exact hsequence
  · intro call error hmem hnever
    have hdead := h.dead call error hmem hnever
    have hother : request.call ≠ call := by
      rcases hsends.current with hnone | hsome
      · rw [(hsends.fresh hnone).1]
        exact hdead.waiting caller (hsends.mem_waiting hnone)
      · exact hdead.current request hsome
    refine ⟨?_, ?_, ?_, hdead.entered⟩
    · intro r hr
      rcases live_send s caller request hr with hr | rfl
      · exact hdead.live r hr
      · exact hother
    · intro r hr
      obtain rfl := Option.some.inj (hsends.current_send.symm.trans hr)
      exact hother
    · intro other hother
      rw [waiting_send] at hother
      exact hdead.waiting other (mem_waiting_of_queue hother)

theorem Sound.send (h : s.Sound) (hsends : s.Sends caller request) : (s.send caller request).Sound := by
  refine ⟨h.lane.send hsends, h.net.send caller request, ?_⟩
  intro hfair
  exact (h.final hfair).send hsends

theorem Sound.step (h : s.Sound) (hstep : RemoteStep s t) : t.Sound := by
  cases hstep with
  | enter hnew => exact h.enter hnew
  | queueTimeout hcaller => exact h.leaveQueue hcaller _
  | queueClosed _ hcaller => exact h.leaveQueue hcaller _
  | close => exact h.close
  | giveUp hholder _ => exact h.giveUp hholder _
  | sessionRefused hholder _ => exact h.giveUp hholder _
  | send hholder hrequest => exact h.send (Lane.sends_first hholder hrequest)
  | resend hholder => exact h.send (h.lane.sends_again hholder)
  | suspend hholder => exact h.suspend hholder
  | succeed hholder hreply hdone => exact h.succeed hholder hreply hdone
  | reject hholder _ _ => exact h.reject hholder
  | @lose attempt => exact h.refuse attempt h.net.replies
  | @refuse attempt code _ =>
    apply h.refuse attempt
    apply h.net.replies_append
    intro info heq
    cases heq
  | @replay attempt batch info _ hbatch hsequence =>
    apply h.refuse attempt
    apply h.net.replies_append
    intro _ _
    exact ⟨batch, hbatch, hsequence⟩
  | propose hcopy => exact h.propose hcopy
  | choose hbatch honce => exact h.choose hbatch honce
  | @answer attempt info _ hchosen =>
    apply h.answer attempt
    intro _ _
    exact ⟨attempt.request, hchosen, rfl⟩
  | @fail attempt e _ _ =>
    apply h.answer attempt
    intro info heq
    cases heq

theorem Starts.sound (h : s.Starts) : s.Sound := by
  obtain ⟨hremote, hcopies, -, hproposals, hchosen, hreplies, -, hsent, houtcomes, -⟩ := h
  have hlive : s.live = [] := by
    rw [live, hcopies, hproposals]
    rfl
  refine ⟨⟨?_, ?_, ?_, ?_, ?_, ?_, ?_⟩, ⟨?_, ?_, ?_, ?_⟩, ?_⟩
  · rw [hremote]
    intro caller attempt hholder
    cases hholder
  · rw [hremote]
    exact List.nodup_nil
  · rw [hremote]
    exact fun caller hcaller => absurd hcaller List.not_mem_nil
  · rw [hsent]
    exact fun e he => absurd he List.not_mem_nil
  · rw [hsent]
    exact fun e he => absurd he List.not_mem_nil
  · rw [hremote]
    exact fun r hr => absurd hr (Option.not_mem_none r)
  · rw [hsent]
    exact fun e he => absurd he List.not_mem_nil
  · rw [hlive]
    exact fun r hr => absurd hr List.not_mem_nil
  · rw [hchosen]
    exact List.nil_subset _
  · rw [hchosen]
    exact List.Pairwise.nil
  · rw [hreplies]
    exact fun attempt info hmem => absurd hmem List.not_mem_nil
  · intro _
    refine ⟨?_, ?_, ?_, ?_, ?_⟩
    · rw [hlive]
      exact fun r hr => absurd hr List.not_mem_nil
    · rw [hlive]
      exact fun r hr => absurd hr List.not_mem_nil
    · rw [hremote]
      exact fun r hr => absurd hr (Option.not_mem_none r)
    · rw [houtcomes]
      exact fun call info hmem => absurd hmem List.not_mem_nil
    · rw [houtcomes]
      exact fun call error hmem => absurd hmem List.not_mem_nil

theorem sound_of_reachable (h : Reachable Starts RemoteStep s) : s.Sound := by
  apply h.invariant
  · intro _ hstart
    exact hstart.sound
  · intro _ _ hsound hstep
    exact hsound.step hstep

/-! ### Exactly once -/

/-- How many chosen batches executed the call's statement. -/
def executions (s : RemoteSystem) (call : ℕ) : ℕ :=
  s.chosen.countP fun batch => batch.call = call

theorem Sound.same_batch (h : s.Sound) {batch batch' : WriteRequest} (hbatch : batch ∈ s.chosen)
    (hbatch' : batch' ∈ s.chosen) (hcall : batch.call = batch'.call) : batch = batch' := by
  obtain ⟨e, he, rfl⟩ := h.net.sent batch (List.mem_append_right _ (h.net.chosen hbatch))
  obtain ⟨e', he', rfl⟩ := h.net.sent batch' (List.mem_append_right _ (h.net.chosen hbatch'))
  exact h.lane.once e he e' he' hcall

theorem Sound.executions_eq_one (h : s.Sound) {batch : WriteRequest} (hbatch : batch ∈ s.chosen) :
    s.executions batch.call = 1 := by
  have hnodup : s.chosen.Nodup := h.net.once.imp fun hne heq => hne (by rw [heq])
  rw [← List.count_eq_one_of_mem hnodup hbatch, executions, List.count]
  apply List.countP_congr
  intro batch' hbatch'
  rw [decide_eq_true_eq, beq_iff_eq]
  constructor
  · intro hcall
    exact h.same_batch hbatch' hbatch hcall
  · intro hsame
    rw [hsame]

theorem executions_eq_zero {call : ℕ} (h : s.Net) (hdead : s.Dead call) : s.executions call = 0 := by
  rw [executions, List.countP_eq_zero]
  intro batch hbatch
  rw [decide_eq_true_eq]
  exact hdead.live batch (List.mem_append_right _ (h.chosen hbatch))

/-- **Remote writes are executed exactly once** where rejections are final: a call that returned ok has one
chosen batch, its own, and a call that was rejected or timed out in the queue has none. While a write is
pending nothing else is sent, in any run. -/
theorem remote_exactly_once (h : Reachable Starts RemoteStep s) :
    (∀ e ∈ s.sent, ∀ pending ∈ e.2, e.1 = pending) ∧
      (s.Fair →
        (∀ call info, (call, Except.ok info) ∈ s.outcomes → s.executions call = 1) ∧
          ∀ call error, (call, Except.error error) ∈ s.outcomes → Never error →
            s.executions call = 0) := by
  have hsound := sound_of_reachable h
  constructor
  · intro e he pending hpending
    rcases hsound.lane.pending e he with hnone | hsome
    · rw [hnone] at hpending
      cases hpending
    · exact Option.some.inj (hsome.symm.trans hpending)
  · intro hfair
    have hfinal := hsound.final hfair
    constructor
    · intro call info hok
      obtain ⟨batch, hbatch, rfl⟩ := hfinal.ok call info hok
      exact hsound.executions_eq_one hbatch
    · intro call error herror hnever
      exact executions_eq_zero hsound.net (hfinal.dead call error herror hnever)

end Steps

/-! ### An error after the accept request left -/

def opened : RemoteSystem :=
  ⟨⟨false, none, [], 1, none⟩, [], [], [], [], [], [], [], [], []⟩

def oneChange : ExecInfo :=
  ⟨1, none, false⟩

/-- The first call's batch goes to the log. -/
def firstProposed : RemoteSystem :=
  { (opened.enter ⟨1, false⟩).send ⟨1, false⟩ ⟨1, 1⟩ with
    copies := []
    answering := [⟨0, ⟨1, 1⟩⟩]
    proposals := [⟨1, 1⟩] }

def firstChosen : RemoteSystem :=
  { firstProposed with chosen := [⟨1, 1⟩] }

def firstAnswered : RemoteSystem :=
  { firstChosen with answering := [], replies := [(⟨0, ⟨1, 1⟩⟩, .ok oneChange)] }

/-- The leader's journal fails at the barrier. -/
def firstFailed : RemoteSystem :=
  { firstProposed with answering := [], replies := [(⟨0, ⟨1, 1⟩⟩, .error .internal)] }

/-- The call is rejected; the followers choose its batch. -/
def firstRejected : RemoteSystem :=
  { firstFailed.reject ⟨1, 1⟩ with chosen := [⟨1, 1⟩] }

/-- The second call is sent under the same sequence. -/
def secondSent : RemoteSystem :=
  (firstRejected.enter ⟨2, false⟩).send ⟨2, false⟩ ⟨1, 2⟩

/-- It is answered with the first one's result. -/
def secondReplayed : RemoteSystem :=
  { secondSent with
    copies := []
    replies := secondSent.replies ++ [(⟨1, ⟨1, 2⟩⟩, .ok { oneChange with replayed := true })] }

theorem reachable_firstProposed : Reachable Starts RemoteStep firstProposed := by
  have hopened : Reachable Starts RemoteStep opened := .start ⟨rfl, rfl, rfl, rfl, rfl, rfl, rfl, rfl, rfl, rfl⟩
  have hentered : Reachable Starts RemoteStep (opened.enter ⟨1, false⟩) :=
    hopened.step (.enter List.not_mem_nil)
  have hcopy : Attempt.mk 0 ⟨1, 1⟩ ∈ ((opened.enter ⟨1, false⟩).send ⟨1, false⟩ ⟨1, 1⟩).copies :=
    List.mem_cons_self
  exact (hentered.step (.send rfl rfl)).step (.propose hcopy)

theorem reachable_firstAnswered : Reachable Starts RemoteStep firstAnswered := by
  have hbatch : WriteRequest.mk 1 1 ∈ firstProposed.proposals := List.mem_cons_self
  have hchosen : Reachable Starts RemoteStep firstChosen :=
    reachable_firstProposed.step (.choose hbatch fun _ h => absurd h List.not_mem_nil)
  have hanswering : Attempt.mk 0 ⟨1, 1⟩ ∈ firstChosen.answering := List.mem_cons_self
  exact hchosen.step (.answer oneChange hanswering List.mem_cons_self)

/-- The first call returns; the second one's statement does not parse. -/
def secondRefused : RemoteSystem :=
  let sent := ((firstAnswered.succeed ⟨1, 1⟩ oneChange).enter ⟨2, false⟩).send ⟨2, false⟩ ⟨2, 2⟩
  { sent with
    copies := []
    replies := sent.replies ++ [(Attempt.mk 1 ⟨2, 2⟩, Reply.error .sql)] }

/-- The second call is rejected, and so is the third one's session. -/
def thirdRefused : RemoteSystem :=
  ((secondRefused.reject ⟨2, 2⟩).enter ⟨3, false⟩).giveUp ⟨3, false⟩ .serverRejected

theorem reachable_secondRefused : Reachable Starts RemoteStep secondRefused := by
  have hreply : (Attempt.mk 0 ⟨1, 1⟩, Reply.ok oneChange) ∈ firstAnswered.replies := List.mem_cons_self
  have hholder : firstAnswered.remote.holder = some ⟨⟨1, false⟩, some ⟨0, ⟨1, 1⟩⟩⟩ := rfl
  have hdone : Reachable Starts RemoteStep (firstAnswered.succeed ⟨1, 1⟩ oneChange) :=
    reachable_firstAnswered.step (.succeed hholder hreply rfl)
  have hnew : (Caller.mk 2 false).id ∉ (firstAnswered.succeed ⟨1, 1⟩ oneChange).callers := by decide
  have hsent : Reachable Starts RemoteStep
      (((firstAnswered.succeed ⟨1, 1⟩ oneChange).enter ⟨2, false⟩).send ⟨2, false⟩ ⟨2, 2⟩) :=
    (hdone.step (.enter hnew)).step (.send rfl rfl)
  have hcopy : Attempt.mk 1 ⟨2, 2⟩ ∈
      (((firstAnswered.succeed ⟨1, 1⟩ oneChange).enter ⟨2, false⟩).send ⟨2, false⟩ ⟨2, 2⟩).copies :=
    List.mem_cons_self
  exact hsent.step (.refuse .sql hcopy)

theorem reachable_thirdRefused : Reachable Starts RemoteStep thirdRefused := by
  have hholder : secondRefused.remote.holder = some ⟨⟨2, false⟩, some ⟨1, ⟨2, 2⟩⟩⟩ := rfl
  have hreply : (Attempt.mk 1 ⟨2, 2⟩, Reply.error .sql) ∈ secondRefused.replies :=
    List.mem_cons_of_mem _ List.mem_cons_self
  have hrejected : Reachable Starts RemoteStep (secondRefused.reject ⟨2, 2⟩) :=
    reachable_secondRefused.step (.reject hholder hreply rfl)
  have hnew : (Caller.mk 3 false).id ∉ (secondRefused.reject ⟨2, 2⟩).callers := by decide
  exact (hrejected.step (.enter hnew)).step (.sessionRefused rfl rfl)

/-- One call that returned ok, and two that were rejected. -/
theorem remote_exactly_once_firstDone :
    (∀ e ∈ thirdRefused.sent, ∀ pending ∈ e.2, e.1 = pending) ∧ thirdRefused.executions 1 = 1 ∧
      thirdRefused.executions 2 = 0 ∧ thirdRefused.executions 3 = 0 := by
  obtain ⟨hpending, hfair⟩ := remote_exactly_once reachable_thirdRefused
  obtain ⟨hok, hnever⟩ := hfair (by decide)
  exact ⟨hpending, hok 1 oneChange List.mem_cons_self,
    hnever 2 .serverRejected (List.mem_cons_of_mem _ List.mem_cons_self) (Or.inl rfl),
    hnever 3 .serverRejected (List.mem_cons_of_mem _ (List.mem_cons_of_mem _ List.mem_cons_self)) (Or.inl rfl)⟩

theorem reachable_firstRejected : Reachable Starts RemoteStep firstRejected := by
  have hanswering : Attempt.mk 0 ⟨1, 1⟩ ∈ firstProposed.answering := List.mem_cons_self
  have hafter : (ServerError.other "InputOutput").afterAppend = true := rfl
  have hfailed : Reachable Starts RemoteStep firstFailed :=
    reachable_firstProposed.step (.fail hanswering hafter)
  have hreply : (Attempt.mk 0 ⟨1, 1⟩, Reply.error .internal) ∈ firstFailed.replies := List.mem_cons_self
  have hholder : firstFailed.remote.holder = some ⟨⟨1, false⟩, some ⟨0, ⟨1, 1⟩⟩⟩ := rfl
  have hbatch : WriteRequest.mk 1 1 ∈ (firstFailed.reject ⟨1, 1⟩).proposals := List.mem_cons_self
  exact (hfailed.step (.reject hholder hreply rfl)).step
    (.choose hbatch fun _ h => absurd h List.not_mem_nil)

theorem reachable_secondReplayed : Reachable Starts RemoteStep secondReplayed := by
  have hnew : (Caller.mk 2 false).id ∉ firstRejected.callers := by decide
  have hsent : Reachable Starts RemoteStep secondSent :=
    (reachable_firstRejected.step (.enter hnew)).step (.send rfl rfl)
  have hcopy : Attempt.mk 1 ⟨1, 2⟩ ∈ secondSent.copies := List.mem_cons_self
  have hbatch : WriteRequest.mk 1 1 ∈ secondSent.chosen := List.mem_cons_self
  exact hsent.step (.replay oneChange hcopy hbatch rfl)

/-- A rejected write was executed, and a write that returned ok was not. -/
theorem rejected_write_executed : ∃ s, Reachable Starts RemoteStep s ∧
    (1, Except.error RemoteError.serverRejected) ∈ s.outcomes ∧ s.executions 1 = 1 ∧
      (2, Except.ok { oneChange with replayed := true }) ∈ s.outcomes ∧ s.executions 2 = 0 := by
  have hreply : (Attempt.mk 1 ⟨1, 2⟩, Reply.ok { oneChange with replayed := true }) ∈
      secondReplayed.replies := List.mem_cons_of_mem _ List.mem_cons_self
  have hholder : secondReplayed.remote.holder = some ⟨⟨2, false⟩, some ⟨1, ⟨1, 2⟩⟩⟩ := rfl
  refine ⟨_, reachable_secondReplayed.step (.succeed hholder hreply rfl), List.mem_cons_self, by decide,
    List.mem_cons_of_mem _ List.mem_cons_self, by decide⟩

end RemoteSystem

end Zaxonlite
