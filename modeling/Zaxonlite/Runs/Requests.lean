import Zaxonlite.Lib.Run
import Zaxonlite.Server.RequestProgress

/-!
# Requests over whole runs

Connections come and go, each runs its requests turn by turn, the clock ticks and the rest of the cluster
moves the node on. In every state that is reached, the clock's own product has not overflowed and the session
table holds what was bound into it, so a turn of any request reaches its end exactly when it is safe. What
stops the server is a session id or a sequence number at the end of the signed integers, which any client
can write into a request.
-/

namespace Zaxonlite

namespace Rpc

open Run Checked

variable {R : Type}

/-- A server and the threads of its connections. -/
structure Host (R : Type) where
  server : State
  handlers : List (Phase R)

/-- A thread that waits for the leader's frontier. -/
def Phase.waits : Phase R → Bool
  | .frontier _ _ _ => true
  | .readFrontier _ _ _ _ => true
  | _ => false

/-- `frontier_waiters`. -/
def Host.waiters (host : Host R) : ℕ :=
  host.handlers.countP Phase.waits

/-- A row as it stands in the replicated database: a fresh session, or the update of one. -/
def SessionRow.Written (row : SessionRow) : Prop :=
  (row.nextSequence = 1 ∧ row.lastSequence = none) ∨
    ∃ sequence : ℕ, row.nextSequence = (sequence + 1 : ℕ) ∧ row.lastSequence = some (sequence : ℤ)

/-- What the rest of the cluster and the other operations do to the node. The clock is the ticker's and the
fence ids are the readers'. -/
structure Outside (s s' : State) : Prop where
  ticks : s'.tickCount = s.tickCount
  fence : s'.nextFenceId = s.nextFenceId
  sessions : ∀ id row, s'.sessions id = some row → s.sessions id = some row ∨ row.Written
  base : 1 ≤ s'.leaderBase
  configuration : ∀ decided, s'.decided = some decided → decided.configurationId ≤ maxU64

/-- A server that starts: the clock at zero, the sessions as they were written. -/
structure Host.Initial (host : Host R) : Prop where
  handlers : host.handlers = []
  ticks : host.server.tickCount = 0
  fence : host.server.nextFenceId = 1
  sessions : ∀ id row, host.server.sessions id = some row → row.Written
  base : 1 ≤ host.server.leaderBase
  configuration : ∀ decided, host.server.decided = some decided → decided.configurationId ≤ maxU64

/-- One step of a run. A turn that stops the server is not a step: the run ends there. -/
inductive Step (o : Options) : Host R → Host R → Prop
  | connect (host : Host R) : Step o host { host with handlers := host.handlers ++ [.idle] }
  | receive (server : State) (before after : List (Phase R)) {request : Request R} (h : request.Framed) :
    Step o ⟨server, before ++ .idle :: after⟩ ⟨server, before ++ .received request :: after⟩
  | turn {server server' : State} (before after : List (Phase R)) {p p' : Phase R} {a : Answers}
    (h : turn o (Host.waiters ⟨server, before ++ p :: after⟩) server a p = .ok (server', p')) :
    Step o ⟨server, before ++ p :: after⟩ ⟨server', before ++ p' :: after⟩
  | respond (server : State) (before after : List (Phase R)) (reply : Reply) :
    Step o ⟨server, before ++ .replied reply :: after⟩ ⟨server, before ++ .idle :: after⟩
  | close (server : State) (before after : List (Phase R)) :
    Step o ⟨server, before ++ .idle :: after⟩ ⟨server, before ++ after⟩
  -- `closeExpiredConnections` computes the product on every tick
  | tick (host : Host R) (h : (host.server.tickCount + 1) * o.tickMs < 2 ^ 64) :
    Step o host { host with server := { host.server with tickCount := host.server.tickCount + 1 } }
  | outside (host : Host R) {server : State} (h : Outside host.server server) :
    Step o host { host with server := server }

structure Host.Sound (o : Options) (host : Host R) : Prop where
  inRange : InRange o host.server
  bound : ∀ p ∈ host.handlers, p.Bound

theorem bound_of_written {row : SessionRow} (h : row.Written) : row.Bound := by
  cases h with
  | inl hfresh =>
    refine ⟨by rw [hfresh.1]; decide, fun last hlast => ?_⟩
    rw [hfresh.2] at hlast
    cases hlast
  | inr hupdated =>
    obtain ⟨sequence, hnext, hlast⟩ := hupdated
    refine ⟨by rw [hnext]; exact Int.natCast_nonneg _, fun last hsome => ?_⟩
    rw [hlast] at hsome
    cases hsome
    exact ⟨Int.natCast_nonneg _, hnext.trans (Int.natCast_succ _)⟩

section Runs

variable {o : Options}

theorem sound_initial {host : Host R} (h : host.Initial) : host.Sound o := by
  refine ⟨⟨?_, fun id row hrow => bound_of_written (h.sessions id row hrow), h.base, h.configuration⟩, ?_⟩
  · rw [h.ticks, Nat.zero_mul]
    exact Nat.two_pow_pos 64
  · rw [h.handlers]
    intro p hp
    cases hp

/-- One thread moves on and the others stay where they are. -/
theorem sound_replace {server server' : State} {before after : List (Phase R)} {p p' : Phase R}
    (h : Host.Sound o ⟨server, before ++ p :: after⟩) (hserver : InRange o server') (hp' : p'.Bound) :
    Host.Sound o ⟨server', before ++ p' :: after⟩ := by
  refine ⟨hserver, fun q hq => ?_⟩
  cases List.mem_append.1 hq with
  | inl hbefore => exact h.bound q (List.mem_append.2 (.inl hbefore))
  | inr hrest =>
    cases List.mem_cons.1 hrest with
    | inl heq =>
      rw [heq]
      exact hp'
    | inr hafter => exact h.bound q (List.mem_append.2 (.inr (List.mem_cons_of_mem p hafter)))

theorem sound_step {host host' : Host R} (h : host.Sound o) (hstep : Step o host host') : host'.Sound o := by
  cases hstep with
  | connect =>
    refine ⟨h.inRange, fun p hp => ?_⟩
    cases List.mem_append.1 hp with
    | inl hold => exact h.bound p hold
    | inr hnew =>
      rw [List.mem_singleton.1 hnew]
      trivial
  | receive server before after hframed => exact sound_replace h h.inRange hframed
  | @turn server server' before after p p' a hturn =>
    have hp : p.Bound := h.bound p (List.mem_append.2 (.inr List.mem_cons_self))
    have hmoves := moves_turn h.inRange hp (server', p') hturn
    exact sound_replace h hmoves.inRange hmoves.bound
  | respond server before after reply => exact sound_replace h h.inRange trivial
  | close server before after =>
    refine ⟨h.inRange, fun p hp => h.bound p ?_⟩
    cases List.mem_append.1 hp with
    | inl hbefore => exact List.mem_append.2 (.inl hbefore)
    | inr hafter => exact List.mem_append.2 (.inr (List.mem_cons_of_mem _ hafter))
  | tick host hlt => exact ⟨⟨hlt, h.inRange.sessions, h.inRange.base, h.inRange.configuration⟩, h.bound⟩
  | outside host houtside =>
    refine ⟨⟨?_, fun id row hrow => ?_, houtside.base, houtside.configuration⟩, h.bound⟩
    · rw [houtside.ticks]
      exact h.inRange.ticks
    · cases houtside.sessions id row hrow with
      | inl hold => exact h.inRange.sessions id row hold
      | inr hwritten => exact bound_of_written hwritten

theorem sound_of_reachable {host : Host R} (h : Reachable Host.Initial (Step o) host) : host.Sound o :=
  h.invariant (fun _ hinit => sound_initial hinit) fun _ _ hsound hstep => sound_step hsound hstep

end Runs

/-- Nothing is refused on the way. -/
def smoothAnswers : Answers where
  refusal := none
  schemaReady := true
  granted := true
  lease := none
  writer := none
  sql := .ok 0
  capturedFrames := 0
  committedFrames := 1
  payloadFits := true
  append := .ok 1
  inFlight := false
  outcome := .succeeded
  read := none
  rows := 0
  planSql := []
  pending := none
  plan_lt := Nat.two_pow_pos 31

theorem smooth_smoothAnswers : smoothAnswers.Smooth :=
  ⟨rfl, rfl, rfl, rfl, ⟨0, rfl⟩, rfl⟩

/-- **A request that meets only safe turns ends in a reply**: in every reachable state, whatever the code
between the integers answers, the turn of a connection's thread reaches its end and moves the request on,
exactly when it is safe. -/
theorem turns_advance (o : Options) {host : Host R} (h : Reachable Host.Initial (Step o) host) {p : Phase R}
    (hp : p ∈ host.handlers) :
    (∀ a : Answers, ∃ server p', turn o host.waiters host.server a p = .ok (server, p') ∧
      Advances o host.server p p') ↔ TurnSafe o host.waiters host.server p := by
  obtain ⟨hrange, hbound⟩ := sound_of_reachable h
  constructor
  · intro hall
    obtain ⟨server, p', hturn, -⟩ := hall smoothAnswers
    exact turnSafe_of_turn hrange smooth_smoothAnswers ⟨_, hturn⟩
  · intro hsafe a
    obtain ⟨out, hturn⟩ := succeeds_turn (a := a) hrange (hbound p hp) hsafe
    exact ⟨out.1, out.2, hturn, (moves_turn hrange (hbound p hp) out hturn).advances⟩

/-! ### Two requests -/

def sampleOptions : Options where
  tickMs := 25
  idleTimeoutMs := 300000
  maxQueryRows := 0
  pageSize := 4096
  page_le := by decide

/-- A leader with no sessions. -/
def sampleState : State where
  failed := false
  leader := true
  knowsLeader := true
  voter := true
  single := true
  storageFailed := false
  isSealed := false
  tickCount := 0
  appliedSlot := 1
  leaderBase := 1
  proposalFrontier := 2
  decidedThrough := 1
  observedLeaderDecided := 1
  learnerLastContactTick := none
  nextFenceId := 1
  sessions := fun _ => none
  decided := none

/-- `{"op":"exec","sql":"","session":…,"sequence":1}`. -/
def sampleRequest (session : UInt64) : Request ℕ :=
  { Request.empty with
    op := asciiBytes "exec"
    sql := some []
    session := some session
    sequence := some 1 }

/-- The write of the request, at the gate. -/
def sampleHost (session : UInt64) : Host ℕ :=
  ⟨sampleState, [.bootstrapped (sampleRequest session)]⟩

theorem reachable_sampleHost (session : UInt64) :
    Reachable Host.Initial (Step sampleOptions) (sampleHost session) := by
  have hframed : (sampleRequest session).Framed := by
    refine ⟨fun bytes hsome => ?_, fun _ hsome => ?_, fun _ hsome => ?_, fun _ hsome => ?_, fun _ hsome => ?_⟩
    · cases hsome
      exact Nat.two_pow_pos 26
    all_goals cases hsome
  have hinitial : (⟨sampleState, []⟩ : Host ℕ).Initial := by
    refine ⟨rfl, rfl, rfl, fun id row hrow => ?_, Nat.le_refl 1, fun decided hdecided => ?_⟩
    · cases hrow
    · cases hdecided
  have h₀ : Reachable Host.Initial (Step sampleOptions) (⟨sampleState, []⟩ : Host ℕ) := .start hinitial
  have h₁ := h₀.step (Step.connect _)
  have h₂ := h₁.step (Step.receive sampleState [] [] hframed)
  have hreceived : turn sampleOptions 0 sampleState smoothAnswers (.received (sampleRequest session)) =
      .ok (sampleState, .dispatched (sampleRequest session)) := rfl
  have h₃ := h₂.step (Step.turn [] [] hreceived)
  have hdispatched : turn sampleOptions 0 sampleState smoothAnswers (.dispatched (sampleRequest session)) =
      .ok (sampleState, .bootstrapped (sampleRequest session)) := rfl
  exact h₃.step (Step.turn [] [] hdispatched)

/-- The request of session one ends. -/
theorem turns_advance_sample : ∃ server p',
    turn sampleOptions 0 sampleState smoothAnswers (.bootstrapped (sampleRequest 1)) = .ok (server, p') ∧
      Advances sampleOptions sampleState (.bootstrapped (sampleRequest 1)) p' := by
  refine (turns_advance sampleOptions (reachable_sampleHost 1) (p := .bootstrapped (sampleRequest 1))
    List.mem_cons_self).2 ?_ smoothAnswers
  intro write hwrite _
  cases hwrite
  refine ⟨fun _ => by decide, fun _ => ⟨by decide, fun _ _ => ⟨by decide, fun row hrow => ?_⟩⟩⟩
  cases hrow

/-- **A session id of 2⁶³ stops the server.** -/
theorem session_id_traps : ∃ (host : Host ℕ) (a : Answers),
    Reachable Host.Initial (Step sampleOptions) host ∧
      .bootstrapped (sampleRequest 9223372036854775808) ∈ host.handlers ∧
        turn sampleOptions host.waiters host.server a
          (.bootstrapped (sampleRequest 9223372036854775808)) = .error .castTruncated :=
  ⟨sampleHost 9223372036854775808, smoothAnswers, reachable_sampleHost _, List.mem_cons_self, rfl⟩

end Rpc

end Zaxonlite
