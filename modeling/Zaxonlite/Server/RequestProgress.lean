import Zaxonlite.Server.RequestSafety

/-!
# Requests that end

A turn that reaches its end keeps what the server relies on, and it moves its request on: to a later phase,
or, while the time of its phase lasts, to the same one. The phases end in a reply.
-/

namespace Zaxonlite

namespace Rpc

open Checked

variable {R : Type}

/-! ### Phases in order -/

/-- Where the wait for the writer gate stands: before the schema exists or after. -/
def After.rank : After R → ℕ
  | .resume _ => 4
  | .reply => 8

def Phase.rank : Phase R → ℕ
  | .idle => 0
  | .received _ => 1
  | .dispatched _ => 2
  | .bootstrapping _ => 3
  | .queued _ after _ => after.rank
  | .frontier _ after _ => after.rank + 1
  | .committing after _ => after.rank + 2
  | .bootstrapped _ => 7
  | .readFrontier _ _ _ _ => 8
  | .fence _ _ => 9
  | .waiting _ _ _ _ => 8
  | .replied _ => 11

/-- The time of a phase has not passed. -/
def Phase.Patient (o : Options) (s : State) : Phase R → Prop
  | .queued _ _ start | .frontier _ _ start | .committing _ start | .readFrontier _ _ _ start
  | .fence _ start => (s.tickCount - start) * o.tickMs ≤ opTimeoutMs
  | .waiting _ _ timeoutMs start => (s.tickCount - start) * o.tickMs < timeoutMs
  | .idle | .replied _ => True
  | _ => False

/-- The request moves on, or waits while its time lasts. -/
def Advances (o : Options) (s : State) (p p' : Phase R) : Prop :=
  p.rank < p'.rank ∨ (p' = p ∧ p.Patient o s)

/-- What a turn leaves, above a phase. -/
structure Ahead (o : Options) (rank : ℕ) (out : State × Phase R) : Prop where
  inRange : InRange o out.1
  bound : out.2.Bound
  later : rank < out.2.rank

/-- What a turn leaves. -/
structure Moves (o : Options) (s : State) (p : Phase R) (out : State × Phase R) : Prop where
  inRange : InRange o out.1
  bound : out.2.Bound
  advances : Advances o s p out.2

section Turns

variable {o : Options} {s : State} {a : Answers} {waiters rank : ℕ}

theorem Ahead.moves {p : Phase R} {out : State × Phase R} (h : Ahead o p.rank out) : Moves o s p out :=
  ⟨h.inRange, h.bound, .inl h.later⟩

theorem Ahead.mono {out : State × Phase R} (h : Ahead o rank out) {lower : ℕ} (hle : lower ≤ rank) :
    Ahead o lower out :=
  ⟨h.inRange, h.bound, lt_of_le_of_lt hle h.later⟩

theorem moves_stay (h : InRange o s) {p : Phase R} (hp : p.Bound) (hpatient : p.Patient o s) :
    Moves o s p (s, p) :=
  ⟨h, hp, .inr ⟨rfl, hpatient⟩⟩

theorem ahead_replied (h : InRange o s) (reply : Reply) (hrank : rank < 11) :
    Ahead o rank (s, (.replied reply : Phase R)) :=
  ⟨h, trivial, hrank⟩

theorem after_rank_le (after : After R) : after.rank ≤ 8 := by
  cases after with
  | reply => exact Nat.le_refl 8
  | resume request => exact Nat.le_of_ble_eq_true rfl

theorem after_phase_rank (after : After R) : after.phase.rank = after.rank + 3 := by
  cases after with
  | reply => rfl
  | resume request => rfl

theorem after_phase_bound {after : After R} (h : after.Bound) : after.phase.Bound := by
  cases after with
  | reply => trivial
  | resume request => exact h

theorem ahead_after (h : InRange o s) {after : After R} (hafter : after.Bound) :
    Ahead o (after.rank + 2) (s, after.phase) := by
  refine ⟨h, after_phase_bound hafter, ?_⟩
  show after.rank + 2 < after.phase.rank
  rw [after_phase_rank]
  omega

/-! ### Waits -/

theorem ensures_elapsedMs (start : ℕ) :
    Ensures (fun elapsed => elapsed = (s.tickCount - start) * o.tickMs) (elapsedMs o s start) := by
  intro elapsed h
  rw [elapsedMs, Checked.mul] at h
  split at h
  · cases h
    rfl
  · cases h

/-- A loop replies when its time has passed, and stays where it is until then. -/
theorem moves_timed (h : InRange o s) {p : Phase R} (hp : p.Bound) (hrank : p.rank < 11) (start : ℕ)
    (c : ℕ → Prop) [DecidablePred c] (hpatient : ¬c ((s.tickCount - start) * o.tickMs) → p.Patient o s)
    (reply : Reply) :
    Ensures (Moves o s p) (do
      let elapsed ← elapsedMs o s start
      if c elapsed then pure (s, .replied reply) else pure (s, p) : Except Trap (State × Phase R)) := by
  refine Ensures.bind (ensures_elapsedMs (o := o) (s := s) start) ?_
  intro elapsed helapsed
  rw [helapsed]
  split
  · exact ensures_ok (ahead_replied h reply hrank).moves
  · rename_i hwait
    exact ensures_ok (moves_stay h hp (hpatient hwait))

theorem ensures_awaitReady (slot start : ℕ) :
    Ensures (fun result => result = .wait → (s.tickCount - start) * o.tickMs ≤ opTimeoutMs)
      (awaitReady o s slot start) := by
  by_cases hserving : s.Serving
  · rw [awaitReady_of_serving hserving]
    refine Ensures.bind (ensures_eq (reaches s slot)) ?_
    intro settled _
    cases settled with
    | true =>
      refine ensures_ok ?_
      intro hwait
      cases hwait
    | false =>
      refine Ensures.bind (ensures_elapsedMs (o := o) (s := s) start) ?_
      intro elapsed helapsed
      split
      · refine ensures_ok ?_
        intro hwait
        cases hwait
      · rename_i htime
        refine ensures_ok ?_
        intro _
        rw [← helapsed]
        exact not_lt.1 htime
  · obtain ⟨error, herror⟩ := awaitReady_of_not_serving (o := o) hserving slot start
    rw [herror]
    refine ensures_ok ?_
    intro hwait
    cases hwait

/-! ### Writes -/

theorem ensures_updateSession (h : InRange o s) (sessionId sequence : UInt64) (changes : ℤ) :
    Ensures (fun sessions => InRange o { s with sessions := sessions })
      (updateSession s sessionId sequence changes) := by
  intro sessions hsessions
  obtain ⟨next, hnext, hrest⟩ := bind_eq_ok.1 hsessions
  obtain ⟨next', hnext', hrest⟩ := bind_eq_ok.1 hrest
  obtain ⟨last, hlast, hrest⟩ := bind_eq_ok.1 hrest
  obtain ⟨id, -, hrest⟩ := bind_eq_ok.1 hrest
  rw [add_of_lt (succeeds_add.1 ⟨next, hnext⟩)] at hnext
  cases hnext
  rw [cast_of_lt (succeeds_cast.1 ⟨next', hnext'⟩)] at hnext'
  cases hnext'
  rw [cast_of_lt (succeeds_cast.1 ⟨last, hlast⟩)] at hlast
  cases hlast
  cases hrest
  refine ⟨h.ticks, fun id' row hrow => ?_, h.base, h.configuration⟩
  have hrow : Function.update s.sessions id _ id' = some row := hrow
  by_cases hsame : id' = id
  · rw [hsame, Function.update_self] at hrow
    cases hrow
    refine ⟨Int.natCast_nonneg _, fun last hlast => ?_⟩
    cases hlast
    exact ⟨Int.natCast_nonneg _, Int.natCast_succ _⟩
  · rw [Function.update_of_ne hsame] at hrow
    exact h.sessions id' row hrow

theorem ensures_captured (h : InRange o s) (sessions : ℕ → Option SessionRow)
    (hsessions : InRange o { s with sessions := sessions }) :
    Ensures (fun out : State × Executed => InRange o out.1)
      (if a.committedFrames ≤ a.capturedFrames then
        (pure (s, .refused (.other "CaptureLost")) : Except Trap (State × Executed))
      else do
        captureSizes o a.capturedFrames.toNat a.committedFrames.toNat
        let _ ← Checked.cast .castTruncated 32 (a.committedFrames.toNat - a.capturedFrames.toNat)
        if !a.payloadFits then pure (s, .refused .transactionTooLarge)
        else
          match a.append with
          | .error error => pure (s, .refused error)
          | .ok slot => pure ({ s with sessions := sessions }, .appended slot)) := by
  split
  · exact ensures_ok h
  · refine Ensures.bind (ensures_eq _) fun _ _ => ?_
    refine Ensures.bind (ensures_eq _) fun _ _ => ?_
    split
    · exact ensures_ok h
    · split
      · exact ensures_ok h
      · exact ensures_ok hsessions

theorem ensures_sealCapturedTransaction (h : InRange o s) (changes : ℤ) (session : Option (UInt64 × UInt64)) :
    Ensures (fun out => InRange o out.1) (sealCapturedTransaction o s a changes session) := by
  cases session with
  | none => exact ensures_captured h s.sessions h
  | some pair =>
    obtain ⟨sessionId, sequence⟩ := pair
    exact Ensures.bind (ensures_updateSession h sessionId sequence changes) (ensures_captured h)

theorem ensures_writeRequest (h : InRange o s) (statement : Option (Statement R))
    (session : Option (UInt64 × UInt64)) :
    Ensures (fun out => InRange o out.1) (writeRequest o s a statement session) := by
  rw [writeRequest]
  split
  · exact ensures_ok h
  · split
    · exact ensures_ok h
    · refine Ensures.bind (ensures_eq _) fun settled _ => ?_
      split
      · exact ensures_ok h
      · refine Ensures.bind (ensures_eq _) fun _ _ => ?_
        split
        · exact ensures_ok h
        · exact ensures_sealCapturedTransaction h _ session

theorem ensures_execute (h : InRange o s) (write : Write R) :
    Ensures (fun out => InRange o out.1) (execute o s a write) := by
  cases write with
  | schema =>
    rw [execute]
    split
    · exact ensures_ok h
    · exact ensures_writeRequest h _ _
  | expireSessions retain => exact ensures_writeRequest h _ _
  | application session statement =>
    cases session with
    | none => exact ensures_writeRequest h _ _
    | some pair =>
      obtain ⟨sessionId, sequence⟩ := pair
      rw [execute]
      refine Ensures.bind (ensures_eq _) fun check _ => ?_
      cases check with
      | refused error => exact ensures_ok h
      | replay => exact ensures_ok h
      | execute => exact ensures_writeRequest h _ _

theorem ahead_finishWrite (h : InRange o s) {after : After R} (hafter : after.Bound) (executed : Executed) :
    Ahead o (after.rank + 1) (s, finishWrite s a after executed) := by
  have hle := after_rank_le after
  have hdone : Ahead o (after.rank + 1) (s, after.phase) := (ahead_after h hafter).mono (by omega)
  cases executed with
  | refused error => exact ahead_replied h _ (by omega)
  | replayed => exact hdone
  | appended slot =>
    rw [finishWrite]
    split
    · exact hdone
    · split
      · exact ⟨h, hafter, Nat.lt_succ_self _⟩
      · split
        · exact hdone
        · exact ahead_replied h _ (by omega)

/-- A turn at the frontier: past it, or still there with time left. -/
theorem moves_frontierTurn (h : InRange o s) {write : Write R} (hwrite : write.Bound) {after : After R}
    (hafter : after.Bound) (start : ℕ) :
    Ensures (Moves o s (.frontier write after start)) (frontierTurn o s a write after start) := by
  have hle := after_rank_le after
  rw [frontierTurn]
  refine Ensures.bind (ensures_awaitReady (o := o) (s := s) s.proposalFrontier start) fun result hresult => ?_
  cases result with
  | refused error =>
    have hreplied : Ahead o (after.rank + 1) (s, (failWrite error : Phase R)) := ahead_replied h _ (by omega)
    exact ensures_ok (Ahead.moves (p := .frontier write after start) hreplied)
  | wait => exact ensures_ok (moves_stay h ⟨hwrite, hafter⟩ (hresult rfl))
  | ready =>
    refine Ensures.bind (ensures_execute h write) fun executed hexecuted => ?_
    have hfinish : Ahead o (after.rank + 1) (executed.1, finishWrite executed.1 a after executed.2) :=
      ahead_finishWrite hexecuted hafter executed.2
    exact ensures_ok (Ahead.moves (p := .frontier write after start) hfinish)

theorem ahead_passGate (h : InRange o s) {write : Write R} (hwrite : write.Bound) {after : After R}
    (hafter : after.Bound) (start : ℕ) :
    Ensures (Ahead o after.rank) (passGate o waiters s a write after start) := by
  have hle := after_rank_le after
  have hfail : ∀ error, Ahead o after.rank (s, (failWrite error : Phase R)) :=
    fun error => ahead_replied h _ (by omega)
  rw [passGate]
  split
  · exact ensures_ok (hfail _)
  · split
    · exact ensures_ok (hfail _)
    · split
      · exact ensures_ok (hfail _)
      · refine Ensures.bind (ensures_eq _) fun _ _ => ?_
        intro out hout
        have hmoves := moves_frontierTurn h hwrite hafter start out hout
        refine ⟨hmoves.inRange, hmoves.bound, ?_⟩
        cases hmoves.advances with
        | inl hlater => exact Nat.lt_of_succ_lt hlater
        | inr hstay =>
          rw [hstay.1]
          exact Nat.lt_succ_self _

theorem ahead_runWrite (h : InRange o s) {write : Write R} (hwrite : write.Bound) {after : After R}
    (hafter : after.Bound) (hrank : rank < after.rank) :
    Ensures (Ahead o rank) (runWrite o waiters s a write after) := by
  have hle := after_rank_le after
  rw [runWrite]
  split
  · exact ensures_ok (ahead_replied h _ (by omega))
  · split
    · intro out hout
      exact (ahead_passGate h hwrite hafter s.tickCount out hout).mono (le_of_lt hrank)
    · exact ensures_ok ⟨h, ⟨hwrite, hafter⟩, hrank⟩

theorem moves_queueTurn (h : InRange o s) {write : Write R} (hwrite : write.Bound) {after : After R}
    (hafter : after.Bound) (start : ℕ) :
    Ensures (Moves o s (.queued write after start)) (queueTurn o waiters s a write after start) := by
  have hle := after_rank_le after
  have hrank : (Phase.queued write after start).rank < 11 := by
    show after.rank < 11
    omega
  rw [queueTurn]
  split
  · intro out hout
    exact Ahead.moves (p := .queued write after start) (ahead_passGate h hwrite hafter start out hout)
  · split
    · exact ensures_ok (ahead_replied h _ hrank).moves
    · exact moves_timed (p := .queued write after start) h ⟨hwrite, hafter⟩ hrank start (opTimeoutMs < ·) not_lt.1 _

theorem moves_outcomeTurn (h : InRange o s) {after : After R} (hafter : after.Bound) (start : ℕ) :
    Ensures (Moves o s (.committing after start)) (outcomeTurn o s a after start) := by
  have hle := after_rank_le after
  have hrank : (Phase.committing after start).rank < 11 := by
    show after.rank + 2 < 11
    omega
  rw [outcomeTurn]
  split
  · exact ensures_ok (Ahead.moves (p := .committing after start) (ahead_after h hafter))
  · exact ensures_ok (ahead_replied h _ hrank).moves
  · split
    · exact ensures_ok (ahead_replied h _ hrank).moves
    · exact moves_timed (p := .committing after start) h hafter hrank start (opTimeoutMs < ·) not_lt.1 _

/-! ### Reads -/

theorem ahead_readRows (h : InRange o s) (statement : Statement R) (hrank : rank < 11) :
    Ensures (Ahead o rank) (do
      let reply ← readRows o a statement
      (pure (s, .replied reply) : Except Trap (State × Phase R))) := by
  refine Ensures.bind (ensures_eq _) fun reply _ => ?_
  exact ensures_ok (ahead_replied h reply hrank)

theorem moves_fenceTurn (h : InRange o s) {statement : Statement R} (hstatement : statement.Bound) (start : ℕ) :
    Ensures (Moves o s (.fence statement start)) (fenceTurn o s a statement start) := by
  have hrank : (Phase.fence statement start).rank < 11 := Nat.le_of_ble_eq_true rfl
  rw [fenceTurn]
  split
  · split
    · exact ensures_ok (ahead_replied h _ hrank).moves
    · exact moves_timed (p := .fence statement start) h hstatement hrank start (opTimeoutMs < ·) not_lt.1 _
  · exact ensures_ok (ahead_replied h _ hrank).moves
  · split
    · exact ensures_ok (ahead_replied h _ hrank).moves
    · intro out hout
      exact (ahead_readRows h statement hrank out hout).moves

theorem ahead_openFence (h : InRange o s) {statement : Statement R} (hstatement : statement.Bound)
    (hrank : rank < 9) : Ensures (Ahead o rank) (openFence s statement) := by
  rw [openFence]
  split
  · exact ensures_ok (ahead_replied h _ (by omega))
  · refine Ensures.bind (ensures_eq _) fun _ _ => ?_
    refine Ensures.bind (ensures_eq _) fun _ _ => ?_
    exact ensures_ok ⟨⟨h.ticks, h.sessions, h.base, h.configuration⟩, hstatement, hrank⟩

theorem ahead_serveRead (h : InRange o s) {statement : Statement R} (hstatement : statement.Bound)
    (level : Level) (freshnessMs : Option UInt64) (hrank : rank < 9) :
    Ensures (Ahead o rank) (serveRead o s a level freshnessMs statement) := by
  rw [serveRead]
  split
  · exact ensures_ok (ahead_replied h _ (by omega))
  · refine Ensures.bind (ensures_eq _) fun stale _ => ?_
    cases stale with
    | some reply => exact ensures_ok (ahead_replied h _ (by omega))
    | none =>
      show Ensures _ (if level = .linearizable ∧ s.single = false then _ else _)
      split
      · exact ahead_openFence h hstatement hrank
      · exact ahead_readRows h statement (by omega)

theorem moves_readFrontierTurn (h : InRange o s) {statement : Statement R} (hstatement : statement.Bound)
    (level : Level) (freshnessMs : Option UInt64) (start : ℕ) :
    Ensures (Moves o s (.readFrontier level freshnessMs statement start))
      (readFrontierTurn o s a level freshnessMs statement start) := by
  have hfail : ∀ error, Moves o s (.readFrontier level freshnessMs statement start) (s, failWrite error) := by
    intro error
    have hreplied : Ahead o 8 (s, (failWrite error : Phase R)) := ahead_replied h _ (by omega)
    exact Ahead.moves (p := .readFrontier level freshnessMs statement start) hreplied
  rw [readFrontierTurn]
  refine Ensures.bind (ensures_awaitReady (o := o) (s := s) s.leaderBase start) fun result hresult => ?_
  cases result with
  | refused error =>
    cases error
    all_goals exact ensures_ok (hfail _)
  | wait => exact ensures_ok (moves_stay h hstatement (hresult rfl))
  | ready =>
    intro out hout
    have hserve : Ahead o 8 out := ahead_serveRead h hstatement level freshnessMs (by omega) out hout
    exact Ahead.moves (p := .readFrontier level freshnessMs statement start) hserve

theorem ahead_runReadQuery (h : InRange o s) {statement : Statement R} (hstatement : statement.Bound)
    (level : Level) (freshnessMs : Option UInt64) (hrank : rank < 8) :
    Ensures (Ahead o rank) (runReadQuery o waiters s a level freshnessMs statement) := by
  rw [runReadQuery]
  split
  · exact ensures_ok (ahead_replied h _ (by omega))
  · split
    · exact ensures_ok (ahead_replied h _ (by omega))
    · split
      · refine Ensures.bind (ensures_eq _) fun _ _ => ?_
        intro out hout
        have hmoves := moves_readFrontierTurn h hstatement level freshnessMs s.tickCount out hout
        refine ⟨hmoves.inRange, hmoves.bound, ?_⟩
        cases hmoves.advances with
        | inl hlater => exact lt_trans hrank hlater
        | inr hstay =>
          rw [hstay.1]
          exact hrank
      · exact ahead_serveRead h hstatement level freshnessMs (by omega)

theorem ahead_opRead (h : InRange o s) {request : Request R} {read : Option (Level × Statement R)}
    (hread : ∀ pair, read = some pair → pair.2.Bound) (hrank : rank < 8) :
    Ensures (Ahead o rank) (opRead o waiters s a request read) := by
  cases read with
  | none => exact ensures_ok (ahead_replied h _ (by omega))
  | some pair => exact ahead_runReadQuery h (hread pair rfl) pair.1 request.freshnessMs hrank

/-! ### Turns -/

theorem moves_waitTurn (h : InRange o s) (minApplied : ℕ) (needLeader : Bool) (timeoutMs start : ℕ) :
    Ensures (Moves o s (.waiting minApplied needLeader timeoutMs start : Phase R))
      (waitTurn o s minApplied needLeader timeoutMs start) := by
  have hrank : (.waiting minApplied needLeader timeoutMs start : Phase R).rank < 11 :=
    Nat.le_of_ble_eq_true rfl
  rw [waitTurn]
  split
  · exact ensures_ok (ahead_replied h _ hrank).moves
  · split
    · exact ensures_ok (ahead_replied h _ hrank).moves
    · exact moves_timed (p := .waiting minApplied needLeader timeoutMs start) h trivial hrank start
        (timeoutMs ≤ ·) not_le.1 _

theorem ahead_opWait (h : InRange o s) (request : Request R) (hrank : rank < 8) :
    Ensures (Ahead o rank) (opWait o s request) := by
  rw [opWait]
  refine Ensures.bind (ensures_eq _) fun minApplied _ => ?_
  intro out hout
  have hmoves := moves_waitTurn h minApplied _ _ _ out hout
  refine ⟨hmoves.inRange, hmoves.bound, ?_⟩
  cases hmoves.advances with
  | inl hlater => exact lt_trans hrank hlater
  | inr hstay =>
    rw [hstay.1]
    exact hrank

theorem ahead_ensureSchemaForWrite (h : InRange o s) {request : Request R} (hframed : request.Framed)
    (hrank : rank < 3) : Ensures (Ahead o rank) (ensureSchemaForWrite s a request) := by
  rw [ensureSchemaForWrite]
  split
  · exact ensures_ok ⟨h, hframed, lt_trans hrank (Nat.le_of_ble_eq_true rfl)⟩
  · split
    · exact ensures_ok (ahead_replied h _ (by omega))
    · exact ensures_ok ⟨h, hframed, hrank⟩

theorem ahead_dispatch (h : InRange o s) {request : Request R} (hframed : request.Framed) :
    Ensures (Ahead o 2) (dispatch o waiters s a request) := by
  have hreplied : ∀ reply, Ahead o 2 (s, (.replied reply : Phase R)) :=
    fun reply => ahead_replied h reply (by omega)
  rw [dispatch]
  split
  · exact ensures_ok (hreplied _)
  · split
    · rw [opExec]
      split
      · exact ensures_ok (hreplied _)
      · exact ahead_ensureSchemaForWrite h hframed (by omega)
    · split
      · rw [opQuery]
        split
        · exact ensures_ok (hreplied _)
        · exact ahead_opRead h (fun pair hpair => queryRead_bound hframed hpair) (by omega)
      · split
        · exact ahead_opRead h (fun pair hpair => searchRead_bound hframed a.plan_lt hpair) (by omega)
        · split
          · exact ahead_opWait h request (by omega)
          · split
            · rw [opExpireSessions]
              split
              · exact ensures_ok (hreplied _)
              · exact ahead_ensureSchemaForWrite h hframed (by omega)
            · split
              · rw [opReplaceVoter]
                split
                · exact ensures_ok (hreplied _)
                · refine Ensures.bind (ensures_eq _) fun reply _ => ?_
                  exact ensures_ok (hreplied reply)
              · exact ensures_ok (hreplied _)

/-- **A turn that reaches its end moves its request on**, and keeps what the server relies on. -/
theorem moves_turn (h : InRange o s) {p : Phase R} (hp : p.Bound) :
    Ensures (Moves o s p) (turn o waiters s a p) := by
  cases p with
  | idle => exact ensures_ok (moves_stay h trivial trivial)
  | received request =>
    refine Ensures.bind (ensures_eq _) fun deadline _ => ?_
    exact ensures_ok ⟨h, hp, .inl (Nat.lt_succ_self 1)⟩
  | dispatched request =>
    intro out hout
    exact Ahead.moves (p := .dispatched request) (ahead_dispatch h hp out hout)
  | bootstrapping request =>
    have hschema : (Write.schema : Write R).Bound := trivial
    have hafter : (After.resume request).Bound := hp
    intro out hout
    have hahead : Ahead o 3 out := ahead_runWrite h hschema hafter (Nat.lt_succ_self 3) out hout
    exact Ahead.moves (p := .bootstrapping request) hahead
  | bootstrapped request =>
    intro out hout
    have hout : resume o waiters s a request = .ok out := hout
    rw [resume] at hout
    have hahead : Ahead o 7 out := by
      cases hwrite : requestWrite request with
      | none =>
        rw [hwrite] at hout
        exact ensures_ok (ahead_replied h _ (by omega)) out hout
      | some write =>
        rw [hwrite] at hout
        have hreply : (After.reply : After R).Bound := trivial
        exact ahead_runWrite h (requestWrite_bound hp hwrite) hreply (Nat.lt_succ_self 7) out hout
    exact Ahead.moves (p := .bootstrapped request) hahead
  | queued write after start => exact moves_queueTurn h hp.1 hp.2 start
  | frontier write after start => exact moves_frontierTurn h hp.1 hp.2 start
  | committing after start => exact moves_outcomeTurn h hp start
  | readFrontier level freshnessMs statement start => exact moves_readFrontierTurn h hp level freshnessMs start
  | fence statement start => exact moves_fenceTurn h hp start
  | waiting minApplied needLeader timeoutMs start => exact moves_waitTurn h minApplied needLeader timeoutMs start
  | replied reply => exact ensures_ok (moves_stay h trivial trivial)

end Turns

end Rpc

end Zaxonlite
