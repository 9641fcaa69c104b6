import Zaxonlite.Server.Requests

/-!
# Writes in range

What a write needs so that none of its integers is out of range. The clock and the session table never ask
for anything: an elapsed time is at most the clock's own product, which the ticker has computed, and a
session row holds what was bound into it. What is left is asked of the request, a session id that fits a
signed integer and a sequence number with room above it, and of the server's own counters. Each function has
a lemma that says when it succeeds, and one that says what it shows when it does.
-/

namespace Zaxonlite

namespace Rpc

open Checked

variable {R : Type}

/-! ### The condition -/

/-- This node leads and has not failed. -/
def State.Serving (s : State) : Prop :=
  s.failed = false ∧ s.leader = true

/-- The session of a write survives its conversions: its id fits a signed integer, and so does the number
above its sequence when that is the one to execute. -/
def SessionSafe (s : State) : Write R → Prop
  | .application (some (sessionId, sequence)) _ =>
    s.storageFailed = false →
      sessionId.toNat < 2 ^ 63 ∧
        ∀ row, s.sessions sessionId.toNat = some row → row.nextSequence = sequence.toNat →
          sequence.toNat + 1 < 2 ^ 63
  | _ => True

/-- The slot above the applied one exists, and behind the frontier the session is safe. -/
def WriteSafe (s : State) (write : Write R) : Prop :=
  s.Serving →
    s.appliedSlot + 1 < 2 ^ 64 ∧ (s.proposalFrontier ≤ s.appliedSlot + 1 → SessionSafe s write)

/-- There is room for one more thread at the frontier. -/
def FrontierRoom (waiters : ℕ) (s : State) : Prop :=
  s.Serving → waiters + 1 < 2 ^ 32

/-- A write that is granted the writer gate. -/
def GateSafe (waiters : ℕ) (s : State) (write : Write R) : Prop :=
  s.isSealed = false → FrontierRoom waiters s ∧ WriteSafe s write

/-! ### What a turn relies on -/

/-- A row holds what was bound into it: a fresh one its first number, any other one a sequence and the
number above it. -/
def SessionRow.Bound (row : SessionRow) : Prop :=
  0 ≤ row.nextSequence ∧ ∀ last, row.lastSequence = some last → 0 ≤ last ∧ row.nextSequence = last + 1

structure InRange (o : Options) (s : State) : Prop where
  ticks : s.tickCount * o.tickMs < 2 ^ 64
  sessions : ∀ id row, s.sessions id = some row → row.Bound
  base : 1 ≤ s.leaderBase
  configuration : ∀ decided, s.decided = some decided → decided.configurationId ≤ maxU64

/-- Values short enough to be bound. -/
def BoundValues (values : List (Prepared.Value R)) : Prop :=
  ∀ value ∈ values, ∀ bytes, value = .text bytes ∨ value = .blob bytes → bytes.length < 2 ^ 31

def Statement.Bound (statement : Statement R) : Prop :=
  statement.sql.length < 2 ^ 31 ∧ ∀ rows, statement.rows = some rows → ∀ values ∈ rows, BoundValues values

def Write.Bound : Write R → Prop
  | .application _ statement => statement.Bound
  | _ => True

section Turns

variable {o : Options} {s : State} {a : Answers} {waiters : ℕ}

/-! ### Time and frontiers -/

theorem succeeds_elapsedMs (h : InRange o s) (start : ℕ) : Succeeds (elapsedMs o s start) := by
  have hle : (s.tickCount - start) * o.tickMs ≤ s.tickCount * o.tickMs :=
    Nat.mul_le_mul_right o.tickMs (Nat.sub_le s.tickCount start)
  exact ⟨_, mul_of_lt (lt_of_le_of_lt hle h.ticks)⟩

/-- A loop that gives up after a time, whatever it does then. -/
theorem succeeds_timed {α : Type} (h : InRange o s) (start : ℕ) (c : ℕ → Prop) [DecidablePred c] (x y : α) :
    Succeeds (do
      let elapsed ← elapsedMs o s start
      if c elapsed then pure x else pure y) := by
  apply (succeeds_elapsedMs h start).bind
  intro elapsed _
  split
  · exact succeeds_ok x
  · exact succeeds_ok y

theorem reaches_of_lt (h : s.appliedSlot + 1 < 2 ^ 64) (slot : ℕ) :
    reaches s slot = .ok (decide (slot ≤ s.appliedSlot + 1)) := by
  rw [reaches, add_of_lt h]
  rfl

theorem succeeds_reaches {slot : ℕ} : Succeeds (reaches s slot) ↔ s.appliedSlot + 1 < 2 ^ 64 := by
  constructor
  · intro h
    obtain ⟨next, hnext, -⟩ := h.of_bind
    exact succeeds_add.1 ⟨next, hnext⟩
  · intro h
    exact ⟨_, reaches_of_lt h slot⟩

theorem succeeds_noteConnectionActivity (h : InRange o s) :
    Succeeds (noteConnectionActivity o s) ↔
      o.idleTimeoutMs = 0 ∨ s.tickCount * o.tickMs + o.idleTimeoutMs < 2 ^ 64 := by
  rw [noteConnectionActivity, mul_of_lt h.ticks, ok_bind]
  split
  · rename_i hzero
    exact ⟨fun _ => .inl hzero, fun _ => succeeds_ok 0⟩
  · rename_i hzero
    rw [succeeds_add]
    exact ⟨.inr, fun h => h.resolve_left hzero⟩

theorem awaitReady_of_not_serving (h : ¬s.Serving) (slot start : ℕ) :
    ∃ error, awaitReady o s slot start = .ok (.refused error) := by
  rw [awaitReady]
  cases hfailed : s.failed with
  | true => exact ⟨.unavailable, rfl⟩
  | false =>
    cases hleader : s.leader with
    | true => exact absurd ⟨hfailed, hleader⟩ h
    | false => exact ⟨.notLeader, rfl⟩

theorem awaitReady_of_serving (h : s.Serving) (slot start : ℕ) :
    awaitReady o s slot start = (do
      if ← reaches s slot then pure .ready
      else do
        let elapsed ← elapsedMs o s start
        if opTimeoutMs < elapsed then pure (.refused .opTimeoutQueued) else pure .wait) := by
  rw [awaitReady, h.1, h.2]
  rfl

theorem awaitReady_eq_ready {slot start : ℕ} (h : awaitReady o s slot start = .ok .ready) :
    s.Serving ∧ slot ≤ s.appliedSlot + 1 := by
  by_cases hserving : s.Serving
  · refine ⟨hserving, ?_⟩
    rw [awaitReady_of_serving hserving] at h
    obtain ⟨settled, hsettled, hrest⟩ := bind_eq_ok.1 h
    rw [reaches_of_lt (succeeds_reaches.1 ⟨settled, hsettled⟩)] at hsettled
    cases hsettled
    by_contra hnot
    rw [decide_eq_false hnot] at hrest
    obtain ⟨elapsed, -, hend⟩ := bind_eq_ok.1 hrest
    split at hend
    · cases hend
    · cases hend
  · obtain ⟨error, herror⟩ := awaitReady_of_not_serving (o := o) hserving slot start
    rw [herror] at h
    cases h

theorem awaitReady_ready {slot : ℕ} (hserving : s.Serving) (hroom : s.appliedSlot + 1 < 2 ^ 64)
    (hle : slot ≤ s.appliedSlot + 1) (start : ℕ) : awaitReady o s slot start = .ok .ready := by
  rw [awaitReady_of_serving hserving, reaches_of_lt hroom, decide_eq_true hle]
  rfl

theorem succeeds_awaitReady (h : InRange o s) (slot start : ℕ) :
    Succeeds (awaitReady o s slot start) ↔ (s.Serving → s.appliedSlot + 1 < 2 ^ 64) := by
  by_cases hserving : s.Serving
  · rw [awaitReady_of_serving hserving]
    constructor
    · intro hsucceeds _
      obtain ⟨settled, hsettled, -⟩ := hsucceeds.of_bind
      exact succeeds_reaches.1 ⟨settled, hsettled⟩
    · intro hroom
      apply (succeeds_reaches.2 (hroom hserving)).bind
      intro settled _
      cases settled with
      | true => exact succeeds_ok _
      | false => exact succeeds_timed h start (opTimeoutMs < ·) _ _
  · obtain ⟨error, herror⟩ := awaitReady_of_not_serving (o := o) hserving slot start
    rw [herror]
    exact ⟨fun _ hs => absurd hs hserving, fun _ => succeeds_ok _⟩

/-! ### Sessions -/

/-- The ids and sequences an update binds. -/
def UpdateSafe (session : Option (UInt64 × UInt64)) : Prop :=
  ∀ sessionId sequence, session = some (sessionId, sequence) →
    sessionId.toNat < 2 ^ 63 ∧ sequence.toNat + 1 < 2 ^ 63

/-- The comparison of `checkSession` with the row it has read. -/
theorem checkSession_of_row (h : InRange o s) (hstorage : s.storageFailed = false) (hlease : a.lease = none)
    {sessionId : UInt64} (hid : sessionId.toNat < 2 ^ 63) {row : SessionRow}
    (hrow : s.sessions sessionId.toNat = some row) (sequence : UInt64) :
    checkSession s a sessionId sequence =
      if row.lastSequence.map Int.toNat = some sequence.toNat then .ok .replay
      else if sequence.toNat < row.nextSequence.toNat then .ok (.refused .resultExpired)
      else if row.nextSequence.toNat < sequence.toNat then .ok (.refused .sequenceGap)
      else .ok .execute := by
  obtain ⟨hnext, hlast⟩ := h.sessions _ row hrow
  rw [checkSession, hstorage, hlease, cast_of_lt hid]
  simp only [Bool.false_eq_true, if_false, ok_bind, hrow, unsigned_of_nonneg hnext]
  cases hrowLast : row.lastSequence with
  | none => rfl
  | some last =>
    simp only [unsigned_of_nonneg (hlast last hrowLast).1, ok_bind]
    rfl

theorem cast_of_succeeds_checkSession (hstorage : s.storageFailed = false) (hlease : a.lease = none)
    {sessionId sequence : UInt64} (h : Succeeds (checkSession s a sessionId sequence)) :
    sessionId.toNat < 2 ^ 63 := by
  rw [checkSession, hstorage, hlease] at h
  obtain ⟨id, hid, -⟩ := h.of_bind
  exact succeeds_cast.1 ⟨id, hid⟩

theorem succeeds_checkSession (h : InRange o s) {sessionId : UInt64}
    (hid : s.storageFailed = false → sessionId.toNat < 2 ^ 63) (sequence : UInt64) :
    Succeeds (checkSession s a sessionId sequence) := by
  cases hstorage : s.storageFailed with
  | true =>
    rw [checkSession, hstorage]
    exact succeeds_ok _
  | false =>
    cases hlease : a.lease with
    | some error =>
      rw [checkSession, hstorage, hlease]
      exact succeeds_ok _
    | none =>
      have hlt := hid hstorage
      cases hrow : s.sessions sessionId.toNat with
      | none =>
        rw [checkSession, hstorage, hlease, cast_of_lt hlt]
        simp only [Bool.false_eq_true, if_false, ok_bind, hrow]
        exact succeeds_ok _
      | some row =>
        rw [checkSession_of_row h hstorage hlease hlt hrow]
        split
        · exact succeeds_ok _
        · split
          · exact succeeds_ok _
          · split
            · exact succeeds_ok _
            · exact succeeds_ok _

theorem row_of_checkSession (h : InRange o s) {sessionId sequence : UInt64}
    (hcheck : checkSession s a sessionId sequence = .ok .execute) :
    s.storageFailed = false ∧ sessionId.toNat < 2 ^ 63 ∧
      ∃ row, s.sessions sessionId.toNat = some row ∧ row.nextSequence = sequence.toNat := by
  cases hstorage : s.storageFailed with
  | true =>
    rw [checkSession, hstorage] at hcheck
    cases hcheck
  | false =>
    cases hlease : a.lease with
    | some error =>
      rw [checkSession, hstorage, hlease] at hcheck
      cases hcheck
    | none =>
      have hid := cast_of_succeeds_checkSession hstorage hlease ⟨_, hcheck⟩
      refine ⟨rfl, hid, ?_⟩
      cases hrow : s.sessions sessionId.toNat with
      | none =>
        rw [checkSession, hstorage, hlease, cast_of_lt hid] at hcheck
        simp only [Bool.false_eq_true, if_false, ok_bind, hrow] at hcheck
        cases hcheck
      | some row =>
        refine ⟨row, rfl, ?_⟩
        have hnext := (h.sessions _ row hrow).1
        rw [checkSession_of_row h hstorage hlease hid hrow] at hcheck
        split at hcheck
        · cases hcheck
        · split at hcheck
          · cases hcheck
          · split at hcheck
            · cases hcheck
            · omega

theorem checkSession_execute (h : InRange o s) (hstorage : s.storageFailed = false) (hlease : a.lease = none)
    {sessionId sequence : UInt64} (hid : sessionId.toNat < 2 ^ 63) {row : SessionRow}
    (hrow : s.sessions sessionId.toNat = some row) (hnext : row.nextSequence = sequence.toNat) :
    checkSession s a sessionId sequence = .ok .execute := by
  rw [checkSession_of_row h hstorage hlease hid hrow]
  have hlast : row.lastSequence.map Int.toNat ≠ some sequence.toNat := by
    intro hsame
    obtain ⟨last, hrowLast, hto⟩ := Option.map_eq_some_iff.1 hsame
    obtain ⟨hnonneg, hsucc⟩ := (h.sessions _ row hrow).2 last hrowLast
    omega
  rw [if_neg hlast, if_neg (by omega), if_neg (by omega)]

theorem succeeds_updateSession (sessionId sequence : UInt64) (changes : ℤ) :
    Succeeds (updateSession s sessionId sequence changes) ↔
      sessionId.toNat < 2 ^ 63 ∧ sequence.toNat + 1 < 2 ^ 63 := by
  constructor
  · intro h
    obtain ⟨next, hnext, h⟩ := h.of_bind
    obtain ⟨next', hnext', h⟩ := h.of_bind
    obtain ⟨last, -, h⟩ := h.of_bind
    obtain ⟨id, hid, -⟩ := h.of_bind
    rw [add_of_lt (succeeds_add.1 ⟨next, hnext⟩)] at hnext
    cases hnext
    exact ⟨succeeds_cast.1 ⟨id, hid⟩, succeeds_cast.1 ⟨next', hnext'⟩⟩
  · intro h
    rw [updateSession, add_of_lt (by omega), ok_bind, cast_of_lt h.2, ok_bind, cast_of_lt (by omega), ok_bind,
      cast_of_lt h.1]
    exact succeeds_ok _

/-! ### Writes -/

theorem captureSizes_eq {captured committed : ℕ} (hlt : captured < committed)
    (hcommitted : committed < 2 ^ 32) : captureSizes o captured committed = .ok () := by
  have hpage := o.page_le
  have hpages : (committed - captured) * o.pageSize ≤ 2 ^ 32 * 65536 :=
    Nat.mul_le_mul (by omega) hpage
  have hoffset : (committed - 1) * (24 + o.pageSize) ≤ 2 ^ 32 * 65560 :=
    Nat.mul_le_mul (by omega) (by omega)
  rw [captureSizes, mul_of_lt (by omega), ok_bind, add_of_lt (by omega), ok_bind, mul_of_lt (by omega), ok_bind,
    add_of_lt (by omega), ok_bind, mul_of_lt (by omega), ok_bind, add_of_lt (by omega), ok_bind,
    add_of_lt (by omega), ok_bind, add_of_lt (by omega)]
  rfl

/-- The capture and the append succeed, whatever the session row is. -/
theorem succeeds_captured (sessions : ℕ → Option SessionRow) :
    Succeeds (if a.committedFrames ≤ a.capturedFrames then
        (pure (s, .refused (.other "CaptureLost")) : Except Trap (State × Executed))
      else do
        captureSizes o a.capturedFrames.toNat a.committedFrames.toNat
        let _ ← Checked.cast .castTruncated 32 (a.committedFrames.toNat - a.capturedFrames.toNat)
        if !a.payloadFits then pure (s, .refused .transactionTooLarge)
        else
          match a.append with
          | .error error => pure (s, .refused error)
          | .ok slot => pure ({ s with sessions := sessions }, .appended slot)) := by
  split
  · exact succeeds_ok _
  · rename_i hnot
    have hlt : a.capturedFrames.toNat < a.committedFrames.toNat :=
      UInt32.lt_iff_toNat_lt.1 (UInt32.not_le.1 hnot)
    have hcommitted := a.committedFrames.toNat_lt
    rw [captureSizes_eq hlt hcommitted, ok_bind, cast_of_lt (by omega), ok_bind]
    split
    · exact succeeds_ok _
    · split
      · exact succeeds_ok _
      · exact succeeds_ok _

theorem succeeds_sealCapturedTransaction (changes : ℤ) (session : Option (UInt64 × UInt64)) :
    Succeeds (sealCapturedTransaction o s a changes session) ↔ UpdateSafe session := by
  cases session with
  | none =>
    constructor
    · intro _ sessionId sequence hsome
      cases hsome
    · intro _
      exact succeeds_captured s.sessions
  | some pair =>
    obtain ⟨sessionId, sequence⟩ := pair
    constructor
    · intro h sessionId' sequence' hsome
      cases hsome
      obtain ⟨sessions, hsessions, -⟩ := h.of_bind
      exact (succeeds_updateSession sessionId sequence changes).1 ⟨sessions, hsessions⟩
    · intro h
      apply ((succeeds_updateSession sessionId sequence changes).2 (h _ _ rfl)).bind
      intro sessions _
      exact succeeds_captured sessions

theorem succeeds_bindLengths {values : List (Prepared.Value R)} (h : BoundValues values) :
    Succeeds (bindLengths values) := by
  induction values with
  | nil => exact succeeds_ok ()
  | cons value values ih =>
    have hrest : Succeeds (bindLengths values) :=
      ih fun v hv => h v (List.mem_cons_of_mem value hv)
    have hbytes := h value List.mem_cons_self
    cases value with
    | text bytes =>
      rw [bindLengths, cast_of_lt (hbytes bytes (.inl rfl))]
      exact hrest
    | blob bytes =>
      rw [bindLengths, cast_of_lt (hbytes bytes (.inr rfl))]
      exact hrest
    | nullValue => exact hrest
    | integer _ => exact hrest
    | real _ => exact hrest

theorem succeeds_prepareRows {sql : List UInt8} (hsql : sql.length < 2 ^ 31)
    {rows : List (List (Prepared.Value R))} (h : ∀ values ∈ rows, BoundValues values) :
    Succeeds (prepareRows sql rows) := by
  induction rows with
  | nil => exact succeeds_ok ()
  | cons values rows ih =>
    rw [prepareRows, cast_of_lt hsql, ok_bind]
    apply (succeeds_bindLengths (h values List.mem_cons_self)).bind
    intro _ _
    exact ih fun v hv => h v (List.mem_cons_of_mem values hv)

theorem succeeds_prepareStatement {statement : Option (Statement R)}
    (h : ∀ st, statement = some st → st.Bound) : Succeeds (prepareStatement statement) := by
  cases statement with
  | none => exact succeeds_ok ()
  | some st =>
    obtain ⟨sql, rows⟩ := st
    obtain ⟨hsql, hrows⟩ := h _ rfl
    cases rows with
    | none => exact succeeds_ok ()
    | some rows => exact succeeds_prepareRows hsql (hrows rows rfl)

theorem succeeds_writeRequest {statement : Option (Statement R)} {session : Option (UInt64 × UInt64)}
    (hstatement : ∀ st, statement = some st → st.Bound) (hroom : s.appliedSlot + 1 < 2 ^ 64)
    (hsession : s.storageFailed = false → UpdateSafe session) :
    Succeeds (writeRequest o s a statement session) := by
  rw [writeRequest]
  cases hstorage : s.storageFailed with
  | true => exact succeeds_ok _
  | false =>
    cases a.writer with
    | some error => exact succeeds_ok _
    | none =>
      have hsettled : Succeeds (frontierSettled s) := by
        rw [frontierSettled]
        split
        · exact succeeds_reaches.2 hroom
        · exact succeeds_ok true
      apply hsettled.bind
      intro settled _
      cases settled with
      | false => exact succeeds_ok _
      | true =>
        apply (succeeds_prepareStatement hstatement).bind
        intro _ _
        cases a.sql with
        | error error => exact succeeds_ok _
        | ok changes =>
          exact (succeeds_sealCapturedTransaction changes session).2 (hsession hstorage)

/-- Answers that let a request through to its integers. -/
structure Answers.Smooth (a : Answers) : Prop where
  refusal : a.refusal = none
  granted : a.granted = true
  lease : a.lease = none
  writer : a.writer = none
  sql : ∃ changes, a.sql = .ok changes
  planSql : a.planSql = []

/-- At the frontier a write reaches the session update. -/
theorem updateSafe_of_writeRequest (ha : a.Smooth) (hstorage : s.storageFailed = false)
    (hleader : s.leader = true) (hle : s.proposalFrontier ≤ s.appliedSlot + 1)
    {statement : Option (Statement R)} {session : Option (UInt64 × UInt64)}
    (h : Succeeds (writeRequest o s a statement session)) : UpdateSafe session := by
  obtain ⟨changes, hsql⟩ := ha.sql
  rw [writeRequest, hstorage, ha.writer] at h
  obtain ⟨settled, hsettled, h⟩ := h.of_bind
  rw [frontierSettled, hleader] at hsettled
  have hreaches : reaches s s.proposalFrontier = .ok settled := hsettled
  rw [reaches_of_lt (succeeds_reaches.1 ⟨settled, hreaches⟩), decide_eq_true hle] at hreaches
  cases hreaches
  obtain ⟨u, -, h⟩ := h.of_bind
  rw [hsql] at h
  exact (succeeds_sealCapturedTransaction changes session).1 h

theorem succeeds_execute (h : InRange o s) {write : Write R} (hwrite : write.Bound)
    (hroom : s.appliedSlot + 1 < 2 ^ 64) (hsession : SessionSafe s write) :
    Succeeds (execute o s a write) := by
  have hplain : s.storageFailed = false → UpdateSafe none := by
    intro _ sessionId sequence hsome
    cases hsome
  cases write with
  | schema =>
    rw [execute]
    split
    · exact succeeds_ok _
    · apply succeeds_writeRequest _ hroom hplain
      intro st hst
      cases hst
  | expireSessions retain =>
    rw [execute]
    apply succeeds_writeRequest _ hroom hplain
    intro st hst
    cases hst
  | application session statement =>
    have hstatement : ∀ st, some statement = some st → st.Bound := by
      intro st hst
      cases hst
      exact hwrite
    cases session with
    | none => exact succeeds_writeRequest hstatement hroom hplain
    | some pair =>
      obtain ⟨sessionId, sequence⟩ := pair
      have hsafe : s.storageFailed = false →
          sessionId.toNat < 2 ^ 63 ∧
            ∀ row, s.sessions sessionId.toNat = some row → row.nextSequence = sequence.toNat →
              sequence.toNat + 1 < 2 ^ 63 := hsession
      rw [execute]
      apply (succeeds_checkSession h (fun hs => (hsafe hs).1) sequence).bind
      intro check hcheck
      cases check with
      | refused error => exact succeeds_ok _
      | replay => exact succeeds_ok _
      | execute =>
        apply succeeds_writeRequest hstatement hroom
        intro hstorage sessionId' sequence' hsome
        cases hsome
        obtain ⟨-, hid, row, hrow, hnext⟩ := row_of_checkSession h hcheck
        exact ⟨hid, (hsafe hstorage).2 row hrow hnext⟩

theorem sessionSafe_of_execute (h : InRange o s) (ha : a.Smooth) (hleader : s.leader = true)
    (hle : s.proposalFrontier ≤ s.appliedSlot + 1) {write : Write R}
    (hexecute : Succeeds (execute o s a write)) : SessionSafe s write := by
  cases write with
  | schema => trivial
  | expireSessions retain => trivial
  | application session statement =>
    cases session with
    | none => trivial
    | some pair =>
      obtain ⟨sessionId, sequence⟩ := pair
      intro hstorage
      rw [execute] at hexecute
      obtain ⟨check, hcheck, hrest⟩ := hexecute.of_bind
      have hid := cast_of_succeeds_checkSession hstorage ha.lease ⟨check, hcheck⟩
      refine ⟨hid, fun row hrow hnext => ?_⟩
      rw [checkSession_execute h hstorage ha.lease hid hrow hnext] at hcheck
      cases hcheck
      exact (updateSafe_of_writeRequest ha hstorage hleader hle hrest sessionId sequence rfl).2

/-! ### The writer gate -/

theorem succeeds_frontierTurn (h : InRange o s) {write : Write R} (hwrite : write.Bound)
    (hsafe : WriteSafe s write) (after : After R) (start : ℕ) :
    Succeeds (frontierTurn o s a write after start) := by
  rw [frontierTurn]
  apply ((succeeds_awaitReady h s.proposalFrontier start).2 fun hs => (hsafe hs).1).bind
  intro result hresult
  cases result with
  | refused error => exact succeeds_ok _
  | wait => exact succeeds_ok _
  | ready =>
    obtain ⟨hserving, hle⟩ := awaitReady_eq_ready hresult
    obtain ⟨hroom, hsession⟩ := hsafe hserving
    apply (succeeds_execute h hwrite hroom (hsession hle)).bind
    intro executed _
    exact succeeds_ok _

theorem writeSafe_of_frontierTurn (h : InRange o s) (ha : a.Smooth) {write : Write R} {after : After R}
    {start : ℕ} (hturn : Succeeds (frontierTurn o s a write after start)) : WriteSafe s write := by
  intro hserving
  rw [frontierTurn] at hturn
  obtain ⟨result, hresult, hrest⟩ := hturn.of_bind
  have hroom := (succeeds_awaitReady h _ start).1 ⟨result, hresult⟩ hserving
  refine ⟨hroom, fun hle => ?_⟩
  rw [awaitReady_ready hserving hroom hle] at hresult
  cases hresult
  obtain ⟨executed, hexecuted, -⟩ := hrest.of_bind
  exact sessionSafe_of_execute h ha hserving.2 hle ⟨executed, hexecuted⟩

theorem succeeds_passGate (h : InRange o s) {write : Write R} (hwrite : write.Bound)
    (hsafe : GateSafe waiters s write) (after : After R) (start : ℕ) :
    Succeeds (passGate o waiters s a write after start) := by
  rw [passGate]
  cases hfailed : s.failed with
  | true => exact succeeds_ok _
  | false =>
    cases hleader : s.leader with
    | false => exact succeeds_ok _
    | true =>
      cases hsealed : s.isSealed with
      | true => exact succeeds_ok _
      | false =>
        obtain ⟨hwaiters, hwriteSafe⟩ := hsafe hsealed
        rw [add_of_lt (hwaiters ⟨hfailed, hleader⟩)]
        exact succeeds_frontierTurn h hwrite hwriteSafe after start

theorem gateSafe_of_passGate (h : InRange o s) (ha : a.Smooth) {write : Write R} {after : After R} {start : ℕ}
    (hgate : Succeeds (passGate o waiters s a write after start)) : GateSafe waiters s write := by
  intro hsealed
  by_cases hserving : s.Serving
  · rw [passGate, hserving.1, hserving.2, hsealed] at hgate
    obtain ⟨w, hw, hrest⟩ := hgate.of_bind
    exact ⟨fun _ => succeeds_add.1 ⟨w, hw⟩, writeSafe_of_frontierTurn h ha hrest⟩
  · exact ⟨fun hs => absurd hs hserving, fun hs => absurd hs hserving⟩

theorem succeeds_runWrite (h : InRange o s) {write : Write R} (hwrite : write.Bound)
    (hsafe : GateSafe waiters s write) (after : After R) :
    Succeeds (runWrite o waiters s a write after) := by
  rw [runWrite]
  split
  · exact succeeds_ok _
  · split
    · exact succeeds_passGate h hwrite hsafe after s.tickCount
    · exact succeeds_ok _

theorem gateSafe_of_runWrite (h : InRange o s) (ha : a.Smooth) {write : Write R} {after : After R}
    (hturn : Succeeds (runWrite o waiters s a write after)) : GateSafe waiters s write := by
  rw [runWrite, ha.granted] at hturn
  split at hturn
  · rename_i hfailed
    intro _
    have hnot : ¬s.Serving := by
      intro hs
      rw [hs.1] at hfailed
      cases hfailed
    exact ⟨fun hs => absurd hs hnot, fun hs => absurd hs hnot⟩
  · exact gateSafe_of_passGate h ha hturn

theorem succeeds_queueTurn (h : InRange o s) {write : Write R} (hwrite : write.Bound)
    (hsafe : GateSafe waiters s write) (after : After R) (start : ℕ) :
    Succeeds (queueTurn o waiters s a write after start) := by
  rw [queueTurn]
  split
  · exact succeeds_passGate h hwrite hsafe after start
  · split
    · exact succeeds_ok _
    · exact succeeds_timed h start (opTimeoutMs < ·) _ _

theorem gateSafe_of_queueTurn (h : InRange o s) (ha : a.Smooth) {write : Write R} {after : After R} {start : ℕ}
    (hturn : Succeeds (queueTurn o waiters s a write after start)) : GateSafe waiters s write := by
  rw [queueTurn, ha.granted] at hturn
  exact gateSafe_of_passGate h ha hturn

theorem succeeds_outcomeTurn (h : InRange o s) (after : After R) (start : ℕ) :
    Succeeds (outcomeTurn o s a after start) := by
  rw [outcomeTurn]
  cases a.outcome with
  | succeeded => exact succeeds_ok _
  | conflict => exact succeeds_ok _
  | pending =>
    show Succeeds (if s.failed then _ else _)
    split
    · exact succeeds_ok _
    · exact succeeds_timed h start (opTimeoutMs < ·) _ _

end Turns

end Rpc

end Zaxonlite
