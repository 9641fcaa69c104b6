import Zaxonlite.Client.Remote
import Zaxonlite.Lib.Checked
import Zaxonlite.Registry.Lineage
import Zaxonlite.Wire.Request

/-!
# The integers of a request

A request carries unsigned integers of 64 and 32 bits. On their way they are compared with tick counts and
slots, multiplied by the tick length and bound into SQLite, whose integers are signed. Each operation here
is written turn by turn, a turn being what its thread does while it holds the server's mutex, with every
conversion, addition and product the source makes. What is not an integer of the request or of the server,
such as the outcome of the SQL, is an answer the turn is given.
-/

namespace Zaxonlite

namespace Rpc

/-- How an integer stops the server. -/
inductive Trap where
  | integerOverflow
  | castTruncated
  deriving DecidableEq

/-- The options and constants a turn reads, of the widths they have. -/
structure Options where
  tickMs : ℕ
  idleTimeoutMs : ℕ
  maxQueryRows : ℕ
  pageSize : ℕ
  page_le : pageSize ≤ 65536

/-- A row of `__zaxon_sessions`, signed as SQLite stores it. -/
structure SessionRow where
  nextSequence : ℤ
  lastSequence : Option ℤ
  lastChanges : ℤ

/-- What the turns read and write of the server and its node. -/
structure State where
  /-- `failed or isShutdown()`. -/
  failed : Bool
  leader : Bool
  /-- `currentLeader() != null`. -/
  knowsLeader : Bool
  voter : Bool
  single : Bool
  storageFailed : Bool
  /-- `membership_change_pending or stop_pending`. -/
  isSealed : Bool
  tickCount : ℕ
  appliedSlot : ℕ
  leaderBase : ℕ
  proposalFrontier : ℕ
  decidedThrough : ℕ
  observedLeaderDecided : ℕ
  learnerLastContactTick : Option ℕ
  nextFenceId : ℕ
  sessions : ℕ → Option SessionRow
  decided : Option Decided

/-- The replies, as far as they differ in their error codes. -/
inductive Reply where
  | ok
  | error (code : ErrorCode)
  | stale
  | forbidden
  | rejected
  deriving DecidableEq

/-- A statement of a write: the SQL alone, or with a row of values for each execution. -/
structure Statement (R : Type) where
  sql : List UInt8
  rows : Option (List (List (Prepared.Value R)))

/-- What a write runs inside the writer gate. -/
inductive Write (R : Type) where
  | schema
  | application (session : Option (UInt64 × UInt64)) (statement : Statement R)
  | expireSessions (retain : UInt64)

/-- How a wait for a decision or a quorum stands. -/
inductive Outcome where
  | pending
  | succeeded
  | conflict
  deriving DecidableEq

/-- What the code between the integers answers in one turn. -/
structure Answers where
  /-- A check of the request that reads no integer: authorization, format, parameters, shutdown. -/
  refusal : Option Reply
  schemaReady : Bool
  /-- The writer gate is this thread's. -/
  granted : Bool
  /-- An error before the session row is read. -/
  lease : Option ServerError
  /-- A refusal of the writer before any SQL runs: no room, another write, no connection. -/
  writer : Option ServerError
  /-- The change count of the caller's SQL. -/
  sql : Except ServerError ℤ
  /-- The frame counters before and after the commit. -/
  capturedFrames : UInt32
  committedFrames : UInt32
  payloadFits : Bool
  /-- The slot of the appended descriptor. -/
  append : Except ServerError ℕ
  /-- The batch is still waiting for its decision. -/
  inFlight : Bool
  outcome : Outcome
  /-- An error before the read's first row. -/
  read : Option Reply
  /-- The rows the statement yields. -/
  rows : UInt64
  /-- The SQL of a search plan: fixed texts and at most twenty-one identifiers of at most 128 bytes. -/
  planSql : List UInt8
  /-- The pending replacement: whether it is this one and whether it is proposed. -/
  pending : Option (Bool × Bool)
  plan_lt : planSql.length < 2 ^ 31

/-! ### Time and frontiers -/

def opTimeoutMs : ℕ := 10000

/-- `noteConnectionActivity`: the next idle deadline. -/
def noteConnectionActivity (o : Options) (s : State) : Except Trap ℕ :=
  if o.idleTimeoutMs = 0 then .ok 0
  else do
    let now ← Checked.mul .integerOverflow 64 s.tickCount o.tickMs
    Checked.add .integerOverflow 64 now o.idleTimeoutMs

def elapsedMs (o : Options) (s : State) (start : ℕ) : Except Trap ℕ :=
  Checked.mul .integerOverflow 64 (s.tickCount - start) o.tickMs

/-- `proposalFrontierSettled` and `inheritedPrefixApplied`, each with its slot. -/
def reaches (s : State) (slot : ℕ) : Except Trap Bool := do
  let next ← Checked.add .integerOverflow 64 s.appliedSlot 1
  pure (slot ≤ next)

inductive Turn where
  | ready
  | wait
  | refused (error : ServerError)

/-- One turn of `awaitReady`. -/
def awaitReady (o : Options) (s : State) (slot start : ℕ) : Except Trap Turn :=
  if s.failed then .ok (.refused .unavailable)
  else if !s.leader then .ok (.refused .notLeader)
  else do
    if ← reaches s slot then pure .ready
    else do
      let elapsed ← elapsedMs o s start
      if opTimeoutMs < elapsed then pure (.refused .opTimeoutQueued) else pure .wait

/-! ### Sessions -/

inductive SessionCheck where
  | execute
  | replay
  | refused (error : ServerError)

def checkSession (s : State) (a : Answers) (sessionId sequence : UInt64) : Except Trap SessionCheck :=
  if s.storageFailed then .ok (.refused .storageFailed)
  else
    match a.lease with
    | some error => .ok (.refused error)
    | none => do
      let id ← Checked.cast .castTruncated 63 sessionId.toNat
      match s.sessions id with
      | none => pure (.refused .unknownSession)
      | some row => do
        let next ← Checked.unsigned .castTruncated row.nextSequence
        let last ←
          match row.lastSequence with
          | none => pure none
          | some last => do
            let last ← Checked.unsigned .castTruncated last
            pure (some last)
        if last = some sequence.toNat then pure .replay
        else if sequence.toNat < next then pure (.refused .resultExpired)
        else if next < sequence.toNat then pure (.refused .sequenceGap)
        else pure .execute

/-- The session update of `sealCapturedTransaction`: four integers bound into SQLite. -/
def updateSession (s : State) (sessionId sequence : UInt64) (changes : ℤ) :
    Except Trap (ℕ → Option SessionRow) := do
  let next ← Checked.add .integerOverflow 64 sequence.toNat 1
  let next ← Checked.cast .castTruncated 63 next
  let last ← Checked.cast .castTruncated 63 sequence.toNat
  let id ← Checked.cast .castTruncated 63 sessionId.toNat
  pure (Function.update s.sessions id
    (some { nextSequence := next, lastSequence := some last, lastChanges := changes }))

/-! ### Writes -/

/-- How a write ended inside the node. -/
inductive Executed where
  | replayed
  | appended (slot : ℕ)
  | refused (error : ServerError)

/-- The sizes `readCommittedFrames` and `encodePayload` compute for the captured frames. -/
def captureSizes (o : Options) (captured committed : ℕ) : Except Trap Unit := do
  let pages ← Checked.mul .integerOverflow 64 (committed - captured) o.pageSize
  let frameSize ← Checked.add .integerOverflow 64 24 o.pageSize
  let offset ← Checked.mul .integerOverflow 64 (committed - 1) frameSize
  let _ ← Checked.add .integerOverflow 64 32 offset
  let infos ← Checked.mul .integerOverflow 64 (committed - captured) 8
  let header ← Checked.add .integerOverflow 64 36 32
  let head ← Checked.add .integerOverflow 64 header infos
  let _ ← Checked.add .integerOverflow 64 head pages
  pure ()

def sealCapturedTransaction (o : Options) (s : State) (a : Answers) (changes : ℤ)
    (session : Option (UInt64 × UInt64)) : Except Trap (State × Executed) := do
  let sessions ←
    match session with
    | none => pure s.sessions
    | some (sessionId, sequence) => updateSession s sessionId sequence changes
  if a.committedFrames ≤ a.capturedFrames then pure (s, .refused (.other "CaptureLost"))
  else do
    captureSizes o a.capturedFrames.toNat a.committedFrames.toNat
    let _ ← Checked.cast .castTruncated 32 (a.committedFrames.toNat - a.capturedFrames.toNat)
    if !a.payloadFits then pure (s, .refused .transactionTooLarge)
    else
      match a.append with
      | .error error => pure (s, .refused error)
      | .ok slot => pure ({ s with sessions := sessions }, .appended slot)

section Reals

variable {R : Type}

/-- The lengths `bind` passes to SQLite. -/
def bindLengths : List (Prepared.Value R) → Except Trap Unit
  | [] => .ok ()
  | .text bytes :: values => do
    let _ ← Checked.cast .castTruncated 31 bytes.length
    bindLengths values
  | .blob bytes :: values => do
    let _ ← Checked.cast .castTruncated 31 bytes.length
    bindLengths values
  | _ :: values => bindLengths values

def prepareRows (sql : List UInt8) : List (List (Prepared.Value R)) → Except Trap Unit
  | [] => .ok ()
  | values :: rows => do
    let _ ← Checked.cast .castTruncated 31 sql.length
    bindLengths values
    prepareRows sql rows

/-- The rows of a write, when its statement has any. -/
def prepareStatement (statement : Option (Statement R)) : Except Trap Unit :=
  match statement with
  | some { sql, rows := some rows } => prepareRows sql rows
  | _ => .ok ()

/-- The frontier as `writeRequest` checks it again. -/
def frontierSettled (s : State) : Except Trap Bool :=
  if s.leader then reaches s s.proposalFrontier else .ok true

def writeRequest (o : Options) (s : State) (a : Answers) (statement : Option (Statement R))
    (session : Option (UInt64 × UInt64)) : Except Trap (State × Executed) :=
  if s.storageFailed then .ok (s, .refused .storageFailed)
  else
    match a.writer with
    | some error => .ok (s, .refused error)
    | none => do
      if !(← frontierSettled s) then pure (s, .refused .leaderNotReady)
      else do
        prepareStatement statement
        match a.sql with
        | .error error => pure (s, .refused error)
        | .ok changes => sealCapturedTransaction o s a changes session

/-- What the writer gate runs: `bootstrapSchemaIfMissing`, `exec` and its prepared and idempotent forms, or
`expireSessions`. -/
def execute (o : Options) (s : State) (a : Answers) : Write R → Except Trap (State × Executed)
  | .schema =>
    if a.schemaReady then .ok (s, .replayed) else @writeRequest R o s a none none
  | .application none statement => writeRequest o s a (some statement) none
  | .application (some (sessionId, sequence)) statement => do
    match ← checkSession s a sessionId sequence with
    | .refused error => pure (s, .refused error)
    | .replay => pure (s, .replayed)
    | .execute => writeRequest o s a (some statement) (some (sessionId, sequence))
  | .expireSessions _ => @writeRequest R o s a none none

/-- What follows a write: its reply, or the request the schema was created for. -/
inductive After (R : Type) where
  | reply
  | resume (request : Request R)

/-- Where the thread of a connection stands. -/
inductive Phase (R : Type) where
  | idle
  | received (request : Request R)
  | dispatched (request : Request R)
  | bootstrapping (request : Request R)
  | bootstrapped (request : Request R)
  | queued (write : Write R) (after : After R) (start : ℕ)
  | frontier (write : Write R) (after : After R) (start : ℕ)
  | committing (after : After R) (start : ℕ)
  | readFrontier (level : Level) (freshnessMs : Option UInt64) (statement : Statement R) (start : ℕ)
  | fence (statement : Statement R) (start : ℕ)
  | waiting (minApplied : ℕ) (needLeader : Bool) (timeoutMs start : ℕ)
  | replied (reply : Reply)

def After.phase : After R → Phase R
  | .reply => .replied .ok
  | .resume request => .bootstrapped request

/-- An error reply of the write path. -/
def failWrite (error : ServerError) : Phase R :=
  .replied (.error (writeWriteError error))

/-- What `runWrite` does with the outcome of its write. -/
def finishWrite (s : State) (a : Answers) (after : After R) : Executed → Phase R
  | .refused error => failWrite error
  | .replayed => after.phase
  | .appended slot =>
    if s.single then after.phase
    else if a.inFlight then .committing after s.tickCount
    else if slot ≤ s.appliedSlot then after.phase
    else failWrite .ambiguous

/-- One turn at the leader's frontier, and the write itself once it is settled: the mutex is held from the
one to the other. -/
def frontierTurn (o : Options) (s : State) (a : Answers) (write : Write R) (after : After R)
    (start : ℕ) : Except Trap (State × Phase R) := do
  match ← awaitReady o s s.proposalFrontier start with
  | .refused error => pure (s, failWrite error)
  | .wait => pure (s, .frontier write after start)
  | .ready => do
    let executed ← execute o s a write
    pure (executed.1, finishWrite executed.1 a after executed.2)

/-- Through the writer gate. `waiters` threads wait at the frontier already. -/
def passGate (o : Options) (waiters : ℕ) (s : State) (a : Answers) (write : Write R) (after : After R)
    (start : ℕ) : Except Trap (State × Phase R) :=
  if s.failed then .ok (s, failWrite .unavailable)
  else if !s.leader then .ok (s, failWrite .notLeader)
  else if s.isSealed then .ok (s, failWrite .logSealed)
  else do
    let _ ← Checked.add .integerOverflow 32 waiters 1
    frontierTurn o s a write after start

/-- The first turn of `runWrite`. -/
def runWrite (o : Options) (waiters : ℕ) (s : State) (a : Answers) (write : Write R) (after : After R) :
    Except Trap (State × Phase R) :=
  if s.failed then .ok (s, failWrite .unavailable)
  else if a.granted then passGate o waiters s a write after s.tickCount
  else .ok (s, .queued write after s.tickCount)

def queueTurn (o : Options) (waiters : ℕ) (s : State) (a : Answers) (write : Write R) (after : After R)
    (start : ℕ) : Except Trap (State × Phase R) :=
  if a.granted then passGate o waiters s a write after start
  else if s.failed then .ok (s, failWrite .unavailable)
  else do
    let elapsed ← elapsedMs o s start
    if opTimeoutMs < elapsed then pure (s, failWrite .opTimeoutQueued)
    else pure (s, .queued write after start)

/-- A turn of `WriteWaiter.awaitOutcome`. -/
def outcomeTurn (o : Options) (s : State) (a : Answers) (after : After R) (start : ℕ) :
    Except Trap (State × Phase R) :=
  match a.outcome with
  | .succeeded => .ok (s, after.phase)
  | .conflict => .ok (s, failWrite .ambiguous)
  | .pending =>
    if s.failed then .ok (s, failWrite .ambiguous)
    else do
      let elapsed ← elapsedMs o s start
      if opTimeoutMs < elapsed then pure (s, failWrite .opTimeout)
      else pure (s, .committing after start)

/-! ### Reads -/

/-- The rows `materializeReadStatement` takes; `none` is `QueryRowLimit`. -/
def chargeRows (limit : ℕ) : ℕ → ℕ → Except Trap (Option Unit)
  | _, 0 => .ok (some ())
  | used, rows + 1 =>
    if limit ≠ 0 ∧ limit ≤ used then .ok none
    else do
      let used ← Checked.add .integerOverflow 64 used 1
      chargeRows limit used rows

def readRows (o : Options) (a : Answers) (statement : Statement R) : Except Trap Reply :=
  match a.read with
  | some reply => .ok reply
  | none => do
    prepareRows statement.sql (statement.rows.getD [])
    match ← chargeRows o.maxQueryRows 0 a.rows.toNat with
    | some _ => pure .ok
    | none => pure (.error .sql)

/-- A turn of `FenceWaiter.awaitQuorum`, and the read once the fence is confirmed. -/
def fenceTurn (o : Options) (s : State) (a : Answers) (statement : Statement R) (start : ℕ) :
    Except Trap (State × Phase R) :=
  match a.outcome with
  | .pending =>
    if s.failed then .ok (s, .replied (.error .unavailable))
    else do
      let elapsed ← elapsedMs o s start
      if opTimeoutMs < elapsed then pure (s, .replied (.error .timeout))
      else pure (s, .fence statement start)
  | .conflict => .ok (s, .replied (.error (if s.failed then .unavailable else .retry)))
  | .succeeded =>
    if s.failed then .ok (s, .replied (.error .unavailable))
    else do
      let reply ← readRows o a statement
      pure (s, .replied reply)

/-- `awaitReadFence` up to its wait. -/
def openFence (s : State) (statement : Statement R) : Except Trap (State × Phase R) :=
  if s.failed then .ok (s, .replied (.error .unavailable))
  else do
    let base ← Checked.sub .integerOverflow s.leaderBase 1
    let _fenceSlot := max s.decidedThrough base
    let nextFenceId ← Checked.add .integerOverflow 64 s.nextFenceId 1
    pure ({ s with nextFenceId := nextFenceId }, .fence statement s.tickCount)

/-- The freshness bound of a learner: the reply of a read that is too old. -/
def checkFreshness (o : Options) (s : State) (freshnessMs : Option UInt64) : Except Trap (Option Reply) :=
  match freshnessMs with
  | none => .ok none
  | some maximum =>
    if s.voter then .ok none
    else
      match s.learnerLastContactTick with
      | none => .ok (some .stale)
      | some contact => do
        let elapsed ← elapsedMs o s contact
        if maximum.toNat < elapsed ∨ s.appliedSlot < s.observedLeaderDecided then pure (some .stale)
        else pure none

/-- `runReadQuery` once the leader's frontier is settled, or when it does not matter. -/
def serveRead (o : Options) (s : State) (a : Answers) (level : Level) (freshnessMs : Option UInt64)
    (statement : Statement R) : Except Trap (State × Phase R) :=
  if freshnessMs.isSome ∧ level ≠ .any then .ok (s, .replied (.error .badRequest))
  else do
    match ← checkFreshness o s freshnessMs with
    | some reply => pure (s, .replied reply)
    | none =>
      if level = .linearizable ∧ s.single = false then openFence s statement
      else do
        let reply ← readRows o a statement
        pure (s, .replied reply)

def readFrontierTurn (o : Options) (s : State) (a : Answers) (level : Level) (freshnessMs : Option UInt64)
    (statement : Statement R) (start : ℕ) : Except Trap (State × Phase R) := do
  match ← awaitReady o s s.leaderBase start with
  | .refused .opTimeoutQueued => pure (s, failWrite .leaderNotReady)
  | .refused error => pure (s, failWrite error)
  | .wait => pure (s, .readFrontier level freshnessMs statement start)
  | .ready => serveRead o s a level freshnessMs statement

def runReadQuery (o : Options) (waiters : ℕ) (s : State) (a : Answers) (level : Level)
    (freshnessMs : Option UInt64) (statement : Statement R) : Except Trap (State × Phase R) :=
  if s.failed then .ok (s, .replied (.error .unavailable))
  else if level ≠ .any ∧ s.leader = false then .ok (s, .replied (.error .notLeader))
  else if level ≠ .any then do
    let _ ← Checked.add .integerOverflow 32 waiters 1
    readFrontierTurn o s a level freshnessMs statement s.tickCount
  else serveRead o s a level freshnessMs statement

/-! ### The operations -/

/-- `typedFormat`; `none` is an error reply. -/
def typedFormat (request : Request R) : Option Bool :=
  match request.format with
  | some format => if format = asciiBytes "typed-v1" then some true else none
  | none => if request.params.isSome ∨ request.paramBatch.isSome then none else some false

def maximumStatements : ℕ := 1024

/-- The statement of an exec request, its parameters decoded; `none` is an error reply. -/
def execStatement (request : Request R) (sql : List UInt8) (typed : Bool) : Option (Statement R) :=
  if !typed then some { sql := sql, rows := none }
  else
    match request.paramBatch, request.params with
    | some _, some _ => none
    | some batch, none =>
      if batch = [] ∨ maximumStatements < batch.length then none
      else (batch.mapM decodeWireParams).map fun rows => { sql := sql, rows := some rows }
    | none, params =>
      (decodeWireParams (params.getD [])).map fun values => { sql := sql, rows := some [values] }

/-- A malformed request of the operation. -/
def badRequest (s : State) : Except Trap (State × Phase R) :=
  .ok (s, .replied (.error .badRequest))

def execSession (request : Request R) : Option (UInt64 × UInt64) :=
  match request.session, request.sequence with
  | some sessionId, some sequence => some (sessionId, sequence)
  | _, _ => none

/-- The write of an exec or expire-sessions request; `none` is an error reply. -/
def requestWrite (request : Request R) : Option (Write R) :=
  if request.op = asciiBytes "exec" then do
    let statement ← execStatement request (← request.sql) (← typedFormat request)
    pure (.application (execSession request) statement)
  else request.retain.map Write.expireSessions

/-- `opExec` and `opExpireSessions` once the schema exists. -/
def resume (o : Options) (waiters : ℕ) (s : State) (a : Answers) (request : Request R) :
    Except Trap (State × Phase R) :=
  match requestWrite request with
  | none => badRequest s
  | some write => runWrite o waiters s a write .reply

/-- `ensureSchemaForWrite`. The mutex is released before the schema is written. -/
def ensureSchemaForWrite (s : State) (a : Answers) (request : Request R) :
    Except Trap (State × Phase R) :=
  if a.schemaReady then .ok (s, .bootstrapped request)
  else if !s.leader then .ok (s, failWrite .notLeader)
  else .ok (s, .bootstrapping request)

/-- `opExec` up to the schema. -/
def opExec (s : State) (a : Answers) (request : Request R) : Except Trap (State × Phase R) :=
  if request.sql.isNone ∨ request.session.isNone ≠ request.sequence.isNone ∨ (typedFormat request).isNone then
    badRequest s
  else ensureSchemaForWrite s a request

/-- `opExpireSessions` up to the schema. -/
def opExpireSessions (s : State) (a : Answers) (request : Request R) : Except Trap (State × Phase R) :=
  if request.retain.isNone then badRequest s else ensureSchemaForWrite s a request

/-- The level of a read; linearizable when the request names none. -/
def parseLevel (level : Option (List UInt8)) : Option Level :=
  match level with
  | none => some .linearizable
  | some text =>
    if text = asciiBytes "any" then some .any
    else if text = asciiBytes "leader" then some .leader
    else if text = asciiBytes "linearizable" then some .linearizable
    else none

/-- The read of a query request; `none` is an error reply. -/
def queryRead (request : Request R) : Option (Level × Statement R) := do
  let sql ← request.sql
  let values ← decodeWireParams (request.params.getD [])
  let level ← parseLevel request.level
  let _ ← typedFormat request
  pure (level, { sql := sql, rows := some [values] })

def opRead (o : Options) (waiters : ℕ) (s : State) (a : Answers) (request : Request R)
    (read : Option (Level × Statement R)) : Except Trap (State × Phase R) :=
  match read with
  | none => badRequest s
  | some (level, statement) => runReadQuery o waiters s a level request.freshnessMs statement

def opQuery (o : Options) (waiters : ℕ) (s : State) (a : Answers) (request : Request R) :
    Except Trap (State × Phase R) :=
  if 1024 * 1024 < (request.sql.getD []).length then .ok (s, .replied (.error .tooLarge))
  else opRead o waiters s a request (queryRead request)

def candidateHardLimit : ℕ := 4096

/-- `defaultCandidateCount`; the product saturates. -/
def defaultCandidateCount (k : ℕ) : ℕ :=
  min (max (min (8 * k) (2 ^ 32 - 1)) 64) candidateHardLimit

/-- The bounds of `validate`: the result and candidate counts of a search. -/
def searchCounts (request : Request R) : Option (ℕ × ℕ) :=
  let k := (request.k.map UInt32.toNat).getD 10
  let candidates := (request.candidateCount.map UInt32.toNat).getD (defaultCandidateCount k)
  if 1 ≤ k ∧ k ≤ candidateHardLimit ∧ 1 ≤ candidates ∧ candidates ≤ candidateHardLimit then
    some (k, candidates)
  else none

/-- What a search plan binds: the text and the embedding beside the counts. -/
def searchValues (request : Request R) (counts : ℕ × ℕ) : List (Prepared.Value R) :=
  (request.text.toList.map Prepared.Value.text) ++
    (((request.embedding.bind Base64.decode).toList.map Prepared.Value.blob) ++
      [.integer (Int64.ofNat counts.1), .integer (Int64.ofNat counts.2)])

/-- The read of a search request, its SQL being the plan's; `none` is an error reply. -/
def searchRead (request : Request R) (planSql : List UInt8) : Option (Level × Statement R) := do
  let counts ← searchCounts request
  let level ← parseLevel request.level
  let _ ← typedFormat request
  pure (level, { sql := planSql, rows := some [searchValues request counts] })

def opSearch (o : Options) (waiters : ℕ) (s : State) (a : Answers) (request : Request R) :
    Except Trap (State × Phase R) :=
  opRead o waiters s a request (searchRead request a.planSql)

/-- A turn of the loop of `opWait`. -/
def waitTurn (o : Options) (s : State) (minApplied : ℕ) (needLeader : Bool) (timeoutMs start : ℕ) :
    Except Trap (State × Phase R) :=
  if s.failed then .ok (s, .replied (.error .unavailable))
  else if minApplied ≤ s.appliedSlot ∧ (needLeader = true → s.knowsLeader = true) then .ok (s, .replied .ok)
  else do
    let elapsed ← elapsedMs o s start
    if timeoutMs ≤ elapsed then pure (s, .replied (.error .timeout))
    else pure (s, .waiting minApplied needLeader timeoutMs start)

def opWait (o : Options) (s : State) (request : Request R) : Except Trap (State × Phase R) := do
  let minApplied ← Checked.cast .castTruncated 64 ((request.applied.map UInt64.toNat).getD 0)
  waitTurn o s minApplied (request.leader.getD false)
    ((request.timeoutMs.map UInt64.toNat).getD opTimeoutMs) s.tickCount

/-- The replacement a request describes; `none` is a missing field. -/
def replacementRequest (request : Request R) : Option ReplacementRequest := do
  let operation ← request.operation
  let expected ← request.expectedConfig
  let old ← request.oldNode
  let new ← request.newNode
  let endpoint ← request.endpoint
  pure
    { operationId := operation.toNat
      expectedConfigurationId := expected.toNat
      oldNodeId := old.toNat
      newNodeId := new.toNat
      newEndpoint := endpoint
      operationId_le := Nat.le_sub_one_of_lt operation.toNat_lt
      oldNodeId_le := Nat.le_sub_one_of_lt old.toNat_lt
      newNodeId_le := Nat.le_sub_one_of_lt new.toNat_lt }

/-- `prepareReplacement`: the next registry has the next configuration id. -/
def prepareReplacement (a : Answers) (decided : Decided) (replacement : ReplacementRequest) :
    Except Trap Bool :=
  match decided.validateRequest replacement with
  | .ok .fresh =>
    match a.writer with
    | some _ => .ok false
    | none => do
      let _ ← Checked.add .integerOverflow 64 decided.configurationId 1
      pure true
  | _ => .ok false

def replaceVoterLocked (s : State) (a : Answers) (replacement : ReplacementRequest) : Except Trap Reply :=
  match s.decided with
  | none => .ok .rejected
  | some decided =>
    match decided.validateRequest replacement with
    | .error _ => .ok .rejected
    | .ok (.retry _) => .ok .ok
    | .ok .fresh =>
      if !s.leader then .ok (.error .notLeader)
      else
        match a.pending with
        | some (false, _) => .ok .rejected
        | some (true, true) => do
          let _ ← Checked.add .integerOverflow 64 decided.configurationId 1
          pure .ok
        | _ => do
          if ← prepareReplacement a decided replacement then do
            let _ ← Checked.add .integerOverflow 64 decided.configurationId 1
            pure .ok
          else pure .rejected

def opReplaceVoter (s : State) (a : Answers) (request : Request R) : Except Trap (State × Phase R) :=
  match replacementRequest request with
  | none => badRequest s
  | some replacement => do
    let reply ← replaceVoterLocked s a replacement
    pure (s, .replied reply)

/-- `dispatch`, for the operations that carry integers. -/
def dispatch (o : Options) (waiters : ℕ) (s : State) (a : Answers) (request : Request R) :
    Except Trap (State × Phase R) :=
  match a.refusal with
  | some reply => .ok (s, .replied reply)
  | none =>
    if request.op = asciiBytes "exec" then opExec s a request
    else if request.op = asciiBytes "query" then opQuery o waiters s a request
    else if request.op = asciiBytes "search" then opSearch o waiters s a request
    else if request.op = asciiBytes "wait" then opWait o s request
    else if request.op = asciiBytes "expire-sessions" then opExpireSessions s a request
    else if request.op = asciiBytes "replace-voter" then opReplaceVoter s a request
    else badRequest s

/-- **One turn of a connection's thread.** -/
def turn (o : Options) (waiters : ℕ) (s : State) (a : Answers) : Phase R → Except Trap (State × Phase R)
  | .idle => .ok (s, .idle)
  | .received request => do
    let _ ← noteConnectionActivity o s
    pure (s, .dispatched request)
  | .dispatched request => dispatch o waiters s a request
  | .bootstrapping request => runWrite o waiters s a .schema (.resume request)
  | .bootstrapped request => resume o waiters s a request
  | .queued write after start => queueTurn o waiters s a write after start
  | .frontier write after start => frontierTurn o s a write after start
  | .committing after start => outcomeTurn o s a after start
  | .readFrontier level freshnessMs statement start =>
    readFrontierTurn o s a level freshnessMs statement start
  | .fence statement start => fenceTurn o s a statement start
  | .waiting minApplied needLeader timeoutMs start => waitTurn o s minApplied needLeader timeoutMs start
  | .replied reply => .ok (s, .replied reply)

end Reals

end Rpc

end Zaxonlite
