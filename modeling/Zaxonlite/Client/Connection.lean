import Zaxonlite.Node.LiveFlag

/-!
# The Python connection

A `Connection` keeps its own note of whether a live transaction is open beside the node's. Each of its methods
is a few native calls under the write lane; what the lane, the arguments, SQLite and the disk make of them are
the answers of the call. A native call that fails raises, and what the method would have done after it is
left undone.
-/

namespace Zaxonlite

namespace DbApi

open Program

/-! ### Native calls -/

/-- What SQLite makes of a statement of a live transaction. -/
inductive StatementOutcome where
  | done (stale : List WalFrame)
  | failed (stale : List WalFrame)
  /-- The error has rolled the whole transaction back. -/
  | ended (stale : List WalFrame)

/-- `statementInfo`, as far as it decides what is called. -/
structure Description where
  readOnly : Bool
  hasTail : Bool

/-- `beginLive`; `begun` says whether SQLite begins the transaction. -/
def liveBegin (stopPending begun : Bool) : LiveOp Unit := do
  let s ← get
  refuseLive (!s.machine.node.single) .clusterTransactionUnsupported
  refuseLive (!s.machine.node.capabilities.servesWrites) .roleCannotWrite
  refuseLive s.machine.node.liveTransaction .transactionOpen
  refuseLive s.machine.node.fatalStorageError .storageFailed
  doLive s.machine.node.needsResync resyncLive
  let s ← get
  refuseLive (s.machine.node.membershipChangePending || stopPending) .logSealed
  openLive
  let s ← get
  refuseLive s.machine.node.captureBatchId.isSome .writeInFlight
  if begun then onMachine (setNode fun n => { n with liveTransaction := true }) else throw .sqlite

/-- `liveExec`. -/
def liveExecute : StatementOutcome → LiveOp Unit
  | .done stale => liveExec false stale
  | .failed stale => do
    liveExec false stale
    throw .sqlite
  | .ended stale => liveExec true stale

def liveSavepointControl (done : Bool) : LiveOp Unit := do
  let s ← get
  refuseLive (!s.machine.node.liveTransaction) .noTransaction
  refuseLive s.machine.node.fatalStorageError .storageFailed
  if done then pure () else throw .sqlite

def readLive {α : Type} (answer : Option α) : LiveOp α := do
  let s ← get
  refuseLive (!s.machine.node.capabilities.servesReads) .roleCannotRead
  refuseLive s.machine.node.fatalStorageError .storageFailed
  doLive s.machine.node.needsResync resyncLive
  match answer with
  | none => throw .sqlite
  | some answer => pure answer

/-- What a one-shot write meets. -/
structure WriteAnswers where
  status : LogStatus
  statements : StatementRun
  core : AppendCore

def writeLive (a : WriteAnswers) : LiveOp Unit := do
  let s ← get
  refuseLive (!s.machine.node.capabilities.servesWrites) .roleCannotWrite
  let _ ← writeRequestLive a.status a.statements a.core
  pure ()

/-! ### The connection -/

structure Connection where
  node : LiveNode
  /-- `_transactional`. -/
  transactional : Bool
  /-- `_in_tx`. -/
  inTx : Bool
  /-- `_closed`. -/
  closed : Bool
  /-- The native handle is open and the data directory locked. -/
  handleOpen : Bool

inductive PyError where
  | native (error : LiveError)
  | programming
  | laneTimeout

abbrev PyOp (α : Type) := EStateM PyError Connection α

def opened (s : LiveNode) (transactional : Bool) : Connection where
  node := { s with machine := { s.machine with node := { s.machine.node with liveTransaction := false } } }
  transactional := transactional
  inTx := false
  closed := false
  handleOpen := true

/-- `_call`. -/
def native {α : Type} (x : LiveOp α) : PyOp α := fun c =>
  match x c.node with
  | .ok a s => .ok a { c with node := s }
  | .error e s => .error (.native e) { c with node := s }

@[simp] theorem wp_native {α : Type} (x : LiveOp α) (Q : α → Connection → Prop) (E : PyError → Connection → Prop)
    (c : Connection) :
    wp (native x) Q E c ↔ wp x (fun a s => Q a { c with node := s }) (fun e s => E (.native e) { c with node := s })
      c.node := by
  simp only [wp, native]
  cases x c.node <;> rfl

/-- The node lets an operation of a live transaction reach SQLite. -/
def admitsLive (s : LiveNode) : Bool :=
  s.live && !s.machine.node.fatalStorageError

/-- What a call is given and what its native calls meet. -/
structure Answers where
  sameThread : Bool
  /-- The lane admits the call before its timeout. -/
  admitted : Bool
  description : Option Description
  /-- The parameters fit the statement. -/
  resolved : Bool
  /-- The lookups of parameter names, each of them served or not. -/
  lookups : List (Option Unit)
  stopPending : Bool
  begun : Bool
  commit : StatementRun
  core : AppendCore
  rolledBack : Bool
  stale : List WalFrame
  /-- A read, or the statement of a savepoint, succeeds. -/
  served : Bool
  write : WriteAnswers

section Methods

variable (a : Answers)

def check : PyOp Unit := do
  let c ← get
  if c.closed || !a.sameThread then throw .programming else pure ()

def enter : PyOp Unit :=
  if a.admitted then pure () else throw .laneTimeout

def beginIfNeeded : PyOp Unit := do
  let c ← get
  if c.inTx then pure ()
  else
    native (liveBegin a.stopPending a.begun)
    modify fun c => { c with inTx := true }

def resolveParameters : PyOp Unit := do
  a.lookups.forM fun lookup => native (readLive lookup)
  if a.resolved then pure () else throw .programming

/-- `live_commit`, and the note that the transaction is over. -/
def commitNative : PyOp Unit := do
  let _ ← native (commitLiveTransaction a.stopPending a.commit a.core)
  modify fun c => { c with inTx := false }

def commit : PyOp Unit := do
  check a
  let c ← get
  if c.transactional && c.inTx then
    enter a
    commitNative a
  else pure ()

def rollback : PyOp Unit := do
  check a
  let c ← get
  if c.transactional && c.inTx then
    enter a
    native (rollbackLiveTransaction a.rolledBack a.stale)
    modify fun c => { c with inTx := false }
  else pure ()

/-- `close`. The note is cleared whether the rollback raises or not, the handle only when it does not. -/
def close : PyOp Unit := do
  let c ← get
  if c.closed then pure ()
  else
    check a
    enter a
    modify fun c => { c with closed := true }
    if c.transactional && c.inTx then
      onError (native (rollbackLiveTransaction a.rolledBack a.stale)) fun c => { c with inTx := false }
      modify fun c => { c with inTx := false }
    else pure ()
    modify fun c => { c with handleOpen := false }

def exit (raised : Bool) : PyOp Unit := do
  let c ← get
  if c.closed then pure () else if raised then rollback a else commit a

def cursorExecute (outcome : StatementOutcome) : PyOp Unit := do
  check a
  enter a
  let d ← native (readLive a.description)
  if d.hasTail then throw .programming
  else
    resolveParameters a
    let c ← get
    if c.transactional && (c.inTx || !d.readOnly) then
      beginIfNeeded a
      native (liveExecute outcome)
    else if d.readOnly then native (readLive (if a.served then some () else none))
    else native (writeLive a.write)

/-- `_cursor_executemany`: one outcome for each vector of parameters. -/
def cursorExecutemany (outcomes : List StatementOutcome) : PyOp Unit := do
  check a
  enter a
  let d ← native (readLive a.description)
  if d.hasTail || d.readOnly then throw .programming
  else
    resolveParameters a
    let c ← get
    if outcomes.isEmpty then pure ()
    else if c.transactional then
      beginIfNeeded a
      outcomes.forM fun outcome => native (liveExecute outcome)
    else native (writeLive a.write)

def cursorExecutescript : PyOp Unit := do
  check a
  enter a
  let c ← get
  if c.transactional && c.inTx then commitNative a else pure ()
  native (writeLive a.write)

def savepoint : PyOp Unit := do
  check a
  let c ← get
  if c.transactional then
    enter a
    beginIfNeeded a
    native (liveSavepointControl a.served)
  else throw .programming

/-- `_release_savepoint` and `_rollback_to_savepoint`. -/
def savepointControl : PyOp Unit := do
  check a
  enter a
  native (liveSavepointControl a.served)

end Methods

/-! ### Runs -/

inductive Call where
  | execute (outcome : StatementOutcome)
  | executemany (outcomes : List StatementOutcome)
  | executescript
  | savepoint
  | releaseSavepoint
  | rollbackToSavepoint
  | commit
  | rollback
  | exit (raised : Bool)
  | close

def Call.run (a : Answers) : Call → PyOp Unit
  | .execute outcome => cursorExecute a outcome
  | .executemany outcomes => cursorExecutemany a outcomes
  | .executescript => cursorExecutescript a
  | .savepoint => DbApi.savepoint a
  | .releaseSavepoint => savepointControl a
  | .rollbackToSavepoint => savepointControl a
  | .commit => DbApi.commit a
  | .rollback => DbApi.rollback a
  | .exit raised => DbApi.exit a raised
  | .close => DbApi.close a

/-- The calls that end a transaction. -/
def Call.finishes : Call → Bool
  | .commit => true
  | .rollback => true
  | .exit _ => true
  | _ => false

end DbApi

end Zaxonlite
