import Mathlib.Algebra.GroupWithZero.Nat
import Zaxonlite.Client.RowIds

/-!
# Live and one-shot transactions

A list of prepared statements reaches the log in one call, `execTransaction`, or in several: `beginLive`,
`liveExec` for each statement and `commitLive`. Both run the statements in one transaction of the writer
connection and end in `sealCapturedTransaction`. They differ in what refuses them before.
-/

namespace Zaxonlite

namespace Transactions

open Program

/-! ### The builder -/

inductive Value where
  | null
  | integer (number : ℤ)
  | real (bits : ℕ)
  | text (bytes : List UInt8)
  | blob (bytes : List UInt8)

structure Statement where
  sql : List UInt8
  values : List Value

def maximumStatements : ℕ := 1024

def maximumInputBytes : ℕ := 64 * 1024 * 1024

/-- `valueBytes`. A value without bytes of its own counts as the union it is stored in. -/
def valueBytes : Value → ℕ
  | .text bytes => bytes.length
  | .blob bytes => bytes.length
  | _ => 24

def Statement.addedBytes (statement : Statement) : ℕ :=
  statement.sql.length + (statement.values.map valueBytes).sum

inductive BuildError where
  | transactionFinished
  | tooManyStatements
  | transactionInputTooLarge
  | emptyTransaction
  deriving DecidableEq

/-- `prepared.Transaction`. -/
structure Builder where
  statements : List Statement
  inputBytes : ℕ
  finished : Bool

namespace Builder

def init : Builder where
  statements := []
  inputBytes := 0
  finished := false

def exec (t : Builder) (statement : Statement) : Except BuildError Builder :=
  if t.finished then .error .transactionFinished
  else if maximumStatements ≤ t.statements.length then .error .tooManyStatements
  else if maximumInputBytes < t.inputBytes + statement.addedBytes then .error .transactionInputTooLarge
  else .ok
    { t with
      statements := t.statements ++ [statement]
      inputBytes := t.inputBytes + statement.addedBytes }

def markFinished (t : Builder) : Except BuildError Builder :=
  if t.finished then .error .transactionFinished
  else if t.statements = [] then .error .emptyTransaction
  else .ok { t with finished := true }

def build (statements : List Statement) : Except BuildError Builder :=
  statements.foldlM exec init

end Builder

/-! ### SQLite -/

/-- SQLite behind the writer connection. The pages a commit writes are settled by where the transaction starts
and where it ends. -/
structure Engine where
  State : Type
  /-- A transaction over what the connection sees. -/
  opened : File → State
  /-- A prepared statement that succeeds, with the rows it changes. -/
  execute : Statement → State → Option (State × ℕ)
  /-- A statement that fails rolls the whole transaction back. -/
  aborts : Statement → State → Bool
  /-- What of the transaction is in the WAL file already. -/
  spilled : State → List WalFrame
  /-- Nothing has changed that capturing relies on. -/
  contract : State → Bool
  /-- The batch marker is written. -/
  marked : ℕ → State → State
  frames : File → State → CommittedFrames

/-- The transaction that is open on the writer connection. -/
structure OpenTransaction (E : Engine) where
  start : File
  state : E.State
  /-- The savepoints, the newest first. -/
  savepoints : List (ℕ × E.State)

/-- A node with what SQLite keeps for its writer connection. -/
structure Session (E : Engine) where
  node : LiveNode
  transaction : Option (OpenTransaction E)
  /-- `totalChanges`, without the node's own rows. -/
  totalChanges : ℤ
  /-- `live_changes_base`. -/
  liveChangesBase : ℤ
  /-- `live_batch_id_bytes`. -/
  liveBatchId : ℕ

inductive SessionError where
  | live (error : LiveError)
  | build (error : BuildError)
  | captureContractViolated
  deriving DecidableEq

variable {E : Engine}

namespace Session

/-- `begin immediate`. -/
def begun (s : Session E) : Session E :=
  { s with transaction := some ⟨s.node.machine.disk.live, E.opened s.node.machine.disk.live, []⟩ }

/-- `rollback`. -/
def rolledBack (s : Session E) : Session E :=
  { s with transaction := none }

/-- The open transaction is at a new state, and some rows were changed. -/
def advanced (s : Session E) (t : OpenTransaction E) (state : E.State) (changes : ℕ) : Session E :=
  { s with
    node := s.node.rollback (E.spilled state)
    transaction := some { t with state := state }
    totalChanges := s.totalChanges + changes }

end Session

abbrev SessionOp (E : Engine) (α : Type) := EStateM SessionError (Session E) α

def onNode {α : Type} (x : LiveOp α) : SessionOp E α := fun s =>
  match x s.node with
  | .ok a node => .ok a { s with node := node }
  | .error e node => .error (.live e) { s with node := node }

@[simp] theorem wp_onNode {α : Type} (x : LiveOp α) (Q : α → Session E → Prop)
    (Err : SessionError → Session E → Prop) (s : Session E) :
    wp (onNode x) Q Err s ↔ wp x (fun a node => Q a { s with node := node })
      (fun e node => Err (.live e) { s with node := node }) s.node := by
  simp only [wp, onNode]
  cases x s.node <;> rfl

/-- Fail with an error of the node when a condition holds. -/
def refuse (c : Bool) (e : NodeError) : SessionOp E Unit :=
  onNode (refuseLive c e)

@[simp] theorem wp_refuse (c : Bool) (e : NodeError) (Q : Unit → Session E → Prop)
    (Err : SessionError → Session E → Prop) (s : Session E) :
    wp (refuse c e) Q Err s ↔ (c = true → Err (.live (.node e)) s) ∧ (c = false → Q () s) := by
  rw [refuse, wp_onNode, wp_refuseLive]

def ofBuild {α : Type} (x : Except BuildError α) : SessionOp E α :=
  match x with
  | .ok a => pure a
  | .error e => throw (.build e)

/-! ### Statements -/

/-- One prepared statement on the writer connection. -/
def step (statement : Statement) : SessionOp E Unit := do
  let s ← get
  match s.transaction with
  | none => throw (.live .sqlite)
  | some t =>
    match E.execute statement t.state with
    | some (state, changes) => modify fun s => s.advanced t state changes
    | none =>
      if E.aborts statement t.state then modify Session.rolledBack
      throw (.live .sqlite)

def verifyCaptureContract : SessionOp E Unit := do
  let s ← get
  if s.transaction.any fun t => E.contract t.state then pure () else throw .captureContractViolated

/-- `sealCapturedTransaction`: SQLite commits, and the node takes it from there. -/
def sealTransaction (batchId : ℕ) (changes : ℤ) (run : CommitRun) (core : AppendCore) : SessionOp E ℕ := do
  let s ← get
  match s.transaction with
  | none => throw (.live .sqlite)
  | some t =>
    modify Session.rolledBack
    onNode (sealLive ⟨batchId, 0, 0, changes, E.frames t.start (E.marked batchId t.state)⟩ run core)

/-! ### In one call -/

/-- What a transaction meets: the log and the storage budget, the batch identity drawn for it, the commit and
the core. -/
structure Answers where
  status : LogStatus
  batchId : ℕ
  run : CommitRun
  core : AppendCore

/-- `writeRequest`, for the application's prepared statements. -/
def writePrepared (statements : List Statement) (a : Answers) : SessionOp E ℕ := do
  onNode (admitLive a.status)
  modify Session.begun
  let before ← get
  onError (do
    statements.forM step
    verifyCaptureContract
    let after ← get
    sealTransaction a.batchId (after.totalChanges - before.totalChanges) a.run a.core) Session.rolledBack

def execTransaction (t : Builder) (a : Answers) : SessionOp E ℕ := do
  let s ← get
  refuse (!s.node.machine.node.capabilities.servesWrites) .roleCannotWrite
  let t ← ofBuild t.markFinished
  writePrepared t.statements a

/-- A list of statements put into a builder and executed. -/
def oneShot (statements : List Statement) (a : Answers) : SessionOp E ℕ := do
  let t ← ofBuild (Builder.build statements)
  execTransaction t a

/-! ### In several calls -/

def beginLive (stopPending : Bool) (batchId : ℕ) : SessionOp E Unit := do
  onNode (beginLiveTransaction stopPending)
  modify fun s => { s.begun with liveChangesBase := s.totalChanges, liveBatchId := batchId }

/-- The live transaction is over when SQLite says it is. -/
def Session.reflected (s : Session E) : Session E :=
  if s.transaction.isSome then s
  else { s with
    node := { s.node with
      machine := { s.node.machine with node := { s.node.machine.node with liveTransaction := false } } } }

/-- `liveExec`: returns the rows the statement changed. -/
def liveExec (statement : Statement) : SessionOp E ℤ := do
  let before ← get
  refuse (!before.node.live) .noTransaction
  refuse before.node.machine.node.fatalStorageError .storageFailed
  onError (step statement) Session.reflected
  let after ← get
  pure (after.totalChanges - before.totalChanges)

/-- `liveSavepointControl`, for what the statement makes of the open transaction. -/
def liveSavepointControl (f : OpenTransaction E → Option (OpenTransaction E)) : SessionOp E Unit := do
  let s ← get
  refuse (!s.node.live) .noTransaction
  refuse s.node.machine.node.fatalStorageError .storageFailed
  match s.transaction.bind f with
  | none => throw (.live .sqlite)
  | some t => modify fun s => { s with transaction := some t }

def liveSavepoint (index : ℕ) : SessionOp E Unit :=
  liveSavepointControl fun t => some { t with savepoints := (index, t.state) :: t.savepoints }

/-- The savepoints from the newest of this name on. -/
def OpenTransaction.since (t : OpenTransaction E) (index : ℕ) : List (ℕ × E.State) :=
  t.savepoints.dropWhile fun savepoint => savepoint.1 != index

def liveReleaseSavepoint (index : ℕ) : SessionOp E Unit :=
  liveSavepointControl fun t =>
    match t.since index with
    | [] => none
    | _ :: older => some { t with savepoints := older }

def liveRollbackToSavepoint (index : ℕ) : SessionOp E Unit :=
  liveSavepointControl fun t =>
    match t.since index with
    | [] => none
    | savepoint :: older => some { t with state := savepoint.2, savepoints := savepoint :: older }

def commitLive (stopPending : Bool) (run : CommitRun) (core : AppendCore) : SessionOp E ℕ := do
  let s ← get
  refuse (!s.node.live) .noTransaction
  refuse s.node.machine.node.fatalStorageError .storageFailed
  refuse stopPending .logSealed
  onNode (onMachine (setNode fun n => { n with liveTransaction := false }))
  onError (do
    verifyCaptureContract
    sealTransaction s.liveBatchId (s.totalChanges - s.liveChangesBase) run core) Session.rolledBack

/-- `rollbackLive`, given whether SQLite rolls back. -/
def rollbackLive (rolledBack : Bool) : SessionOp E Unit := do
  onNode (onMachine (Zaxonlite.rollbackLive rolledBack))
  modify Session.rolledBack

/-- `beginLive`, `liveExec` of each statement and `commitLive`. -/
def liveTransaction (statements : List Statement) (a : Answers) : SessionOp E ℕ := do
  beginLive a.status.stopPending a.batchId
  statements.forM fun statement => do
    let _ ← liveExec statement
    pure ()
  commitLive a.status.stopPending a.run a.core

/-! ### What the two ways are compared by -/

/-- The session of a node that has a live transaction open, besides. -/
def Session.entered (s : Session E) (base : ℤ) (batchId : ℕ) : Session E :=
  { s with
    node := { s.node with
      machine := { s.node.machine with node := { s.node.machine.node with liveTransaction := true } } }
    liveChangesBase := base
    liveBatchId := batchId }

/-- What a transaction that is appended leaves of the session it started from: one more captured batch, under the
identity drawn for it and with the rows its statements changed. -/
def Appended (a : Answers) (s s' : Session E) : Prop :=
  ∃ r, s'.node.readings = s.node.readings ++ [r] ∧ r.transaction.batchId = a.batchId ∧
    r.transaction.changes = s'.totalChanges - s.totalChanges

/-- Both ways refuse the list for the same reason, or both append the same batch and end in the same state of the
node. -/
def SameOutcome (statements : List Statement) (a : Answers) (s : Session E) : Prop :=
  Alike (fun s₁ s₂ => Appended a s s₁ ∧ s₁.node = s₂.node) (oneShot statements a) (liveTransaction statements a)
    s s

inductive LiveCall where
  | exec (statement : Statement)
  | savepoint (index : ℕ)
  | releaseSavepoint (index : ℕ)
  | rollbackToSavepoint (index : ℕ)

/-- The session after a call, whether it succeeds or fails. -/
def LiveCall.apply : LiveCall → Session E → Session E
  | .exec statement, s => finalState (liveExec statement) s
  | .savepoint index, s => finalState (liveSavepoint index) s
  | .releaseSavepoint index, s => finalState (liveReleaseSavepoint index) s
  | .rollbackToSavepoint index, s => finalState (liveRollbackToSavepoint index) s

/-- `beginLive`, some calls and `rollbackLive`. -/
def abandoned (stopPending : Bool) (batchId : ℕ) (calls : List LiveCall) (rolledBack : Bool) (s : Session E) :
    Session E :=
  finalState (rollbackLive rolledBack)
    (calls.foldl (fun s call => call.apply s) (finalState (beginLive stopPending batchId) s))

/-- The image a connection sees, the journal and the payload store. -/
def contents (m : Machine) : File × Journal × PayloadStore :=
  (m.disk.live, m.disk.journal, m.disk.store)

/-- A live transaction that is rolled back leaves no trace. -/
def LeavesNoTrace (a : Answers) (s : Session E) : Prop :=
  ∀ calls rolledBack, contents (abandoned a.status.stopPending a.batchId calls rolledBack s).node.machine =
    contents s.node.machine

/-! ### The builder's bounds -/

/-- The builder takes the list. -/
def Fits (statements : List Statement) : Prop :=
  statements.length ≤ maximumStatements ∧ (statements.map Statement.addedBytes).sum ≤ maximumInputBytes

instance (statements : List Statement) : Decidable (Fits statements) :=
  inferInstanceAs (Decidable (_ ∧ _))

section Builder

theorem foldlM_exec (statements : List Statement) {t t' : Builder} (hopen : t.finished = false)
    (hcount : t.statements.length ≤ maximumStatements) (hbytes : t.inputBytes ≤ maximumInputBytes) :
    statements.foldlM Builder.exec t = .ok t' ↔
      ((t.statements ++ statements).length ≤ maximumStatements ∧
        t.inputBytes + (statements.map Statement.addedBytes).sum ≤ maximumInputBytes) ∧
        t' = ⟨t.statements ++ statements, t.inputBytes + (statements.map Statement.addedBytes).sum, false⟩ := by
  induction statements generalizing t with
  | nil =>
    rw [List.append_nil, List.map_nil, List.sum_nil, Nat.add_zero]
    constructor
    · rintro ⟨⟩
      refine ⟨⟨hcount, hbytes⟩, ?_⟩
      rw [← hopen]
    · rintro ⟨-, rfl⟩
      rw [← hopen]
      rfl
  | cons statement statements ih =>
    rw [List.foldlM_cons, Builder.exec, hopen, if_neg Bool.false_ne_true, List.map_cons, List.sum_cons,
      List.length_append, List.length_cons]
    by_cases hfull : maximumStatements ≤ t.statements.length
    · rw [if_pos hfull]
      refine ⟨nofun, fun h => absurd h.1.1 (by omega)⟩
    by_cases hlarge : maximumInputBytes < t.inputBytes + statement.addedBytes
    · rw [if_neg hfull, if_pos hlarge]
      refine ⟨nofun, fun h => absurd h.1.2 (by omega)⟩
    · rw [if_neg hfull, if_neg hlarge]
      refine (ih (t := ⟨t.statements ++ [statement], t.inputBytes + statement.addedBytes, false⟩) rfl
        ?_ (Nat.le_of_not_lt hlarge)).trans ?_
      · rw [List.length_append, List.length_singleton]
        exact Nat.lt_of_not_le hfull
      · rw [List.append_assoc, List.singleton_append, List.length_append, List.length_cons, Nat.add_assoc]

theorem build_eq_ok {statements : List Statement} {t : Builder} : Builder.build statements = .ok t ↔
    Fits statements ∧ t = ⟨statements, (statements.map Statement.addedBytes).sum, false⟩ := by
  have h : statements.foldlM Builder.exec .init = .ok t ↔ _ :=
    foldlM_exec statements rfl (Nat.zero_le _) (Nat.zero_le _)
  rwa [Builder.init, List.nil_append, Nat.zero_add] at h

end Builder

/-! ### From the first statement on -/

section Entered

variable (s : Session E) (base : ℤ) (batchId : ℕ)

@[simp] theorem live_entered : (s.entered base batchId).node.live = true := rfl
@[simp] theorem transaction_entered : (s.entered base batchId).transaction = s.transaction := rfl

@[simp] theorem fatalStorageError_entered :
    (s.entered base batchId).node.machine.node.fatalStorageError = s.node.machine.node.fatalStorageError := rfl

@[simp] theorem advanced_entered (t : OpenTransaction E) (state : E.State) (changes : ℕ) :
    (s.entered base batchId).advanced t state changes = (s.advanced t state changes).entered base batchId := rfl

end Entered

section Body

variable {base : ℤ} {batchId : ℕ} {s t : Session E}

/-- A node that works, with no live transaction open, and the same with one. -/
structure Begun (base : ℤ) (batchId : ℕ) (s t : Session E) : Prop where
  idle : s.node.machine.node.liveTransaction = false
  working : s.node.machine.node.fatalStorageError = false
  same : t = s.entered base batchId

theorem Begun.alike_step (h : Begun base batchId s t) (statement : Statement) :
    Alike (Begun base batchId) (step statement) (liveExec statement >>= fun _ => pure ()) s t := by
  obtain ⟨hidle, hworking, rfl⟩ := h
  simp only [Alike, step, liveExec, wp_bind, wp_get, wp_refuse, wp_onError, live_entered, transaction_entered,
    fatalStorageError_entered, hworking, Bool.not_true, Bool.false_eq_true, false_implies, true_and, true_implies]
  cases s.transaction with
  | none => rfl
  | some current =>
    dsimp only
    cases E.execute statement current.state with
    | none => simp only [wp_bind, wp_ite, wp_modify, wp_throw, implies_true, and_self]
    | some next =>
      simp only [wp_modify, advanced_entered]
      exact ⟨hidle, hworking, rfl⟩

theorem Begun.alike_statements (h : Begun base batchId s t) (statements : List Statement) :
    Alike (Begun base batchId) (statements.forM step)
      (statements.forM fun statement => liveExec statement >>= fun _ => pure ()) s t :=
  Alike.forM (fun statement _ _ h => h.alike_step statement) statements h

/-- What a commit goes by is the same in both transactions. -/
structure Ended (base : ℤ) (batchId : ℕ) (s t : Session E) : Prop where
  node : t.node = s.node
  transaction : t.transaction = s.transaction
  totalChanges : t.totalChanges = s.totalChanges
  base : t.liveChangesBase = base
  batchId : t.liveBatchId = batchId

theorem Begun.ended (h : Begun base batchId s t) :
    Ended base batchId s { t with
      node := { t.node with
        machine := { t.node.machine with node := { t.node.machine.node with liveTransaction := false } } } } := by
  obtain ⟨hidle, -, rfl⟩ := h
  refine ⟨?_, rfl, rfl, rfl, rfl⟩
  simp only [Session.entered]
  rw [← hidle]

theorem alike_onNode {α : Type} (x : LiveOp α) (h : t.node = s.node) :
    Alike (fun s' t' => s'.node = t'.node) (onNode x) (onNode x) s t := by
  simp only [Alike, wp_onNode, h]
  refine wp_mono (wp_self x s.node) (fun a node hx => ?_) fun e node hx => ?_
  · simp only [wp, hx, and_self]
  · simp only [wp, hx]

theorem alike_sealTransaction (hnode : t.node = s.node) (htransaction : t.transaction = s.transaction)
    (changes : ℤ) (run : CommitRun) (core : AppendCore) :
    Alike (fun s' t' => s'.node = t'.node) (sealTransaction batchId changes run core)
      (sealTransaction batchId changes run core) s t := by
  simp only [Alike, sealTransaction, wp_bind, wp_get, htransaction]
  cases s.transaction with
  | none => rfl
  | some current => exact alike_onNode (s := s.rolledBack) (t := t.rolledBack) _ hnode

/-- Both transactions are sealed from the same state of the node. -/
theorem Ended.alike_seal (h : Ended base batchId s t) (run : CommitRun) (core : AppendCore) :
    Alike (fun s' t' => s'.node = t'.node)
      (do
        verifyCaptureContract
        let after ← get
        sealTransaction batchId (after.totalChanges - base) run core)
      (do
        verifyCaptureContract
        sealTransaction t.liveBatchId (t.totalChanges - t.liveChangesBase) run core) s t := by
  have hverify : Alike (fun s' t' => s' = s ∧ t' = t) (verifyCaptureContract (E := E)) verifyCaptureContract s t := by
    simp only [Alike, verifyCaptureContract, wp_bind, wp_get, wp_ite, wp_pure, wp_throw, h.transaction]
    exact ⟨fun hyes => ⟨fun _ => ⟨trivial, trivial, trivial⟩, fun hno => hno hyes⟩,
      fun hno => ⟨fun hyes => hno hyes, fun _ => trivial⟩⟩
  refine hverify.bind fun _ s' t' hsame => alike_of_wp_left ?_
  obtain ⟨rfl, rfl⟩ := hsame
  rw [wp_get, h.totalChanges, h.base, h.batchId]
  exact alike_sealTransaction h.node h.transaction _ run core

/-- Both transactions are sealed from the same state of the node. -/
theorem Begun.alike_commit (h : Begun base batchId s t) {stopPending : Bool} (hstop : stopPending = false)
    (run : CommitRun) (core : AppendCore) :
    Alike (fun s' t' => s'.node = t'.node)
      (do
        verifyCaptureContract
        let after ← get
        sealTransaction batchId (after.totalChanges - base) run core)
      (commitLive stopPending run core) s t := by
  have hended := h.ended
  obtain ⟨hidle, hworking, rfl⟩ := h
  have hseal := hended.alike_seal run core
  simp only [Alike, commitLive, wp_bind, wp_get, wp_refuse, wp_onError, wp_onNode,
    wp_onMachine, wp_setNode, live_entered, fatalStorageError_entered, hworking, hstop,
    Bool.not_true, Bool.false_eq_true, false_implies, true_and, true_implies] at hseal ⊢
  exact hseal

end Body

/-! ### What is appended -/

section Appended

variable {a : Answers} {s : Session E}

theorem keeps_readings_onMachine {α : Type} (x : Op α) : Keeps LiveNode.readings (onMachine x) := by
  intro l
  rw [wp_onMachine]
  exact wp_mono (wp_self x l.machine) (fun _ _ _ => rfl) fun _ _ _ => rfl

theorem keeps_readings_doLive (c : Bool) {x : LiveOp Unit} (h : Keeps LiveNode.readings x) :
    Keeps LiveNode.readings (doLive c x) :=
  h.ite (keeps_pure ())

theorem keeps_readings_admitLive (status : LogStatus) : Keeps LiveNode.readings (admitLive status) := by
  have hrefuse (c : Bool) (e : NodeError) : Keeps LiveNode.readings (refuseLive c e) := keeps_readings_onMachine _
  have hresync : Keeps LiveNode.readings resyncLive :=
    Keeps.bind (keeps_modify (f := LiveNode.disconnected) fun _ => rfl) fun _ => keeps_readings_onMachine _
  have hopen : Keeps LiveNode.readings openLive :=
    keeps_get.bind fun _ => (keeps_readings_onMachine _).bind fun _ =>
      keeps_readings_doLive _ (keeps_modify fun _ => rfl)
  refine keeps_get.bind fun _ => (hrefuse _ _).bind fun _ => (hrefuse _ _).bind fun _ => ?_
  refine (keeps_readings_doLive _ hresync).bind fun _ => keeps_get.bind fun _ => ?_
  refine (hrefuse _ _).bind fun _ => (hrefuse _ _).bind fun _ => hopen.bind fun _ => keeps_get.bind fun _ => ?_
  exact (hrefuse _ _).bind fun _ => hrefuse _ _

theorem keeps_step {γ : Type} (φ : LiveNode → γ) (h : ∀ l stale, φ (l.rollback stale) = φ l) (statement : Statement) :
    Keeps (fun s : Session E => φ s.node) (step statement) := by
  intro s
  simp only [step, wp_bind, wp_get]
  cases s.transaction with
  | none => rfl
  | some current =>
    dsimp only
    cases E.execute statement current.state with
    | none =>
      simp only [wp_bind, wp_ite, wp_modify, wp_throw]
      exact ⟨fun _ => rfl, fun _ => trivial⟩
    | some next => exact h _ _

/-- A transaction that is sealed was read back once. -/
theorem wp_sealLive_readings (t : WriterTransaction) (run : CommitRun) (core : AppendCore) (l : LiveNode) :
    wp (sealLive t run core)
      (fun _ l' => ∃ r, l'.readings = l.readings ++ [r] ∧ r.transaction.batchId = t.batchId ∧
        r.transaction.changes = t.changes) (fun _ _ => True) l := by
  simp only [sealLive, replicateLive, wp_bind, wp_get, wp_onMachine, wp_emit, wp_modify, wp_onError, wp_ite, wp_throw]
  refine ⟨fun _ => trivial, fun _ => ⟨fun _ => trivial, fun _ => ?_⟩⟩
  split
  · trivial
  · rename_i frames hframes
    simp only [wp_bind, wp_modify, wp_ite, wp_onMachine, wp_throw, implies_true, true_and]
    intro _
    refine wp_mono (wp_self _ _) (fun slot m _ => ?_) fun _ _ _ => trivial
    simp only [wp_bind, wp_get, wp_refuseLive, wp_pure]
    exact ⟨fun _ => trivial, fun _ => ⟨_, rfl, rfl, rfl⟩⟩

theorem wp_writePrepared_appended (statements : List Statement) (s : Session E) :
    wp (writePrepared statements a) (fun _ s' => Appended a s s') (fun _ _ => True) s := by
  have hstep : Keeps (fun s : Session E => s.node.readings) (statements.forM step) :=
    Keeps.forM (keeps_step LiveNode.readings fun _ _ => rfl) statements
  simp only [writePrepared, wp_bind, wp_onNode]
  refine wp_mono (keeps_readings_admitLive a.status s.node) (fun _ l hl => ?_) fun _ _ _ => trivial
  simp only [wp_modify, wp_get, wp_onError, wp_bind]
  refine wp_mono (hstep _) (fun _ s₁ h₁ => ?_) fun _ _ _ => trivial
  simp only [verifyCaptureContract, sealTransaction, wp_bind, wp_get, wp_ite, wp_pure, wp_throw, implies_true,
    and_true]
  intro _
  cases s₁.transaction with
  | none => trivial
  | some current =>
    simp only [wp_bind, wp_modify, wp_onNode]
    refine wp_mono (wp_sealLive_readings _ _ _ _) (fun _ l' hl' => ?_) fun _ _ _ => trivial
    obtain ⟨r, hreadings, hid, hchanges⟩ := hl'
    exact ⟨r, hreadings.trans (congrArg (· ++ [r]) (h₁.trans hl)), hid, hchanges⟩

end Appended

/-! ### What is rolled back -/

section RolledBack

variable {s : Session E}

theorem keeps_onNode {γ : Type} {φ : LiveNode → γ} {α : Type} {x : LiveOp α} (h : Keeps φ x) :
    Keeps (fun s : Session E => φ s.node) (onNode x) := by
  intro s
  rw [wp_onNode]
  exact h s.node

theorem keeps_refuse {γ : Type} (φ : LiveNode → γ) (c : Bool) (e : NodeError) :
    Keeps (fun s : Session E => φ s.node) (refuse c e) := by
  intro s
  rw [wp_refuse]
  exact ⟨fun _ => rfl, fun _ => rfl⟩

def Session.contents (s : Session E) : File × Journal × PayloadStore :=
  Transactions.contents s.node.machine

theorem contents_reflected (s : Session E) : s.reflected.contents = s.contents := by
  rw [Session.reflected]
  split <;> rfl

theorem keeps_contents_liveExec (statement : Statement) : Keeps Session.contents (liveExec (E := E) statement) := by
  refine keeps_get.bind fun _ => Keeps.bind (keeps_refuse (fun l => contents l.machine) _ _) fun _ => ?_
  refine Keeps.bind (keeps_refuse (fun l => contents l.machine) _ _) fun _ => ?_
  have hstep := keeps_step (E := E) (fun l => contents l.machine) (fun _ _ => rfl) statement
  exact (hstep.onError contents_reflected).bind fun _ => keeps_get.bind fun _ => keeps_pure _

theorem keeps_contents_savepointControl (f : OpenTransaction E → Option (OpenTransaction E)) :
    Keeps Session.contents (liveSavepointControl f) := by
  refine keeps_get.bind fun s => Keeps.bind (keeps_refuse (fun l => contents l.machine) _ _) fun _ => ?_
  refine Keeps.bind (keeps_refuse (fun l => contents l.machine) _ _) fun _ => ?_
  split
  · exact keeps_throw _
  · exact keeps_modify fun _ => rfl

theorem contents_apply (call : LiveCall) (s : Session E) : (call.apply s).contents = s.contents := by
  cases call with
  | exec statement => exact (keeps_contents_liveExec statement).finalState s
  | savepoint index => exact (keeps_contents_savepointControl _).finalState s
  | releaseSavepoint index => exact (keeps_contents_savepointControl _).finalState s
  | rollbackToSavepoint index => exact (keeps_contents_savepointControl _).finalState s

theorem contents_calls (calls : List LiveCall) (s : Session E) :
    (calls.foldl (fun s call => call.apply s) s).contents = s.contents := by
  induction calls generalizing s with
  | nil => rfl
  | cons call calls ih => exact (ih _).trans (contents_apply call s)

theorem keeps_contents_rollbackLive (rolledBack : Bool) :
    Keeps Session.contents (rollbackLive (E := E) rolledBack) := by
  have hnode : Keeps (fun l => contents l.machine) (onMachine (Zaxonlite.rollbackLive rolledBack)) := by
    intro l
    simp only [Zaxonlite.rollbackLive, wp_onMachine, wp_bind, wp_get, wp_refuseIf, wp_setNode]
    exact ⟨fun _ => trivial, fun _ => ⟨fun _ => rfl, fun _ => rfl⟩⟩
  exact Keeps.bind (keeps_onNode hnode) fun _ => keeps_modify fun _ => rfl

/-- What a rolled back transaction leaves is what `beginLive` left. -/
theorem contents_abandoned (stopPending : Bool) (batchId : ℕ) (calls : List LiveCall) (rolledBack : Bool)
    (s : Session E) :
    (abandoned stopPending batchId calls rolledBack s).contents =
      (finalState (beginLive stopPending batchId) s).contents := by
  rw [abandoned, (keeps_contents_rollbackLive rolledBack).finalState, contents_calls]

end RolledBack

end Transactions

end Zaxonlite
