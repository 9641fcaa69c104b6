import Zaxonlite.Client.Connection

/-!
# Reported row ids

A request reports the row id of the last row it inserted by comparing the connection's `last_insert_rowid`
before its statements with the one after them. SQLite keeps one number for the connection, from its opening to
its close: the row id of the last row a statement inserted into a rowid table, whether or not the statement or
its transaction then failed. Here a connection remembers every insertion, and the number is read off them.
-/

namespace Zaxonlite

namespace RowIds

open Program

/-! ### Insertions -/

/-- A row that the statements of a request insert. -/
inductive Insertion where
  /-- Into a rowid table, by a statement of the request. -/
  | recorded (rowid : ℤ)
  /-- Into a rowid table, by a trigger or to fill a new table: the connection does not keep its row id. -/
  | unrecorded (rowid : ℤ)
  /-- Into a table without row ids. -/
  | keyed
  deriving DecidableEq, Repr

namespace Insertion

/-- The row id SQLite assigned. -/
def rowid? : Insertion → Option ℤ
  | .recorded rowid => some rowid
  | .unrecorded rowid => some rowid
  | .keyed => none

/-- The row id the connection keeps. -/
def kept? : Insertion → Option ℤ
  | .recorded rowid => some rowid
  | _ => none

end Insertion

/-- The row id assigned to the last row inserted into a rowid table. -/
def assigned (rows : List Insertion) : Option ℤ :=
  (rows.filterMap Insertion.rowid?).getLast?

/-- The last row id the connection keeps of some insertions. -/
def kept (rows : List Insertion) : Option ℤ :=
  (rows.filterMap Insertion.kept?).getLast?

/-- `sqlite3_last_insert_rowid`, after all the insertions of a connection. -/
def lastInsertRowid (history : List Insertion) : ℤ :=
  (kept history).getD 0

/-- What a request reports for the row ids before and after its statements. -/
def reported (before after : ℤ) : Option ℤ :=
  if after ≠ before then some after else none

/-! ### The node -/

/-- A node, and what was inserted on its connection since that was opened. -/
structure RowNode where
  live : LiveNode
  history : List Insertion

namespace RowNode

/-- The node after an operation; a connection that was closed is forgotten. -/
def onto (s : RowNode) (l : LiveNode) : RowNode where
  live := l
  history := if l.machine.node.dbOpen then s.history else []

def inserted (s : RowNode) (rows : List Insertion) : RowNode :=
  { s with history := s.history ++ rows }

def lastRowid (s : RowNode) : ℤ :=
  lastInsertRowid s.history

end RowNode

abbrev RowOp (α : Type) := EStateM LiveError RowNode α

/-- An operation that inserts nothing, and opens no connection after it closed one. -/
def onLive {α : Type} (x : LiveOp α) : RowOp α := fun s =>
  match x s.live with
  | .ok a l => .ok a (s.onto l)
  | .error e l => .error e (s.onto l)

@[simp] theorem wp_onLive {α : Type} (x : LiveOp α) (Q : α → RowNode → Prop) (E : LiveError → RowNode → Prop)
    (s : RowNode) :
    wp (onLive x) Q E s ↔ wp x (fun a l => Q a (s.onto l)) (fun e l => E e (s.onto l)) s.live := by
  simp only [wp, onLive]
  cases x s.live <;> rfl

def insert (rows : List Insertion) : RowOp Unit :=
  modify fun s => s.inserted rows

/-! ### Requests -/

/-- `writeRequest`, up to the resync. -/
def admitResync (status : LogStatus) : LiveOp Unit := do
  let s ← get
  refuseLive s.machine.node.fatalStorageError .storageFailed
  refuseLive status.overCap .recoveryRetentionExceeded
  doLive s.machine.node.needsResync resyncLive

/-- `writeRequest`, from the resync to its statements. -/
def admitOpen (status : LogStatus) : LiveOp Unit := do
  let s ← get
  refuseLive (s.machine.node.membershipChangePending || status.stopPending) .logSealed
  refuseLive (status.isLeader && !s.machine.node.proposalFrontierSettled status) .leaderNotReady
  openLive
  let s ← get
  refuseLive s.machine.node.captureBatchId.isSome .writeInFlight
  refuseLive s.machine.node.liveTransaction .transactionOpen

theorem admitLive_eq (status : LogStatus) :
    admitLive status = (admitResync status >>= fun _ => admitOpen status) := by
  simp only [admitResync, bind_assoc]
  rfl

/-- `beginLive`, up to the resync. -/
def beginResync : LiveOp Unit := do
  let s ← get
  refuseLive (!s.machine.node.single) .clusterTransactionUnsupported
  refuseLive (!s.machine.node.capabilities.servesWrites) .roleCannotWrite
  refuseLive s.machine.node.liveTransaction .transactionOpen
  refuseLive s.machine.node.fatalStorageError .storageFailed
  doLive s.machine.node.needsResync resyncLive

/-- `beginLive`, from the resync on. -/
def beginOpen (stopPending begun : Bool) : LiveOp Unit := do
  let s ← get
  refuseLive (s.machine.node.membershipChangePending || stopPending) .logSealed
  openLive
  let s ← get
  refuseLive s.machine.node.captureBatchId.isSome .writeInFlight
  if begun then onMachine (setNode fun n => { n with liveTransaction := true }) else throw .sqlite

theorem liveBegin_eq (stopPending begun : Bool) :
    DbApi.liveBegin stopPending begun = (beginResync >>= fun _ => beginOpen stopPending begun) := by
  simp only [beginResync, bind_assoc]
  rfl

/-- The batch marker goes into a table without row ids. -/
def bookkeeping : StatementRun → List Insertion
  | .rolledBack _ => []
  | .committed _ _ => [.keyed]

/-- `writeRequest`, given the rows its statements insert. -/
def writeCaptured (a : DbApi.WriteAnswers) (rows : List Insertion) : RowOp (Option ℤ) := do
  onLive (admitResync a.status)
  onLive (admitOpen a.status)
  let before ← get
  insert rows
  let after ← get
  insert (bookkeeping a.statements)
  let _ ← onLive (runStatements a.statements a.core)
  pure (reported before.lastRowid after.lastRowid)

def execPreparedResult (a : DbApi.WriteAnswers) (rows : List Insertion) : RowOp (Option ℤ) := do
  let s ← get
  onLive (refuseLive (!s.live.machine.node.capabilities.servesWrites) .roleCannotWrite)
  writeCaptured a rows

/-- `beginLive`. -/
def begin (stopPending begun : Bool) : RowOp Unit := do
  onLive beginResync
  onLive (beginOpen stopPending begun)

/-- `liveExec`. -/
def execLive (outcome : DbApi.StatementOutcome) (rows : List Insertion) : RowOp (Option ℤ) := do
  let before ← get
  if DbApi.admitsLive before.live then insert rows else pure ()
  let after ← get
  onLive (DbApi.liveExecute outcome)
  pure (reported before.lastRowid after.lastRowid)

/-- `commitLive`. -/
def commit (stopPending : Bool) (statements : StatementRun) (core : AppendCore) : RowOp Unit := do
  insert (bookkeeping statements)
  let _ ← onLive (commitLiveTransaction stopPending statements core)
  pure ()

/-! ### Without the insertions -/

section Live

variable {Q : LiveNode → Prop} {E : LiveError → LiveNode → Prop} {s : RowNode}

theorem writeCaptured_live (a : DbApi.WriteAnswers) (rows : List Insertion) :
    wp (writeCaptured a rows) (fun _ s' => Q s'.live) (fun e s' => E e s'.live) s ↔
      wp (writeRequestLive a.status a.statements a.core) (fun _ => Q) E s.live := by
  simp only [writeCaptured, writeRequestLive, admitLive_eq, insert, wp_bind, wp_onLive, wp_get, wp_modify, wp_pure]
  rfl

theorem begin_live (stopPending begun : Bool) :
    wp (begin stopPending begun) (fun _ s' => Q s'.live) (fun e s' => E e s'.live) s ↔
      wp (DbApi.liveBegin stopPending begun) (fun _ => Q) E s.live := by
  simp only [begin, liveBegin_eq, wp_bind, wp_onLive]
  rfl

theorem execLive_live (outcome : DbApi.StatementOutcome) (rows : List Insertion) :
    wp (execLive outcome rows) (fun _ s' => Q s'.live) (fun e s' => E e s'.live) s ↔
      wp (DbApi.liveExecute outcome) (fun _ => Q) E s.live := by
  simp only [execLive, insert, wp_bind, wp_get, wp_ite, wp_modify, wp_pure, wp_onLive]
  exact ⟨fun h => if hadmits : _ then h.1 hadmits else h.2 hadmits, fun h => ⟨fun _ => h, fun _ => h⟩⟩

theorem commit_live (stopPending : Bool) (statements : StatementRun) (core : AppendCore) :
    wp (commit stopPending statements core) (fun _ s' => Q s'.live) (fun e s' => E e s'.live) s ↔
      wp (commitLiveTransaction stopPending statements core) (fun _ => Q) E s.live := by
  simp only [commit, insert, wp_bind, wp_modify, wp_onLive, wp_pure]
  rfl

end Live

/-! ### Runs -/

/-- An action that runs no statements and opens no connection after it closed one. -/
def Silent : LiveAction → Prop
  | .write .. => False
  | .beginLive _ => False
  | .liveExec .. => False
  | .commitLive .. => False
  | .rollbackLive .. => False
  | _ => True

inductive RowAction where
  | execPrepared (a : DbApi.WriteAnswers) (rows : List Insertion)
  /-- `execIdempotentStatements`. -/
  | execIdempotent (a : DbApi.WriteAnswers) (rows : List Insertion)
  /-- A write that reports no row id: a script, a transaction, a session or a change of the schema. -/
  | write (a : DbApi.WriteAnswers) (rows : List Insertion)
  | begin (stopPending begun : Bool)
  | execLive (outcome : DbApi.StatementOutcome) (rows : List Insertion)
  | savepoint (done : Bool)
  | commit (stopPending : Bool) (statements : StatementRun) (core : AppendCore)
  | rollback (rolledBack : Bool) (stale : List WalFrame)
  | other (a : LiveAction) (silent : Silent a)

namespace RowAction

/-- The action, with what it reports if it reports row ids at all. -/
def run : RowAction → RowOp (Option (Option ℤ))
  | .execPrepared a rows => some <$> execPreparedResult a rows
  | .execIdempotent a rows => some <$> writeCaptured a rows
  | .write a rows => (fun _ => none) <$> writeCaptured a rows
  | .begin stopPending begun => (fun _ => none) <$> RowIds.begin stopPending begun
  | .execLive outcome rows => some <$> RowIds.execLive outcome rows
  | .savepoint done => (fun _ => none) <$> onLive (DbApi.liveSavepointControl done)
  | .commit stopPending statements core => (fun _ => none) <$> RowIds.commit stopPending statements core
  | .rollback rolledBack stale => (fun _ => none) <$> onLive (rollbackLiveTransaction rolledBack stale)
  | .other a _ => fun s => .ok none (s.onto (a.apply s.live))

/-- The state an action ends in, whether it succeeds or fails. -/
def apply (a : RowAction) (s : RowNode) : RowNode :=
  let s' := finalState a.run s
  { s' with live := s'.live.atRest }

/-- What a request that succeeds reports. -/
def report (a : RowAction) (s : RowNode) : Option (Option ℤ) :=
  match a.run s with
  | .ok r _ => r
  | .error _ _ => none

/-- The rows the action's statements insert. -/
def rows : RowAction → List Insertion
  | .execPrepared _ rows => rows
  | .execIdempotent _ rows => rows
  | .write _ rows => rows
  | .execLive _ rows => rows
  | _ => []

/-- The number the connection holds when the action's statements start: a new connection holds zero. -/
def startingRowid (a : RowAction) (s : RowNode) : ℤ :=
  match a with
  | .execLive _ _ => s.lastRowid
  | _ =>
    if s.live.machine.node.needsResync || !s.live.machine.node.dbOpen then 0 else s.lastRowid

end RowAction

/-- Along a run every request reports the row id assigned to the last row it inserted into a rowid table, and
nothing if there is no such row. -/
def Truthful : RowNode → List RowAction → Prop
  | _, [] => True
  | s, a :: actions => (∀ r, a.report s = some r → r = assigned a.rows) ∧ Truthful (a.apply s) actions

/-- The last row that an action's statements insert into a rowid table is one the connection keeps, under another
row id than the connection holds already. -/
def Distinguished (a : RowAction) (s : RowNode) : Prop :=
  ∀ rowid, assigned a.rows = some rowid → kept a.rows = some rowid ∧ rowid ≠ a.startingRowid s

/-- Along a run every request that succeeds and reports is distinguished. -/
def AllDistinguished : RowNode → List RowAction → Prop
  | _, [] => True
  | s, a :: actions => (a.report s ≠ none → Distinguished a s) ∧ AllDistinguished (a.apply s) actions

/-- A node whose connection is not open yet. -/
def RowNode.start (m : Machine) : RowNode where
  live := .start m
  history := []

/-! ### What is reported -/

theorem kept_append (history rows : List Insertion) :
    kept (history ++ rows) = (kept rows).or (kept history) := by
  rw [kept, kept, kept, List.filterMap_append, List.getLast?_append]

theorem lastInsertRowid_append (history rows : List Insertion) :
    lastInsertRowid (history ++ rows) = (kept rows).getD (lastInsertRowid history) := by
  rw [lastInsertRowid, kept_append]
  cases kept rows <;> rfl

theorem assigned_ne_none {rows : List Insertion} {rowid : ℤ} (h : kept rows = some rowid) :
    assigned rows ≠ none := by
  intro hnone
  rw [assigned, List.getLast?_eq_none_iff, List.filterMap_eq_nil_iff] at hnone
  obtain ⟨row, hrow, hkept⟩ := List.mem_filterMap.mp (List.mem_of_getLast? h)
  have hrowid := hnone row hrow
  cases row with
  | recorded id => cases hrowid
  | unrecorded id => cases hkept
  | keyed => cases hkept

/-- A report is right exactly when the row it is about shows in the number. -/
theorem reported_eq_assigned_iff (before : ℤ) (rows : List Insertion) :
    reported before ((kept rows).getD before) = assigned rows ↔
      ∀ rowid, assigned rows = some rowid → kept rows = some rowid ∧ rowid ≠ before := by
  cases hkept : kept rows with
  | none =>
    rw [Option.getD_none, reported, if_neg (not_not_intro rfl)]
    refine ⟨fun h rowid hrowid => ?_, fun h => ?_⟩
    · cases h.trans hrowid
    · cases hassigned : assigned rows with
      | none => rfl
      | some rowid => exact nomatch (h rowid hassigned).1
  | some rowid =>
    rw [Option.getD_some, reported]
    obtain ⟨last, hlast⟩ := Option.ne_none_iff_exists'.mp (assigned_ne_none hkept)
    rw [hlast]
    refine ⟨fun h rowid' hrowid' => ?_, fun h => ?_⟩
    · split at h
      case isTrue hne =>
        cases h
        cases hrowid'
        exact ⟨rfl, hne⟩
      case isFalse => cases h
    · obtain ⟨heq, hne⟩ := h last rfl
      cases heq
      exact if_pos hne

/-! ### What the connection holds -/

section History

variable {s : RowNode}

theorem resyncLive_closes (l : LiveNode) :
    wp resyncLive (fun _ l' => l'.machine.node.dbOpen = false) (fun _ _ => True) l := by
  simp only [resyncLive, wp_bind, wp_modify, wp_onMachine]
  exact wp_mono (resyncImage_closes _) (fun _ _ h => h) fun _ _ _ => trivial

theorem openLive_opens (l : LiveNode) :
    wp openLive (fun _ l' => l'.machine.node.dbOpen = true) (fun _ _ => True) l := by
  simp only [openLive, ensureWriter, wp_bind, wp_get, wp_onMachine, wp_refuseIf, wp_doIf, wp_emit, wp_setNode,
    wp_doLive, wp_modify]
  refine ⟨fun _ => trivial, fun _ => ⟨fun _ => ⟨fun _ => rfl, fun _ => trivial⟩, fun hopen => ?_⟩⟩
  rw [Bool.not_eq_false'] at hopen
  exact ⟨fun _ => hopen, fun _ => hopen⟩

/-- The insertions on the connection that a write will use. -/
def RowNode.opening (s : RowNode) : List Insertion :=
  if s.live.machine.node.needsResync || !s.live.machine.node.dbOpen then [] else s.history

theorem opening_onto (s : RowNode) : (s.onto s.live).opening = s.opening := by
  have hkept (h : s.live.machine.node.dbOpen = true) : (s.onto s.live).history = s.history := if_pos h
  change (if s.live.machine.node.needsResync || !s.live.machine.node.dbOpen then [] else (s.onto s.live).history) = _
  rw [RowNode.opening]
  split
  case isTrue => rfl
  case isFalse hnew =>
    rw [Bool.not_eq_true, Bool.or_eq_false_iff, Bool.not_eq_false'] at hnew
    exact hkept hnew.2

theorem history_admitResync (status : LogStatus) (s : RowNode) :
    wp (onLive (admitResync status)) (fun _ s' => s'.history = s.opening) (fun _ _ => True) s := by
  simp only [admitResync, wp_onLive, wp_bind, wp_get, wp_refuseLive, wp_doLive]
  refine ⟨fun _ => trivial, fun _ => ⟨fun _ => trivial, fun _ => ⟨fun hneeds => ?_, fun hneeds => ?_⟩⟩⟩
  · refine wp_mono (resyncLive_closes s.live) (fun _ l hclosed => ?_) fun _ _ _ => trivial
    rw [RowNode.onto, RowNode.opening, hclosed, hneeds]
    rfl
  · rw [RowNode.onto, RowNode.opening, hneeds]
    cases s.live.machine.node.dbOpen <;> rfl

theorem history_admitOpen (status : LogStatus) (s : RowNode) :
    wp (onLive (admitOpen status)) (fun _ s' => s'.history = s.history) (fun _ _ => True) s := by
  simp only [admitOpen, wp_onLive, wp_bind, wp_get, wp_refuseLive]
  refine ⟨fun _ => trivial, fun _ => ⟨fun _ => trivial, fun _ => ?_⟩⟩
  refine wp_mono (openLive_opens s.live) (fun _ l hopen => ?_) fun _ _ _ => trivial
  simp only [wp_bind, wp_get, wp_refuseLive]
  refine ⟨fun _ => trivial, fun _ => ⟨fun _ => trivial, fun _ => ?_⟩⟩
  rw [RowNode.onto, hopen]
  rfl

theorem wp_writeCaptured (a : DbApi.WriteAnswers) (rows : List Insertion) (s : RowNode) :
    wp (writeCaptured a rows)
      (fun r _ => r = reported (lastInsertRowid s.opening) ((kept rows).getD (lastInsertRowid s.opening)))
      (fun _ _ => True) s := by
  rw [writeCaptured, wp_bind]
  refine wp_mono (history_admitResync a.status s) (fun _ s₁ h₁ => ?_) fun _ _ _ => trivial
  rw [wp_bind]
  refine wp_mono (history_admitOpen a.status s₁) (fun _ s₂ h₂ => ?_) fun _ _ _ => trivial
  have hopening : s₂.history = s.opening := h₂.trans h₁
  simp only [wp_bind, wp_get, insert, wp_modify]
  refine wp_mono (wp_self _ _) (fun _ _ _ => ?_) fun _ _ _ => trivial
  rw [wp_pure, RowNode.lastRowid, RowNode.lastRowid, RowNode.inserted, lastInsertRowid_append, hopening]

theorem admits_of_liveExecute (outcome : DbApi.StatementOutcome) (l : LiveNode) :
    wp (DbApi.liveExecute outcome) (fun _ _ => DbApi.admitsLive l = true) (fun _ _ => True) l := by
  have hexec (ended : Bool) (stale : List WalFrame) :
      wp (liveExec ended stale) (fun _ _ => DbApi.admitsLive l = true) (fun _ _ => True) l := by
    simp only [liveExec, wp_bind, wp_get, wp_refuseLive, wp_modify, wp_doLive, wp_onMachine, wp_setNode, wp_throw]
    refine ⟨fun _ => trivial, fun hlive => ⟨fun _ => trivial, fun hfailed => ⟨fun _ => trivial, fun _ => ?_⟩⟩⟩
    rw [Bool.not_eq_false'] at hlive
    exact Bool.and_eq_true_iff.mpr ⟨hlive, Bool.not_eq_true' _ ▸ hfailed⟩
  cases outcome with
  | done stale => exact hexec false stale
  | ended stale => exact hexec true stale
  | failed stale =>
    rw [DbApi.liveExecute, wp_bind]
    exact wp_mono (hexec false stale) (fun _ _ _ => trivial) fun _ _ _ => trivial

theorem wp_execLive (outcome : DbApi.StatementOutcome) (rows : List Insertion) (s : RowNode) :
    wp (execLive outcome rows) (fun r _ => r = reported s.lastRowid ((kept rows).getD s.lastRowid))
      (fun _ _ => True) s := by
  simp only [execLive, insert, wp_bind, wp_get, wp_ite, wp_modify, wp_pure, wp_onLive]
  refine ⟨fun _ => ?_, fun hno => ?_⟩
  · refine wp_mono (wp_self _ _) (fun _ _ _ => ?_) fun _ _ _ => trivial
    rw [RowNode.lastRowid, RowNode.lastRowid, RowNode.inserted, lastInsertRowid_append]
  · exact wp_mono (admits_of_liveExecute outcome s.live) (fun _ _ h => absurd h hno) fun _ _ _ => trivial

end History

theorem lastInsertRowid_opening (s : RowNode) :
    lastInsertRowid s.opening =
      if s.live.machine.node.needsResync || !s.live.machine.node.dbOpen then 0 else s.lastRowid := by
  rw [RowNode.opening]
  split <;> rfl

/-- Whatever an action reports compares the number it started with and the one its rows left. -/
theorem wp_run (a : RowAction) (s : RowNode) :
    wp a.run (fun r _ => ∀ x, r = some x →
      x = reported (a.startingRowid s) ((kept a.rows).getD (a.startingRowid s))) (fun _ _ => True) s := by
  have hreports {x : RowOp (Option ℤ)} {rows : List Insertion} {before : ℤ} {s : RowNode}
      (h : wp x (fun r _ => r = reported before ((kept rows).getD before)) (fun _ _ => True) s) :
      wp (some <$> x) (fun r _ => ∀ y, r = some y → y = reported before ((kept rows).getD before))
        (fun _ _ => True) s := by
    rw [wp_map]
    refine wp_mono h (fun r _ hr y hy => ?_) fun _ _ _ => trivial
    cases hy
    exact hr
  have hcaptured (b : DbApi.WriteAnswers) (rows : List Insertion) (s : RowNode) :=
    lastInsertRowid_opening s ▸ wp_writeCaptured b rows s
  have hsilent {α : Type} (x : RowOp α) :
      wp ((fun _ => none) <$> x) (fun r _ => ∀ x, r = some x →
        x = reported (a.startingRowid s) ((kept a.rows).getD (a.startingRowid s))) (fun _ _ => True) s := by
    rw [wp_map]
    exact wp_mono (wp_self x s) (fun _ _ _ => nofun) fun _ _ _ => trivial
  cases a with
  | execPrepared b rows =>
    refine hreports ?_
    simp only [execPreparedResult, wp_bind, wp_get, wp_onLive, wp_refuseLive]
    refine ⟨fun _ => trivial, fun _ => ?_⟩
    have h := wp_writeCaptured b rows (s.onto s.live)
    rwa [opening_onto, lastInsertRowid_opening] at h
  | execIdempotent b rows => exact hreports (hcaptured b rows s)
  | write b rows => exact hsilent _
  | begin stopPending begun => exact hsilent _
  | execLive outcome rows => exact hreports (wp_execLive outcome rows s)
  | savepoint done => exact hsilent _
  | commit stopPending statements core => exact hsilent _
  | rollback rolledBack stale => exact hsilent _
  | other a silent => exact nofun

theorem report_eq_assigned_iff {a : RowAction} {s : RowNode} {r : Option ℤ} (h : a.report s = some r) :
    r = assigned a.rows ↔ Distinguished a s := by
  have hrun := wp_run a s
  rw [RowAction.report] at h
  rw [wp] at hrun
  cases hresult : a.run s with
  | error e s' =>
    rw [hresult] at h
    cases h
  | ok x s' =>
    rw [hresult] at h hrun
    rw [hrun r h]
    exact reported_eq_assigned_iff _ _

theorem truthful_iff {s : RowNode} {actions : List RowAction} :
    Truthful s actions ↔ AllDistinguished s actions := by
  induction actions generalizing s with
  | nil => exact Iff.rfl
  | cons a actions ih =>
    refine and_congr ⟨fun h hreport => ?_, fun h r hr => ?_⟩ ih
    · obtain ⟨r, hr⟩ := Option.ne_none_iff_exists'.mp hreport
      exact (report_eq_assigned_iff hr).mp (h r hr)
    · exact (report_eq_assigned_iff hr).mpr (h (hr ▸ Option.some_ne_none r))

/-- The first rows of two tables, in one live transaction. -/
def firstRows : List RowAction :=
  [.begin false true, .execLive (.done []) [.recorded 1], .execLive (.done []) [.recorded 1]]

end RowIds

end Zaxonlite
