import Mathlib.Data.Int.Notation
import Mathlib.Data.List.Basic

/-!
# Application statements on the writer connection

The statements of all clients run on one connection, screened by an authorizer that looks at the action and
at two names, never at the database. What SQLite keeps on the connection (temporary objects, the values of
flag pragmas, the counters, the planner statistics it read with the schema) therefore outlives the statement
that set it. A writer that is closed and opened again on the same image goes on as if nothing had happened as
long as no admitted statement touches that part, and the statistics it plans with are those of the image.
-/

namespace Zaxonlite

/-! ### The guard -/

/-- SQLite's authorizer action codes. -/
inductive AuthAction where
  | createIndex | createTable | createTempIndex | createTempTable | createTempTrigger | createTempView
  | createTrigger | createView | delete | dropIndex | dropTable | dropTempIndex | dropTempTable
  | dropTempTrigger | dropTempView | dropTrigger | dropView | insert | pragma | read | select
  | transaction | update | attach | detach | alterTable | reindex | analyze | createVtable | dropVtable
  | function | savepoint | recursive
  deriving DecidableEq, Repr

/-- One call of the authorizer while a statement is prepared. -/
structure AuthCall where
  action : AuthAction
  arg1 : Option String
  arg2 : Option String
  database : Option String
  deriving DecidableEq

inductive Scope where
  | internal
  | application
  deriving DecidableEq

inductive Decision where
  | allow
  | deny
  deriving DecidableEq

def eqlIgnoreCase (a b : String) : Bool :=
  a.toList.map Char.toLower = b.toList.map Char.toLower

def reservedPrefix : String := "__zaxon_"

def checkpointPragmas : List String := ["wal_checkpoint", "wal_autocheckpoint"]

def writeDeniedPragmas : List String :=
  ["journal_mode", "synchronous", "page_size", "locking_mode", "auto_vacuum", "writable_schema",
    "query_only", "mmap_size"]

def namesReserved : Option String → Bool
  | none => false
  | some text =>
    reservedPrefix.toList.map Char.toLower =
      (text.toList.take reservedPrefix.toList.length).map Char.toLower

def decidePragma (name value : Option String) : Decision :=
  match name with
  | none => .allow
  | some pragma =>
    if checkpointPragmas.any (eqlIgnoreCase pragma) then
      if value = none ∧ eqlIgnoreCase pragma "wal_autocheckpoint" = true then .allow else .deny
    else if value ≠ none ∧ writeDeniedPragmas.any (eqlIgnoreCase pragma) = true then .deny
    else .allow

/-- `decide`. -/
def decideAction (action : AuthAction) (arg1 arg2 : Option String) : Decision :=
  match action with
  | .transaction => .deny
  | .savepoint => .deny
  | .attach => .deny
  | .detach => .deny
  | .pragma => decidePragma arg1 arg2
  | _ => if namesReserved arg1 || namesReserved arg2 then .deny else .allow

/-- `Guard.authorize`; the name of the database is ignored. -/
def Scope.authorize (scope : Scope) (call : AuthCall) : Decision :=
  match scope with
  | .internal => .allow
  | .application => decideAction call.action call.arg1 call.arg2

theorem authorize_database (scope : Scope) (call : AuthCall) (database : Option String) :
    scope.authorize { call with database := database } = scope.authorize call := by
  cases scope <;> rfl

/-! ### SQLite -/

/-- The counters of a connection, which SQL reads through functions of the same names. -/
structure Counters where
  lastInsertRowid : ℤ
  changes : ℤ
  totalChanges : ℤ
  deriving DecidableEq

def Counters.zero : Counters := ⟨0, 0, 0⟩

/-- What an executed statement did. An error says whether it ended the transaction. -/
structure Ran (Image Session Statistics Rows : Type) where
  image : Image
  session : Session
  statistics : Statistics
  inserted : Option ℤ
  changes : Option ℤ
  changed : ℤ
  result : Except (String × Bool) (Option Rows)

/-- The identity a write is sealed with. -/
structure Marker where
  batchId : ℕ
  session : Option (ℕ × ℕ)
  deriving DecidableEq

/-- SQLite as the node uses it. The image is what is replicated; the session is what a connection keeps
beside it: temporary objects and the values of flag pragmas. The statistics are those the planner goes by.
`opened` and `stored` are what a connection starts with that is opened on the image and reads its schema,
`unwind` and `unwindStatistics` what a rollback makes of the two, and `sealWrite` is the node's own statements
before a commit. -/
structure Sqlite (Statement Image Session Statistics Rows : Type) where
  opened : Image → Session
  stored : Image → Statistics
  flag : String → Bool
  prepare : Image → Session → Statistics → Statement → List AuthCall
  readOnly : Image → Session → Statistics → Statement → Bool
  step : Bool → Image → Session → Statistics → Counters → Statement → Ran Image Session Statistics Rows
  unwind : Session → Session → Session
  unwindStatistics : Image → Statistics → Statistics
  sealWrite : Image → Marker → ℤ → Image × ℤ

namespace AuthCall

/-- The action codes of temporary objects. -/
def temporary (call : AuthCall) : Bool :=
  call.database = some "temp" ||
    [AuthAction.createTempIndex, .createTempTable, .createTempTrigger, .createTempView, .dropTempIndex,
      .dropTempTable, .dropTempTrigger, .dropTempView].contains call.action

/-- A flag pragma with a value. -/
def setsFlag (flag : String → Bool) (call : AuthCall) : Bool :=
  call.action = .pragma && call.arg2.isSome && call.arg1.any flag

/-- A function over the connection's counters, or a pragma whose answer depends on what the connection has
done so far. -/
def readsHistory (call : AuthCall) : Bool :=
  call.action = .function && call.arg2.any ["last_insert_rowid", "changes", "total_changes"].contains ||
    call.action = .pragma && call.arg1.any fun name =>
      ["data_version", "optimize"].any (eqlIgnoreCase name)

/-- The call concerns replicated state only. -/
def Replicated (flag : String → Bool) (call : AuthCall) : Prop :=
  call.temporary = false ∧ call.setsFlag flag = false ∧ call.readsHistory = false

/-- A name that SQLite keeps for its own tables, those of the schema and of the statistics among them. -/
def ownTable (name : String) : Bool :=
  "sqlite_".toList = (name.toList.take 7).map Char.toLower

/-- The call may change the schema or a table of statistics. -/
def replans (call : AuthCall) : Bool :=
  [AuthAction.createIndex, .createTable, .createTrigger, .createView, .dropIndex, .dropTable, .dropTrigger,
      .dropView, .alterTable, .reindex, .analyze, .createVtable, .dropVtable].contains call.action ||
    [AuthAction.insert, .update, .delete].contains call.action && call.arg1.any ownTable

end AuthCall

variable {Statement Image Session Statistics Rows : Type}

/-- What SQLite documents: a statement whose authorizer calls concern no temporary object and set no flag
leaves the session alone, and what a fresh one would be; one that changes neither the schema nor a table of
statistics leaves a planner that goes by the stored statistics with them; one that asks for nothing the
connection counts does not depend on the counters. A rollback leaves a session alone that has not moved, and
the node's own statements change nothing a connection starts with. -/
structure Sqlite.Documented (sql : Sqlite Statement Image Session Statistics Rows) : Prop where
  keeps : ∀ inTransaction image session statistics counters statement,
    (∀ call ∈ sql.prepare image session statistics statement,
      call.temporary = false ∧ call.setsFlag sql.flag = false) →
    (sql.step inTransaction image session statistics counters statement).session = session ∧
      sql.opened (sql.step inTransaction image session statistics counters statement).image = sql.opened image
  plans : ∀ inTransaction image session counters statement,
    (∀ call ∈ sql.prepare image session (sql.stored image) statement, call.replans = false) →
    (sql.step inTransaction image session (sql.stored image) counters statement).statistics =
        sql.stored image ∧
      sql.stored (sql.step inTransaction image session (sql.stored image) counters statement).image =
        sql.stored image
  blind : ∀ inTransaction image session statistics counters counters' statement,
    (∀ call ∈ sql.prepare image session statistics statement, call.readsHistory = false) →
    sql.step inTransaction image session statistics counters statement =
      sql.step inTransaction image session statistics counters' statement
  unwind : ∀ session, sql.unwind session session = session
  seals : ∀ image marker changes,
    sql.opened (sql.sealWrite image marker changes).1 = sql.opened image ∧
      sql.stored (sql.sealWrite image marker changes).1 = sql.stored image

/-! ### The connection -/

structure Conn (Image Session Statistics : Type) where
  image : Image
  session : Session
  statistics : Statistics
  counters : Counters

/-- What a run of statements left: the connection, the rowid it inserted last, and the rows of the last
statement that has any. -/
structure Executed (Image Session Statistics Rows : Type) where
  conn : Conn Image Session Statistics
  inserted : Option ℤ
  result : Except (String × Bool) (Option Rows)

namespace Sqlite

variable (sql : Sqlite Statement Image Session Statistics Rows)

/-- Whether every call of the statement is allowed in the scope. -/
def admits (scope : Scope) (conn : Conn Image Session Statistics) (statement : Statement) : Bool :=
  (sql.prepare conn.image conn.session conn.statistics statement).all fun call =>
    scope.authorize call = .allow

/-- One statement in application scope: prepared under the guard, then stepped to its end. -/
def runStatement (inTransaction : Bool) (conn : Conn Image Session Statistics) (statement : Statement) :
    Executed Image Session Statistics Rows :=
  if sql.admits .application conn statement then
    let ran := sql.step inTransaction conn.image conn.session conn.statistics conn.counters statement
    { conn :=
        { image := ran.image
          session := ran.session
          statistics := ran.statistics
          counters :=
            { lastInsertRowid := ran.inserted.getD conn.counters.lastInsertRowid
              changes := ran.changes.getD conn.counters.changes
              totalChanges := conn.counters.totalChanges + ran.changed } }
      inserted := ran.inserted
      result := ran.result }
  else ⟨conn, none, .error ("not authorized", false)⟩

/-- `executePreparedCapture`: the statements in order, up to the first that fails. -/
def executePreparedCapture (conn : Conn Image Session Statistics) (inserted : Option ℤ)
    (returning : Option Rows) :
    List Statement → Executed Image Session Statistics Rows
  | [] => ⟨conn, inserted, .ok returning⟩
  | statement :: rest =>
    let ran := sql.runStatement true conn statement
    match ran.result with
    | .error error => ⟨ran.conn, ran.inserted.or inserted, .error error⟩
    | .ok rows => executePreparedCapture ran.conn (ran.inserted.or inserted) (rows.or returning) rest

end Sqlite

/-! ### The node -/

structure LiveTransaction (Image Session : Type) where
  image : Image
  session : Session
  changesBase : ℤ

/-- The writer connection of a node. -/
structure Writer (Image Session Statistics : Type) where
  conn : Conn Image Session Statistics
  live : Option (LiveTransaction Image Session)

inductive Outcome (Rows : Type) where
  | wrote (changes : ℤ) (lastInsertRowid : Option ℤ) (returning : Option Rows)
  | done
  | rows (rows : Option Rows)
  | refused (error : String)
  deriving DecidableEq

/-- What the caller sees of an operation, and the image before and after the pages it captured. -/
structure Seen (Image Rows : Type) where
  outcome : Outcome Rows
  captured : Option (Image × Image)
  deriving DecidableEq

inductive AppOp (Statement : Type) where
  | write (statements : List Statement) (marker : Marker)
  | beginLive
  | liveExec (statement : Statement)
  | commitLive (marker : Marker)
  | rollbackLive
  | query (statement : Statement)

namespace Writer

variable (sql : Sqlite Statement Image Session Statistics Rows)

/-- The rowid to report: the last one, if it moved. -/
def movedRowid (before after : ℤ) : Option ℤ :=
  if after ≠ before then some after else none

def rollback (conn : Conn Image Session Statistics) (image : Image) (session : Session) :
    Conn Image Session Statistics :=
  { conn with
    image := image
    session := sql.unwind session conn.session
    statistics := sql.unwindStatistics image conn.statistics }

/-- `sealCapturedTransaction` up to the captured frames. -/
def sealCaptured (conn : Conn Image Session Statistics) (marker : Marker) (changes : ℤ) :
    Conn Image Session Statistics :=
  let (image, rowid) := sql.sealWrite conn.image marker changes
  { conn with image := image, counters := { conn.counters with lastInsertRowid := rowid } }

/-- `writeRequest` in application scope. -/
def writeRequest (w : Writer Image Session Statistics) (statements : List Statement) (marker : Marker) :
    Writer Image Session Statistics × Seen Image Rows :=
  if w.live.isSome then (w, ⟨.refused "TransactionOpen", none⟩)
  else
    let before := w.conn
    let ran := sql.executePreparedCapture before none none statements
    match ran.result with
    | .error (error, _) =>
      (⟨rollback sql ran.conn before.image before.session, none⟩, ⟨.refused error, none⟩)
    | .ok returning =>
      let changes := ran.conn.counters.totalChanges - before.counters.totalChanges
      let rowid := movedRowid before.counters.lastInsertRowid ran.conn.counters.lastInsertRowid
      let after := sealCaptured sql ran.conn marker changes
      (⟨after, none⟩, ⟨.wrote changes rowid returning, some (before.image, after.image)⟩)

def beginLive (w : Writer Image Session Statistics) : Writer Image Session Statistics × Seen Image Rows :=
  if w.live.isSome then (w, ⟨.refused "TransactionOpen", none⟩)
  else
    ({ w with live := some ⟨w.conn.image, w.conn.session, w.conn.counters.totalChanges⟩ }, ⟨.done, none⟩)

def liveExec (w : Writer Image Session Statistics) (statement : Statement) :
    Writer Image Session Statistics × Seen Image Rows :=
  match w.live with
  | none => (w, ⟨.refused "NoTransaction", none⟩)
  | some live =>
    let ran := sql.executePreparedCapture w.conn none none [statement]
    match ran.result with
    | .error (error, true) =>
      (⟨rollback sql ran.conn live.image live.session, none⟩, ⟨.refused error, none⟩)
    | .error (error, false) => (⟨ran.conn, some live⟩, ⟨.refused error, none⟩)
    | .ok returning =>
      let changes := ran.conn.counters.totalChanges - w.conn.counters.totalChanges
      let rowid := movedRowid w.conn.counters.lastInsertRowid ran.conn.counters.lastInsertRowid
      (⟨ran.conn, some live⟩, ⟨.wrote changes rowid returning, none⟩)

def commitLive (w : Writer Image Session Statistics) (marker : Marker) :
    Writer Image Session Statistics × Seen Image Rows :=
  match w.live with
  | none => (w, ⟨.refused "NoTransaction", none⟩)
  | some live =>
    let changes := w.conn.counters.totalChanges - live.changesBase
    let after := sealCaptured sql w.conn marker changes
    (⟨after, none⟩, ⟨.wrote changes none none, some (live.image, after.image)⟩)

def rollbackLive (w : Writer Image Session Statistics) : Writer Image Session Statistics × Seen Image Rows :=
  match w.live with
  | none => (w, ⟨.refused "NoTransaction", none⟩)
  | some live => (⟨rollback sql w.conn live.image live.session, none⟩, ⟨.done, none⟩)

/-- `queryPreparedTypedWithLimits` on the live connection. -/
def query (w : Writer Image Session Statistics) (statement : Statement) :
    Writer Image Session Statistics × Seen Image Rows :=
  if sql.admits .application w.conn statement &&
      !sql.readOnly w.conn.image w.conn.session w.conn.statistics statement then
    (w, ⟨.refused "WriteInReadQuery", none⟩)
  else
    let ran := sql.runStatement w.live.isSome w.conn statement
    match ran.result with
    | .error (error, _) => ({ w with conn := ran.conn }, ⟨.refused error, none⟩)
    | .ok rows => ({ w with conn := ran.conn }, ⟨.rows rows, none⟩)

def apply (w : Writer Image Session Statistics) :
    AppOp Statement → Writer Image Session Statistics × Seen Image Rows
  | .write statements marker => w.writeRequest sql statements marker
  | .beginLive => w.beginLive
  | .liveExec statement => w.liveExec sql statement
  | .commitLive marker => w.commitLive sql marker
  | .rollbackLive => w.rollbackLive sql
  | .query statement => w.query sql statement

/-- The connection is closed, between transactions, and `openLiveDatabase` opens it on the same image. -/
def reopen (w : Writer Image Session Statistics) : Writer Image Session Statistics :=
  if w.live.isSome then w
  else { w with conn := ⟨w.conn.image, sql.opened w.conn.image, sql.stored w.conn.image, .zero⟩ }

/-- The operations in order; where the flag says so, the connection is reopened first. -/
def run (w : Writer Image Session Statistics) : List (Bool × AppOp Statement) → List (Seen Image Rows)
  | [] => []
  | (reopens, op) :: rest =>
    let (w', seen) := (if reopens then w.reopen sql else w).apply sql op
    seen :: run w' rest

def opened (image : Image) : Writer Image Session Statistics :=
  ⟨⟨image, sql.opened image, sql.stored image, .zero⟩, none⟩

end Writer

/-! ### Statements on replicated state only -/

section Reopening

variable {sql : Sqlite Statement Image Session Statistics Rows} {conn conn' : Conn Image Session Statistics}

/-- If the guard admits the statement, it touches no connection-local state, and if it may change the schema
or the statistics, the connection is left with the statistics that are then stored. -/
def CleanStatement (sql : Sqlite Statement Image Session Statistics Rows) (inTransaction : Bool)
    (conn : Conn Image Session Statistics) (statement : Statement) : Prop :=
  sql.admits .application conn statement = true →
    (∀ call ∈ sql.prepare conn.image conn.session conn.statistics statement, call.Replicated sql.flag) ∧
      ((∃ call ∈ sql.prepare conn.image conn.session conn.statistics statement, call.replans = true) →
        let ran := sql.step inTransaction conn.image conn.session conn.statistics conn.counters statement
        ran.statistics = sql.stored ran.image)

def CleanAll (sql : Sqlite Statement Image Session Statistics Rows) (conn : Conn Image Session Statistics) :
    List Statement → Prop
  | [] => True
  | statement :: rest =>
    CleanStatement sql true conn statement ∧
      CleanAll sql (sql.runStatement true conn statement).conn rest

/-- An insert ends on a rowid that neither a fresh connection nor this one reports already. -/
def RowidMoves (conn : Conn Image Session Statistics) (inserted : Option ℤ) : Prop :=
  ∀ rowid ∈ inserted, rowid ≠ 0 ∧ rowid ≠ conn.counters.lastInsertRowid

/-- Two connections on one image, both as freshly opened but for their counters. -/
structure SameConn (sql : Sqlite Statement Image Session Statistics Rows)
    (conn conn' : Conn Image Session Statistics) : Prop where
  image : conn'.image = conn.image
  session : conn.session = sql.opened conn.image
  session' : conn'.session = sql.opened conn.image
  statistics : conn.statistics = sql.stored conn.image
  statistics' : conn'.statistics = sql.stored conn.image

/-- Two executions from such connections with the same visible result. -/
structure SameRun (sql : Sqlite Statement Image Session Statistics Rows)
    (conn conn' : Conn Image Session Statistics) (e e' : Executed Image Session Statistics Rows) : Prop
    extends SameConn sql e.conn e'.conn where
  result : e'.result = e.result
  inserted : e'.inserted = e.inserted
  total : e'.conn.counters.totalChanges - conn'.counters.totalChanges =
    e.conn.counters.totalChanges - conn.counters.totalChanges
  opened : sql.opened e.conn.image = sql.opened conn.image

/-- After a clean statement a connection with the stored statistics has them again. -/
theorem statistics_of_clean (h : sql.Documented) {inTransaction : Bool} {statement : Statement}
    (hstatistics : conn.statistics = sql.stored conn.image)
    (hclean : CleanStatement sql inTransaction conn statement)
    (hadmitted : sql.admits .application conn statement = true) :
    (sql.step inTransaction conn.image conn.session conn.statistics conn.counters statement).statistics =
      sql.stored
        (sql.step inTransaction conn.image conn.session conn.statistics conn.counters statement).image := by
  obtain ⟨-, hreplans⟩ := hclean hadmitted
  by_cases hsome : ∃ call ∈ sql.prepare conn.image conn.session conn.statistics statement, call.replans = true
  · exact hreplans hsome
  · have hnone : ∀ call ∈ sql.prepare conn.image conn.session (sql.stored conn.image) statement,
        call.replans = false := by
      intro call hcall
      rw [← hstatistics] at hcall
      exact Bool.eq_false_iff.2 fun htrue => hsome ⟨call, hcall, htrue⟩
    obtain ⟨hplanner, hstored⟩ := h.plans inTransaction conn.image conn.session conn.counters statement hnone
    rw [hstatistics, hplanner, hstored]

/-- A clean statement does the same on both connections. -/
theorem sameRun_runStatement (h : sql.Documented) (hsame : SameConn sql conn conn') (inTransaction : Bool)
    {statement : Statement} (hclean : CleanStatement sql inTransaction conn statement) :
    SameRun sql conn conn' (sql.runStatement inTransaction conn statement)
      (sql.runStatement inTransaction conn' statement) := by
  have hplanner := statistics_of_clean h hsame.statistics hclean
  obtain ⟨image, session, statistics, counters⟩ := conn
  obtain ⟨image', session', statistics', counters'⟩ := conn'
  obtain rfl : image' = image := hsame.image
  obtain ⟨rfl, rfl⟩ : session = sql.opened image' ∧ session' = sql.opened image' :=
    ⟨hsame.session, hsame.session'⟩
  obtain ⟨rfl, rfl⟩ : statistics = sql.stored image' ∧ statistics' = sql.stored image' :=
    ⟨hsame.statistics, hsame.statistics'⟩
  have hadmits :
      sql.admits .application ⟨image', sql.opened image', sql.stored image', counters'⟩ statement =
        sql.admits .application ⟨image', sql.opened image', sql.stored image', counters⟩ statement := rfl
  rw [Sqlite.runStatement, Sqlite.runStatement, hadmits]
  split
  · rename_i hadmitted
    obtain ⟨hcalls, -⟩ := hclean hadmitted
    have hstep := h.blind inTransaction image' (sql.opened image') (sql.stored image') counters' counters
      statement fun call hcall => (hcalls call hcall).2.2
    obtain ⟨hsession, hopened⟩ := h.keeps inTransaction image' (sql.opened image') (sql.stored image') counters
      statement fun call hcall => ⟨(hcalls call hcall).1, (hcalls call hcall).2.1⟩
    have hkeeps := hsession.trans hopened.symm
    simp only [hstep]
    refine ⟨⟨rfl, hkeeps, hkeeps, hplanner hadmitted, hplanner hadmitted⟩, rfl, rfl, ?_, hopened⟩
    dsimp only
    omega
  · refine ⟨⟨rfl, rfl, rfl, rfl, rfl⟩, rfl, rfl, ?_, rfl⟩
    dsimp only
    omega

theorem lastInsertRowid_runStatement (inTransaction : Bool) (conn : Conn Image Session Statistics)
    (statement : Statement) :
    (sql.runStatement inTransaction conn statement).conn.counters.lastInsertRowid =
      (sql.runStatement inTransaction conn statement).inserted.getD conn.counters.lastInsertRowid := by
  rw [Sqlite.runStatement]
  split <;> rfl

/-- The last rowid of a connection is that of the last insert, or the one it had. -/
theorem lastInsertRowid_execute (statements : List Statement) (conn : Conn Image Session Statistics)
    (inserted : Option ℤ) (returning : Option Rows) (before : ℤ)
    (h : conn.counters.lastInsertRowid = inserted.getD before) :
    (sql.executePreparedCapture conn inserted returning statements).conn.counters.lastInsertRowid =
      (sql.executePreparedCapture conn inserted returning statements).inserted.getD before := by
  induction statements generalizing conn inserted returning with
  | nil => exact h
  | cons statement rest ih =>
    have hnext : (sql.runStatement true conn statement).conn.counters.lastInsertRowid =
        ((sql.runStatement true conn statement).inserted.or inserted).getD before := by
      rw [lastInsertRowid_runStatement]
      cases (sql.runStatement true conn statement).inserted with
      | none => exact h
      | some rowid => rfl
    rw [Sqlite.executePreparedCapture]
    split
    · exact hnext
    · exact ih _ _ _ hnext

theorem sameRun_execute (h : sql.Documented) (statements : List Statement) (hsame : SameConn sql conn conn')
    (hclean : CleanAll sql conn statements) (inserted : Option ℤ) (returning : Option Rows) :
    SameRun sql conn conn' (sql.executePreparedCapture conn inserted returning statements)
      (sql.executePreparedCapture conn' inserted returning statements) := by
  induction statements generalizing conn conn' inserted returning with
  | nil => exact ⟨hsame, rfl, rfl, by simp [Sqlite.executePreparedCapture], rfl⟩
  | cons statement rest ih =>
    have hrun := sameRun_runStatement h hsame true hclean.1
    rw [Sqlite.executePreparedCapture, Sqlite.executePreparedCapture]
    simp only [hrun.result, hrun.inserted]
    split
    · exact ⟨hrun.toSameConn, rfl, rfl, hrun.total, hrun.opened⟩
    · rename_i rows hrows
      have hrest := ih hrun.toSameConn hclean.2
        ((sql.runStatement true conn statement).inserted.or inserted) (rows.or returning)
      refine ⟨hrest.toSameConn, hrest.result, hrest.inserted, ?_, hrest.opened.trans hrun.opened⟩
      have htotal := hrun.total
      have htotal' := hrest.total
      omega

theorem movedRowid_eq {before : ℤ} {inserted : Option ℤ} (h : ∀ rowid ∈ inserted, rowid ≠ before) :
    Writer.movedRowid before (inserted.getD before) = inserted := by
  cases inserted with
  | none => simp [Writer.movedRowid]
  | some rowid => simp [Writer.movedRowid, h rowid rfl]

/-! ### Operations -/

/-- A rollback to the image leaves the connection with the statistics stored there. -/
def Restores (sql : Sqlite Statement Image Session Statistics Rows) (conn : Conn Image Session Statistics)
    (image : Image) : Prop :=
  sql.unwindStatistics image conn.statistics = sql.stored image

/-- What the operation runs is clean, the rowid it reports moves, and if it gives its transaction up, that
takes the statistics back as well. -/
def CleanOp (sql : Sqlite Statement Image Session Statistics Rows) (w : Writer Image Session Statistics) :
    AppOp Statement → Prop
  | .write statements _ => w.live = none →
      let ran := sql.executePreparedCapture w.conn none none statements
      CleanAll sql w.conn statements ∧ RowidMoves w.conn ran.inserted ∧
        ∀ error, ran.result = .error error → Restores sql ran.conn w.conn.image
  | .liveExec statement => ∀ live, w.live = some live →
      let ran := sql.executePreparedCapture w.conn none none [statement]
      CleanAll sql w.conn [statement] ∧ RowidMoves w.conn ran.inserted ∧
        ∀ text, ran.result = .error (text, true) → Restores sql ran.conn live.image
  | .rollbackLive => ∀ live, w.live = some live → Restores sql w.conn live.image
  | .query statement => CleanStatement sql w.live.isSome w.conn statement
  | _ => True

def CleanRun (sql : Sqlite Statement Image Session Statistics Rows) (w : Writer Image Session Statistics) :
    List (AppOp Statement) → Prop
  | [] => True
  | op :: rest => CleanOp sql w op ∧ CleanRun sql (w.apply sql op).1 rest

/-- Two transactions that began on one image and have come to the same changes. -/
structure SameBegun (sql : Sqlite Statement Image Session Statistics Rows)
    (conn conn' : Conn Image Session Statistics) (live live' : LiveTransaction Image Session) : Prop where
  image : live'.image = live.image
  opened : sql.opened conn.image = sql.opened live.image
  session : live.session = sql.opened live.image
  session' : live'.session = sql.opened live.image
  changes : conn'.counters.totalChanges - live'.changesBase = conn.counters.totalChanges - live.changesBase

/-- A live transaction on both connections, or on neither. -/
def SameLive (sql : Sqlite Statement Image Session Statistics Rows)
    (w w' : Writer Image Session Statistics) : Prop :=
  (w.live = none ∧ w'.live = none) ∨ ∃ live live', w.live = some live ∧ w'.live = some live' ∧
    SameBegun sql w.conn w'.conn live live'

/-- A writer and one that has been reopened along the way. -/
structure SameWriter (sql : Sqlite Statement Image Session Statistics Rows)
    (w w' : Writer Image Session Statistics) : Prop extends SameConn sql w.conn w'.conn where
  rowid : w'.conn.counters.lastInsertRowid = w.conn.counters.lastInsertRowid ∨
    w'.conn.counters.lastInsertRowid = 0
  live : SameLive sql w w'

variable {w w' : Writer Image Session Statistics}

theorem SameWriter.reopen (h : SameWriter sql w w') : SameWriter sql w (w'.reopen sql) := by
  rw [Writer.reopen]
  split
  · exact h
  · rename_i hidle
    have hopened : sql.opened w'.conn.image = sql.opened w.conn.image := congrArg sql.opened h.image
    have hstored : sql.stored w'.conn.image = sql.stored w.conn.image := congrArg sql.stored h.image
    refine ⟨⟨h.image, h.session, hopened, h.statistics, hstored⟩, Or.inr rfl, ?_⟩
    rcases h.live with ⟨hnone, hnone'⟩ | ⟨live, live', -, hsome', -⟩
    · exact Or.inl ⟨hnone, hnone'⟩
    · rw [hsome'] at hidle
      exact absurd rfl hidle

/-- What runs in a transaction leaves its beginning as it was. -/
theorem SameBegun.of_run {live live' : LiveTransaction Image Session}
    (h : SameBegun sql conn conn' live live') {e e' : Executed Image Session Statistics Rows}
    (hrun : SameRun sql conn conn' e e') :
    SameBegun sql e.conn e'.conn live live' where
  image := h.image
  opened := hrun.opened.trans h.opened
  session := h.session
  session' := h.session'
  changes := by
    have htotal := hrun.total
    have hchanges := h.changes
    omega

theorem RowidMoves.ne {inserted : Option ℤ} (h : RowidMoves w.conn inserted) (hsame : SameWriter sql w w') :
    ∀ rowid ∈ inserted, rowid ≠ w'.conn.counters.lastInsertRowid := by
  intro rowid hrowid
  obtain ⟨hzero, hlast⟩ := h rowid hrowid
  rcases hsame.rowid with heq | heq
  · rw [heq]
    exact hlast
  · rw [heq]
    exact hzero

theorem rowid_getD {a a' : ℤ} (h : a' = a ∨ a' = 0) (inserted : Option ℤ) :
    inserted.getD a' = inserted.getD a ∨ inserted.getD a' = 0 := by
  cases inserted with
  | none => exact h
  | some rowid => exact Or.inl rfl

theorem sameConn_sealCaptured (h : sql.Documented) (hsame : SameConn sql conn conn') (marker : Marker)
    (changes : ℤ) :
    SameConn sql (Writer.sealCaptured sql conn marker changes)
      (Writer.sealCaptured sql conn' marker changes) := by
  obtain ⟨hopened, hstored⟩ := h.seals conn.image marker changes
  refine ⟨?_, hsame.session.trans hopened.symm, hsame.session'.trans hopened.symm,
    hsame.statistics.trans hstored.symm, hsame.statistics'.trans hstored.symm⟩
  show (sql.sealWrite conn'.image marker changes).1 = (sql.sealWrite conn.image marker changes).1
  rw [hsame.image]

theorem lastInsertRowid_sealCaptured (hsame : SameConn sql conn conn') (marker : Marker) (changes : ℤ) :
    (Writer.sealCaptured sql conn' marker changes).counters.lastInsertRowid =
      (Writer.sealCaptured sql conn marker changes).counters.lastInsertRowid := by
  show (sql.sealWrite conn'.image marker changes).2 = (sql.sealWrite conn.image marker changes).2
  rw [hsame.image]

theorem sameConn_rollback (h : sql.Documented) (hsame : SameConn sql conn conn') {image image' : Image}
    {session session' : Session} (himage : image' = image)
    (hopened : sql.opened conn.image = sql.opened image)
    (hsession : session = sql.opened image) (hsession' : session' = sql.opened image)
    (hrestores : Restores sql conn image) :
    SameConn sql (Writer.rollback sql conn image session) (Writer.rollback sql conn' image' session') := by
  refine ⟨himage, ?_, ?_, hrestores, ?_⟩
  · show sql.unwind session conn.session = sql.opened image
    rw [hsession, hsame.session, hopened]
    exact h.unwind _
  · show sql.unwind session' conn'.session = sql.opened image
    rw [hsession', hsame.session', hopened]
    exact h.unwind _
  · show sql.unwindStatistics image' conn'.statistics = sql.stored image
    rw [himage, hsame.statistics', ← hsame.statistics]
    exact hrestores

/-- Two executions that also report the same rowid. -/
structure SameReport (sql : Sqlite Statement Image Session Statistics Rows)
    (w w' : Writer Image Session Statistics) (e e' : Executed Image Session Statistics Rows) : Prop
    extends SameRun sql w.conn w'.conn e e' where
  reported : Writer.movedRowid w'.conn.counters.lastInsertRowid e'.conn.counters.lastInsertRowid =
    Writer.movedRowid w.conn.counters.lastInsertRowid e.conn.counters.lastInsertRowid
  rowid : e'.conn.counters.lastInsertRowid = e.conn.counters.lastInsertRowid ∨
    e'.conn.counters.lastInsertRowid = 0

theorem sameReport_execute (h : sql.Documented) (hsame : SameWriter sql w w') (statements : List Statement)
    (hclean : CleanAll sql w.conn statements)
    (hmoves : RowidMoves w.conn (sql.executePreparedCapture w.conn none none statements).inserted) :
    SameReport sql w w' (sql.executePreparedCapture w.conn none none statements)
      (sql.executePreparedCapture w'.conn none none statements) := by
  have hrun := sameRun_execute h statements hsame.toSameConn hclean none none
  have hrowid : ∀ conn : Conn Image Session Statistics,
      (sql.executePreparedCapture conn none none statements).conn.counters.lastInsertRowid =
        (sql.executePreparedCapture conn none none statements).inserted.getD
          conn.counters.lastInsertRowid :=
    fun conn => lastInsertRowid_execute statements conn none none _ rfl
  have hlast := hrowid w.conn
  have hlast' := hrowid w'.conn
  rw [hrun.inserted] at hlast'
  refine ⟨hrun, ?_, ?_⟩
  · rw [hlast, hlast', movedRowid_eq (hmoves.ne hsame),
      movedRowid_eq fun rowid hrowid => (hmoves rowid hrowid).2]
  · rw [hlast, hlast']
    exact rowid_getD hsame.rowid _

theorem sameWriter_write (h : sql.Documented) (hsame : SameWriter sql w w') (statements : List Statement)
    (marker : Marker) (hclean : CleanOp sql w (.write statements marker)) :
    (w'.writeRequest sql statements marker).2 = (w.writeRequest sql statements marker).2 ∧
      SameWriter sql (w.writeRequest sql statements marker).1
        (w'.writeRequest sql statements marker).1 := by
  rcases hsame.live with ⟨hnone, hnone'⟩ | ⟨live, live', hsome, hsome', -⟩
  · obtain ⟨hall, hmoves, hrestores⟩ := hclean hnone
    have hrun := sameReport_execute h hsame statements hall hmoves
    rw [Writer.writeRequest, Writer.writeRequest, hnone, hnone']
    simp only [Option.isSome_none, Bool.false_eq_true, if_false, hrun.result]
    cases hresult : (sql.executePreparedCapture w.conn none none statements).result with
    | error error =>
      refine ⟨rfl, ⟨?_, hrun.rowid, Or.inl ⟨rfl, rfl⟩⟩⟩
      exact sameConn_rollback h hrun.toSameConn hsame.image hrun.opened hsame.session hsame.session'
        (hrestores error hresult)
    | ok returning =>
      have hsealed := sameConn_sealCaptured h hrun.toSameConn marker
        ((sql.executePreparedCapture w.conn none none statements).conn.counters.totalChanges -
          w.conn.counters.totalChanges)
      simp only [hrun.total, hrun.reported, hsame.image, hsealed.image]
      refine ⟨trivial, ⟨hsealed, Or.inl ?_, Or.inl ⟨rfl, rfl⟩⟩⟩
      exact lastInsertRowid_sealCaptured hrun.toSameConn marker _
  · rw [Writer.writeRequest, Writer.writeRequest, hsome, hsome']
    exact ⟨rfl, hsame⟩

theorem sameWriter_liveExec (h : sql.Documented) (hsame : SameWriter sql w w') (statement : Statement)
    (hclean : CleanOp sql w (.liveExec statement)) :
    (w'.liveExec sql statement).2 = (w.liveExec sql statement).2 ∧
      SameWriter sql (w.liveExec sql statement).1 (w'.liveExec sql statement).1 := by
  rcases hsame.live with ⟨hnone, hnone'⟩ | ⟨live, live', hsome, hsome', hbegun⟩
  · rw [Writer.liveExec, Writer.liveExec, hnone, hnone']
    exact ⟨rfl, hsame⟩
  · obtain ⟨hall, hmoves, hrestores⟩ := hclean live hsome
    have hrun := sameReport_execute h hsame [statement] hall hmoves
    have hnext := hbegun.of_run hrun.toSameRun
    have hlive : SameLive sql ⟨(sql.executePreparedCapture w.conn none none [statement]).conn, some live⟩
        ⟨(sql.executePreparedCapture w'.conn none none [statement]).conn, some live'⟩ :=
      Or.inr ⟨live, live', rfl, rfl, hnext⟩
    rw [Writer.liveExec, Writer.liveExec, hsome, hsome']
    simp only [hrun.result]
    cases hresult : (sql.executePreparedCapture w.conn none none [statement]).result with
    | error error =>
      obtain ⟨text, ended⟩ := error
      cases ended with
      | false => exact ⟨rfl, ⟨hrun.toSameConn, hrun.rowid, hlive⟩⟩
      | true =>
        refine ⟨rfl, ⟨?_, hrun.rowid, Or.inl ⟨rfl, rfl⟩⟩⟩
        exact sameConn_rollback h hrun.toSameConn hnext.image hnext.opened hnext.session hnext.session'
          (hrestores text hresult)
    | ok returning =>
      simp only [hrun.total, hrun.reported]
      exact ⟨trivial, ⟨hrun.toSameConn, hrun.rowid, hlive⟩⟩

theorem sameWriter_commitLive (h : sql.Documented) (hsame : SameWriter sql w w') (marker : Marker) :
    (w'.commitLive sql marker).2 = (w.commitLive sql marker).2 ∧
      SameWriter sql (w.commitLive sql marker).1 (w'.commitLive sql marker).1 := by
  rcases hsame.live with ⟨hnone, hnone'⟩ | ⟨live, live', hsome, hsome', hbegun⟩
  · rw [Writer.commitLive, Writer.commitLive, hnone, hnone']
    exact ⟨rfl, hsame⟩
  · have hsealed := sameConn_sealCaptured h hsame.toSameConn marker
      (w.conn.counters.totalChanges - live.changesBase)
    rw [Writer.commitLive, Writer.commitLive, hsome, hsome']
    simp only [hbegun.changes, hbegun.image, hsealed.image]
    refine ⟨trivial, ⟨hsealed, Or.inl ?_, Or.inl ⟨rfl, rfl⟩⟩⟩
    exact lastInsertRowid_sealCaptured hsame.toSameConn marker _

theorem sameWriter_rollbackLive (h : sql.Documented) (hsame : SameWriter sql w w')
    (hclean : CleanOp sql w .rollbackLive) :
    (w'.rollbackLive sql).2 = ((w.rollbackLive sql).2 : Seen Image Rows) ∧
      SameWriter sql (w.rollbackLive sql).1 (w'.rollbackLive sql).1 := by
  rcases hsame.live with ⟨hnone, hnone'⟩ | ⟨live, live', hsome, hsome', hbegun⟩
  · rw [Writer.rollbackLive, Writer.rollbackLive, hnone, hnone']
    exact ⟨rfl, hsame⟩
  · rw [Writer.rollbackLive, Writer.rollbackLive, hsome, hsome']
    refine ⟨rfl, ⟨?_, hsame.rowid, Or.inl ⟨rfl, rfl⟩⟩⟩
    exact sameConn_rollback h hsame.toSameConn hbegun.image hbegun.opened hbegun.session hbegun.session'
      (hclean live hsome)

theorem sameWriter_beginLive (hsame : SameWriter sql w w') :
    w'.beginLive.2 = (w.beginLive.2 : Seen Image Rows) ∧
      SameWriter sql (w.beginLive : _ × Seen Image Rows).1 (w'.beginLive : _ × Seen Image Rows).1 := by
  rcases hsame.live with ⟨hnone, hnone'⟩ | ⟨live, live', hsome, hsome', -⟩
  · rw [Writer.beginLive, Writer.beginLive, hnone, hnone']
    refine ⟨rfl, ⟨hsame.toSameConn, hsame.rowid, Or.inr ⟨_, _, rfl, rfl, ?_⟩⟩⟩
    refine ⟨hsame.image, rfl, hsame.session, hsame.session', ?_⟩
    show w'.conn.counters.totalChanges - w'.conn.counters.totalChanges =
      w.conn.counters.totalChanges - w.conn.counters.totalChanges
    omega
  · rw [Writer.beginLive, Writer.beginLive, hsome, hsome']
    exact ⟨rfl, hsame⟩

theorem SameLive.isSome (h : SameLive sql w w') : w'.live.isSome = w.live.isSome := by
  rcases h with ⟨hnone, hnone'⟩ | ⟨live, live', hsome, hsome', -⟩
  · rw [hnone, hnone']
  · rw [hsome, hsome']
    rfl

theorem sameWriter_query (h : sql.Documented) (hsame : SameWriter sql w w') (statement : Statement)
    (hclean : CleanOp sql w (.query statement)) :
    (w'.query sql statement).2 = (w.query sql statement).2 ∧
      SameWriter sql (w.query sql statement).1 (w'.query sql statement).1 := by
  have hrun := sameRun_runStatement h hsame.toSameConn w.live.isSome hclean
  have hadmits : sql.admits .application w'.conn statement = sql.admits .application w.conn statement := by
    rw [Sqlite.admits, Sqlite.admits, hsame.image, hsame.session, hsame.session', hsame.statistics,
      hsame.statistics']
  have hreadOnly : sql.readOnly w'.conn.image w'.conn.session w'.conn.statistics statement =
      sql.readOnly w.conn.image w.conn.session w.conn.statistics statement := by
    rw [hsame.image, hsame.session, hsame.session', hsame.statistics, hsame.statistics']
  have hnext : SameWriter sql { w with conn := (sql.runStatement w.live.isSome w.conn statement).conn }
      { w' with conn := (sql.runStatement w.live.isSome w'.conn statement).conn } := by
    refine ⟨hrun.toSameConn, ?_, ?_⟩
    · dsimp only
      rw [lastInsertRowid_runStatement, lastInsertRowid_runStatement, hrun.inserted]
      exact rowid_getD hsame.rowid _
    · rcases hsame.live with hnone | ⟨live, live', hsome, hsome', hbegun⟩
      · exact Or.inl hnone
      · exact Or.inr ⟨live, live', hsome, hsome', hbegun.of_run hrun⟩
  rw [Writer.query, Writer.query, hadmits, hreadOnly, hsame.live.isSome]
  split
  · exact ⟨rfl, hsame⟩
  · simp only [hrun.result]
    split
    · exact ⟨rfl, hnext⟩
    · exact ⟨rfl, hnext⟩

theorem sameWriter_apply (h : sql.Documented) (hsame : SameWriter sql w w') (op : AppOp Statement)
    (hclean : CleanOp sql w op) :
    (w'.apply sql op).2 = (w.apply sql op).2 ∧
      SameWriter sql (w.apply sql op).1 (w'.apply sql op).1 := by
  cases op with
  | write statements marker => exact sameWriter_write h hsame statements marker hclean
  | beginLive => exact sameWriter_beginLive hsame
  | liveExec statement => exact sameWriter_liveExec h hsame statement hclean
  | commitLive marker => exact sameWriter_commitLive h hsame marker
  | rollbackLive => exact sameWriter_rollbackLive h hsame hclean
  | query statement => exact sameWriter_query h hsame statement hclean

theorem run_sameWriter (h : sql.Documented) (hsame : SameWriter sql w w')
    (ops : List (Bool × AppOp Statement)) (hclean : CleanRun sql w (ops.map Prod.snd)) :
    w'.run sql ops = w.run sql (ops.map fun step => (false, step.2)) := by
  induction ops generalizing w w' with
  | nil => rfl
  | cons step rest ih =>
    obtain ⟨reopens, op⟩ := step
    have hsame' : SameWriter sql w (if reopens then w'.reopen sql else w') := by
      split
      · exact hsame.reopen
      · exact hsame
    obtain ⟨hseen, hnext⟩ := sameWriter_apply h hsame' op hclean.1
    show ((if reopens then w'.reopen sql else w').apply sql op).2 ::
        ((if reopens then w'.reopen sql else w').apply sql op).1.run sql rest =
      (w.apply sql op).2 :: (w.apply sql op).1.run sql (rest.map fun step => (false, step.2))
    rw [hseen, ih hnext hclean.2]

end Reopening

/-! ### A small engine -/

instance (flag : String → Bool) (call : AuthCall) : Decidable (call.Replicated flag) :=
  inferInstanceAs (Decidable (_ ∧ _ ∧ _))

instance [DecidableEq Statistics] (sql : Sqlite Statement Image Session Statistics Rows)
    (inTransaction : Bool) (conn : Conn Image Session Statistics) (statement : Statement) :
    Decidable (CleanStatement sql inTransaction conn statement) :=
  inferInstanceAs (Decidable (_ → _ ∧ (_ → _)))

/-- A database of integer tables, with the number of rows they had when they were analyzed, and the identity
of its last batch. -/
structure TinyImage where
  tables : List (String × List ℤ)
  statistics : List (String × ℕ)
  batchId : ℕ
  deriving DecidableEq

structure TinySession where
  temp : List (String × List ℤ)
  foreignKeys : Bool
  deriving DecidableEq

inductive TinyStatement where
  | createTempTable (name : String)
  | insert (name : String) (value : ℤ)
  | foreignKeys (on : Bool)
  | select (name : String)
  | analyze
  | insertStatistic (name : String) (rows : ℕ)

namespace TinyStatement

/-- Names are looked up among the temporary tables first. -/
def databaseOf (session : TinySession) (name : String) : String :=
  if (session.temp.lookup name).isSome then "temp" else "main"

def addRow (tables : List (String × List ℤ)) (name : String) (value : ℤ) : List (String × List ℤ) :=
  tables.map fun table => if table.1 = name then (table.1, table.2 ++ [value]) else table

def prepare (session : TinySession) : TinyStatement → List AuthCall
  | createTempTable name => [⟨.insert, some "sqlite_temp_master", none, some "temp"⟩,
      ⟨.createTempTable, some name, none, some "temp"⟩]
  | insert name _ => [⟨.insert, some name, none, some (databaseOf session name)⟩]
  | foreignKeys on => [⟨.pragma, some "foreign_keys", some (if on then "on" else "off"), none⟩]
  | select name => [⟨.select, none, none, none⟩,
      ⟨.read, some name, some "value", some (databaseOf session name)⟩]
  | analyze => [⟨.analyze, some "t", none, some "main"⟩, ⟨.insert, some "sqlite_stat1", none, some "main"⟩]
  | insertStatistic _ _ => [⟨.insert, some "sqlite_stat1", none, some "main"⟩]

def readOnly : TinyStatement → Bool
  | foreignKeys _ => true
  | select _ => true
  | _ => false

def inserting (image : TinyImage) (session : TinySession) (statistics : List (String × ℕ)) (rows : ℤ) :
    Ran TinyImage TinySession (List (String × ℕ)) (List ℤ) :=
  ⟨image, session, statistics, some (rows + 1), some 1, 1, .ok none⟩

/-- A statement that inserts no row. -/
def quiet (image : TinyImage) (session : TinySession) (statistics : List (String × ℕ))
    (result : Except (String × Bool) (Option (List ℤ))) :
    Ran TinyImage TinySession (List (String × ℕ)) (List ℤ) :=
  ⟨image, session, statistics, none, none, 0, result⟩

/-- A table known to be large is read backwards. -/
def plan (statistics : List (String × ℕ)) (name : String) (rows : List ℤ) : List ℤ :=
  if (statistics.lookup name).any (1 < ·) then rows.reverse else rows

def step (inTransaction : Bool) (image : TinyImage) (session : TinySession)
    (statistics : List (String × ℕ)) :
    TinyStatement → Ran TinyImage TinySession (List (String × ℕ)) (List ℤ)
  | createTempTable name =>
    quiet image { session with temp := (name, []) :: session.temp } statistics (.ok none)
  | insert name value =>
    match session.temp.lookup name, image.tables.lookup name with
    | some rows, _ =>
      inserting image { session with temp := addRow session.temp name value } statistics rows.length
    | none, some rows =>
      inserting { image with tables := addRow image.tables name value } session statistics rows.length
    | none, none => quiet image session statistics (.error ("no such table", false))
  | foreignKeys on =>
    -- Inside a transaction the pragma does nothing.
    quiet image (if inTransaction then session else { session with foreignKeys := on }) statistics (.ok none)
  | select name =>
    quiet image session statistics
      (.ok (((session.temp.lookup name).or (image.tables.lookup name)).map (plan statistics name)))
  | analyze =>
    let counted := image.tables.map fun table => (table.1, table.2.length)
    quiet { image with statistics := counted } session counted (.ok none)
  | insertStatistic name rows =>
    quiet { image with statistics := (name, rows) :: image.statistics } session statistics (.ok none)

end TinyStatement

def tinySqlite : Sqlite TinyStatement TinyImage TinySession (List (String × ℕ)) (List ℤ) where
  opened _ := ⟨[], true⟩
  stored image := image.statistics
  flag name := name = "foreign_keys"
  prepare _ session _ statement := statement.prepare session
  readOnly _ _ _ statement := statement.readOnly
  step inTransaction image session statistics _ statement :=
    statement.step inTransaction image session statistics
  unwind before now := { now with temp := before.temp }
  unwindStatistics _ statistics := statistics
  sealWrite image marker _ := ({ image with batchId := marker.batchId }, 100)

theorem tinySqlite_keeps (inTransaction : Bool) (image : TinyImage) (session : TinySession)
    (statistics : List (String × ℕ)) (statement : TinyStatement)
    (hcalls : ∀ call ∈ statement.prepare session,
      call.temporary = false ∧ call.setsFlag tinySqlite.flag = false) :
    (statement.step inTransaction image session statistics).session = session := by
  cases statement with
  | createTempTable name =>
    have hcall := (hcalls ⟨.createTempTable, some name, none, some "temp"⟩
      (List.mem_cons_of_mem _ List.mem_cons_self)).1
    cases hcall
  | insert name value =>
    have hcall := (hcalls _ List.mem_cons_self).1
    cases htemp : session.temp.lookup name with
    | some rows => simp [AuthCall.temporary, TinyStatement.databaseOf, htemp] at hcall
    | none =>
      cases htable : image.tables.lookup name with
      | some rows => simp [TinyStatement.step, TinyStatement.inserting, htemp, htable]
      | none => simp [TinyStatement.step, TinyStatement.quiet, htemp, htable]
  | foreignKeys on =>
    have hcall := (hcalls _ List.mem_cons_self).2
    simp [AuthCall.setsFlag, tinySqlite] at hcall
  | select name => rfl
  | analyze => rfl
  | insertStatistic name rows => rfl

theorem tinySqlite_plans (inTransaction : Bool) (image : TinyImage) (session : TinySession)
    (statement : TinyStatement) (hcalls : ∀ call ∈ statement.prepare session, call.replans = false) :
    (statement.step inTransaction image session image.statistics).statistics = image.statistics ∧
      (statement.step inTransaction image session image.statistics).image.statistics = image.statistics := by
  cases statement with
  | createTempTable name => exact ⟨rfl, rfl⟩
  | insert name value =>
    cases htemp : session.temp.lookup name with
    | some rows => simp [TinyStatement.step, TinyStatement.inserting, htemp]
    | none =>
      cases htable : image.tables.lookup name with
      | some rows => simp [TinyStatement.step, TinyStatement.inserting, htemp, htable]
      | none => simp [TinyStatement.step, TinyStatement.quiet, htemp, htable]
  | foreignKeys on => exact ⟨rfl, rfl⟩
  | select name => exact ⟨rfl, rfl⟩
  | analyze => exact absurd (hcalls _ List.mem_cons_self) (by decide)
  | insertStatistic name rows => exact absurd (hcalls _ List.mem_cons_self) (by decide)

theorem tinySqlite_documented : tinySqlite.Documented where
  keeps inTransaction image session statistics _ statement hcalls :=
    ⟨tinySqlite_keeps inTransaction image session statistics statement hcalls, rfl⟩
  plans inTransaction image session _ statement hcalls :=
    tinySqlite_plans inTransaction image session statement hcalls
  blind _ _ _ _ _ _ _ _ := rfl
  unwind _ := rfl
  seals _ _ _ := ⟨rfl, rfl⟩

def tinyImage : TinyImage :=
  ⟨[("t", [])], [], 0⟩

/-- A client inserts twice and has the table analyzed; the connection is reopened in between and before a
query. -/
def twoInserts : List (Bool × AppOp TinyStatement) :=
  [(false, .write [.insert "t" 5] ⟨1, none⟩), (true, .write [.insert "t" 7, .analyze] ⟨2, none⟩),
    (true, .query (.select "t"))]

theorem cleanRun_twoInserts : CleanRun tinySqlite (Writer.opened tinySqlite tinyImage)
    (twoInserts.map Prod.snd) := by
  refine ⟨fun _ => ⟨⟨by decide, trivial⟩, ?_, ?_⟩, fun _ => ⟨⟨by decide, by decide, trivial⟩, ?_, ?_⟩, ?_,
    trivial⟩
  · intro rowid hrowid
    obtain rfl : 1 = rowid := Option.some.inj hrowid
    decide
  · intro error herror
    cases herror
  · intro rowid hrowid
    obtain rfl : 2 = rowid := Option.some.inj hrowid
    decide
  · intro error herror
    cases herror
  · show CleanStatement tinySqlite _ _ _
    decide

/-- One client creates a temporary table, another inserts into the replicated table of that name. -/
def shadowedInsert (reopens : Bool) : List (Bool × AppOp TinyStatement) :=
  [(false, .write [.createTempTable "t"] ⟨1, none⟩), (reopens, .write [.insert "t" 5] ⟨2, none⟩)]

/-- A client writes the statistics of a table that two rows are in, and reads the table. -/
def unnoticedStatistic (reopens : Bool) : List (Bool × AppOp TinyStatement) :=
  [(false, .write [.insert "t" 5, .insert "t" 7, .insertStatistic "t" 2] ⟨1, none⟩),
    (reopens, .query (.select "t"))]

end Zaxonlite
