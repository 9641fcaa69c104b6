import Zaxonlite.Lib.Program
import Zaxonlite.Shell.Complete

/-!
# How much of a text is executed

SQLite offers two ways to run a text: `sqlite3_exec` runs every statement of it, and `sqlite3_prepare_v2`
compiles the first and hands back the rest as a tail. Either stops at the first zero byte. The entry points of
a node and of its shell choose between the two, and those that prepare drop the tail.
-/

namespace Zaxonlite

namespace Execution

open Program Shell

/-! ### SQLite -/

abbrev Text := List UInt8

inductive SqlError where
  | sqlite
  | sqliteMisuse
  | writeInReadQuery
  | expectationFailed
  | resultTooLarge
  /-- The node does not run the request, or fails to seal what it ran. -/
  | node
  deriving DecidableEq, Repr

/-- SQLite over databases, bound values and rows of any types. -/
structure Sqlite (Db Value Row : Type) where
  /-- The first statement of a text without zero bytes and the tail behind it, where the text has a statement. -/
  next : Text → Option (Text × Text)
  tail_lt : ∀ {text statement tail}, next text = some (statement, tail) → tail.length < text.length
  compiles : Db → Text → Bool
  readOnly : Db → Text → Bool
  /-- Bind the values, step to the end and finalize. -/
  run : Db → Text → List Value → Except SqlError (List Row × Db)

/-- A connection, and every statement that was executed on it. -/
structure Session (Db : Type) where
  db : Db
  executed : List Text

abbrev SqlOp (Db α : Type) := EStateM SqlError (Session Db) α

def read (text : Text) : Text :=
  (text.splitOn 0).head?.getD []

section Engine

variable {Db Value Row : Type} (E : Sqlite Db Value Row)

/-- The statements of a text without zero bytes. -/
def statementsOf (text : Text) : List Text :=
  match _h : E.next text with
  | none => []
  | some (statement, tail) => statement :: statementsOf tail
termination_by text.length
decreasing_by exact E.tail_lt _h

def statements (text : Text) : List Text :=
  (text.splitOn 0).flatMap (statementsOf E)

/-- Execute a statement that was compiled. -/
def step (statement : Text) (values : List Value) : SqlOp Db (List Row) := do
  let s ← get
  match E.run s.db statement values with
  | .error e => throw e
  | .ok (rows, db) =>
    modify fun s => { db := db, executed := s.executed ++ [statement] }
    pure rows

def compile (statement : Text) : SqlOp Db Text := do
  let s ← get
  if E.compiles s.db statement then pure statement else throw .sqlite

def prepare (text : Text) : SqlOp Db Text :=
  match E.next (read text) with
  | none => throw .sqliteMisuse
  | some (statement, _) => compile E statement

def exec (text : Text) : SqlOp Db Unit :=
  (statementsOf E (read text)).forM fun statement => do
    let statement ← compile E statement
    let _ ← step E statement []
    pure ()

/-! ### Requests -/

/-- What a request meets besides SQLite. -/
structure Circumstances (Row : Type) where
  /-- The node runs the request. -/
  admitted : Bool
  /-- The node seals what was run. -/
  sealed : Bool
  /-- The rows are within the budget of a read. -/
  affordable : List Row → Bool

variable (c : Circumstances Row)

def materializeReadStatement (text : Text) (values : List Value) : SqlOp Db Unit := do
  let statement ← prepare E text
  let s ← get
  if E.readOnly s.db statement then
    let rows ← step E statement values
    if c.affordable rows then pure () else throw .resultTooLarge
  else throw .writeInReadQuery

/-- `prepared.execute`, and `executePreparedCapture`, which keeps rows besides. -/
def executePrepared (statements : List (Text × List Value)) : SqlOp Db Unit :=
  statements.forM fun statement => do
    let compiled ← prepare E statement.1
    let _ ← step E compiled statement.2
    pure ()

structure CheckedStatement (Value Row : Type) where
  sql : Text
  values : List Value
  holds : List Row → Bool

def executeCheckedStatements (statements : List (CheckedStatement Value Row)) : SqlOp Db Unit :=
  statements.forM fun statement => do
    let compiled ← prepare E statement.sql
    let rows ← step E compiled statement.values
    if statement.holds rows then pure () else throw .expectationFailed

/-- Run an operation as a node runs a request. -/
def enveloped (x : SqlOp Db Unit) : SqlOp Db Unit := do
  if c.admitted then pure () else throw .node
  x
  if c.sealed then pure () else throw .node

end Engine

/-! ### The shell -/

def eqlIgnoreCase (word : Text) (name : String) : Bool :=
  word.map toLower = asciiBytes name

/-- The loop of `withStatementIsRead`. -/
def withStatementIsRead (sql : Text) (depth : ℕ) (completedGroup : Bool) : List Span → Bool
  | [] => false
  | span :: spans =>
    match span.kind with
    | .operator =>
      if sql[span.start]? = some 40 then withStatementIsRead sql (depth + 1) completedGroup spans
      else if sql[span.start]? = some 41 then
        withStatementIsRead sql (depth - 1) (completedGroup || depth = 1) spans
      else if sql[span.start]? = some 44 ∧ depth = 0 then withStatementIsRead sql depth false spans
      else withStatementIsRead sql depth completedGroup spans
    | .keyword | .identifier =>
      let word := span.bytes sql
      if depth ≠ 0 ∨ completedGroup = false then withStatementIsRead sql depth completedGroup spans
      else if ["select", "values"].any (eqlIgnoreCase word) then true
      else if ["insert", "update", "delete", "replace"].any (eqlIgnoreCase word) then false
      else withStatementIsRead sql depth completedGroup spans
    | _ => withStatementIsRead sql depth completedGroup spans

/-- The loop of `isReadStatement`. -/
def spansRead (sql : Text) : List Span → Bool
  | [] => false
  | span :: spans =>
    match span.kind with
    | .text | .comment => spansRead sql spans
    | .keyword | .identifier =>
      let first := span.bytes sql
      if eqlIgnoreCase first "with" then withStatementIsRead sql 0 false spans
      else ["select", "values", "explain"].any (eqlIgnoreCase first)
    | _ => false

def isReadStatement (sql : Text) : Bool :=
  (((Tokenizer.init sql).spans (sql.length + 1)).map (spansRead sql)).getD false

theorem isReadStatement_eq (sql : Text) :
    ∃ spans, (Tokenizer.init sql).spans (sql.length + 1) = some spans ∧
      isReadStatement sql = spansRead sql spans := by
  obtain ⟨spans, hspans, -⟩ := spans_tile (Nat.zero_le sql.length) (Nat.lt_succ_self (sql.length - 0))
  rw [Nat.sub_zero] at hspans
  refine ⟨spans, hspans, ?_⟩
  rw [isReadStatement, Tokenizer.init, hspans]
  rfl

/-! ### Entry points -/

inductive Request (Value Row : Type) where
  /-- `query`, `queryPrepared` and `queryPreparedTyped`, and the query of a client. -/
  | query (text : Text) (values : List Value)
  | queryBatch (queries : List (Text × List Value))
  /-- `exec`. -/
  | exec (text : Text)
  /-- `execPrepared`, `execPreparedResult`, `execPreparedBatch`, `execTransaction` and `liveExec`. -/
  | prepared (statements : List (Text × List Value))
  /-- `execCheckedTransaction`. -/
  | checked (statements : List (CheckedStatement Value Row))
  /-- `executeStatement` of the shell, embedded or remote. -/
  | shell (statement : Text)

namespace Request

variable {Db Value Row : Type}

def texts : Request Value Row → List Text
  | .query text _ => [text]
  | .queryBatch queries => queries.map Prod.fst
  | .exec text => [text]
  | .prepared statements => statements.map Prod.fst
  | .checked statements => statements.map CheckedStatement.sql
  | .shell statement => [statement]

/-- The request prepares its texts rather than executing them whole. -/
def prepares : Request Value Row → Bool
  | .exec _ => false
  | .shell statement => isReadStatement statement
  | _ => true

def run (E : Sqlite Db Value Row) (c : Circumstances Row) : Request Value Row → SqlOp Db Unit
  | .query text values => enveloped c (materializeReadStatement E c text values)
  | .queryBatch queries =>
    enveloped c (queries.forM fun query => materializeReadStatement E c query.1 query.2)
  | .exec text => enveloped c (Execution.exec E text)
  | .prepared statements => enveloped c (executePrepared E statements)
  | .checked statements => enveloped c (executeCheckedStatements E statements)
  | .shell statement =>
    if isReadStatement statement then enveloped c (materializeReadStatement E c statement [])
    else enveloped c (Execution.exec E statement)

def Succeeds (E : Sqlite Db Value Row) (c : Circumstances Row) (request : Request Value Row) (s : Session Db) :
    Prop :=
  ∃ s', request.run E c s = .ok () s'

/-- A request that succeeds has executed every statement of its texts, in order. -/
def ExecutesWhole (E : Sqlite Db Value Row) (c : Circumstances Row) (request : Request Value Row)
    (s : Session Db) : Prop :=
  ∀ s', request.run E c s = .ok () s' →
    s'.executed = s.executed ++ request.texts.flatMap (statements E)

end Request

/-- What is left of a text when SQLite has read up to its first zero byte, or has compiled the first statement. -/
def leftover {Db Value Row : Type} (E : Sqlite Db Value Row) (prepares : Bool) (text : Text) : List Text :=
  (if prepares then (statementsOf E (read text)).drop 1 else []) ++
    (text.splitOn 0).tail.flatMap (statementsOf E)

/-! ### What is executed -/

/-- An operation that succeeds executes these statements, in this order. -/
def Logs {Db α : Type} (x : SqlOp Db α) (taken : List Text) : Prop :=
  ∀ s, wp x (fun _ s' => s'.executed = s.executed ++ taken) (fun _ _ => True) s

section Logs

variable {Db Value Row α β : Type} {E : Sqlite Db Value Row} {taken : List Text}

theorem logs_pure (r : α) : Logs (pure r : SqlOp Db α) [] :=
  fun s => (List.append_nil s.executed).symm

theorem logs_throw (e : SqlError) : Logs (throw e : SqlOp Db α) taken :=
  fun _ => trivial

theorem Logs.bind {x : SqlOp Db α} {f : α → SqlOp Db β} {rest : List Text} (hx : Logs x taken)
    (hf : ∀ r, Logs (f r) rest) : Logs (x >>= f) (taken ++ rest) := by
  intro s
  rw [wp_bind]
  refine wp_mono (hx s) (fun r s' h => ?_) fun _ _ h => h
  rw [← List.append_assoc, ← h]
  exact hf r s'

theorem Logs.ite {p : Prop} [Decidable p] {x y : SqlOp Db α} (hx : Logs x taken) (hy : Logs y taken) :
    Logs (if p then x else y) taken := by
  intro s
  rw [wp_ite]
  exact ⟨fun _ => hx s, fun _ => hy s⟩

theorem Logs.forM {f : α → SqlOp Db PUnit} {g : α → List Text} (hf : ∀ a, Logs (f a) (g a)) (l : List α) :
    Logs (l.forM f) (l.flatMap g) := by
  induction l with
  | nil => exact logs_pure _
  | cons a l ih => exact (hf a).bind fun _ => ih

theorem logs_get {f : Session Db → SqlOp Db α} (hf : ∀ s, Logs (f s) taken) : Logs (get >>= f) taken := by
  intro s
  rw [wp_bind, wp_get]
  exact hf s s

theorem logs_step (statement : Text) (values : List Value) : Logs (step E statement values) [statement] := by
  refine logs_get fun s => ?_
  cases E.run s.db statement values with
  | error e => exact logs_throw e
  | ok result =>
    intro s'
    rfl

theorem logs_compile {f : Text → SqlOp Db α} {statement : Text} (hf : Logs (f statement) taken) :
    Logs (compile E statement >>= f) taken := by
  intro s
  simp only [compile, wp_bind, wp_get, wp_ite, wp_pure, wp_throw]
  exact ⟨fun _ => hf s, fun _ => trivial⟩

theorem logs_prepare {f : Text → SqlOp Db α} (hf : ∀ statement, Logs (f statement) [statement]) (text : Text) :
    Logs (prepare E text >>= f) ((statementsOf E (read text)).take 1) := by
  rw [prepare, statementsOf]
  cases E.next (read text) with
  | none =>
    intro s
    rw [wp_bind]
    trivial
  | some first => exact logs_compile (hf first.1)

theorem logs_exec (text : Text) : Logs (exec E text) (statementsOf E (read text)) := by
  have h := Logs.forM (f := fun statement => do
    let statement ← compile E statement
    let _ ← step E statement []
    pure ()) (g := fun statement => [statement])
    (fun statement => logs_compile ((logs_step statement []).bind fun _ => logs_pure ())) (statementsOf E (read text))
  rwa [List.flatMap_singleton'] at h

theorem logs_materializeReadStatement (c : Circumstances Row) (text : Text) (values : List Value) :
    Logs (materializeReadStatement E c text values) ((statementsOf E (read text)).take 1) := by
  refine logs_prepare (fun statement => logs_get fun s => Logs.ite ?_ (logs_throw _)) text
  exact (logs_step statement values).bind fun _ => (logs_pure ()).ite (logs_throw _)

theorem logs_enveloped (c : Circumstances Row) {x : SqlOp Db Unit} (hx : Logs x taken) :
    Logs (enveloped c x) taken := by
  intro s
  simp only [enveloped, wp_bind, wp_ite, wp_throw]
  refine ⟨fun _ => wp_mono (hx s) (fun _ s' h => ?_) fun _ _ h => h, fun _ => trivial⟩
  rw [wp_ite]
  exact ⟨fun _ => h, fun _ => trivial⟩

end Logs

section Requests

variable {Db Value Row : Type} (E : Sqlite Db Value Row)

def executedOf (prepares : Bool) (text : Text) : List Text :=
  if prepares then (statementsOf E (read text)).take 1 else statementsOf E (read text)

theorem statementsOf_of_next {text statement tail : Text} (h : E.next text = some (statement, tail)) :
    statementsOf E text = statement :: statementsOf E tail := by
  rw [statementsOf]
  split
  case h_1 hnone => cases hnone.symm.trans h
  case h_2 statement' tail' hsome =>
    cases hsome.symm.trans h
    rfl

theorem statementsOf_nil : statementsOf E [] = [] := by
  rw [statementsOf]
  cases h : E.next [] with
  | none => rfl
  | some first => exact absurd (E.tail_lt h) (Nat.not_lt_zero _)

theorem statements_eq (prepares : Bool) (text : Text) :
    statements E text = executedOf E prepares text ++ leftover E prepares text := by
  have hread : statements E text = statementsOf E (read text) ++ (text.splitOn 0).tail.flatMap (statementsOf E) := by
    rw [statements, read]
    cases text.splitOn 0 with
    | nil => exact (List.append_nil _).symm ▸ (statementsOf_nil E).symm
    | cons first rest => rfl
  rw [hread, executedOf, leftover, ← List.append_assoc]
  cases prepares with
  | false => rw [if_neg Bool.false_ne_true, if_neg Bool.false_ne_true, List.append_nil]
  | true => rw [if_pos rfl, if_pos rfl, List.take_append_drop]

theorem logs_run (c : Circumstances Row) (request : Request Value Row) :
    Logs (request.run E c) (request.texts.flatMap (executedOf E request.prepares)) := by
  cases request with
  | query text values =>
    have h := logs_materializeReadStatement (E := E) c text values
    rw [← List.append_nil (List.take _ _)] at h
    exact logs_enveloped c h
  | queryBatch queries =>
    rw [Request.texts, List.flatMap_map]
    exact logs_enveloped c (Logs.forM (fun query => logs_materializeReadStatement c query.1 query.2) queries)
  | exec text =>
    have h := logs_exec (E := E) text
    rw [← List.append_nil (statementsOf _ _)] at h
    exact logs_enveloped c h
  | prepared statements =>
    have hstatement (statement : Text × List Value) : Logs (do
        let compiled ← prepare E statement.1
        let _ ← step E compiled statement.2
        pure ()) ((statementsOf E (read statement.1)).take 1) :=
      logs_prepare (fun compiled => (logs_step compiled statement.2).bind fun _ => logs_pure ()) statement.1
    rw [Request.texts, List.flatMap_map]
    exact logs_enveloped c (Logs.forM hstatement statements)
  | checked statements =>
    have hstatement (statement : CheckedStatement Value Row) : Logs (do
        let compiled ← prepare E statement.sql
        let rows ← step E compiled statement.values
        if statement.holds rows then pure () else throw .expectationFailed)
        ((statementsOf E (read statement.sql)).take 1) :=
      logs_prepare (fun compiled => (logs_step compiled statement.values).bind fun _ =>
        (logs_pure ()).ite (logs_throw _)) statement.sql
    rw [Request.texts, List.flatMap_map]
    exact logs_enveloped c (Logs.forM hstatement statements)
  | shell statement =>
    rw [Request.run, Request.texts, Request.prepares, List.flatMap_singleton, executedOf]
    split
    · exact logs_enveloped c (logs_materializeReadStatement c statement [])
    · exact logs_enveloped c (logs_exec statement)

end Requests

theorem flatMap_eq_flatMap_append_iff {α β : Type} {f g : α → List β} {l : List α} :
    l.flatMap f = l.flatMap (fun a => f a ++ g a) ↔ ∀ a ∈ l, g a = [] := by
  refine ⟨fun h => ?_, fun h => List.flatMap_congr fun a ha => ?_⟩
  · have hlength : ∀ l : List α, (l.flatMap f).length + (l.flatMap g).length =
        (l.flatMap fun a => f a ++ g a).length := by
      intro l
      induction l with
      | nil => rfl
      | cons a l ih =>
        simp only [List.flatMap_cons, List.length_append] at ih ⊢
        omega
    have hnone : (l.flatMap g).length = 0 := by
      have := hlength l
      rw [← h] at this
      omega
    exact fun a ha => List.flatMap_eq_nil_iff.mp (List.eq_nil_of_length_eq_zero hnone) a ha
  · rw [h a ha, List.append_nil]

/-- **A request that succeeds has executed every statement of its texts exactly when nothing is left of any:
behind the first zero byte, or, where the request prepares its texts, behind the first statement.** -/
theorem executesWhole_iff {Db Value Row : Type} (E : Sqlite Db Value Row) (c : Circumstances Row)
    (request : Request Value Row) (s : Session Db) :
    request.ExecutesWhole E c s ↔
      (request.Succeeds E c s → ∀ text ∈ request.texts, leftover E request.prepares text = []) := by
  have hlogs (s' : Session Db) (h : request.run E c s = .ok () s') :
      s'.executed = s.executed ++ request.texts.flatMap (executedOf E request.prepares) := by
    have hrun := logs_run E c request s
    rwa [wp, h] at hrun
  have hstatements : request.texts.flatMap (statements E) =
      request.texts.flatMap fun text => executedOf E request.prepares text ++ leftover E request.prepares text :=
    List.flatMap_congr fun text _ => statements_eq E request.prepares text
  refine ⟨fun h => ?_, fun h s' hs' => ?_⟩
  · rintro ⟨s', hs'⟩
    have heq := (hlogs s' hs').symm.trans (h s' hs')
    rw [hstatements] at heq
    exact flatMap_eq_flatMap_append_iff.mp (List.append_cancel_left heq)
  · rw [hlogs s' hs', hstatements, flatMap_eq_flatMap_append_iff.mpr (h ⟨s', hs'⟩)]

/-! ### A text that is cut -/

/-- What separates statements. -/
def isSeparator (byte : UInt8) : Bool :=
  isWhitespace byte || byte = 59

theorem tail_lt_length {text rest : Text} {byte : UInt8} (h : text.dropWhile isSeparator = byte :: rest) :
    ((rest.dropWhile (· ≠ 59)).drop 1).length < text.length := by
  have hsuffix := (List.dropWhile_suffix isSeparator (l := text)).length_le
  have hrest := (List.dropWhile_suffix (· ≠ 59) (l := rest)).length_le
  rw [h, List.length_cons] at hsuffix
  rw [List.length_drop]
  omega

/-- An engine that cuts at semicolons, as SQLite does a text without literals, comments and triggers, and runs
whatever it is given. -/
def semicolons : Sqlite Unit Unit Unit where
  next text :=
    match text.dropWhile isSeparator with
    | [] => none
    | byte :: rest => some (byte :: rest.takeWhile (· ≠ 59), (rest.dropWhile (· ≠ 59)).drop 1)
  tail_lt {text statement tail} h := by
    cases hrest : text.dropWhile isSeparator with
    | nil =>
      rw [hrest] at h
      cases h
    | cons byte rest =>
      rw [hrest] at h
      cases h
      exact tail_lt_length hrest
  compiles _ _ := true
  readOnly _ statement := statement.take 6 = asciiBytes "select"
  run _ _ _ := .ok ([], ())

/-- Nothing but SQLite refuses anything. -/
def calm : Circumstances Unit where
  admitted := true
  sealed := true
  affordable _ := true

def readThenWrite : Text :=
  asciiBytes "select 1; delete from t;"

/-- A query succeeds, in the shell or not, and has executed only the first of two statements. -/
theorem write_behind_read_dropped :
    ¬ (Request.query readThenWrite []).ExecutesWhole semicolons calm ⟨(), []⟩ ∧
      ¬ (Request.shell readThenWrite).ExecutesWhole semicolons calm ⟨(), []⟩ := by
  have hfirst : semicolons.next readThenWrite = some (asciiBytes "select 1", asciiBytes " delete from t;") := by
    decide
  have hsecond : semicolons.next (asciiBytes " delete from t;") = some (asciiBytes "delete from t", []) := by
    decide
  have htexts : [readThenWrite].flatMap (statements semicolons) =
      [asciiBytes "select 1", asciiBytes "delete from t"] := by
    have hsplit : readThenWrite.splitOn 0 = [readThenWrite] := by decide
    rw [List.flatMap_singleton, statements, hsplit, List.flatMap_singleton, statementsOf_of_next _ hfirst,
      statementsOf_of_next _ hsecond, statementsOf_nil]
  have hrun : enveloped calm (materializeReadStatement semicolons calm readThenWrite []) ⟨(), []⟩ =
      .ok () ⟨(), [asciiBytes "select 1"]⟩ := rfl
  have hread : isReadStatement readThenWrite = true := by decide +kernel
  have hshell : (Request.shell readThenWrite).run semicolons calm =
      enveloped calm (materializeReadStatement semicolons calm readThenWrite []) := by
    rw [Request.run, if_pos hread]
  refine ⟨fun h => ?_, fun h => ?_⟩
  · have heq := h _ hrun
    rw [Request.texts, htexts] at heq
    exact absurd (congrArg List.length heq) (by decide)
  · have heq := h _ (hshell ▸ hrun)
    rw [Request.texts, htexts] at heq
    exact absurd (congrArg List.length heq) (by decide)

end Execution

end Zaxonlite
