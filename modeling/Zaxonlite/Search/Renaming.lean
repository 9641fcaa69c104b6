import Mathlib.Logic.Equiv.Basic
import Zaxonlite.Search.Reading

/-!
# Plans under renaming

A plan depends on the names of its request only where they are spliced in. It returns what is meant whatever
the names are, as long as SQL reads each of them as a name, none of the tables is called like a common table
expression of the statement, and the full-text table is not called `rowid`. Nothing in the validation of a
request keeps these names out.
-/

namespace Zaxonlite

namespace Search

variable {R : Type} {tests : WeightTests R} {request : Request R} {p : Plan R} {reserved : Name → Bool}
  {Rows Col : Type}

/-- What a plan means, for the words that SQL reserves. -/
structure Faithful (reserved : Name → Bool) (request : Request R) (p : Plan R) : Prop where
  words : lex p.sql = request.statement.lexed request.names
  shapes : (lex p.sql).map (shape reserved) = request.statement.shapes reserved
  tables : request.statement.Resolves request.names
  parameters : ∀ i, i ∈ parameters p.sql ↔ 1 ≤ i ∧ i ≤ p.values.length
  rows : ∀ (Rows Col : Type) (engine : Engine Rows Col) (db : Database Rows Col),
    run engine db request.statement request.names =
      meaning engine (contentsOf db request.names) request.statement

structure Plain (reserved : Name → Bool) (request : Request R) : Prop where
  unreserved : ∀ name ∈ request.spliced, reserved name = false
  uncaptured : ∀ table ∈ request.ftsTable.toList ++ request.vecTable.toList,
    fold table ∉ request.cteNames
  rowid : ∀ fts ∈ request.ftsTable, fold fts ≠ asciiBytes "rowid"

theorem request_closed (request : Request R) : request.statement.Closed := by
  refine (base_sound request).closed fun block hblock name => ?_
  obtain ⟨table, -, rfl⟩ := Option.map_eq_some_iff.1 hblock
  exact metadataBlock_no_cte _ _ _ name

theorem inner_mem_wrapper (request : Request R) :
    ∀ wrapper ∈ request.statement.wrapper, .inner ∈ wrapper := by
  intro wrapper hwrapper
  obtain ⟨table, -, rfl⟩ := Option.map_eq_some_iff.1 hwrapper
  exact inner_mem_metadataBlock _ _ _

/-! ### Captured tables -/

theorem resolves_iff {names : Names} :
    request.statement.Resolves names ↔
      ∀ role ∈ request.statement.roles, fold (names.table role) ∉ request.cteNames := by
  have hfolded {cte : Name × Block} (hcte : cte ∈ request.statement.ctes) : fold cte.1 = cte.1 :=
    ((base_sound request).folded cte hcte).1
  rw [← map_ctes]
  constructor
  · intro hresolves role hrole hcaptured
    obtain ⟨block, hblock, hmem⟩ := mem_roles.1 hrole
    obtain ⟨cte, hcte, heq⟩ := List.mem_map.1 hcaptured
    exact hresolves block hblock role hmem cte hcte ((hfolded hcte).trans heq)
  · intro hroles block hblock role hmem cte hcte heq
    exact hroles role (mem_roles.2 ⟨block, hblock, hmem⟩)
      (List.mem_map.2 ⟨cte, hcte, (hfolded hcte).symm.trans heq⟩)

/-- The tables that a statement selects from are those that the request searches. -/
theorem forall_roles_iff (h : request.Asks) {P : Name → Prop} :
    (∀ role ∈ request.statement.roles, P (request.names.table role)) ↔
      ∀ table ∈ request.ftsTable.toList ++ request.vecTable.toList, P table := by
  rw [roles_eq h, List.forall_mem_append, List.forall_mem_append]
  unfold Request.names
  refine and_congr ?_ ?_
  · cases request.ftsTable <;> simp
  · cases request.vecTable <;> simp

theorem hidesRowid_iff :
    request.names.hidesRowid = true ↔ ∃ fts ∈ request.ftsTable, fold fts = asciiBytes "rowid" := by
  unfold Names.hidesRowid Request.names
  cases request.ftsTable with
  | none =>
    have hempty : ¬decide (fold [] = asciiBytes "rowid") = true := by decide
    exact iff_of_false hempty fun ⟨_, h, _⟩ => absurd h.symm (Option.some_ne_none _)
  | some fts =>
    rw [decide_eq_true_iff]
    exact ⟨fun h => ⟨fts, rfl, h⟩, fun ⟨_, hfts, h⟩ => Option.some.inj hfts ▸ h⟩

/-! ### Hidden row IDs -/

def Mark.isRowid : Mark Col → Bool
  | .rowid => true
  | _ => false

/-- An engine that reports whether a row ID was read. -/
def rowidSeen : Engine Bool Unit :=
  fun marks rows => marks.any Mark.isRowid || rows.any id

/-- Tables with everything in them but row IDs. -/
def anyTables : Contents Bool Unit :=
  ⟨fun _ => some false, fun _ => some ()⟩

theorem meantFrom_wrapper {engine : Engine Rows Col} {contents : Contents Rows Col} {statement : Statement}
    {wrapper : Option Block} {hides : Bool} (fuel : ℕ) :
    meantFrom engine contents { statement with wrapper := wrapper } hides fuel =
      meantFrom engine contents statement hides fuel := by
  induction fuel with
  | zero => rfl
  | succ fuel ih =>
    funext ref
    cases ref with
    | role role => rfl
    | cte name =>
      rw [meantFrom, meantFrom, ih]

theorem meantCore_rowidSeen : ∀ statement ∈ [lexicalStatement, rrfStatement, dbsfStatement], ∀ hides,
    meantCoreFrom rowidSeen anyTables statement hides = some !hides := by
  decide +kernel

/-- The join passes on whether a row ID was read. -/
theorem select_rowidSeen (columns : ℕ) (score order : String) (hides rows : Bool) :
    Scope.select rowidSeen
      ⟨fun | .cte _ => none | .role role => anyTables.table role, anyTables.column, hides⟩ [rows]
      (metadataBlock columns score order) = some rows := by
  have hmarks : ∃ marks : List (Mark Unit), (metadataBlock columns score order).mapM
      (Scope.mark ⟨fun | .cte _ => none | .role role => anyTables.table role, anyTables.column, hides⟩) =
        some marks ∧ marks.any Mark.isRowid = false := by
    have hnone : .rowid ∉ metadataBlock columns score order := by
      intro h
      rcases mem_metadataBlock h with h | h | ⟨place, -, h⟩
      · simp only [metadataBlock, words, List.range_zero, List.flatMap_nil, List.cons_append,
          List.nil_append, List.mem_cons, List.not_mem_nil, or_false, reduceCtorEq] at h
      · exact Piece.noConfusion h
      · exact Piece.noConfusion h
    generalize metadataBlock columns score order = block at hnone
    induction block with
    | nil => exact ⟨[], rfl, rfl⟩
    | cons piece block ih =>
      obtain ⟨hpiece, hblock⟩ := not_or.1 (mt List.mem_cons.2 hnone)
      obtain ⟨marks, hmarks, hseen⟩ := ih hblock
      rw [List.mapM_cons, hmarks]
      cases piece with
      | rowid => exact absurd rfl hpiece
      | _ => exact ⟨_, rfl, hseen⟩
  obtain ⟨marks, hmarks, hseen⟩ := hmarks
  rw [Scope.select, refs_metadataBlock, hmarks]
  change some (marks.any Mark.isRowid || ([rows] ++ [false]).any id) = some rows
  rw [hseen]
  cases rows <;> rfl

/-- What a statement that reads row IDs is meant to return differs from what it returns where they are
hidden. -/
theorem meaning_rowidSeen (h : request.ftsTable ≠ none) (hides : Bool) :
    meaningFrom rowidSeen anyTables request.statement hides = some !hides := by
  have hbase : request.base.1 ∈ [lexicalStatement, rrfStatement, dbsfStatement] := by
    unfold Request.base
    revert h
    cases request.ftsTable <;> cases request.vecTable <;> cases request.fusion <;> intro h <;>
      first | exact absurd rfl h | simp
  have hcore : meantCoreFrom rowidSeen anyTables request.statement hides = some !hides := by
    rw [← meantCore_rowidSeen _ hbase hides, meantCoreFrom, meantCoreFrom]
    unfold Request.statement
    rw [meantFrom_wrapper]
  unfold meaningFrom
  cases hmetadata : request.metadataTable with
  | none =>
    rw [wrapper_none hmetadata]
    exact hcore
  | some table =>
    rw [wrapper_some hmetadata]
    dsimp only
    rw [hcore]
    exact select_rowidSeen _ _ _ _ _

/-! ### Plain names -/

theorem resolves_iff_uncaptured (h : request.Asks) :
    request.statement.Resolves request.names ↔
      ∀ table ∈ request.ftsTable.toList ++ request.vecTable.toList, fold table ∉ request.cteNames := by
  rw [resolves_iff, ← forall_roles_iff h]

/-- Under plain names a statement returns what is meant. -/
theorem Plain.run_eq (hplain : Plain reserved request) (h : request.Asks) (engine : Engine Rows Col)
    {contents : Contents Rows Col} {db : Database Rows Col}
    (hholds : Holds contents db request.statement request.names) :
    run engine db request.statement request.names = meaning engine contents request.statement := by
  have hhides : request.names.hidesRowid = false := by
    rw [← Bool.not_eq_true, hidesRowid_iff]
    rintro ⟨fts, hfts, heq⟩
    exact hplain.rowid fts hfts heq
  have hresolves := (resolves_iff_uncaptured h).2 hplain.uncaptured
  rw [run_eq_meaningFrom (request_closed request) hresolves hholds, hhides]
  rfl

/-- **A plan is faithful if and only if the names of its request are plain.** -/
theorem faithful_iff (h : plan tests request = .ok p) :
    Faithful reserved request p ↔ Plain reserved request := by
  have hasks := asks_of_plan h
  have hwords : lex p.sql = request.statement.lexed request.names := by
    rw [(plan_eq h).1, lex_sql h]
  have hshapes : (request.statement.lexed request.names).map (shape reserved) =
      request.statement.shapes reserved ↔ ∀ name ∈ request.spliced, reserved name = false := by
    rw [Statement.map_lexed_iff (fun name hname => (filled_valid h name hname).2)
      (inner_mem_wrapper request)]
    exact forall_congr' fun name => by rw [mem_filled hasks]
  have htables : request.statement.Resolves request.names ↔ _ := resolves_iff_uncaptured hasks
  constructor
  · intro hfaithful
    refine ⟨hshapes.1 (hwords ▸ hfaithful.shapes), htables.1 hfaithful.tables, fun fts hfts heq => ?_⟩
    have hhides : request.names.hidesRowid = true := hidesRowid_iff.2 ⟨fts, hfts, heq⟩
    have hsome : request.ftsTable ≠ none := fun hnone => by
      rw [hnone] at hfts
      cases hfts
    have hrows := hfaithful.rows Bool Unit rowidSeen fun _ => some ⟨false, fun _ => some ()⟩
    rw [run_eq_meaningFrom (request_closed request) hfaithful.tables (holds_contentsOf _ _ _),
      hhides] at hrows
    have hmeant : some (!true) = some !false :=
      (meaning_rowidSeen hsome true).symm.trans (hrows.trans (meaning_rowidSeen hsome false))
    cases hmeant
  · intro hplain
    exact ⟨hwords, hwords ▸ hshapes.2 hplain.unreserved, htables.2 hplain.uncaptured,
      fun i => mem_parameters_sql h,
      fun Rows Col engine db => hplain.run_eq hasks engine (holds_contentsOf _ _ _)⟩

/-! ### Renaming -/

/-- Other names for the tables and the columns of a request. -/
structure Renaming where
  table : Name → Name
  column : Name → Name

def Request.rename (ρ : Renaming) (request : Request R) : Request R :=
  { request with
    ftsTable := request.ftsTable.map ρ.table
    vecTable := request.vecTable.map ρ.table
    metadataTable := request.metadataTable.map ρ.table
    metadataIdColumn := request.metadataTable.map fun _ => ρ.column request.idColumn
    metadataColumns := request.metadataColumns.map ρ.column }

/-- A database holds under the new names of a request what another holds under the old. -/
structure Corresponds (ρ : Renaming) (request : Request R) (db db' : Database Rows Col) : Prop where
  tables : ∀ role, ∀ table ∈ request.table role,
    (db' (fold (ρ.table table))).map Table.rows = (db (fold table)).map Table.rows
  columns : ∀ table ∈ request.metadataTable, ∀ column ∈ request.idColumn :: request.metadataColumns,
    ((db' (fold (ρ.table table))).bind fun t => t.column (fold (ρ.column column))) =
      (db (fold table)).bind fun t => t.column (fold column)

variable {ρ : Renaming}

theorem rename_base : (request.rename ρ).base = request.base := by
  unfold Request.base Request.rename
  cases request.ftsTable <;> cases request.vecTable <;> cases request.fusion <;> rfl

theorem rename_statement : (request.rename ρ).statement = request.statement := by
  unfold Request.statement
  rw [rename_base]
  unfold Request.rename
  dsimp only
  rw [Option.map_map, List.length_map]
  rfl

theorem rename_values : (request.rename ρ).values = request.values := by
  unfold Request.values Request.rename
  cases request.ftsTable <;> cases request.vecTable <;> rfl

theorem rename_table {role : Role} {table : Name} (h : request.table role = some table) :
    (request.rename ρ).names.table role = ρ.table table := by
  have hrenamed : (request.rename ρ).table role = (request.table role).map ρ.table := by
    cases role <;> rfl
  rw [names_table, hrenamed, h]
  rfl

theorem rename_column {table : Name} (h : request.metadataTable = some table) {c : Column}
    (hc : c = .id ∨ ∃ place < request.metadataColumns.length, c = .selected place) :
    (request.rename ρ).names.column c = ρ.column (request.names.column c) ∧
      request.names.column c ∈ request.idColumn :: request.metadataColumns := by
  rcases hc with rfl | ⟨place, hplace, rfl⟩
  · refine ⟨?_, List.mem_cons_self⟩
    change (request.rename ρ).idColumn = ρ.column request.idColumn
    rw [Request.idColumn, Request.rename, h]
    rfl
  · have hrenamed : place < (request.rename ρ).metadataColumns.length := by
      rwa [Request.rename, List.length_map]
    rw [names_selected hplace, names_selected hrenamed]
    exact ⟨List.getElem_map .., List.mem_cons_of_mem _ (List.getElem_mem hplace)⟩

/-- What a statement selects from is a table of its request. -/
theorem table_of_mem (h : request.Asks) {block : Block}
    (hblock : block ∈ request.statement.blocks ++ request.statement.wrapper.toList) {role : Role}
    (hmem : .table (.role role) ∈ block) : ∃ table, request.table role = some table := by
  rcases List.mem_append.1 hblock with hblock | hblock
  · have hrole : role ∈ request.statement.roles := mem_roles.2 ⟨block, hblock, hmem⟩
    rw [roles_eq h] at hrole
    rcases List.mem_append.1 hrole with hrole | hrole
    · obtain ⟨fts, hfts, rfl⟩ := List.mem_map.1 hrole
      exact ⟨fts, Option.mem_toList.1 hfts⟩
    · obtain ⟨vec, hvec, rfl⟩ := List.mem_map.1 hrole
      exact ⟨vec, Option.mem_toList.1 hvec⟩
  · obtain ⟨table, htable, rfl⟩ := Option.map_eq_some_iff.1 (Option.mem_toList.1 hblock)
    obtain rfl := Ref.role.inj (ref_metadataBlock hmem)
    exact ⟨table, htable⟩

theorem rename_holds (h : request.Asks) {db db' : Database Rows Col} (hdb : Corresponds ρ request db db') :
    Holds (contentsOf db request.names) db' request.statement (request.rename ρ).names where
  table block hblock role hmem := by
    obtain ⟨table, htable⟩ := table_of_mem h hblock hmem
    have hname : request.names.table role = table := by
      rw [names_table, htable, Option.getD_some]
    rw [rename_table htable, hdb.tables role table htable, ← hname]
    rfl
  column block hblock c hmem := by
    obtain ⟨table, htable, rfl⟩ := Option.map_eq_some_iff.1 hblock
    obtain ⟨hcolumn, hknown⟩ := rename_column (ρ := ρ) htable (column_metadataBlock hmem)
    have hrole : request.table .metadata = some table := htable
    have hname : request.names.table .metadata = table := by
      rw [names_table, hrole, Option.getD_some]
    unfold metadataColumn
    rw [rename_table hrole, hcolumn, hdb.columns table htable _ hknown, ← hname]
    rfl

/-- Weights that are all finite and none negative. -/
def anyWeight : WeightTests Unit :=
  ⟨fun _ => true, fun _ => false⟩

/-- A request for the row nearest to an embedding. -/
def nearest (table : Name) : Request Unit where
  ftsTable := none
  vecTable := some table
  text := none
  embedding := some (List.replicate 32 0)
  k := 1
  candidateCount := none
  fusion := .rrf
  textWeight := ()
  vectorWeight := ()
  metadataTable := none
  metadataIdColumn := none
  metadataColumns := []

theorem nearest_plan : ∀ table ∈ [asciiBytes "embeddings", asciiBytes "coarse"],
    ∃ p, plan anyWeight (nearest table) = .ok p := by
  intro table htable
  have hok : (plan anyWeight (nearest table)).isOk = true := by
    revert table
    decide +kernel
  cases hplan : plan anyWeight (nearest table) with
  | error error =>
    rw [hplan] at hok
    cases hok
  | ok p => exact ⟨p, rfl⟩

/-- The words that SQLite takes for no name. -/
def reservedWords : List Name :=
  ["add", "all", "alter", "and", "as", "autoincrement", "between", "case", "check", "collate", "commit", "constraint",
    "create", "default", "deferrable", "delete", "distinct", "drop", "else", "escape", "exists", "foreign", "from",
    "group", "having", "in", "index", "insert", "intersect", "into", "is", "isnull", "join", "limit", "not", "notnull",
    "null", "on", "or", "order", "primary", "references", "returning", "select", "set", "table", "then", "to",
    "transaction", "union", "unique", "update", "using", "values", "when", "where"].map asciiBytes

/-- Exchanges the names of two tables. -/
def exchange : Renaming where
  table := Equiv.swap (asciiBytes "embeddings") (asciiBytes "coarse")
  column := id

def single (table : Name) : Database Unit Unit :=
  fun name => if name = table then some ⟨(), fun _ => none⟩ else none

end Search

end Zaxonlite
