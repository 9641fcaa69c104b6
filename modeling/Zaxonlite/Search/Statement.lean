import Zaxonlite.Search.Plan

/-!
# What a search statement says

The statements of the plans as SQL reads them: common table expressions, a body, and around it the join with
the metadata table. A name stands for a table of the database unless a common table expression in scope has
the same name; case makes no difference. What a select computes from its text and its tables is left to the
engine. Beside the reading by names stands the meaning a request has whatever its tables are called.
-/

namespace Zaxonlite

namespace Search

open Shell (toLower)

/-- Names are compared without their case. -/
def fold (name : Name) : Name :=
  name.map toLower

/-! ### Statements -/

/-- The tables of a request. -/
inductive Role where
  | fts
  | vec
  | metadata
  deriving DecidableEq

/-- What a statement selects from: one of its own common table expressions or a table of the request. -/
inductive Ref where
  | cte (name : Name)
  | role (role : Role)
  deriving DecidableEq

/-- A column of the metadata table: the item ID, or a column that was asked for by its place. -/
inductive Column where
  | id
  | selected (place : ℕ)
  deriving DecidableEq

/-- A part of a statement: words that are always the same, or a place where a name stands. -/
inductive Piece where
  | text (words : List UInt8)
  /-- Behind `from` or `join`. -/
  | table (ref : Ref)
  /-- In an expression: the full-text table that the select reads. -/
  | mention
  /-- The row ID of that table. -/
  | rowid
  | column (column : Column)
  /-- The statement itself, inside the join with the metadata. -/
  | inner
  deriving DecidableEq

abbrev Block := List Piece

structure Statement where
  ctes : List (Name × Block)
  body : Block
  wrapper : Option Block

/-- The names that a request fills in. -/
structure Names where
  table : Role → Name
  column : Column → Name

/-! ### Text -/

def Ref.name (names : Names) : Ref → Name
  | .cte name => name
  | .role r => names.table r

/-- The bytes of a piece, for a statement inside it. -/
def Piece.render (names : Names) (inner : List UInt8) : Piece → List UInt8
  | .text words => words
  | .table ref => ref.name names
  | .mention => names.table .fts
  | .rowid => asciiBytes "rowid"
  | .column c => names.column c
  | .inner => inner

def renderBlock (names : Names) (inner : List UInt8) (block : Block) : List UInt8 :=
  block.flatMap (Piece.render names inner)

/-- A common table expression, as a block of its own. -/
def ctePieces (cte : Name × Block) : Block :=
  .text cte.1 :: .text (asciiBytes " as (") :: cte.2 ++ [.text (asciiBytes ")")]

/-- The common table expressions of a statement, with what stands between them. -/
def withPieces : List (Name × Block) → Block
  | [] => []
  | [cte] => ctePieces cte ++ [.text (asciiBytes " ")]
  | cte :: ctes => ctePieces cte ++ .text (asciiBytes ", ") :: withPieces ctes

/-- The statement without its join. -/
def Statement.core (statement : Statement) : Block :=
  match statement.ctes with
  | [] => statement.body
  | ctes => .text (asciiBytes "with ") :: withPieces ctes ++ statement.body

def Statement.render (statement : Statement) (names : Names) : List UInt8 :=
  match statement.wrapper with
  | none => renderBlock names [] statement.core
  | some wrapper => renderBlock names (renderBlock names [] statement.core) wrapper

/-! ### The statements of the plans -/

def words (s : String) : Piece :=
  .text (asciiBytes s)

def cte (name : String) : Ref :=
  .cte (asciiBytes name)

/-- The ranked rows of the full-text table. -/
def matchBlock (score : List Piece) : Block :=
  words "select " :: .rowid :: words " as item_id, " :: score ++
    [words "from ", .table (.role .fts), words " where ", .mention, words " match ?1 ",
      words "order by bm25(", .mention, words "), ", .rowid, words " limit ?2"]

/-- The score of a row, the best highest. -/
def bm25Score : List Piece :=
  [words "-bm25(", .mention, words ") as score "]

def bm25Rank : List Piece :=
  [words "row_number() over (order by bm25(", .mention, words "), ", .rowid, words ") as rank "]

/-- The coarse candidates of the vector table; `parameter` says which parameter is the embedding. -/
def coarseBlock (parameter : String) : Block :=
  [words "select item_id, embedding from ", .table (.role .vec), words " ",
    words "where embedding_coarse match vec_quantize_binary(", words parameter, words ") ",
    words "and k = ?2"]

/-- The candidates with their exact distance. -/
def rerankedBlock (parameter limit : String) : Block :=
  [words "select item_id, ", words "zaxon_vec_distance_cosine(embedding, ", words parameter,
    words ") as exact_distance ", words "from ", .table (cte "coarse"),
    words " order by exact_distance, item_id limit ", words limit]

/-- The items with the sum of their scores. -/
def fusedBlock : Block :=
  [words "select item_id, sum(score) as fused_score ", words "from ", .table (cte "contributions"),
    words " group by item_id ", words "order by fused_score desc, item_id limit ?4"]

def lexicalStatement : Statement where
  ctes := []
  body := matchBlock bm25Score
  wrapper := none

def semanticStatement : Statement where
  ctes := [(asciiBytes "coarse", coarseBlock "?1")]
  body := rerankedBlock "?1" "?3"
  wrapper := none

def rrfStatement : Statement where
  ctes :=
    [(asciiBytes "lexical", matchBlock bm25Rank),
      (asciiBytes "coarse", coarseBlock "?3"),
      (asciiBytes "reranked", rerankedBlock "?3" "?4"),
      (asciiBytes "semantic",
        [words "select item_id, ", words "row_number() over (order by exact_distance, item_id) as rank ",
          words "from ", .table (cte "reranked")]),
      (asciiBytes "contributions",
        [words "select item_id, rrf(rank, 60, ?5) as score from ", .table (cte "lexical"), words " ",
          words "union all ",
          words "select item_id, rrf(rank, 60, ?6) as score from ", .table (cte "semantic")])]
  body := fusedBlock
  wrapper := none

/-- The scores of one branch, normalized. -/
def normalizedBlock (weight : String) (source : Ref) : Block :=
  [words "select item_id, dbsf(score, avg(score) over (), ", words "stddev_samp(score) over (), ",
    words weight, words ") as score from ", .table source]

def dbsfStatement : Statement where
  ctes :=
    [(asciiBytes "lexical_raw", matchBlock bm25Score),
      (asciiBytes "lexical", normalizedBlock "?5" (cte "lexical_raw")),
      (asciiBytes "coarse", coarseBlock "?3"),
      (asciiBytes "reranked", rerankedBlock "?3" "?4"),
      (asciiBytes "semantic_raw",
        [words "select item_id, -exact_distance as score from ", .table (cte "reranked")]),
      (asciiBytes "semantic", normalizedBlock "?6" (cte "semantic_raw")),
      (asciiBytes "contributions",
        [words "select item_id, score from ", .table (cte "lexical"), words " ", words "union all ",
          words "select item_id, score from ", .table (cte "semantic")])]
  body := fusedBlock
  wrapper := none

/-- The join with the metadata table. -/
def metadataBlock (columns : ℕ) (score order : String) : Block :=
  words "select search_results.item_id, search_results." :: words score ::
    ((List.range columns).flatMap fun place => [words ", metadata.", .column (.selected place)]) ++
    [words " from (", .inner, words ") as search_results ", words "left join ", .table (.role .metadata),
      words " as metadata on metadata.", .column .id, words " = search_results.item_id ",
      words "order by search_results.", words score, words " ", words order,
      words ", search_results.item_id"]

variable {R : Type}

/-- The statement inside the join, the column it scores by, the order of that, and how many parameters there
are. -/
def Request.base (request : Request R) : Statement × String × String × ℕ :=
  match request.ftsTable, request.vecTable, request.fusion with
  | some _, none, _ => (lexicalStatement, "score", "desc", 2)
  | none, _, _ => (semanticStatement, "exact_distance", "asc", 3)
  | some _, some _, .rrf => (rrfStatement, "fused_score", "desc", 6)
  | some _, some _, .dbsf => (dbsfStatement, "fused_score", "desc", 6)

/-- The statement of a request. It depends on which tables there are and not on their names. -/
def Request.statement (request : Request R) : Statement :=
  { request.base.1 with
    wrapper := request.metadataTable.map fun _ =>
      metadataBlock request.metadataColumns.length request.base.2.1 request.base.2.2.1 }

def Request.names (request : Request R) : Names where
  table
    | .fts => request.ftsTable.getD []
    | .vec => request.vecTable.getD []
    | .metadata => request.metadataTable.getD []
  column
    | .id => request.idColumn
    | .selected place => request.metadataColumns.getD place []

def Request.spliced (request : Request R) : List Name :=
  request.ftsTable.toList ++ request.vecTable.toList ++
    request.metadataTable.toList.flatMap fun table => table :: request.idColumn :: request.metadataColumns

end Search

end Zaxonlite
