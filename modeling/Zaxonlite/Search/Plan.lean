import Zaxonlite.Shell.Tokens
import Zaxonlite.Wire.Values

/-!
# Search plans

A search request names a full-text table, a vector table or both, and perhaps a table to take more columns
from. The names are checked and spliced into SQL; everything else is bound as a parameter.
-/

namespace Zaxonlite

namespace Search

open Shell (isAlphabetic isDigit toLower)

/-- A name of a table or a column. -/
abbrev Name := List UInt8

def candidateHardLimit : ℕ := 4096

def metadataColumnLimit : ℕ := 16

inductive Fusion where
  | rrf
  | dbsf
  deriving DecidableEq

/-- A request, with weights in a type of reals. -/
structure Request (R : Type) where
  ftsTable : Option Name
  vecTable : Option Name
  text : Option (List UInt8)
  embedding : Option (List UInt8)
  k : UInt32
  candidateCount : Option UInt32
  fusion : Fusion
  textWeight : R
  vectorWeight : R
  metadataTable : Option Name
  metadataIdColumn : Option Name
  metadataColumns : List Name

inductive RequestError where
  | noRetriever
  | missingText
  | missingEmbedding
  | invalidIdentifier
  | invalidK
  | invalidCandidateCount
  | invalidEmbedding
  | invalidWeight
  | invalidMetadata
  deriving DecidableEq

/-- What `validate` asks of a real. -/
structure WeightTests (R : Type) where
  isFinite : R → Bool
  isNegative : R → Bool

def defaultCandidateCount (k : ℕ) : ℕ :=
  min (max (min (8 * k) 4294967295) 64) candidateHardLimit

/-- `startsWithIgnoreCase`, of a lowercase text. -/
def startsWithIgnoreCase (name lead : List UInt8) : Bool :=
  (name.take lead.length).map toLower = lead

/-- A byte of an identifier behind its first. -/
def isNameByte (byte : UInt8) : Bool :=
  isAlphabetic byte || isDigit byte || byte = 95

def validateIdentifier (name : Name) : Except RequestError Unit :=
  if name.length = 0 ∨ name.length > 128 then .error .invalidIdentifier
  else if (name.head?.any fun first => !isAlphabetic first && first ≠ 95) then .error .invalidIdentifier
  else if name.any fun byte => !isNameByte byte then .error .invalidIdentifier
  else if startsWithIgnoreCase name (asciiBytes "__zaxon_") then .error .invalidIdentifier
  else if startsWithIgnoreCase name (asciiBytes "sqlite_") then .error .invalidIdentifier
  else .ok ()

variable {R : Type}

/-- A check whose failure is reported as an error in the metadata. -/
def metadataIdentifier (name : Name) : Except RequestError Unit :=
  match validateIdentifier name with
  | .error _ => .error .invalidMetadata
  | .ok _ => .ok ()

/-- The item-ID column, `id` where none is given. -/
def Request.idColumn (request : Request R) : Name :=
  request.metadataIdColumn.getD (asciiBytes "id")

def validateMetadata (request : Request R) : Except RequestError Unit :=
  if request.metadataTable = none ∧ request.metadataIdColumn = none ∧
      request.metadataColumns.length = 0 then
    .ok ()
  else
    match request.metadataTable with
    | none => .error .invalidMetadata
    | some table =>
      if request.metadataColumns.length = 0 ∨ request.metadataColumns.length > metadataColumnLimit then
        .error .invalidMetadata
      else if (request.vecTable.any fun vec => table.map toLower = vec.map toLower) then
        .error .invalidMetadata
      else do
        metadataIdentifier table
        metadataIdentifier request.idColumn
        request.metadataColumns.foldlM (fun _ column => metadataIdentifier column) ()

/-- The checks of the lexical branch. -/
def validateLexical (request : Request R) : Except RequestError Unit :=
  match request.ftsTable with
  | none => .ok ()
  | some fts => do
    validateIdentifier fts
    if request.text.all fun text => text.length = 0 then .error .missingText else .ok ()

/-- The checks of the vector branch. -/
def validateSemantic (request : Request R) : Except RequestError Unit :=
  match request.vecTable with
  | none => .ok ()
  | some vec => do
    validateIdentifier vec
    match request.embedding with
    | none => .error .missingEmbedding
    | some embedding =>
      if embedding.length = 0 ∨ embedding.length % 32 ≠ 0 then .error .invalidEmbedding else .ok ()

/-- `validate`: the number of candidates. -/
def validate (tests : WeightTests R) (request : Request R) : Except RequestError ℕ :=
  if request.k.toNat < 1 ∨ request.k.toNat > candidateHardLimit then .error .invalidK
  else
    let candidates :=
      match request.candidateCount with
      | some count => count.toNat
      | none => defaultCandidateCount request.k.toNat
    if candidates < 1 ∨ candidates > candidateHardLimit then .error .invalidCandidateCount
    else if !tests.isFinite request.textWeight || tests.isNegative request.textWeight ||
        !tests.isFinite request.vectorWeight || tests.isNegative request.vectorWeight then
      .error .invalidWeight
    else if request.ftsTable = none ∧ request.vecTable = none then .error .noRetriever
    else do
      validateLexical request
      validateSemantic request
      validateMetadata request
      .ok candidates

/-! ### The statements -/

structure Plan (R : Type) where
  sql : List UInt8
  values : List (Prepared.Value R)

/-- The columns that metadata adds to a result. -/
def metadataList (columns : List Name) : List UInt8 :=
  columns.flatMap fun column => asciiBytes ", metadata." ++ column

def addMetadata (baseSql : List UInt8) (request : Request R) (scoreColumn : List UInt8)
    (ascending : Bool) : List UInt8 :=
  match request.metadataTable with
  | none => baseSql
  | some table =>
    asciiBytes "select search_results.item_id, search_results." ++ scoreColumn ++
      metadataList request.metadataColumns ++
      asciiBytes " from (" ++ baseSql ++ asciiBytes ") as search_results " ++
      asciiBytes "left join " ++ table ++ asciiBytes " as metadata on metadata." ++ request.idColumn ++
      asciiBytes " = search_results.item_id " ++
      asciiBytes "order by search_results." ++ scoreColumn ++ asciiBytes " " ++
      (if ascending then asciiBytes "asc" else asciiBytes "desc") ++ asciiBytes ", search_results.item_id"

def lexicalSql (fts : Name) : List UInt8 :=
  asciiBytes "select " ++ asciiBytes "rowid" ++ asciiBytes " as item_id, " ++ asciiBytes "-bm25(" ++
    fts ++ asciiBytes ") as score " ++ asciiBytes "from " ++ fts ++ asciiBytes " where " ++ fts ++
    asciiBytes " match ?1 " ++ asciiBytes "order by bm25(" ++ fts ++ asciiBytes "), " ++
    asciiBytes "rowid" ++ asciiBytes " limit ?2"

def semanticSql (vec : Name) : List UInt8 :=
  asciiBytes "with " ++ asciiBytes "coarse" ++ asciiBytes " as (" ++
    asciiBytes "select item_id, embedding from " ++ vec ++ asciiBytes " " ++
    asciiBytes "where embedding_coarse match vec_quantize_binary(" ++ asciiBytes "?1" ++
    asciiBytes ") " ++ asciiBytes "and k = ?2" ++ asciiBytes ")" ++ asciiBytes " " ++
    asciiBytes "select item_id, " ++ asciiBytes "zaxon_vec_distance_cosine(embedding, " ++
    asciiBytes "?1" ++ asciiBytes ") as exact_distance " ++ asciiBytes "from " ++ asciiBytes "coarse" ++
    asciiBytes " order by exact_distance, item_id limit " ++ asciiBytes "?3"

def buildRrfSql (fts vec : Name) : List UInt8 :=
  asciiBytes "with " ++ asciiBytes "lexical" ++ asciiBytes " as (" ++ asciiBytes "select " ++
    asciiBytes "rowid" ++ asciiBytes " as item_id, " ++ asciiBytes "row_number() over (order by bm25(" ++
    fts ++ asciiBytes "), " ++ asciiBytes "rowid" ++ asciiBytes ") as rank " ++ asciiBytes "from " ++
    fts ++ asciiBytes " where " ++ fts ++ asciiBytes " match ?1 " ++ asciiBytes "order by bm25(" ++ fts ++
    asciiBytes "), " ++ asciiBytes "rowid" ++ asciiBytes " limit ?2" ++ asciiBytes ")" ++
    asciiBytes ", " ++ asciiBytes "coarse" ++ asciiBytes " as (" ++
    asciiBytes "select item_id, embedding from " ++ vec ++ asciiBytes " " ++
    asciiBytes "where embedding_coarse match vec_quantize_binary(" ++ asciiBytes "?3" ++
    asciiBytes ") " ++ asciiBytes "and k = ?2" ++ asciiBytes ")" ++ asciiBytes ", " ++
    asciiBytes "reranked" ++ asciiBytes " as (" ++ asciiBytes "select item_id, " ++
    asciiBytes "zaxon_vec_distance_cosine(embedding, " ++ asciiBytes "?3" ++
    asciiBytes ") as exact_distance " ++ asciiBytes "from " ++ asciiBytes "coarse" ++
    asciiBytes " order by exact_distance, item_id limit " ++ asciiBytes "?4" ++ asciiBytes ")" ++
    asciiBytes ", " ++ asciiBytes "semantic" ++ asciiBytes " as (" ++ asciiBytes "select item_id, " ++
    asciiBytes "row_number() over (order by exact_distance, item_id) as rank " ++ asciiBytes "from " ++
    asciiBytes "reranked" ++ asciiBytes ")" ++ asciiBytes ", " ++ asciiBytes "contributions" ++
    asciiBytes " as (" ++ asciiBytes "select item_id, rrf(rank, 60, ?5) as score from " ++
    asciiBytes "lexical" ++ asciiBytes " " ++ asciiBytes "union all " ++
    asciiBytes "select item_id, rrf(rank, 60, ?6) as score from " ++ asciiBytes "semantic" ++
    asciiBytes ")" ++ asciiBytes " " ++ asciiBytes "select item_id, sum(score) as fused_score " ++
    asciiBytes "from " ++ asciiBytes "contributions" ++ asciiBytes " group by item_id " ++
    asciiBytes "order by fused_score desc, item_id limit ?4"

def buildDbsfSql (fts vec : Name) : List UInt8 :=
  asciiBytes "with " ++ asciiBytes "lexical_raw" ++ asciiBytes " as (" ++ asciiBytes "select " ++
    asciiBytes "rowid" ++ asciiBytes " as item_id, " ++ asciiBytes "-bm25(" ++ fts ++
    asciiBytes ") as score " ++ asciiBytes "from " ++ fts ++ asciiBytes " where " ++ fts ++
    asciiBytes " match ?1 " ++ asciiBytes "order by bm25(" ++ fts ++ asciiBytes "), " ++
    asciiBytes "rowid" ++ asciiBytes " limit ?2" ++ asciiBytes ")" ++ asciiBytes ", " ++
    asciiBytes "lexical" ++ asciiBytes " as (" ++
    asciiBytes "select item_id, dbsf(score, avg(score) over (), " ++
    asciiBytes "stddev_samp(score) over (), " ++ asciiBytes "?5" ++ asciiBytes ") as score from " ++
    asciiBytes "lexical_raw" ++ asciiBytes ")" ++ asciiBytes ", " ++ asciiBytes "coarse" ++
    asciiBytes " as (" ++ asciiBytes "select item_id, embedding from " ++ vec ++ asciiBytes " " ++
    asciiBytes "where embedding_coarse match vec_quantize_binary(" ++ asciiBytes "?3" ++
    asciiBytes ") " ++ asciiBytes "and k = ?2" ++ asciiBytes ")" ++ asciiBytes ", " ++
    asciiBytes "reranked" ++ asciiBytes " as (" ++ asciiBytes "select item_id, " ++
    asciiBytes "zaxon_vec_distance_cosine(embedding, " ++ asciiBytes "?3" ++
    asciiBytes ") as exact_distance " ++ asciiBytes "from " ++ asciiBytes "coarse" ++
    asciiBytes " order by exact_distance, item_id limit " ++ asciiBytes "?4" ++ asciiBytes ")" ++
    asciiBytes ", " ++ asciiBytes "semantic_raw" ++ asciiBytes " as (" ++
    asciiBytes "select item_id, -exact_distance as score from " ++ asciiBytes "reranked" ++
    asciiBytes ")" ++ asciiBytes ", " ++ asciiBytes "semantic" ++ asciiBytes " as (" ++
    asciiBytes "select item_id, dbsf(score, avg(score) over (), " ++
    asciiBytes "stddev_samp(score) over (), " ++ asciiBytes "?6" ++ asciiBytes ") as score from " ++
    asciiBytes "semantic_raw" ++ asciiBytes ")" ++ asciiBytes ", " ++ asciiBytes "contributions" ++
    asciiBytes " as (" ++ asciiBytes "select item_id, score from " ++ asciiBytes "lexical" ++
    asciiBytes " " ++ asciiBytes "union all " ++ asciiBytes "select item_id, score from " ++
    asciiBytes "semantic" ++ asciiBytes ")" ++ asciiBytes " " ++
    asciiBytes "select item_id, sum(score) as fused_score " ++ asciiBytes "from " ++
    asciiBytes "contributions" ++ asciiBytes " group by item_id " ++
    asciiBytes "order by fused_score desc, item_id limit ?4"

/-! ### The plan -/

def count (n : ℕ) : Prepared.Value R :=
  .integer (Int64.ofNat n)

def planLexical (request : Request R) (fts : Name) : Plan R where
  sql := addMetadata (lexicalSql fts) request (asciiBytes "score") false
  values := [.text (request.text.getD []), count request.k.toNat]

def planSemantic (request : Request R) (candidates : ℕ) (vec : Name) : Plan R where
  sql := addMetadata (semanticSql vec) request (asciiBytes "exact_distance") true
  values := [.blob (request.embedding.getD []), count candidates, count request.k.toNat]

def bindHybrid (sql : List UInt8) (request : Request R) (candidates : ℕ) : Plan R where
  sql := sql
  values :=
    [.text (request.text.getD []), count candidates, .blob (request.embedding.getD []),
      count request.k.toNat, .real request.textWeight, .real request.vectorWeight]

def plan (tests : WeightTests R) (request : Request R) : Except RequestError (Plan R) := do
  let candidates ← validate tests request
  match request.ftsTable, request.vecTable with
  | some fts, none => .ok (planLexical request fts)
  | none, some vec => .ok (planSemantic request candidates vec)
  | some fts, some vec =>
    let baseSql :=
      match request.fusion with
      | .rrf => buildRrfSql fts vec
      | .dbsf => buildDbsfSql fts vec
    .ok (bindHybrid (addMetadata baseSql request (asciiBytes "fused_score") false) request candidates)
  | none, none => .error .noRetriever

end Search

end Zaxonlite
