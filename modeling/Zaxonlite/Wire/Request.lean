import Zaxonlite.Wire.Response

/-!
# Typed requests

The client writes a request as one document, the SQL and the tagged parameters among its members, and
the server parses it into one record of optional fields. A field the record does not have is ignored, a
field of the wrong type makes the whole request malformed. Only then are the parameters decoded.
-/

namespace Zaxonlite

variable {R : Type}

/-- One tagged prepared parameter on the wire. -/
structure WireParam (R : Type) where
  t : List UInt8
  i : Option Int64
  r : Option R
  v : Option (List UInt8)

structure Request (R : Type) where
  op : List UInt8
  sql : Option (List UInt8)
  session : Option UInt64
  sequence : Option UInt64
  level : Option (List UInt8)
  applied : Option UInt64
  leader : Option Bool
  timeoutMs : Option UInt64
  delayMs : Option UInt64
  freshnessMs : Option UInt64
  retain : Option UInt64
  name : Option (List UInt8)
  nodeId : Option UInt32
  ttlSeconds : Option UInt64
  operation : Option UInt64
  expectedConfig : Option UInt64
  oldNode : Option UInt32
  newNode : Option UInt32
  endpoint : Option (List UInt8)
  ftsTable : Option (List UInt8)
  vecTable : Option (List UInt8)
  text : Option (List UInt8)
  embedding : Option (List UInt8)
  k : Option UInt32
  candidateCount : Option UInt32
  fusion : Option (List UInt8)
  textWeight : Option R
  vectorWeight : Option R
  metadataTable : Option (List UInt8)
  metadataIdColumn : Option (List UInt8)
  metadataColumns : Option (List (List UInt8))
  format : Option (List UInt8)
  params : Option (List (WireParam R))
  paramBatch : Option (List (List (WireParam R)))

/-- Every field at its default. -/
def Request.empty : Request R where
  op := []
  sql := none
  session := none
  sequence := none
  level := none
  applied := none
  leader := none
  timeoutMs := none
  delayMs := none
  freshnessMs := none
  retain := none
  name := none
  nodeId := none
  ttlSeconds := none
  operation := none
  expectedConfig := none
  oldNode := none
  newNode := none
  endpoint := none
  ftsTable := none
  vecTable := none
  text := none
  embedding := none
  k := none
  candidateCount := none
  fusion := none
  textWeight := none
  vectorWeight := none
  metadataTable := none
  metadataIdColumn := none
  metadataColumns := none
  format := none
  params := none
  paramBatch := none

/-- No text of a request is longer than the frame that carried it. -/
structure Request.Framed (request : Request R) : Prop where
  sql : ∀ bytes, request.sql = some bytes → bytes.length < 2 ^ 26
  text : ∀ bytes, request.text = some bytes → bytes.length < 2 ^ 26
  embedding : ∀ bytes, request.embedding = some bytes → bytes.length < 2 ^ 26
  params : ∀ params, request.params = some params →
    ∀ param ∈ params, ∀ bytes, param.v = some bytes → bytes.length < 2 ^ 26
  paramBatch : ∀ batch, request.paramBatch = some batch →
    ∀ params ∈ batch, ∀ param ∈ params, ∀ bytes, param.v = some bytes → bytes.length < 2 ^ 26

/-! ### Parsing -/

/-- An optional field: absent and `null` are the same. -/
def optionalField {α : Type} (decode : Json.Value → Option α) (name : String)
    (object : List (List UInt8 × Json.Value)) : Option (Option α) :=
  match object.lookup (asciiBytes name) with
  | none => some none
  | some .null => some none
  | some value => (decode value).map some

/-- A field with a default that is not `null`. -/
def defaultField {α : Type} (decode : Json.Value → Option α) (default : α) (name : String)
    (object : List (List UInt8 × Json.Value)) : Option α :=
  match object.lookup (asciiBytes name) with
  | none => some default
  | some value => decode value

def jsonBool : Json.Value → Option Bool
  | .bool b => some b
  | _ => none

/-- An unsigned integer below the bound. -/
def jsonBelow (bound : ℕ) : Json.Value → Option ℕ
  | .number literal => do
    let n ← literal.integer
    if 0 ≤ n ∧ n < bound then some n.toNat else none
  | _ => none

def jsonU64 (value : Json.Value) : Option UInt64 :=
  (jsonBelow (2 ^ 64) value).map UInt64.ofNat

def jsonU32 (value : Json.Value) : Option UInt32 :=
  (jsonBelow (2 ^ 32) value).map UInt32.ofNat

def jsonI64 : Json.Value → Option Int64
  | .number literal => jsonInteger literal
  | _ => none

def jsonFloat (F : RealFormat R) : Json.Value → Option R
  | .number literal => some (F.parse literal)
  | _ => none

def jsonList {α : Type} (decode : Json.Value → Option α) : Json.Value → Option (List α)
  | .array items => items.mapM decode
  | _ => none

/-- A tagged parameter. Its tag has no default. -/
def jsonWireParam (F : RealFormat R) : Json.Value → Option (WireParam R)
  | .object object => do
    let t ← (object.lookup (asciiBytes "t")).bind jsonString
    let i ← optionalField jsonI64 "i" object
    let r ← optionalField (jsonFloat F) "r" object
    let v ← optionalField jsonString "v" object
    pure { t, i, r, v }
  | _ => none

/-- The fields of a request, taken from its document. -/
def decodeRequest (F : RealFormat R) (object : List (List UInt8 × Json.Value)) : Option (Request R) := do
  let op ← defaultField jsonString [] "op" object
  let sql ← optionalField jsonString "sql" object
  let session ← optionalField jsonU64 "session" object
  let sequence ← optionalField jsonU64 "sequence" object
  let level ← optionalField jsonString "level" object
  let applied ← optionalField jsonU64 "applied" object
  let leader ← optionalField jsonBool "leader" object
  let timeoutMs ← optionalField jsonU64 "timeout_ms" object
  let delayMs ← optionalField jsonU64 "delay_ms" object
  let freshnessMs ← optionalField jsonU64 "freshness_ms" object
  let retain ← optionalField jsonU64 "retain" object
  let name ← optionalField jsonString "name" object
  let nodeId ← optionalField jsonU32 "node_id" object
  let ttlSeconds ← optionalField jsonU64 "ttl_seconds" object
  let operation ← optionalField jsonU64 "operation" object
  let expectedConfig ← optionalField jsonU64 "expected_config" object
  let oldNode ← optionalField jsonU32 "old_node" object
  let newNode ← optionalField jsonU32 "new_node" object
  let endpoint ← optionalField jsonString "endpoint" object
  let ftsTable ← optionalField jsonString "fts_table" object
  let vecTable ← optionalField jsonString "vec_table" object
  let text ← optionalField jsonString "text" object
  let embedding ← optionalField jsonString "embedding" object
  let k ← optionalField jsonU32 "k" object
  let candidateCount ← optionalField jsonU32 "candidate_count" object
  let fusion ← optionalField jsonString "fusion" object
  let textWeight ← optionalField (jsonFloat F) "text_weight" object
  let vectorWeight ← optionalField (jsonFloat F) "vector_weight" object
  let metadataTable ← optionalField jsonString "metadata_table" object
  let metadataIdColumn ← optionalField jsonString "metadata_id_column" object
  let metadataColumns ← optionalField (jsonList jsonString) "metadata_columns" object
  let format ← optionalField jsonString "format" object
  let params ← optionalField (jsonList (jsonWireParam F)) "params" object
  let paramBatch ← optionalField (jsonList (jsonList (jsonWireParam F))) "param_batch" object
  pure { op, sql, session, sequence, level, applied, leader, timeoutMs, delayMs, freshnessMs, retain, name,
         nodeId, ttlSeconds, operation, expectedConfig, oldNode, newNode, endpoint, ftsTable, vecTable, text,
         embedding, k, candidateCount, fusion, textWeight, vectorWeight, metadataTable, metadataIdColumn,
         metadataColumns, format, params, paramBatch }

/-- `parseFromSlice(Request, …)` in `dispatch`. -/
def parseRequest (F : RealFormat R) (body : List UInt8) : Option (Request R) :=
  match Json.parse body with
  | some (.object object) => decodeRequest F object
  | _ => none

/-- One parameter of `decodeWireParams`. -/
def decodeWireParam (param : WireParam R) : Option (Prepared.Value R) :=
  if param.t = asciiBytes "null" then some .nullValue
  else if param.t = asciiBytes "int" then param.i.map .integer
  else if param.t = asciiBytes "real" then param.r.map .real
  else if param.t = asciiBytes "text" then param.v.map .text
  else if param.t = asciiBytes "blob" then (param.v.bind Base64.decode).map .blob
  else none

/-- `decodeWireParams`; `none` is `BadParam`. -/
def decodeWireParams (params : List (WireParam R)) : Option (List (Prepared.Value R)) :=
  params.mapM decodeWireParam

/-! ### Building -/

/-- `writeParams`: omitted when there are no values. -/
def writeParams (F : RealFormat R) (values : List (Prepared.Value R)) : Option (List UInt8) :=
  if values = [] then some []
  else do
    let params ← writeParamArray F values
    pure (asciiBytes ",\"params\":" ++ params)

/-- `buildExecRequest`; `none` is `NonFiniteReal`. -/
def buildExecRequest (F : RealFormat R) (sql : List UInt8) (values : List (Prepared.Value R))
    (session sequence : UInt64) : Option (List UInt8) := do
  let params ← writeParams F values
  pure (asciiBytes "\x7b\"op\":\"exec\",\"sql\":" ++ (writeJsonString sql ++
    (asciiBytes ",\"format\":\"typed-v1\"" ++ (params ++
      (asciiBytes ",\"session\":" ++ (Decimal.ofInt session.toNat ++
        (asciiBytes ",\"sequence\":" ++ (Decimal.ofInt sequence.toNat ++ asciiBytes "\x7d"))))))))

def buildExecBatchRequest (F : RealFormat R) (sql : List UInt8) (batch : List (List (Prepared.Value R)))
    (session sequence : UInt64) : Option (List UInt8) := do
  let rows ← batch.mapM (writeParamArray F)
  pure (asciiBytes "\x7b\"op\":\"exec\",\"sql\":" ++ (writeJsonString sql ++
    (asciiBytes ",\"format\":\"typed-v1\",\"param_batch\":[" ++ (commaSeparated id rows ++ (asciiBytes "]" ++
      (asciiBytes ",\"session\":" ++ (Decimal.ofInt session.toNat ++
        (asciiBytes ",\"sequence\":" ++ (Decimal.ofInt sequence.toNat ++ asciiBytes "\x7d")))))))))

/-- The freshness bound of a query, when it has one. -/
def writeFreshness : Option UInt64 → List UInt8
  | none => []
  | some maximum => asciiBytes ",\"freshness_ms\":" ++ Decimal.ofInt maximum.toNat

def buildQueryRequest (F : RealFormat R) (sql : List UInt8) (values : List (Prepared.Value R)) (level : Level)
    (freshnessMs : Option UInt64) : Option (List UInt8) := do
  let params ← writeParams F values
  pure (asciiBytes "\x7b\"op\":\"query\",\"sql\":" ++ (writeJsonString sql ++
    (asciiBytes ",\"format\":\"typed-v1\"" ++ (params ++
      (asciiBytes ",\"level\":\"" ++ (asciiBytes level.tagName ++ (asciiBytes "\"" ++
        (writeFreshness freshnessMs ++ asciiBytes "\x7d"))))))))

end Zaxonlite
