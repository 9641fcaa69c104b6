import Zaxonlite.Wire.Request

/-!
# What crosses the wire

Integers, blobs and `NULL` cross as they are, in both directions. A text crosses as it is when it is
UTF-8. SQLite holds other texts too, and neither encoder looks at a byte from 128 on: the document is
then no JSON, and the whole reply or request is refused, the other values with it.
-/

namespace Zaxonlite

variable {R : Type} (F : RealFormat R)

/-! ### The documents of the requests -/

/-- The `params` member, omitted when there are no values. -/
def paramMembers (values : List (Prepared.Value R)) : List (List UInt8 × Json.Value) :=
  if values = [] then [] else [tagged "params" (.array (values.map (wireParam F)))]

def execDocument (sql : List UInt8) (values : List (Prepared.Value R)) (session sequence : UInt64) :
    Json.Value :=
  .object
    (tagged "op" (.string (asciiBytes "exec")) :: tagged "sql" (.string sql) ::
      tagged "format" (.string (asciiBytes "typed-v1")) :: (paramMembers F values ++
        [tagged "session" (.number (.ofInt session.toNat)), tagged "sequence" (.number (.ofInt sequence.toNat))]))

def execBatchDocument (sql : List UInt8) (batch : List (List (Prepared.Value R)))
    (session sequence : UInt64) : Json.Value :=
  .object
    [tagged "op" (.string (asciiBytes "exec")), tagged "sql" (.string sql),
      tagged "format" (.string (asciiBytes "typed-v1")),
      tagged "param_batch" (.array (batch.map fun values => .array (values.map (wireParam F)))),
      tagged "session" (.number (.ofInt session.toNat)), tagged "sequence" (.number (.ofInt sequence.toNat))]

/-- The `freshness_ms` member of a query. -/
def freshnessMembers (freshnessMs : Option UInt64) : List (List UInt8 × Json.Value) :=
  match freshnessMs with
  | none => []
  | some maximum => [tagged "freshness_ms" (.number (.ofInt maximum.toNat))]

def queryDocument (sql : List UInt8) (values : List (Prepared.Value R)) (level : Level)
    (freshnessMs : Option UInt64) : Json.Value :=
  .object
    (tagged "op" (.string (asciiBytes "query")) :: tagged "sql" (.string sql) ::
      tagged "format" (.string (asciiBytes "typed-v1")) :: (paramMembers F values ++
        tagged "level" (.string (asciiBytes level.tagName)) :: freshnessMembers freshnessMs))

variable {F}

theorem buildExecRequest_eq {values : List (Prepared.Value R)} (h : ∀ value ∈ values, value.Sendable F)
    (sql : List UInt8) (session sequence : UInt64) :
    buildExecRequest F sql values session sequence = some (writeJson (execDocument F sql values session sequence)) := by
  rw [buildExecRequest, writeParams, execDocument, paramMembers]
  by_cases hnil : values = []
  · rw [if_pos hnil, if_pos hnil]
    simp only [tagged, asciiBytes, String.reduceToList]
    rfl
  · rw [if_neg hnil, if_neg hnil, writeParamArray_eq h]
    simp only [tagged, asciiBytes, String.reduceToList]
    rfl

theorem mapM_writeParamArray {batch : List (List (Prepared.Value R))}
    (h : ∀ values ∈ batch, ∀ value ∈ values, value.Sendable F) :
    batch.mapM (writeParamArray F) =
      some (batch.map fun values => writeJson (.array (values.map (wireParam F)))) := by
  induction batch with
  | nil => rfl
  | cons values batch ih =>
    obtain ⟨hvalues, hbatch⟩ := List.forall_mem_cons.1 h
    rw [List.mapM_cons, writeParamArray_eq hvalues, ih hbatch]
    rfl

theorem buildExecBatchRequest_eq {batch : List (List (Prepared.Value R))}
    (h : ∀ values ∈ batch, ∀ value ∈ values, value.Sendable F) (sql : List UInt8)
    (session sequence : UInt64) :
    buildExecBatchRequest F sql batch session sequence =
      some (writeJson (execBatchDocument F sql batch session sequence)) := by
  have hrows := writeItems_eq (fun values => writeJson (.array (values.map (wireParam F))))
    (fun values => .array (values.map (wireParam F))) batch fun _ _ => rfl
  have hloop : commaSeparated id (batch.map fun values => writeJson (.array (values.map (wireParam F)))) =
      commaSeparated (fun values => writeJson (.array (values.map (wireParam F)))) batch := by
    rw [commaSeparated, commaSeparated, List.map_id]
  rw [buildExecBatchRequest, mapM_writeParamArray h, Option.bind_eq_bind, Option.bind_some, hloop]
  simp only [Option.pure_def, execBatchDocument, tagged, writeJson, Json.Value.write, Json.writeMembers, hrows, List.append_assoc, List.cons_append]
  simp only [asciiBytes, String.reduceToList]
  rfl

theorem buildQueryRequest_eq {values : List (Prepared.Value R)} (h : ∀ value ∈ values, value.Sendable F)
    (sql : List UInt8) (level : Level) (freshnessMs : Option UInt64) :
    buildQueryRequest F sql values level freshnessMs =
      some (writeJson (queryDocument F sql values level freshnessMs)) := by
  have hlevel := writeString_tagName level
  rw [buildQueryRequest, writeParams, queryDocument, paramMembers]
  by_cases hnil : values = []
  · rw [if_pos hnil, if_pos hnil]
    cases freshnessMs with
    | none =>
      simp only [writeFreshness, freshnessMembers, tagged, writeJson, Json.Value.write, List.nil_append,
        Json.writeMembers, hlevel, List.append_assoc, List.cons_append]
      simp only [asciiBytes, String.reduceToList]
      rfl
    | some maximum =>
      simp only [writeFreshness, freshnessMembers, tagged, writeJson, Json.Value.write, List.nil_append,
        Json.writeMembers, hlevel, List.append_assoc, List.cons_append]
      simp only [asciiBytes, String.reduceToList]
      rfl
  · rw [if_neg hnil, if_neg hnil, writeParamArray_eq h]
    cases freshnessMs with
    | none =>
      simp only [writeFreshness, freshnessMembers, tagged, writeJson, Json.Value.write, List.nil_append,
        Json.writeMembers, hlevel, List.append_assoc, List.cons_append]
      simp only [asciiBytes, String.reduceToList]
      rfl
    | some maximum =>
      simp only [writeFreshness, freshnessMembers, tagged, writeJson, Json.Value.write, List.nil_append,
        Json.writeMembers, hlevel, List.append_assoc, List.cons_append]
      simp only [asciiBytes, String.reduceToList]
      rfl

/-! ### Parsing them -/

/-- The parameter the server parses out of a value's document. -/
def parsedParam (F : RealFormat R) : Prepared.Value R → WireParam R
  | .nullValue => { t := asciiBytes "null", i := none, r := none, v := none }
  | .integer number => { t := asciiBytes "int", i := some number, r := none, v := none }
  | .real number => { t := asciiBytes "real", i := none, r := some (F.parse (F.print number)), v := none }
  | .text bytes => { t := asciiBytes "text", i := none, r := none, v := some bytes }
  | .blob bytes => { t := asciiBytes "blob", i := none, r := none, v := some (Base64.encode bytes) }

theorem jsonWireParam_wireParam (value : Prepared.Value R) :
    jsonWireParam F (wireParam F value) = some (parsedParam F value) := by
  cases value with
  | nullValue | real number | text bytes | blob bytes =>
    simp only [jsonWireParam, wireParam, tagObject, tagged, optionalField, parsedParam, asciiBytes,
      String.reduceToList]
    rfl
  | integer number =>
    simp only [jsonWireParam, wireParam, tagObject, tagged, optionalField, parsedParam, asciiBytes,
      String.reduceToList]
    show ((jsonInteger (.ofInt number.toInt)).map some).bind _ = _
    rw [jsonInteger_ofInt]
    rfl

theorem decodeWireParam_parsedParam {value : Prepared.Value R} (h : ¬value.IsReal) :
    decodeWireParam (parsedParam F value) = some value := by
  cases value with
  | nullValue => rfl
  | integer number =>
    simp only [decodeWireParam, parsedParam, asciiBytes, String.reduceToList]
    rfl
  | real number => exact absurd trivial h
  | text bytes =>
    simp only [decodeWireParam, parsedParam, asciiBytes, String.reduceToList]
    rfl
  | blob bytes =>
    simp only [decodeWireParam, parsedParam, asciiBytes, String.reduceToList, Option.bind_some,
      Base64.decode_encode]
    rfl

/-- **The parameters of a parsed request are the values it was built from.** -/
theorem decodeWireParams_parsedParam {values : List (Prepared.Value R)}
    (h : ∀ value ∈ values, ¬value.IsReal) : decodeWireParams (values.map (parsedParam F)) = some values :=
  mapM_map_eq_some fun value hvalue => decodeWireParam_parsedParam (h value hvalue)

theorem mapM_jsonWireParam (values : List (Prepared.Value R)) :
    (values.map (wireParam F)).mapM (jsonWireParam F) = some (values.map (parsedParam F)) := by
  induction values with
  | nil => rfl
  | cons value values ih =>
    rw [List.map_cons, List.mapM_cons, jsonWireParam_wireParam, ih]
    rfl

theorem mapM_jsonList (batch : List (List (Prepared.Value R))) :
    (batch.map fun values => Json.Value.array (values.map (wireParam F))).mapM (jsonList (jsonWireParam F)) =
      some (batch.map fun values => values.map (parsedParam F)) := by
  induction batch with
  | nil => rfl
  | cons values batch ih =>
    rw [List.map_cons, List.mapM_cons, ih, jsonList, mapM_jsonWireParam]
    rfl

theorem jsonU64_ofInt (n : UInt64) : jsonU64 (.number (.ofInt n.toNat)) = some n := by
  have hrange : 0 ≤ (n.toNat : ℤ) ∧ (n.toNat : ℤ) < (2 ^ 64 : ℕ) := by
    have := n.toNat_lt
    omega
  rw [jsonU64, jsonBelow, Json.integer_ofInt, Option.bind_eq_bind, Option.bind_some, if_pos hrange,
    Int.toNat_natCast, Option.map_some, UInt64.ofNat_toNat]

/-- The parameters of a parsed request, when it has some. -/
def parsedParams (F : RealFormat R) (values : List (Prepared.Value R)) : Option (List (WireParam R)) :=
  if values = [] then none else some (values.map (parsedParam F))

theorem decodeRequest_exec (sql : List UInt8) (values : List (Prepared.Value R)) (session sequence : UInt64) :
    decodeRequest F
      (tagged "op" (.string (asciiBytes "exec")) :: tagged "sql" (.string sql) ::
        tagged "format" (.string (asciiBytes "typed-v1")) :: (paramMembers F values ++
          [tagged "session" (.number (.ofInt session.toNat)),
            tagged "sequence" (.number (.ofInt sequence.toNat))])) =
      some { (Request.empty : Request R) with
        op := asciiBytes "exec", sql := some sql, format := some (asciiBytes "typed-v1"),
        params := parsedParams F values, session := some session, sequence := some sequence } := by
  have hsession := jsonU64_ofInt session
  have hsequence := jsonU64_ofInt sequence
  rw [paramMembers, parsedParams]
  by_cases hnil : values = []
  · rw [if_pos hnil, if_pos hnil]
    simp only [decodeRequest, defaultField, optionalField, tagged, asciiBytes, String.reduceToList]
    show ((jsonU64 _).map some).bind _ = _
    rw [hsession]
    show ((jsonU64 _).map some).bind _ = _
    rw [hsequence]
    rfl
  · have hparams := @mapM_jsonWireParam R F values
    rw [if_neg hnil, if_neg hnil]
    simp only [decodeRequest, defaultField, optionalField, tagged, asciiBytes, String.reduceToList]
    show ((jsonU64 _).map some).bind _ = _
    rw [hsession]
    show ((jsonU64 _).map some).bind _ = _
    rw [hsequence]
    show Option.bind (Option.map some (List.mapM _ _)) _ = _
    rw [hparams]
    rfl

theorem decodeRequest_execBatch (sql : List UInt8) (batch : List (List (Prepared.Value R)))
    (session sequence : UInt64) :
    decodeRequest F
      [tagged "op" (.string (asciiBytes "exec")), tagged "sql" (.string sql),
        tagged "format" (.string (asciiBytes "typed-v1")),
        tagged "param_batch" (.array (batch.map fun values => .array (values.map (wireParam F)))),
        tagged "session" (.number (.ofInt session.toNat)),
        tagged "sequence" (.number (.ofInt sequence.toNat))] =
      some { (Request.empty : Request R) with
        op := asciiBytes "exec", sql := some sql, format := some (asciiBytes "typed-v1"),
        paramBatch := some (batch.map fun values => values.map (parsedParam F)),
        session := some session, sequence := some sequence } := by
  have hsession := jsonU64_ofInt session
  have hsequence := jsonU64_ofInt sequence
  have hbatch := @mapM_jsonList R F batch
  simp only [decodeRequest, defaultField, optionalField, tagged, asciiBytes, String.reduceToList]
  show ((jsonU64 _).map some).bind _ = _
  rw [hsession]
  show ((jsonU64 _).map some).bind _ = _
  rw [hsequence]
  show Option.bind (Option.map some (List.mapM _ _)) _ = _
  rw [hbatch]
  rfl

theorem decodeRequest_query (sql : List UInt8) (values : List (Prepared.Value R)) (level : Level)
    (freshnessMs : Option UInt64) :
    decodeRequest F
      (tagged "op" (.string (asciiBytes "query")) :: tagged "sql" (.string sql) ::
        tagged "format" (.string (asciiBytes "typed-v1")) :: (paramMembers F values ++
          tagged "level" (.string (asciiBytes level.tagName)) :: freshnessMembers freshnessMs)) =
      some { (Request.empty : Request R) with
        op := asciiBytes "query", sql := some sql, format := some (asciiBytes "typed-v1"),
        params := parsedParams F values, level := some (asciiBytes level.tagName),
        freshnessMs := freshnessMs } := by
  rw [paramMembers, parsedParams]
  by_cases hnil : values = []
  · rw [if_pos hnil, if_pos hnil]
    cases freshnessMs with
    | none =>
      simp only [decodeRequest, defaultField, optionalField, freshnessMembers, tagged, asciiBytes,
        String.reduceToList]
      rfl
    | some maximum =>
      have hmaximum := jsonU64_ofInt maximum
      simp only [decodeRequest, defaultField, optionalField, freshnessMembers, tagged, asciiBytes,
        String.reduceToList]
      show ((jsonU64 _).map some).bind _ = _
      rw [hmaximum]
      rfl
  · have hparams := @mapM_jsonWireParam R F values
    rw [if_neg hnil, if_neg hnil]
    cases freshnessMs with
    | none =>
      simp only [decodeRequest, defaultField, optionalField, freshnessMembers, tagged, asciiBytes,
        String.reduceToList]
      show Option.bind (Option.map some (List.mapM _ _)) _ = _
      rw [hparams]
      rfl
    | some maximum =>
      have hmaximum := jsonU64_ofInt maximum
      simp only [decodeRequest, defaultField, optionalField, freshnessMembers, tagged, asciiBytes,
        String.reduceToList]
      show ((jsonU64 _).map some).bind _ = _
      rw [hmaximum]
      show Option.bind (Option.map some (List.mapM _ _)) _ = _
      rw [hparams]
      rfl

/-! ### Which of them are documents at all -/

theorem unicode_wireParam (F : RealFormat R) (value : Prepared.Value R) :
    (wireParam F value).unicode = value.unicode := by
  cases value with
  | nullValue | integer number | real number =>
    simp only [wireParam, tagObject, tagged, asciiBytes, String.reduceToList]
    rfl
  | text bytes => exact unicode_tagObject_string (by decide) (by decide) bytes
  | blob bytes =>
    rw [wireParam, unicode_tagObject_string (by decide) (by decide),
      accepts_plain (Base64.plain_encode bytes)]
    rfl

/-- Every text of a list of values is UTF-8. -/
def unicodeValues (values : List (Prepared.Value R)) : Bool :=
  values.all Prepared.Value.unicode

theorem unicode_params (F : RealFormat R) (values : List (Prepared.Value R)) :
    (Json.Value.array (values.map (wireParam F))).unicode = unicodeValues values := by
  rw [Json.Value.unicode, unicodeItems_map (wireParam F) Prepared.Value.unicode (unicode_wireParam F)]
  rfl

theorem accepts_names : ∀ name ∈ ["op", "sql", "format", "params", "param_batch", "session", "sequence",
    "level", "freshness_ms", "exec", "query", "typed-v1"],
    Json.Utf8.start.accepts (asciiBytes name) = true := by
  decide

theorem unicode_paramMembers (F : RealFormat R) (values : List (Prepared.Value R))
    (rest : List (List UInt8 × Json.Value)) :
    Json.unicodeMembers (paramMembers F values ++ rest) =
      (unicodeValues values && Json.unicodeMembers rest) := by
  have hname : Json.Utf8.start.accepts (asciiBytes "params") = true := accepts_names _ (by decide)
  rw [paramMembers]
  by_cases hnil : values = []
  · subst hnil
    rfl
  · rw [if_neg hnil, List.singleton_append, tagged, Json.unicodeMembers, hname, unicode_params, Bool.true_and]

theorem unicode_execDocument (F : RealFormat R) (sql : List UInt8) (values : List (Prepared.Value R))
    (session sequence : UInt64) :
    (execDocument F sql values session sequence).unicode =
      (Json.Utf8.start.accepts sql && unicodeValues values) := by
  have hnames := accepts_names
  simp only [List.forall_mem_cons] at hnames
  simp only [execDocument, tagged, Json.Value.unicode, Json.unicodeMembers, unicode_paramMembers, hnames,
    Bool.true_and, Bool.and_true]

theorem unicode_execBatchDocument (F : RealFormat R) (sql : List UInt8)
    (batch : List (List (Prepared.Value R))) (session sequence : UInt64) :
    (execBatchDocument F sql batch session sequence).unicode =
      (Json.Utf8.start.accepts sql && batch.all unicodeValues) := by
  have hnames := accepts_names
  have hbatch := unicodeItems_map _ _ (unicode_params F) batch
  simp only [List.forall_mem_cons] at hnames
  simp only [execBatchDocument, tagged, Json.Value.unicode, Json.unicodeMembers, hbatch, hnames,
    Bool.true_and, Bool.and_true]

theorem unicode_queryDocument (F : RealFormat R) (sql : List UInt8) (values : List (Prepared.Value R))
    (level : Level) (freshnessMs : Option UInt64) :
    (queryDocument F sql values level freshnessMs).unicode =
      (Json.Utf8.start.accepts sql && unicodeValues values) := by
  have hnames := accepts_names
  have hlevel := accepts_tagName level
  have hfreshness : Json.unicodeMembers (freshnessMembers freshnessMs) = true := by
    cases freshnessMs with
    | none => rfl
    | some maximum =>
      simp only [List.forall_mem_cons] at hnames
      simp only [freshnessMembers, tagged, Json.unicodeMembers, Json.Value.unicode, hnames, Bool.and_true]
  simp only [List.forall_mem_cons] at hnames
  simp only [queryDocument, tagged, Json.Value.unicode, Json.unicodeMembers, unicode_paramMembers, hnames,
    hlevel, hfreshness, Bool.true_and, Bool.and_true]

/-! ### Crossing -/

/-- The values `opExecTyped` and `opQuery` execute with. -/
def requestValues (request : Request R) : Option (List (Prepared.Value R)) :=
  decodeWireParams (request.params.getD [])

/-- The rows of values `opExecTypedBatch` executes with. -/
def requestBatch (request : Request R) : Option (List (List (Prepared.Value R))) :=
  (request.paramBatch.getD []).mapM decodeWireParams

/-- A written request is parsed, and `decode` finds in it what it was built from. -/
def RequestCrosses {α : Type} (F : RealFormat R) (built : Option (List UInt8))
    (decode : Request R → Option α) (sent : α) : Prop :=
  ∃ body request, built = some body ∧ parseRequest F body = some request ∧ decode request = some sent

/-- A written reply is a document, and the client finds in it the rows it was built from. -/
def ResponseCrosses (F : RealFormat R) (result : TypedResult R) (level : Level) : Prop :=
  (Json.parse (typedResponse F result level)).isSome ∧
    parseTypedQuery F (typedResponse F result level) = .ok result

theorem Prepared.Value.sendable_of_not_isReal {value : Prepared.Value R} (h : ¬value.IsReal) :
    value.Sendable F := by
  cases value with
  | real number => exact absurd trivial h
  | nullValue | integer number | text bytes | blob bytes => exact trivial

/-- A request crosses exactly when its document is UTF-8. -/
theorem requestCrosses_iff {α : Type} {document : Json.Value} {object : List (List UInt8 × Json.Value)}
    (hdocument : document = .object object) {request : Request R}
    (hdecode : decodeRequest F object = some request) {decode : Request R → Option α} {sent : α}
    (hsent : decode request = some sent) {built : Option (List UInt8)}
    (hbuilt : built = some (writeJson document)) :
    RequestCrosses F built decode sent ↔ document.unicode = true := by
  have hparse : parseRequest F (writeJson document) = if document.unicode then some request else none := by
    rw [parseRequest, Json.parse_write escapes_writeJsonByte]
    cases document.unicode with
    | false => rfl
    | true =>
      subst hdocument
      exact hdecode
  constructor
  · intro h
    obtain ⟨body, parsed, hbody, hparsed, -⟩ := h
    rw [hbuilt, Option.some.injEq] at hbody
    rw [← hbody, hparse] at hparsed
    by_contra hnot
    rw [if_neg hnot] at hparsed
    cases hparsed
  · intro h
    rw [if_pos h] at hparse
    exact ⟨_, request, hbuilt, hparse, hsent⟩

theorem requestValues_parsed {request : Request R} {values : List (Prepared.Value R)}
    (hparams : request.params = parsedParams F values) (h : ∀ value ∈ values, ¬value.IsReal) :
    requestValues request = some values := by
  rw [requestValues, hparams, parsedParams]
  by_cases hnil : values = []
  · subst hnil
    rfl
  · rw [if_neg hnil]
    exact decodeWireParams_parsedParam h

theorem requestBatch_parsed {request : Request R} {batch : List (List (Prepared.Value R))}
    (hbatch : request.paramBatch = some (batch.map fun values => values.map (parsedParam F)))
    (h : ∀ values ∈ batch, ∀ value ∈ values, ¬value.IsReal) : requestBatch request = some batch := by
  rw [requestBatch, hbatch]
  exact mapM_map_eq_some fun values hvalues => decodeWireParams_parsedParam (h values hvalues)

/-- **Values other than reals cross the wire exactly when the texts they travel with are UTF-8.** A reply
crosses when its texts and column names are, a request when its texts and its SQL are; otherwise the whole
document is refused. -/
theorem typed_values_cross (F : RealFormat R) :
    (∀ (result : TypedResult R) (level : Level), result.Wide →
      (∀ row ∈ result.rows, ∀ value ∈ row, ¬value.IsReal) →
      (ResponseCrosses F result level ↔ result.unicode = true)) ∧
    (∀ (sql : List UInt8) (values : List (Prepared.Value R)) (session sequence : UInt64),
      (∀ value ∈ values, ¬value.IsReal) →
      (RequestCrosses F (buildExecRequest F sql values session sequence) requestValues values ↔
        (Json.Utf8.start.accepts sql && unicodeValues values) = true)) ∧
    (∀ (sql : List UInt8) (batch : List (List (Prepared.Value R))) (session sequence : UInt64),
      (∀ values ∈ batch, ∀ value ∈ values, ¬value.IsReal) →
      (RequestCrosses F (buildExecBatchRequest F sql batch session sequence) requestBatch batch ↔
        (Json.Utf8.start.accepts sql && batch.all unicodeValues) = true)) ∧
    ∀ (sql : List UInt8) (values : List (Prepared.Value R)) (level : Level) (freshnessMs : Option UInt64),
      (∀ value ∈ values, ¬value.IsReal) →
      (RequestCrosses F (buildQueryRequest F sql values level freshnessMs) requestValues values ↔
        (Json.Utf8.start.accepts sql && unicodeValues values) = true) := by
  refine ⟨?_, ?_, ?_, ?_⟩
  · intro result level hwide hreal
    have hquery := parseTypedQuery_typedResponse F hwide hreal level
    have hparse : Json.parse (typedResponse F result level) =
        if result.unicode then some (typedDocument F result level) else none := by
      rw [typedResponse_eq, Json.parse_write escapes_writeJsonByte, unicode_typedDocument]
    rw [ResponseCrosses, hquery, hparse]
    cases result.unicode with
    | true => exact ⟨fun _ => rfl, fun _ => ⟨rfl, rfl⟩⟩
    | false => exact ⟨fun h => absurd h.1 Bool.false_ne_true, fun h => absurd h Bool.false_ne_true⟩
  · intro sql values session sequence hreal
    have hsend : ∀ value ∈ values, value.Sendable F := fun value hvalue =>
      Prepared.Value.sendable_of_not_isReal (hreal value hvalue)
    rw [← unicode_execDocument F sql values session sequence]
    exact requestCrosses_iff rfl (decodeRequest_exec sql values session sequence)
      (requestValues_parsed rfl hreal) (buildExecRequest_eq hsend sql session sequence)
  · intro sql batch session sequence hreal
    have hsend : ∀ values ∈ batch, ∀ value ∈ values, value.Sendable F := fun values hvalues value hvalue =>
      Prepared.Value.sendable_of_not_isReal (hreal values hvalues value hvalue)
    rw [← unicode_execBatchDocument F sql batch session sequence]
    exact requestCrosses_iff rfl (decodeRequest_execBatch sql batch session sequence)
      (requestBatch_parsed rfl hreal) (buildExecBatchRequest_eq hsend sql session sequence)
  · intro sql values level freshnessMs hreal
    have hsend : ∀ value ∈ values, value.Sendable F := fun value hvalue =>
      Prepared.Value.sendable_of_not_isReal (hreal value hvalue)
    rw [← unicode_queryDocument F sql values level freshnessMs]
    exact requestCrosses_iff rfl (decodeRequest_query sql values level freshnessMs)
      (requestValues_parsed rfl hreal) (buildQueryRequest_eq hsend sql level freshnessMs)

def wholeReals : RealFormat Int64 where
  isFinite _ := true
  print number := .ofInt number.toInt
  bits number := number.toBitVec.toNat
  ofBits bits := Int64.ofNat bits
  ofInteger number := number
  parse literal := (jsonInteger literal).getD 0

/-- One value of each kind, the text with a character of two bytes. -/
def sampleResult : TypedResult Int64 where
  columns := [asciiBytes "a", asciiBytes "b"]
  rows := [[.nullValue, .integer (-5)], [.text [195, 169, 10], .blob [0, 255]]]

theorem typed_values_cross_sample :
    ResponseCrosses wholeReals sampleResult .any ∧
      RequestCrosses wholeReals
        (buildExecRequest wholeReals (asciiBytes "q") [.text [195, 169], .blob [255]] 1 2) requestValues
        [.text [195, 169], .blob [255]] := by
  have h := typed_values_cross wholeReals
  constructor
  · refine (h.1 sampleResult .any ?_ ?_).2 (by decide)
    · show ∀ row ∈ sampleResult.rows, row.length = sampleResult.columns.length
      decide
    · simp only [sampleResult, List.forall_mem_cons, List.not_mem_nil, false_imp_iff, implies_true, and_true]
      exact ⟨⟨id, id⟩, id, id⟩
  · refine (h.2.1 _ _ 1 2 ?_).2 (by decide)
    simp only [List.forall_mem_cons, List.not_mem_nil, false_imp_iff, implies_true, and_true]
    exact ⟨id, id⟩

/-- **One text that is not UTF-8 takes the whole reply with it**: the client gets neither the text nor the
integer beside it. As a parameter it makes the request malformed. -/
theorem typed_values_lost :
    parseTypedQuery wholeReals
        (typedResponse wholeReals { columns := [[97], [98]], rows := [[.integer 7, .text [255]]] } .any) =
      .error .invalidResponse ∧
    ¬ResponseCrosses wholeReals { columns := [[97], [98]], rows := [[.integer 7, .text [255]]] } .any ∧
    ¬RequestCrosses wholeReals (buildExecRequest wholeReals [113] [.integer 7, .text [255]] 1 2)
      requestValues [.integer 7, .text [255]] := by
  have hresponse : Json.parse
      (typedResponse wholeReals { columns := [[97], [98]], rows := [[.integer 7, .text [255]]] } .any) =
        none := by
    rw [typedResponse_eq, Json.parse_write escapes_writeJsonByte, unicode_typedDocument]
    rfl
  refine ⟨?_, ?_, ?_⟩
  · rw [parseTypedQuery, hresponse]
  · intro h
    have hsome := h.1
    rw [hresponse] at hsome
    cases hsome
  · intro h
    obtain ⟨body, request, hbody, hrequest, -⟩ := h
    have hsend : ∀ value ∈ [Prepared.Value.integer 7, .text [255]], value.Sendable wholeReals := by
      simp only [List.forall_mem_cons, List.not_mem_nil, false_imp_iff, implies_true, and_true]
      exact ⟨trivial, trivial⟩
    have hparse (document : Json.Value) (hunicode : document.unicode = false) :
        parseRequest wholeReals (writeJson document) = none := by
      rw [parseRequest, Json.parse_write escapes_writeJsonByte, hunicode]
      rfl
    rw [buildExecRequest_eq hsend, Option.some.injEq] at hbody
    rw [← hbody, hparse _ (unicode_execDocument wholeReals _ _ _ _)] at hrequest
    cases hrequest

end Zaxonlite
