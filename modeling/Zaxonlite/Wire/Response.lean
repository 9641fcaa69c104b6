import Zaxonlite.Wire.Values

/-!
# Typed responses

The server answers a typed query with one document: the column names and, row by row, the cells. The
client parses it as a whole before it looks at any cell, so a string the parser refuses costs it every
row, not one cell.
-/

namespace Zaxonlite

variable {R : Type}

inductive Level where
  | any
  | leader
  | linearizable
  deriving DecidableEq

/-- `@tagName`. -/
def Level.tagName : Level → String
  | .any => "any"
  | .leader => "leader"
  | .linearizable => "linearizable"

/-- The rows of a query, with their column names. -/
structure TypedResult (R : Type) where
  columns : List (List UInt8)
  rows : List (List (Prepared.Value R))
  deriving DecidableEq

/-- SQLite hands out rows as wide as their column names. -/
def TypedResult.Wide (result : TypedResult R) : Prop :=
  ∀ row ∈ result.rows, row.length = result.columns.length

/-! ### Writing -/

/-- The typed reply of `runReadQuery`. -/
def typedResponse (F : RealFormat R) (result : TypedResult R) (level : Level) : List UInt8 :=
  asciiBytes "\x7b\"ok\":true,\"format\":\"typed-v1\",\"columns\":[" ++
    (commaSeparated writeJsonString result.columns ++
      (asciiBytes "],\"rows\":[" ++
        (commaSeparated
            (fun row => asciiBytes "[" ++ (commaSeparated (writeTypedCell F) row ++ asciiBytes "]"))
            result.rows ++
          (asciiBytes "],\"level\":\"" ++ (asciiBytes level.tagName ++ asciiBytes "\"\x7d")))))

def typedDocument (F : RealFormat R) (result : TypedResult R) (level : Level) : Json.Value :=
  .object
    [tagged "ok" (.bool true),
      tagged "format" (.string (asciiBytes "typed-v1")),
      tagged "columns" (.array (result.columns.map .string)),
      tagged "rows" (.array (result.rows.map fun row => .array (row.map (typedCell F)))),
      tagged "level" (.string (asciiBytes level.tagName))]

theorem accepts_tagName (level : Level) : Json.Utf8.start.accepts (asciiBytes level.tagName) = true := by
  cases level with
  | any => decide
  | leader => decide
  | linearizable => decide

theorem writeString_tagName (level : Level) :
    Json.writeString writeJsonByte (asciiBytes level.tagName) = 34 :: (asciiBytes level.tagName ++ [34]) := by
  cases level with
  | any => decide
  | leader => decide
  | linearizable => decide

theorem typedResponse_eq (F : RealFormat R) (result : TypedResult R) (level : Level) :
    typedResponse F result level = writeJson (typedDocument F result level) := by
  have hcolumns := writeItems_eq writeJsonString Json.Value.string result.columns fun _ _ => rfl
  have hrows := writeItems_eq
    (fun row => asciiBytes "[" ++ (commaSeparated (writeTypedCell F) row ++ asciiBytes "]"))
    (fun row => .array (row.map (typedCell F))) result.rows
    fun row _ => (writeJson_array (writeTypedCell F) (typedCell F) row
      fun cell _ => writeTypedCell_eq F cell).symm
  have hlevel := writeString_tagName level
  simp only [typedResponse, typedDocument, tagged, writeJson, Json.Value.write, Json.writeMembers, hcolumns,
    hrows, hlevel, List.append_assoc, List.cons_append, List.nil_append]
  simp only [asciiBytes, String.reduceToList]
  rfl

/-! ### Reading -/

/-- The errors of `parseTypedQuery`. -/
inductive QueryError where
  | invalidResponse
  /-- With the code and the message `recordServerError` keeps. -/
  | serverRejected (code message : List UInt8)
  deriving DecidableEq

/-- A number as `std.json` reads it into a 64-bit integer. -/
def jsonInteger (literal : Json.Literal) : Option Int64 := do
  let n ← literal.integer
  if -2 ^ 63 ≤ n ∧ n < 2 ^ 63 then some (Int64.ofInt n) else none

/-- A number as `std.json` reads it into a real: an integer out of range stays text, as does a float that
is not finite. -/
def jsonReal (F : RealFormat R) (literal : Json.Literal) : Option R :=
  match literal.integer with
  | some _ => (jsonInteger literal).map F.ofInteger
  | none => if F.isFinite (F.parse literal) then some (F.parse literal) else none

def decodeTypedCell (F : RealFormat R) : Json.Value → Option (Prepared.Value R)
  | .null => some .nullValue
  | .object object =>
    match object.lookup (asciiBytes "t") with
    | some (.string tag) =>
      if tag = asciiBytes "i" then
        match object.lookup (asciiBytes "i") with
        | some (.number literal) => (jsonInteger literal).map .integer
        | _ => none
      else if tag = asciiBytes "r" then
        match object.lookup (asciiBytes "r") with
        | some (.number literal) => (jsonReal F literal).map .real
        | some _ => none
        | none =>
          match object.lookup (asciiBytes "x") with
          | some (.string hex) =>
            if hex.length = 16 then
              (Hex.parseInt (2 ^ 64 - 1) hex).map fun bits => .real (F.ofBits bits.1)
            else none
          | _ => none
      else if tag = asciiBytes "t" then
        match object.lookup (asciiBytes "v") with
        | some (.string text) => some (.text text)
        | _ => none
      else if tag = asciiBytes "b" then
        match object.lookup (asciiBytes "v") with
        | some (.string encoded) => (Base64.decode encoded).map .blob
        | _ => none
      else none
    | _ => none
  | _ => none

def jsonArray : Option Json.Value → Option (List Json.Value)
  | some (.array items) => some items
  | _ => none

def jsonString : Json.Value → Option (List UInt8)
  | .string text => some text
  | _ => none

/-- The columns and rows of a reply that is not an error. -/
def decodeRows (F : RealFormat R) (object : List (List UInt8 × Json.Value)) : Option (TypedResult R) := do
  let rawColumns ← jsonArray (object.lookup (asciiBytes "columns"))
  let columns ← rawColumns.mapM jsonString
  let rawRows ← jsonArray (object.lookup (asciiBytes "rows"))
  let rows ← rawRows.mapM fun rawRow => do
    let rawCells ← jsonArray (some rawRow)
    if rawCells.length = columns.length then rawCells.mapM (decodeTypedCell F) else none
  pure { columns, rows }

/-- `recordServerError`: the code stands in for a missing message, both cut to their buffers. -/
def recordServerError (code : List UInt8) (message : Option (List UInt8)) : QueryError :=
  .serverRejected (code.take 64) ((message.getD code).take 256)

def parseTypedQuery (F : RealFormat R) (body : List UInt8) : Except QueryError (TypedResult R) :=
  match Json.parse body with
  | some (.object object) =>
    match object.lookup (asciiBytes "ok") with
    | none => .error .invalidResponse
    | some (.bool true) =>
      match decodeRows F object with
      | some result => .ok result
      | none => .error .invalidResponse
    | some _ =>
      match object.lookup (asciiBytes "error") with
      | some (.string code) =>
        .error (recordServerError code ((object.lookup (asciiBytes "message")).bind jsonString))
      | _ => .error .invalidResponse
  | _ => .error .invalidResponse

/-! ### What crosses -/

/-- Neither encoder carries a real as it is. -/
def Prepared.Value.IsReal : Prepared.Value R → Prop
  | .real _ => True
  | _ => False

def Prepared.Value.unicode : Prepared.Value R → Bool
  | .text bytes => Json.Utf8.start.accepts bytes
  | _ => true

/-- Every column name and every text is UTF-8. -/
def TypedResult.unicode (result : TypedResult R) : Bool :=
  result.columns.all Json.Utf8.start.accepts && result.rows.all fun row => row.all Prepared.Value.unicode

theorem jsonInteger_ofInt (number : Int64) : jsonInteger (.ofInt number.toInt) = some number := by
  have hrange : -2 ^ 63 ≤ number.toInt ∧ number.toInt < 2 ^ 63 :=
    ⟨Int64.le_toInt number, Int64.toInt_lt number⟩
  rw [jsonInteger, Json.integer_ofInt]
  show (if -2 ^ 63 ≤ number.toInt ∧ number.toInt < 2 ^ 63 then some (Int64.ofInt number.toInt) else none) = _
  rw [if_pos hrange, Int64.ofInt_toInt]

theorem decodeTypedCell_typedCell (F : RealFormat R) {value : Prepared.Value R} (h : ¬value.IsReal) :
    decodeTypedCell F (typedCell F value) = some value := by
  cases value with
  | nullValue => rfl
  | integer number =>
    simp only [decodeTypedCell, typedCell, tagObject, tagged, asciiBytes, String.reduceToList]
    show (jsonInteger (.ofInt number.toInt)).map Prepared.Value.integer = _
    rw [jsonInteger_ofInt]
    rfl
  | real number => exact absurd trivial h
  | text bytes =>
    simp only [decodeTypedCell, typedCell, tagObject, tagged, asciiBytes, String.reduceToList]
    rfl
  | blob bytes =>
    simp only [decodeTypedCell, typedCell, tagObject, tagged, asciiBytes, String.reduceToList]
    show (Base64.decode (Base64.encode bytes)).map Prepared.Value.blob = _
    rw [Base64.decode_encode]
    rfl

/-- The tag and the name of a field are ASCII, so the field alone decides. -/
theorem unicode_tagObject_string {tag name : String}
    (htag : Json.Utf8.start.accepts (asciiBytes tag) = true)
    (hname : Json.Utf8.start.accepts (asciiBytes name) = true) (text : List UInt8) :
    (tagObject tag [tagged name (.string text)]).unicode = Json.Utf8.start.accepts text := by
  have ht : Json.Utf8.start.accepts (asciiBytes "t") = true := by decide
  simp only [tagObject, tagged, Json.Value.unicode, Json.unicodeMembers, ht, htag, hname, Bool.true_and,
    Bool.and_true]

theorem unicode_typedCell (F : RealFormat R) (value : Prepared.Value R) :
    (typedCell F value).unicode = value.unicode := by
  cases value with
  | nullValue => rfl
  | integer number =>
    simp only [typedCell, tagObject, tagged, asciiBytes, String.reduceToList]
    rfl
  | real number =>
    rw [typedCell]
    split
    · simp only [tagObject, tagged, asciiBytes, String.reduceToList]
      rfl
    · rw [unicode_tagObject_string (by decide) (by decide), accepts_plain (plain_fixed 16 (F.bits number))]
      rfl
  | text bytes => exact unicode_tagObject_string (by decide) (by decide) bytes
  | blob bytes =>
    rw [typedCell, unicode_tagObject_string (by decide) (by decide),
      accepts_plain (Base64.plain_encode bytes)]
    rfl

/-- A list of documents is UTF-8 when what each stands for is. -/
theorem unicodeItems_map {α : Type} (document : α → Json.Value) (unicode : α → Bool)
    (h : ∀ item, (document item).unicode = unicode item) (items : List α) :
    Json.unicodeItems (items.map document) = items.all unicode := by
  induction items with
  | nil => rfl
  | cons item items ih => rw [List.map_cons, Json.unicodeItems, h, ih, List.all_cons]

theorem unicode_typedDocument (F : RealFormat R) (result : TypedResult R) (level : Level) :
    (typedDocument F result level).unicode = result.unicode := by
  have hcolumns := unicodeItems_map Json.Value.string Json.Utf8.start.accepts (fun _ => rfl) result.columns
  have hrow (row : List (Prepared.Value R)) :
      (Json.Value.array (row.map (typedCell F))).unicode = row.all Prepared.Value.unicode := by
    rw [Json.Value.unicode, unicodeItems_map (typedCell F) Prepared.Value.unicode (unicode_typedCell F)]
  have hrows := unicodeItems_map _ _ hrow result.rows
  have hname : ∀ name ∈ ["ok", "format", "columns", "rows", "level", "typed-v1"],
      Json.Utf8.start.accepts (asciiBytes name) = true := by
    decide
  have hlevel := accepts_tagName level
  simp only [List.forall_mem_cons] at hname
  simp only [typedDocument, tagged, Json.Value.unicode, Json.unicodeMembers, hcolumns, hrows, hlevel, hname,
    TypedResult.unicode, Bool.true_and, Bool.and_true]

theorem mapM_map_eq_some {α β : Type} {document : α → β} {decode : β → Option α} {items : List α}
    (h : ∀ item ∈ items, decode (document item) = some item) :
    (items.map document).mapM decode = some items := by
  induction items with
  | nil => rfl
  | cons item items ih =>
    obtain ⟨hitem, hitems⟩ := List.forall_mem_cons.1 h
    rw [List.map_cons, List.mapM_cons, hitem, ih hitems]
    rfl

/-- **A typed reply crosses as it is when its texts and names are UTF-8, and is lost when one is not.** -/
theorem parseTypedQuery_typedResponse (F : RealFormat R) {result : TypedResult R} (hwide : result.Wide)
    (hreal : ∀ row ∈ result.rows, ∀ value ∈ row, ¬value.IsReal) (level : Level) :
    parseTypedQuery F (typedResponse F result level) =
      if result.unicode then .ok result else .error .invalidResponse := by
  have hcolumns : (result.columns.map Json.Value.string).mapM jsonString = some result.columns :=
    mapM_map_eq_some fun _ _ => rfl
  have hrows : (result.rows.map fun row => Json.Value.array (row.map (typedCell F))).mapM (fun rawRow => do
      let rawCells ← jsonArray (some rawRow)
      if rawCells.length = result.columns.length then rawCells.mapM (decodeTypedCell F) else none) =
        some result.rows := by
    apply mapM_map_eq_some
    intro row hrow
    have hcells : (row.map (typedCell F)).mapM (decodeTypedCell F) = some row :=
      mapM_map_eq_some fun value hvalue => decodeTypedCell_typedCell F (hreal row hrow value hvalue)
    show (if (row.map (typedCell F)).length = result.columns.length then
      (row.map (typedCell F)).mapM (decodeTypedCell F) else none) = some row
    rw [List.length_map, if_pos (hwide row hrow), hcells]
  rw [typedResponse_eq, parseTypedQuery, Json.parse_write escapes_writeJsonByte, unicode_typedDocument]
  cases result.unicode with
  | false => rfl
  | true =>
    have hdecode : decodeRows F
        [tagged "ok" (.bool true), tagged "format" (.string (asciiBytes "typed-v1")),
          tagged "columns" (.array (result.columns.map .string)),
          tagged "rows" (.array (result.rows.map fun row => .array (row.map (typedCell F)))),
          tagged "level" (.string (asciiBytes level.tagName))] = some result := by
      simp only [decodeRows, tagged, asciiBytes, String.reduceToList]
      show ((result.columns.map Json.Value.string).mapM jsonString).bind _ = _
      rw [hcolumns]
      show Option.bind (List.mapM _ _) _ = _
      rw [hrows]
      rfl
    simp only [typedDocument, if_true, hdecode]
    simp only [tagged, asciiBytes, String.reduceToList]
    rfl

end Zaxonlite
