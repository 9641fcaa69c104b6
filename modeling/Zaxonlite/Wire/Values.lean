import Zaxonlite.Command
import Zaxonlite.Lib.Base64
import Zaxonlite.Lib.JsonRoundTrip

/-!
# Typed values on the wire

A prepared value crosses the wire twice under two tag vocabularies: as a request parameter from the
client to the server, and as a result cell back. Both encoders are written by hand, byte by byte. Each of
their outputs is the text of a JSON document, which is how the parser on the other side sees it: a blob
travels as base64, a real that JSON has no number for as its bit pattern, and a text as the bytes it is.
-/

namespace Zaxonlite

/-- `prepared.Value`, over a type of reals. -/
inductive Prepared.Value (R : Type) where
  | nullValue
  | integer (number : Int64)
  | real (number : R)
  | text (bytes : List UInt8)
  | blob (bytes : List UInt8)
  deriving DecidableEq

/-- What the encoders and decoders use of the 64-bit reals: which are finite, the number a finite one is
printed as, the bit pattern, and the three ways back. -/
structure RealFormat (R : Type) where
  isFinite : R → Bool
  print : R → Json.Literal
  bits : R → ℕ
  ofBits : ℕ → R
  ofInteger : Int64 → R
  parse : Json.Literal → R

variable {R : Type}

/-! ### Strings -/

/-- One byte of `writeJsonString`. -/
def writeJsonByte (byte : UInt8) : List UInt8 :=
  if byte = 34 then asciiBytes "\\\""
  else if byte = 92 then asciiBytes "\\\\"
  else if byte = 10 then asciiBytes "\\n"
  else if byte = 13 then asciiBytes "\\r"
  else if byte = 9 then asciiBytes "\\t"
  else if byte < 32 then asciiBytes "\\u" ++ Hex.fixed 4 byte.toNat
  else [byte]

/-- `writeJsonString`. No byte from 128 on is looked at. -/
def writeJsonString (text : List UInt8) : List UInt8 :=
  asciiBytes "\"" ++ (text.flatMap writeJsonByte ++ asciiBytes "\"")

/-- A loop that writes a comma before every item but the first. -/
def commaSeparated {α : Type} (write : α → List UInt8) (items : List α) : List UInt8 :=
  (asciiBytes ",").intercalate (items.map write)

theorem writeJsonString_eq (text : List UInt8) :
    writeJsonString text = Json.writeString writeJsonByte text :=
  rfl

/-- **The escaper is undone by the parser**, byte by byte. -/
theorem escapes_writeJsonByte : Json.Escapes writeJsonByte := by
  have hcontrol : ∀ n < 32, (writeJsonByte (UInt8.ofNat n)).head? = some 92 ∧
      (Json.Scan.text .start).run (writeJsonByte (UInt8.ofNat n)) =
        some (.text .start, [UInt8.ofNat n]) := by
    decide
  intro b
  by_cases hquote : b = 34
  · subst hquote
    right
    decide
  by_cases hback : b = 92
  · subst hback
    right
    decide
  by_cases hlow : b < 32
  · have hn : b.toNat < 32 := UInt8.lt_iff_toNat_lt.1 hlow
    have := hcontrol b.toNat hn
    rw [UInt8.ofNat_toNat] at this
    exact .inr ⟨UInt8.lt_trans hlow (by decide), this⟩
  · have hne {c : UInt8} (hc : c < 32) : b ≠ c := by
      intro heq
      exact hlow (heq ▸ hc)
    left
    refine ⟨UInt8.not_lt.1 hlow, hquote, hback, ?_⟩
    rw [writeJsonByte, if_neg hquote, if_neg hback, if_neg (hne (by decide)), if_neg (hne (by decide)),
      if_neg (hne (by decide)), if_neg hlow]

theorem flatMap_writeJsonByte {text : List UInt8} (h : ∀ c ∈ text, Base64.Plain c) :
    text.flatMap writeJsonByte = text := by
  induction text with
  | nil => rfl
  | cons c text ih =>
    obtain ⟨⟨hlow, -, hquote, hback⟩, htext⟩ := List.forall_mem_cons.1 h
    have hnot : ¬c < 32 := UInt8.not_lt.2 hlow
    have hne {d : UInt8} (hd : d < 32) : c ≠ d := by
      intro heq
      exact hnot (heq ▸ hd)
    rw [List.flatMap_cons, ih htext, writeJsonByte, if_neg hquote, if_neg hback, if_neg (hne (by decide)),
      if_neg (hne (by decide)), if_neg (hne (by decide)), if_neg hnot]
    rfl

theorem accepts_plain {text : List UInt8} (h : ∀ c ∈ text, Base64.Plain c) :
    Json.Utf8.start.accepts text = true :=
  Json.Utf8.accepts_ascii fun c hc => (h c hc).2.1

theorem plain_fixed (width value : ℕ) : ∀ c ∈ Hex.fixed width value, Base64.Plain c := by
  have hdigit : ∀ n < 16, 32 ≤ Hex.digit n ∧ Hex.digit n < 128 ∧ Hex.digit n ≠ 34 ∧ Hex.digit n ≠ 92 := by
    decide
  intro c hc
  obtain ⟨n, hn, rfl⟩ := Hex.mem_fixed hc
  exact hdigit n hn

/-! ### Writing -/

/-- `writeTypedCell`: one cell of a result. -/
def writeTypedCell (F : RealFormat R) : Prepared.Value R → List UInt8
  | .nullValue => asciiBytes "null"
  | .integer number => asciiBytes "\x7b\"t\":\"i\",\"i\":" ++ Decimal.ofInt number.toInt ++ asciiBytes "\x7d"
  | .real number =>
    if F.isFinite number then
      asciiBytes "\x7b\"t\":\"r\",\"r\":" ++ (F.print number).text ++ asciiBytes "\x7d"
    else asciiBytes "\x7b\"t\":\"r\",\"x\":\"" ++ Hex.fixed 16 (F.bits number) ++ asciiBytes "\"\x7d"
  | .text bytes => asciiBytes "\x7b\"t\":\"t\",\"v\":" ++ writeJsonString bytes ++ asciiBytes "\x7d"
  | .blob bytes => asciiBytes "\x7b\"t\":\"b\",\"v\":\"" ++ Base64.encode bytes ++ asciiBytes "\"\x7d"

/-- One parameter of `writeParamArray`. A real that is not finite is refused. -/
def writeParam (F : RealFormat R) : Prepared.Value R → Option (List UInt8)
  | .nullValue => some (asciiBytes "\x7b\"t\":\"null\"\x7d")
  | .integer number =>
    some (asciiBytes "\x7b\"t\":\"int\",\"i\":" ++ Decimal.ofInt number.toInt ++ asciiBytes "\x7d")
  | .real number =>
    if F.isFinite number then
      some (asciiBytes "\x7b\"t\":\"real\",\"r\":" ++ (F.print number).text ++ asciiBytes "\x7d")
    else none
  | .text bytes =>
    some (asciiBytes "\x7b\"t\":\"text\",\"v\":" ++ writeJsonString bytes ++ asciiBytes "\x7d")
  | .blob bytes =>
    some (asciiBytes "\x7b\"t\":\"blob\",\"v\":\"" ++ Base64.encode bytes ++ asciiBytes "\"\x7d")

def writeParamArray (F : RealFormat R) (values : List (Prepared.Value R)) : Option (List UInt8) := do
  let params ← values.mapM (writeParam F)
  pure (asciiBytes "[" ++ commaSeparated id params ++ asciiBytes "]")

/-! ### The documents they write -/

def tagged (name : String) (value : Json.Value) : List UInt8 × Json.Value :=
  (asciiBytes name, value)

/-- A tagged value, with the fields that carry it. -/
def tagObject (tag : String) (fields : List (List UInt8 × Json.Value)) : Json.Value :=
  .object (tagged "t" (.string (asciiBytes tag)) :: fields)

/-- The document of a result cell. -/
def typedCell (F : RealFormat R) : Prepared.Value R → Json.Value
  | .nullValue => .null
  | .integer number => tagObject "i" [tagged "i" (.number (.ofInt number.toInt))]
  | .real number =>
    if F.isFinite number then tagObject "r" [tagged "r" (.number (F.print number))]
    else tagObject "r" [tagged "x" (.string (Hex.fixed 16 (F.bits number)))]
  | .text bytes => tagObject "t" [tagged "v" (.string bytes)]
  | .blob bytes => tagObject "b" [tagged "v" (.string (Base64.encode bytes))]

/-- The document of a parameter. -/
def wireParam (F : RealFormat R) : Prepared.Value R → Json.Value
  | .nullValue => tagObject "null" []
  | .integer number => tagObject "int" [tagged "i" (.number (.ofInt number.toInt))]
  | .real number => tagObject "real" [tagged "r" (.number (F.print number))]
  | .text bytes => tagObject "text" [tagged "v" (.string bytes)]
  | .blob bytes => tagObject "blob" [tagged "v" (.string (Base64.encode bytes))]

/-- The text of a document. -/
abbrev writeJson (value : Json.Value) : List UInt8 :=
  value.write writeJsonByte

/-- A tagged string in the document's own text. -/
theorem writeJson_tagObject_string (tag name : String) {text : List UInt8}
    (h : ∀ c ∈ text, Base64.Plain c) :
    writeJson (tagObject tag [tagged name (.string text)]) =
      [123, 34, 116, 34, 58] ++ (writeJsonString (asciiBytes tag) ++ ([44] ++
        (writeJsonString (asciiBytes name) ++ ([58, 34] ++ (text ++ [34, 125]))))) := by
  have hstring : Json.writeString writeJsonByte text = 34 :: (text ++ [34]) := by
    rw [Json.writeString, flatMap_writeJsonByte h]
  have htag : Json.writeString writeJsonByte (asciiBytes "t") = [34, 116, 34] := by
    decide
  simp only [writeJson, tagObject, tagged, Json.Value.write, Json.writeMembers, hstring, htag,
    writeJsonString_eq, List.cons_append, List.nil_append, List.append_assoc]

theorem writeTypedCell_eq (F : RealFormat R) (value : Prepared.Value R) :
    writeTypedCell F value = writeJson (typedCell F value) := by
  cases value with
  | nullValue => rfl
  | integer number =>
    simp only [writeTypedCell, typedCell, tagObject, tagged, asciiBytes, String.reduceToList, List.append_assoc]
    rfl
  | real number =>
    rw [writeTypedCell, typedCell]
    split
    · simp only [tagObject, tagged, asciiBytes, String.reduceToList, List.append_assoc]
      rfl
    · rw [writeJson_tagObject_string "r" "x" (plain_fixed 16 (F.bits number))]
      simp only [asciiBytes, String.reduceToList, List.append_assoc]
      rfl
  | text bytes =>
    simp only [writeTypedCell, typedCell, tagObject, tagged, asciiBytes, String.reduceToList, List.append_assoc]
    rfl
  | blob bytes =>
    rw [writeTypedCell, typedCell, writeJson_tagObject_string "b" "v" (Base64.plain_encode bytes)]
    simp only [asciiBytes, String.reduceToList, List.append_assoc]
    rfl

/-- A value `writeParamArray` does not refuse. -/
def Prepared.Value.Sendable (F : RealFormat R) : Prepared.Value R → Prop
  | .real number => F.isFinite number = true
  | _ => True

theorem writeParam_eq (F : RealFormat R) {value : Prepared.Value R} (h : value.Sendable F) :
    writeParam F value = some (writeJson (wireParam F value)) := by
  cases value with
  | nullValue =>
    simp only [writeParam, wireParam, tagObject, tagged, asciiBytes, String.reduceToList]
    rfl
  | integer number =>
    simp only [writeParam, wireParam, tagObject, tagged, asciiBytes, String.reduceToList, List.append_assoc]
    rfl
  | real number =>
    have hfinite : F.isFinite number = true := h
    rw [writeParam, if_pos hfinite, wireParam]
    simp only [tagObject, tagged, asciiBytes, String.reduceToList, List.append_assoc]
    rfl
  | text bytes =>
    simp only [writeParam, wireParam, tagObject, tagged, asciiBytes, String.reduceToList, List.append_assoc]
    rfl
  | blob bytes =>
    rw [writeParam, wireParam, writeJson_tagObject_string "blob" "v" (Base64.plain_encode bytes)]
    simp only [asciiBytes, String.reduceToList, List.append_assoc]
    rfl

theorem writeItems_eq {α : Type} (write : α → List UInt8) (document : α → Json.Value) (items : List α)
    (h : ∀ item ∈ items, write item = writeJson (document item)) :
    Json.writeItems writeJsonByte (items.map document) = commaSeparated write items ++ [93] := by
  induction items with
  | nil => rfl
  | cons item items ih =>
    obtain ⟨hitem, hitems⟩ := List.forall_mem_cons.1 h
    cases items with
    | nil =>
      rw [List.map_singleton, Json.writeItems, commaSeparated, List.map_singleton,
        List.intercalate_singleton, hitem]
    | cons next items =>
      have hcomma : commaSeparated write (item :: next :: items) =
          write item ++ 44 :: commaSeparated write (next :: items) := by
        rw [commaSeparated, List.map_cons, List.map_cons, List.intercalate_cons_cons, List.append_assoc]
        rfl
      rw [hcomma, List.append_assoc, List.cons_append, ← ih hitems, List.map_cons, List.map_cons,
        Json.writeItems, hitem]

/-- An array, written in a loop between its brackets. -/
theorem writeJson_array {α : Type} (write : α → List UInt8) (document : α → Json.Value) (items : List α)
    (h : ∀ item ∈ items, write item = writeJson (document item)) :
    writeJson (.array (items.map document)) =
      asciiBytes "[" ++ (commaSeparated write items ++ asciiBytes "]") := by
  rw [writeJson, Json.Value.write, writeItems_eq write document items h]
  rfl

theorem mapM_writeParam {F : RealFormat R} {values : List (Prepared.Value R)}
    (h : ∀ value ∈ values, value.Sendable F) :
    values.mapM (writeParam F) = some (values.map fun value => writeJson (wireParam F value)) := by
  induction values with
  | nil => rfl
  | cons value values ih =>
    obtain ⟨hvalue, hvalues⟩ := List.forall_mem_cons.1 h
    rw [List.mapM_cons, writeParam_eq F hvalue, ih hvalues]
    rfl

/-- **The parameters are written as one array.** -/
theorem writeParamArray_eq {F : RealFormat R} {values : List (Prepared.Value R)}
    (h : ∀ value ∈ values, value.Sendable F) :
    writeParamArray F values = some (writeJson (.array (values.map (wireParam F)))) := by
  have hloop : commaSeparated id (values.map fun value => writeJson (wireParam F value)) =
      commaSeparated (fun value => writeJson (wireParam F value)) values := by
    rw [commaSeparated, commaSeparated, List.map_id]
  rw [writeParamArray, mapM_writeParam h, writeJson_array _ (wireParam F) values fun _ _ => rfl, ← hloop,
    ← List.append_assoc]
  rfl

end Zaxonlite
