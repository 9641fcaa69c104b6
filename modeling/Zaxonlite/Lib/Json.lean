import Zaxonlite.Lib.Decimal

/-!
# JSON

Values, a writer and the RFC 8259 reader, both on bytes. The reader scans a string one byte at a time
and refuses the first byte that UTF-8 cannot hold there, an unescaped control character, an unknown
escape and a lone surrogate. The writer escapes a string byte by byte and looks at nothing else, so it
is read back exactly when the bytes it was given were UTF-8.
-/

namespace Json

/-! ### UTF-8 -/

/-- Where a reader of UTF-8 stands: between characters, or inside one with these bytes still to come. -/
inductive Utf8 where
  | start
  | tail1
  | tail2
  | tail3
  | afterE0
  | afterED
  | afterF0
  | afterF4
  deriving DecidableEq

namespace Utf8

/-- The first byte of a character. -/
def first (b : UInt8) : Option Utf8 :=
  if b ≤ 0x7F then some .start
  else if 0xC2 ≤ b ∧ b ≤ 0xDF then some .tail1
  else if b = 0xE0 then some .afterE0
  else if 0xE1 ≤ b ∧ b ≤ 0xEC ∨ 0xEE ≤ b ∧ b ≤ 0xEF then some .tail2
  else if b = 0xED then some .afterED
  else if b = 0xF0 then some .afterF0
  else if 0xF1 ≤ b ∧ b ≤ 0xF3 then some .tail3
  else if b = 0xF4 then some .afterF4
  else none

/-- A later byte of a character, in its range. -/
def within (low high b : UInt8) (next : Utf8) : Option Utf8 :=
  if low ≤ b ∧ b ≤ high then some next else none

def step : Utf8 → UInt8 → Option Utf8
  | .start, b => first b
  | .tail1, b => within 0x80 0xBF b .start
  | .tail2, b => within 0x80 0xBF b .tail1
  | .tail3, b => within 0x80 0xBF b .tail2
  | .afterE0, b => within 0xA0 0xBF b .tail1
  | .afterED, b => within 0x80 0x9F b .tail1
  | .afterF0, b => within 0x90 0xBF b .tail2
  | .afterF4, b => within 0x80 0x8F b .tail2

def accepts (state : Utf8) (text : List UInt8) : Bool :=
  text.foldlM step state = some .start

theorem accepts_nil (state : Utf8) : state.accepts [] = decide (state = .start) := by
  simp only [accepts, List.foldlM_nil, Option.pure_def, Option.some.injEq]

theorem accepts_cons (state : Utf8) (b : UInt8) (text : List UInt8) :
    state.accepts (b :: text) = (state.step b).elim false fun next => next.accepts text := by
  rw [accepts, List.foldlM_cons]
  cases state.step b with
  | none => rfl
  | some next => rfl

theorem step_ascii {b : UInt8} (h : b < 128) : Utf8.start.step b = some .start := by
  have hle : b ≤ 0x7F := by
    rw [UInt8.le_iff_toNat_le]
    rw [UInt8.lt_iff_toNat_lt] at h
    exact Nat.le_of_lt_succ h
  rw [step, first, if_pos hle]

theorem step_inside {state : Utf8} {b : UInt8} (hstate : state ≠ .start) (h : b < 128) :
    state.step b = none := by
  have hnot {low high : UInt8} {next : Utf8} (hlow : 128 ≤ low) : within low high b next = none := by
    rw [within, if_neg]
    intro hin
    rw [UInt8.lt_iff_toNat_lt] at h
    have hle := UInt8.le_iff_toNat_le.1 hin.1
    have hlow := UInt8.le_iff_toNat_le.1 hlow
    omega
  cases state with
  | start => exact absurd rfl hstate
  | tail1 | tail2 | tail3 | afterE0 | afterED | afterF0 | afterF4 => exact hnot (by decide)

theorem accepts_ascii {text : List UInt8} (h : ∀ b ∈ text, b < 128) : Utf8.start.accepts text = true := by
  induction text with
  | nil => rfl
  | cons b text ih =>
    obtain ⟨hb, htext⟩ := List.forall_mem_cons.1 h
    rw [accepts_cons, step_ascii hb]
    exact ih htext

end Utf8

/-! ### Numbers -/

/-- Where a reader of a number stands. -/
inductive NumberState where
  | start
  | minus
  | zero
  | integer
  | point
  | fraction
  | exponent
  | exponentSign
  | exponentDigits
  deriving DecidableEq

namespace NumberState

def Digit (b : UInt8) : Prop :=
  48 ≤ b ∧ b ≤ 57

instance (b : UInt8) : Decidable (Digit b) :=
  inferInstanceAs (Decidable (_ ∧ _))

/-- What may follow the integer part. -/
def afterInteger (b : UInt8) : Option NumberState :=
  if b = 46 then some .point else if b = 101 ∨ b = 69 then some .exponent else none

def step : NumberState → UInt8 → Option NumberState
  | .start, b =>
    if b = 45 then some .minus else if b = 48 then some .zero
    else if Digit b then some .integer else none
  | .minus, b => if b = 48 then some .zero else if Digit b then some .integer else none
  | .zero, b => afterInteger b
  | .integer, b => if Digit b then some .integer else afterInteger b
  | .point, b => if Digit b then some .fraction else none
  | .fraction, b =>
    if Digit b then some .fraction else if b = 101 ∨ b = 69 then some .exponent else none
  | .exponent, b =>
    if b = 43 ∨ b = 45 then some .exponentSign else if Digit b then some .exponentDigits else none
  | .exponentSign, b => if Digit b then some .exponentDigits else none
  | .exponentDigits, b => if Digit b then some .exponentDigits else none

def Final (state : NumberState) : Prop :=
  state = .zero ∨ state = .integer ∨ state = .fraction ∨ state = .exponentDigits

instance (state : NumberState) : Decidable state.Final :=
  inferInstanceAs (Decidable (_ ∨ _))

def accepts (state : NumberState) (text : List UInt8) : Bool :=
  (text.foldlM step state).any fun last => last.Final

end NumberState

/-- The characters of a number. -/
def numeric (b : UInt8) : Bool :=
  NumberState.Digit b ∨ b = 43 ∨ b = 45 ∨ b = 46 ∨ b = 69 ∨ b = 101

/-- The text of a number, as it stands in a document. -/
structure Literal where
  text : List UInt8
  valid : NumberState.start.accepts text = true
  deriving DecidableEq

/-- The integer a number stands for, when it is written as one. -/
def Literal.integer (literal : Literal) : Option ℤ :=
  if literal.text = [45, 48] ∨ literal.text.any (fun b => b = 46 ∨ b = 69 ∨ b = 101) then none
  else match literal.text with
    | 45 :: digits => some (-(Decimal.value digits : ℤ))
    | digits => some (Decimal.value digits)

/-! ### Values -/

/-- A document. Strings are the bytes after unescaping; a repeated name is left to who looks it up. -/
inductive Value where
  | null
  | bool (b : Bool)
  | number (literal : Literal)
  | string (text : List UInt8)
  | array (items : List Value)
  | object (members : List (List UInt8 × Value))

/-! ### Reading a string -/

/-- Where a reader of a string stands. -/
inductive Scan where
  | text (utf8 : Utf8)
  | backslash
  | digits (high : Option ℕ) (left value : ℕ)
  | surrogate (high : ℕ)
  | surrogateBackslash (high : ℕ)
  deriving DecidableEq

/-- The two-character escapes. -/
def unescape (b : UInt8) : Option UInt8 :=
  if b = 34 ∨ b = 92 ∨ b = 47 then some b
  else if b = 98 then some 8
  else if b = 102 then some 12
  else if b = 110 then some 10
  else if b = 114 then some 13
  else if b = 116 then some 9
  else none

/-- The bytes of a code point. -/
def encodeUtf8 (code : ℕ) : List UInt8 :=
  if code < 0x80 then [UInt8.ofNat code]
  else if code < 0x800 then [UInt8.ofNat (0xC0 + code / 64), UInt8.ofNat (0x80 + code % 64)]
  else if code < 0x10000 then
    [UInt8.ofNat (0xE0 + code / 4096), UInt8.ofNat (0x80 + code / 64 % 64), UInt8.ofNat (0x80 + code % 64)]
  else
    [UInt8.ofNat (0xF0 + code / 262144), UInt8.ofNat (0x80 + code / 4096 % 64),
      UInt8.ofNat (0x80 + code / 64 % 64), UInt8.ofNat (0x80 + code % 64)]

/-- Four hexadecimal digits have been read, alone or after a high surrogate. -/
def codeUnit (high : Option ℕ) (unit : ℕ) : Option (Scan × List UInt8) :=
  match high with
  | none =>
    if 0xD800 ≤ unit ∧ unit < 0xDC00 then some (.surrogate unit, [])
    else if 0xDC00 ≤ unit ∧ unit < 0xE000 then none
    else some (.text .start, encodeUtf8 unit)
  | some high =>
    if 0xDC00 ≤ unit ∧ unit < 0xE000 then
      some (.text .start, encodeUtf8 (0x10000 + (high - 0xD800) * 0x400 + (unit - 0xDC00)))
    else none

/-- One byte inside a string: the next state and the bytes it yields. The closing quote is not inside. -/
def Scan.step : Scan → UInt8 → Option (Scan × List UInt8)
  | .text utf8, b =>
    if b < 32 then none
    else if utf8 = .start ∧ b = 34 then none
    else if utf8 = .start ∧ b = 92 then some (.backslash, [])
    else (utf8.step b).map fun next => (.text next, [b])
  | .backslash, b =>
    if b = 117 then some (.digits none 4 0, [])
    else (unescape b).map fun c => (.text .start, [c])
  | .digits high left value, b => do
    let digit ← Hex.charToDigit b
    if left ≤ 1 then codeUnit high (16 * value + digit)
    else some (.digits high (left - 1) (16 * value + digit), [])
  | .surrogate high, b => if b = 92 then some (.surrogateBackslash high, []) else none
  | .surrogateBackslash high, b => if b = 117 then some (.digits (some high) 4 0, []) else none

/-- Several bytes inside a string. -/
def Scan.run : Scan → List UInt8 → Option (Scan × List UInt8)
  | state, [] => some (state, [])
  | state, b :: rest => do
    let (next, out) ← state.step b
    let (last, more) ← next.run rest
    pure (last, out ++ more)

/-- The rest of a string up to its closing quote, and what follows it. -/
def scanString : Scan → List UInt8 → Option (List UInt8 × List UInt8)
  | _, [] => none
  | state, b :: rest =>
    if state = .text .start ∧ b = 34 then some ([], rest)
    else do
      let (next, out) ← state.step b
      let (text, rest) ← scanString next rest
      pure (out ++ text, rest)

/-! ### Reading a value -/

/-- Insignificant whitespace. -/
def space (b : UInt8) : Bool :=
  b = 32 ∨ b = 9 ∨ b = 10 ∨ b = 13

def skipSpace (input : List UInt8) : List UInt8 :=
  input.dropWhile space

def keyword (name : List UInt8) (value : Value) (input : List UInt8) : Option (Value × List UInt8) :=
  if name.isPrefixOf input then some (value, input.drop name.length) else none

/-- A number takes every numeric character there is: none of them can follow it. -/
def parseNumber (input : List UInt8) : Option (Value × List UInt8) :=
  if h : NumberState.start.accepts (input.takeWhile numeric) = true then
    some (.number ⟨input.takeWhile numeric, h⟩, input.dropWhile numeric)
  else none

mutual

/-- A value, whitespace before it skipped. Each nested call has a byte less to read, or one level less. -/
def parseValue : ℕ → List UInt8 → Option (Value × List UInt8)
  | 0, _ => none
  | fuel + 1, input =>
    match skipSpace input with
    | 34 :: rest => do
      let (text, rest) ← scanString (.text .start) rest
      pure (.string text, rest)
    | 91 :: rest =>
      match skipSpace rest with
      | 93 :: rest => some (.array [], rest)
      | rest => do
        let (items, rest) ← parseItems fuel rest
        pure (.array items, rest)
    | 123 :: rest =>
      match skipSpace rest with
      | 125 :: rest => some (.object [], rest)
      | rest => do
        let (members, rest) ← parseMembers fuel rest
        pure (.object members, rest)
    | 116 :: rest => keyword [114, 117, 101] (.bool true) rest
    | 102 :: rest => keyword [97, 108, 115, 101] (.bool false) rest
    | 110 :: rest => keyword [117, 108, 108] .null rest
    | rest => parseNumber rest

/-- The items of an array, up to its closing bracket. -/
def parseItems : ℕ → List UInt8 → Option (List Value × List UInt8)
  | 0, _ => none
  | fuel + 1, input => do
    let (item, rest) ← parseValue fuel input
    match skipSpace rest with
    | 44 :: rest => do
      let (items, rest) ← parseItems fuel rest
      pure (item :: items, rest)
    | 93 :: rest => some ([item], rest)
    | _ => none

/-- The members of an object, up to its closing brace. -/
def parseMembers : ℕ → List UInt8 → Option (List (List UInt8 × Value) × List UInt8)
  | 0, _ => none
  | fuel + 1, input =>
    match skipSpace input with
    | 34 :: rest => do
      let (name, rest) ← scanString (.text .start) rest
      match skipSpace rest with
      | 58 :: rest => do
        let (item, rest) ← parseValue fuel rest
        match skipSpace rest with
        | 44 :: rest => do
          let (members, rest) ← parseMembers fuel rest
          pure ((name, item) :: members, rest)
        | 125 :: rest => some ([(name, item)], rest)
        | _ => none
      | _ => none
    | _ => none

end

/-- **The reader**: one value and nothing after it. -/
def parse (input : List UInt8) : Option Value := do
  let (value, rest) ← parseValue input.length input
  if skipSpace rest = [] then some value else none

/-! ### Writing -/

section Writer

variable (escape : UInt8 → List UInt8)

/-- An escaping that is undone by the reader, byte by byte: a byte stands for itself, or it is an ASCII
character and an escape sequence stands for it. -/
def Escapes : Prop :=
  ∀ b, (32 ≤ b ∧ b ≠ 34 ∧ b ≠ 92 ∧ escape b = [b]) ∨
    (b < 128 ∧ (escape b).head? = some 92 ∧
      (Scan.text .start).run (escape b) = some (.text .start, [b]))

/-- A string, escaped and quoted. -/
def writeString (text : List UInt8) : List UInt8 :=
  34 :: (text.flatMap escape ++ [34])

mutual

def Value.write : Value → List UInt8
  | .null => [110, 117, 108, 108]
  | .bool true => [116, 114, 117, 101]
  | .bool false => [102, 97, 108, 115, 101]
  | .number literal => literal.text
  | .string text => writeString escape text
  | .array items => 91 :: writeItems items
  | .object members => 123 :: writeMembers members

/-- The items of an array and its closing bracket. -/
def writeItems : List Value → List UInt8
  | [] => [93]
  | [item] => item.write ++ [93]
  | item :: next :: items => item.write ++ 44 :: writeItems (next :: items)

/-- The members of an object and its closing brace. -/
def writeMembers : List (List UInt8 × Value) → List UInt8
  | [] => [125]
  | [(name, item)] => writeString escape name ++ 58 :: (item.write ++ [125])
  | (name, item) :: next :: members =>
    writeString escape name ++ 58 :: (item.write ++ 44 :: writeMembers (next :: members))

end

end Writer

/-! ### What can be read back -/

mutual

def Value.unicode : Value → Bool
  | .string text => Utf8.start.accepts text
  | .array items => unicodeItems items
  | .object members => unicodeMembers members
  | _ => true

def unicodeItems : List Value → Bool
  | [] => true
  | item :: items => item.unicode && unicodeItems items

def unicodeMembers : List (List UInt8 × Value) → Bool
  | [] => true
  | (name, item) :: members => Utf8.start.accepts name && (item.unicode && unicodeMembers members)

end

mutual

/-- The nested calls it takes to read a value. -/
def Value.size : Value → ℕ
  | .array items => sizeItems items + 1
  | .object members => sizeMembers members + 1
  | _ => 1

def sizeItems : List Value → ℕ
  | [] => 0
  | item :: items => item.size + sizeItems items + 1

def sizeMembers : List (List UInt8 × Value) → ℕ
  | [] => 0
  | (_, item) :: members => item.size + sizeMembers members + 1

end

end Json
