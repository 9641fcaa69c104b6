import Zaxonlite.Command
import Zaxonlite.Lib.Checked
import Zaxonlite.Lib.Json
import Zaxonlite.Registry.Members

/-!
# Remote DSNs

`_parse_remote_dsn` takes a `zxlite://` address apart: seeds in front of the question mark or as options
behind it, each percent-encoded. The seeds it returns go to the native client as C strings and are parsed
there again. What Python's own `isdigit` and `int` make of digits outside ASCII is left to a table.
-/

namespace Zaxonlite

namespace Dsn

open Checked (require)

/-- A Python string, as its code points. -/
abbrev Text := List ℕ

def text (s : String) : Text :=
  s.toList.map Char.toNat

/-! ### Python -/

/-- What the interpreter brings: the Unicode tables behind `isdigit` and `int`, the limit on the digits of
an integer, and the platform. -/
structure Python where
  isDigit : ℕ → Bool
  decimal : ℕ → Option ℕ
  isDigit_of_decimal : ∀ c n, decimal c = some n → isDigit c = true
  isDigit_ascii : ∀ c < 128, isDigit c = true → 48 ≤ c ∧ c ≤ 57
  decimal_ascii : ∀ c, 48 ≤ c → c ≤ 57 → decimal c = some (c - 48)
  maxStrDigits : Option ℕ
  windows : Bool

def Python.isdigit (py : Python) (value : Text) : Bool :=
  value ≠ [] && value.all py.isDigit

/-- One more digit of an integer. -/
def Python.digit (py : Python) (acc c : ℕ) : Option ℕ :=
  (py.decimal c).map (10 * acc + ·)

/-- `int` of a text of digits; nothing where it raises `ValueError`. -/
def Python.int (py : Python) (value : Text) : Option ℕ :=
  if ∃ limit, py.maxStrDigits = some limit ∧ limit < value.length then none
  else value.foldlM py.digit 0

instance (py : Python) (value : Text) :
    Decidable (∃ limit, py.maxStrDigits = some limit ∧ limit < value.length) :=
  match h : py.maxStrDigits with
  | none => isFalse (by rintro ⟨limit, heq, -⟩; cases heq)
  | some limit => decidable_of_iff (limit < value.length) (by simp)

/-- `str.partition` at a character: what is before and what is behind the first one. -/
def partition (c : ℕ) (value : Text) : Text × Option Text :=
  match value.dropWhile (· ≠ c) with
  | [] => (value, none)
  | _ :: rest => (value.takeWhile (· ≠ c), some rest)

/-- `str.rpartition` at a character: what is before and what is behind the last one. -/
def rpartition (c : ℕ) (value : Text) : Option (Text × Text) :=
  match partition c value.reverse with
  | (_, none) => none
  | (back, some front) => some (front.reverse, back.reverse)

/-! ### Percent decoding -/

/-- The value of a hexadecimal digit. -/
def hexDigit (c : ℕ) : Option ℕ :=
  if 48 ≤ c ∧ c ≤ 57 then some (c - 48)
  else if 65 ≤ c ∧ c ≤ 70 then some (c - 55)
  else if 97 ≤ c ∧ c ≤ 102 then some (c - 87)
  else none

/-- Every percent sign is followed by two hexadecimal digits. -/
def wellEscaped : Text → Bool
  | [] => true
  | c :: rest =>
    (c ≠ 37 || (rest.take 2).length = 2 && (rest.take 2).all fun digit => (hexDigit digit).isSome) &&
      wellEscaped rest

/-- `unquote_to_bytes` of ASCII characters. -/
def unquoteToBytes : Text → List UInt8
  | [] => []
  | 37 :: a :: b :: rest =>
    match hexDigit a, hexDigit b with
    | some high, some low => UInt8.ofNat (16 * high + low) :: unquoteToBytes rest
    | _, _ => 37 :: unquoteToBytes (a :: b :: rest)
  | c :: rest => UInt8.ofNat c :: unquoteToBytes rest

/-- What the first byte of a character says of its code point. -/
def leadBits (byte : UInt8) : ℕ :=
  if byte < 0x80 then byte.toNat
  else if byte < 0xE0 then byte.toNat - 0xC0
  else if byte < 0xF0 then byte.toNat - 0xE0
  else byte.toNat - 0xF0

/-- Strict UTF-8 decoding, from inside a character of which `acc` is read. -/
def decodeUtf8From (state : Json.Utf8) (acc : ℕ) : List UInt8 → Option Text
  | [] => if state = .start then some [] else none
  | byte :: rest => do
    let next ← state.step byte
    let code := if state = .start then leadBits byte else 64 * acc + byte.toNat % 64
    if next = .start then (decodeUtf8From .start 0 rest).map (code :: ·)
    else decodeUtf8From next code rest

/-- `unquote` with strict errors; nothing where it raises `UnicodeDecodeError`. Runs of ASCII characters are
decoded, and the characters between them stay. -/
def unquote (value : Text) : Option Text :=
  if 37 ∉ value then some value
  else do
    let runs ← (value.splitBy fun a b => decide (a < 128) == decide (b < 128)).mapM fun run =>
      if run.all (· < 128) then decodeUtf8From .start 0 (unquoteToBytes run) else some run
    some runs.flatten

/-! ### Errors -/

inductive Refusal where
  | fragment
  | path
  | userinfo
  | emptyOption
  | missingValue (key : Text)
  | percentEncoding (option : Option Text)
  | seedWithAuthority
  | duplicateOption (key : Text)
  | unknownOption (key : Text)
  | noSeed
  | tooManySeeds
  | repeatedSeed
  | unixInAuthority
  | unixNotAlone
  | unixRelative (endpoint : Text)
  | unixNul
  | ipv6Syntax (seed : Text)
  | hostPortSyntax (seed : Text)
  | emptyHost (seed : Text)
  | invalidPort (seed : Text)
  | readLevel
  | readPolicy
  | notUnsigned (name : Text)
  deriving DecidableEq

/-- The exceptions that parsing can end in. -/
inductive PyError where
  | programmingError (refusal : Refusal)
  /-- A unix endpoint on Windows. -/
  | notSupportedError
  | unicodeDecodeError
  | valueError
  deriving DecidableEq

/-- The exceptions of the driver itself. -/
def PyError.Own : PyError → Prop
  | .programmingError _ => True
  | .notSupportedError => True
  | .unicodeDecodeError => False
  | .valueError => False

instance : DecidablePred PyError.Own
  | .programmingError _ => isTrue trivial
  | .notSupportedError => isTrue trivial
  | .unicodeDecodeError => isFalse not_false
  | .valueError => isFalse not_false

/-- `raise ProgrammingError` unless a condition holds. -/
def demand (refusal : Refusal) (c : Prop) [Decidable c] : Except PyError Unit :=
  require (.programmingError refusal) c

/-! ### Parts -/

/-- `_strict_unquote`, of the option of a name or of a seed. -/
def strictUnquote (value : Text) (option : Option Text) : Except PyError Text := do
  demand (.percentEncoding option) (wellEscaped value)
  match unquote value with
  | none => .error .unicodeDecodeError
  | some decoded => .ok decoded

/-- The host and the port text of a seed. -/
def splitSeed (seed : Text) : Except PyError (Text × Text) :=
  if seed.head? = some 91 then
    match partition 93 (seed.drop 1) with
    | (host, some (58 :: portText)) => .ok (host, portText)
    | _ => .error (.programmingError (.ipv6Syntax seed))
  else
    match rpartition 58 seed with
    | none => .error (.programmingError (.hostPortSyntax seed))
    | some (host, portText) =>
      if 58 ∈ host then .error (.programmingError (.hostPortSyntax seed)) else .ok (host, portText)

/-- `int`, with its exception. -/
def Python.toInt (py : Python) (value : Text) : Except PyError ℕ :=
  match py.int value with
  | none => .error .valueError
  | some n => .ok n

/-- The host and the port that `_validate_tcp_seed` reads from a seed it accepts. -/
def readTcpSeed (py : Python) (seed : Text) : Except PyError (Text × ℕ) := do
  let (host, portText) ← splitSeed seed
  demand (.emptyHost seed) (host ≠ [])
  demand (.invalidPort seed) (py.isdigit portText)
  let port ← py.toInt portText
  demand (.invalidPort seed) (1 ≤ port ∧ port ≤ 65535)
  .ok (host, port)

def validateTcpSeed (py : Python) (seed : Text) : Except PyError Text := do
  let _ ← readTcpSeed py seed
  .ok seed

def unixPrefix : Text := text "unix:"

def IsUnix (seed : Text) : Prop :=
  unixPrefix <+: seed

instance (seed : Text) : Decidable (IsUnix seed) :=
  inferInstanceAs (Decidable (unixPrefix <+: seed))

def validateUnixEndpoint (py : Python) (endpoint : Text) : Except PyError Text := do
  let path := endpoint.drop unixPrefix.length
  require .notSupportedError (py.windows = false)
  demand (.unixRelative endpoint) (path.head? = some 47)
  demand .unixNul (0 ∉ path)
  .ok endpoint

def parseUnsigned (py : Python) (value name : Text) : Except PyError ℕ := do
  demand (.notUnsigned name) (py.isdigit value)
  py.toInt value

/-! ### The DSN -/

def singletonOptions : List Text :=
  ["read_level", "read_policy", "freshness_ms", "pool_size", "connect_timeout_ms", "operation_timeout_ms",
    "expected_database_id"].map text

def readLevels : List Text := ["any", "leader", "linearizable"].map text

def readPolicies : List Text := ["least_in_flight", "round_robin"].map text

def unsignedOptions : List Text :=
  ["freshness_ms", "pool_size", "connect_timeout_ms", "operation_timeout_ms"].map text

/-- A dictionary of strings. -/
abbrev Options := List (Text × Text)

structure Parsed where
  seeds : List Text
  readLevel : Option Text
  readPolicy : Option Text
  /-- The unsigned options that are given, by their names. -/
  numbers : List (Text × ℕ)
  expectedDatabaseId : Option Text
  deriving DecidableEq

/-- The authority and the query of a DSN. -/
def splitDsn (dsn : Text) : Except PyError (Text × Text) := do
  demand .fragment (35 ∉ dsn)
  let (authority, query) := partition 63 (dsn.drop (text "zxlite://").length)
  let authority := if authority.getLast? = some 47 then authority.dropLast else authority
  demand .path (47 ∉ authority)
  demand .userinfo (64 ∉ authority)
  .ok (authority, query.getD [])

/-- One turn of the loop over the options: the options and the seeds so far. -/
def readPair (authority : Text) (state : Options × List Text) (pair : Text) :
    Except PyError (Options × List Text) := do
  demand .emptyOption (pair ≠ [])
  let (key, raw) := partition 61 pair
  demand (.missingValue key) raw.isSome
  let value ← strictUnquote (raw.getD []) (some key)
  if key = text "seed" then
    demand .seedWithAuthority (authority = [])
    .ok (state.1, state.2 ++ [value])
  else if key ∈ singletonOptions then
    demand (.duplicateOption key) (state.1.lookup key = none)
    .ok ((key, value) :: state.1, state.2)
  else .error (.programmingError (.unknownOption key))

def readPairs (authority query : Text) : Except PyError (Options × List Text) :=
  if query = [] then .ok ([], []) else (query.splitOn 38).foldlM (readPair authority) ([], [])

def readSeeds (authority : Text) (querySeeds : List Text) : Except PyError (List Text) :=
  if authority = [] then .ok querySeeds
  else (authority.splitOn 44).mapM fun seed => strictUnquote seed none

def checkSeeds (seeds : List Text) : Except PyError Unit := do
  demand .noSeed (seeds ≠ [] ∧ [] ∉ seeds)
  demand .tooManySeeds (seeds.length ≤ 36)
  demand .repeatedSeed seeds.Nodup

def validateSeeds (py : Python) (authority : Text) (seeds : List Text) : Except PyError Unit :=
  if ∃ seed ∈ seeds, IsUnix seed then do
    demand .unixInAuthority (authority = [])
    demand .unixNotAlone (seeds.length = 1)
    let _ ← validateUnixEndpoint py (seeds.headD [])
    .ok ()
  else do
    let _ ← seeds.mapM (validateTcpSeed py)
    .ok ()

/-- The number of an option, if it is given. -/
def unsignedOption (py : Python) (options : Options) (name : Text) : Except PyError (Option (Text × ℕ)) :=
  match options.lookup name with
  | none => .ok none
  | some value => do
    let n ← parseUnsigned py value name
    .ok (some (name, n))

def readOptions (py : Python) (seeds : List Text) (options : Options) : Except PyError Parsed := do
  let level := options.lookup (text "read_level")
  demand .readLevel (∀ given ∈ level, given ∈ readLevels)
  let policy := options.lookup (text "read_policy")
  demand .readPolicy (∀ given ∈ policy, given ∈ readPolicies)
  let numbers ← unsignedOptions.mapM (unsignedOption py options)
  .ok ⟨seeds, level, policy, numbers.reduceOption, options.lookup (text "expected_database_id")⟩

/-- What is read before the seeds are looked at: the authority, the options and the decoded seeds. -/
def gather (dsn : Text) : Except PyError (Text × Options × List Text) := do
  let (authority, query) ← splitDsn dsn
  let (options, querySeeds) ← readPairs authority query
  let seeds ← readSeeds authority querySeeds
  checkSeeds seeds
  .ok (authority, options, seeds)

def parseRemoteDsn (py : Python) (dsn : Text) : Except PyError Parsed := do
  let (authority, options, seeds) ← gather dsn
  validateSeeds py authority seeds
  readOptions py seeds options

/-! ### The native client -/

/-- The code points that UTF-8 has bytes for. -/
def Encodable (c : ℕ) : Prop :=
  c < 0xD800 ∨ 0xE000 ≤ c ∧ c < 0x110000

instance (c : ℕ) : Decidable (Encodable c) :=
  inferInstanceAs (Decidable (_ ∨ _))

/-- A seed as the native client gets it: its UTF-8 as a C string, which ends at the first NUL. -/
def heard (seed : Text) : Option (List UInt8) :=
  if ∀ c ∈ seed, Encodable c then some ((seed.flatMap Json.encodeUtf8).takeWhile (· ≠ 0)) else none

structure Endpoint where
  host : List UInt8
  port : ℕ
  unixPath : Option (List UInt8)
  deriving DecidableEq

def Endpoint.parse (endpoint : List UInt8) : Option Endpoint :=
  match endpoint.dropPrefix? (asciiBytes "unix:") with
  | some path => if path.length = 0 then none else some ⟨path, 0, some path⟩
  | none => do
    let (host, portText) ← splitLast 58 endpoint
    let port ← Decimal.parseInt 65535 portText
    if host.length = 0 then none else some ⟨host, port, none⟩

end Dsn

end Zaxonlite
