import Zaxonlite.Command

/-!
# The shell's tokenizer

The shell cuts what was typed into spans, and decides from the spans whether the statement is complete: the
last one that counts has to be a semicolon, and no quote or block comment may be open. A span does not say
whether its quote or its comment was closed. That is worked out again from the bytes of the span.
-/

namespace Zaxonlite

namespace Shell

inductive Kind where
  | text
  | keyword
  | identifier
  | string
  | number
  | comment
  | operator
  | dot
  deriving DecidableEq, Repr

structure Span where
  start : ℕ
  len : ℕ
  kind : Kind
  deriving DecidableEq, Repr

def Span.bytes (span : Span) (source : List UInt8) : List UInt8 :=
  (source.drop span.start).take span.len

/-! ### Bytes -/

def isDigit (byte : UInt8) : Bool :=
  48 ≤ byte && byte ≤ 57

def isUpper (byte : UInt8) : Bool :=
  65 ≤ byte && byte ≤ 90

def isAlphabetic (byte : UInt8) : Bool :=
  97 ≤ byte && byte ≤ 122 || isUpper byte

def isHex (byte : UInt8) : Bool :=
  isDigit byte || 97 ≤ byte && byte ≤ 102 || 65 ≤ byte && byte ≤ 70

/-- A space, a tab, a line feed, a carriage return, a vertical tab or a form feed. -/
def isWhitespace (byte : UInt8) : Bool :=
  byte = 32 || 9 ≤ byte && byte ≤ 13

def toLower (byte : UInt8) : UInt8 :=
  if isUpper byte then byte + 32 else byte

def isIdentifierStart (byte : UInt8) : Bool :=
  isAlphabetic byte || byte = 95 || byte ≥ 0x80

def isIdentifierByte (byte : UInt8) : Bool :=
  isAlphabetic byte || isDigit byte || byte = 95 || byte = 36 || byte ≥ 0x80

/-! ### Keywords -/

def keywords : List String :=
  ["abort", "action", "add", "after", "all", "alter", "always", "analyze", "and", "as", "asc",
   "attach", "autoincrement", "before", "begin", "between", "by", "cascade", "case", "cast",
   "check", "collate", "column", "commit", "conflict", "constraint", "create", "cross", "current",
   "current_date", "current_time", "current_timestamp", "database", "default", "deferrable",
   "deferred", "delete", "desc", "detach", "distinct", "do", "drop", "each", "else", "end",
   "escape", "except", "exclude", "exclusive", "exists", "explain", "fail", "filter", "first",
   "following", "for", "foreign", "from", "full", "generated", "glob", "group", "groups", "having",
   "if", "ignore", "immediate", "in", "index", "indexed", "initially", "inner", "insert", "instead",
   "intersect", "into", "is", "isnull", "join", "key", "last", "left", "like", "limit", "match",
   "materialized", "natural", "no", "not", "nothing", "notnull", "null", "nulls", "of", "offset",
   "on", "or", "order", "others", "outer", "over", "partition", "plan", "pragma", "preceding",
   "primary", "query", "raise", "range", "recursive", "references", "regexp", "reindex", "release",
   "rename", "replace", "restrict", "returning", "right", "rollback", "row", "rows", "savepoint",
   "select", "set", "table", "temp", "temporary", "then", "ties", "to", "transaction", "trigger",
   "unbounded", "union", "unique", "update", "using", "vacuum", "values", "view", "virtual", "when",
   "where", "window", "with", "without"]

def longestKeyword : ℕ :=
  (keywords.map String.length).foldl max 0

def isKeyword (token : List UInt8) : Bool :=
  token.length ≤ longestKeyword && (keywords.map asciiBytes).contains (token.map toLower)

/-! ### Where a token ends

Each of these takes the source from the start of the token on, and returns the length of the token. -/

def untilLineEnd (text : List UInt8) : ℕ :=
  (text.takeWhile (· ≠ 10)).length

/-- The loop of `untilBlockEnd`, behind the two bytes that open the comment. -/
def blockEnd : List UInt8 → ℕ
  | [] => 0
  | byte :: rest => if byte = 42 ∧ rest.head? = some 47 then 2 else 1 + blockEnd rest

def untilBlockEnd (text : List UInt8) : ℕ :=
  2 + blockEnd (text.drop 2)

/-- The loop of `untilQuoteEnd`, behind the opening quote. -/
def quoteEnd (quote : UInt8) : List UInt8 → ℕ
  | [] => 0
  | byte :: rest =>
    if byte ≠ quote then 1 + quoteEnd quote rest
    else match rest with
      -- A doubled quote is an escaped quote inside the literal.
      | next :: rest => if next = quote then 2 + quoteEnd quote rest else 1
      | [] => 1

def untilQuoteEnd (text : List UInt8) (quote : UInt8) : ℕ :=
  1 + quoteEnd quote (text.drop 1)

/-- `untilByte`, from the byte it is called at. -/
def untilByte (target : UInt8) : List UInt8 → ℕ
  | [] => 0
  | byte :: rest => if byte = target then 1 else 1 + untilByte target rest

/-- A byte that a number may hold wherever it stands. -/
def isNumeric (byte : UInt8) : Bool :=
  isHex byte || byte = 46 || byte = 120 || byte = 88

/-- A sign straight behind an `e` or `E` of the number. -/
def isExponentSign (before : Option UInt8) (byte : UInt8) : Bool :=
  (byte = 43 || byte = 45) && (before = some 101 || before = some 69)

/-- The loop of `untilNumberEnd`; `before` is the byte of the number that was read last. -/
def numberEnd (before : Option UInt8) : List UInt8 → ℕ
  | [] => 0
  | byte :: rest =>
    if isNumeric byte || isExponentSign before byte then 1 + numberEnd (some byte) rest else 0

def untilNumberEnd (text : List UInt8) : ℕ :=
  numberEnd none text

def untilIdentifierEnd (text : List UInt8) : ℕ :=
  (text.takeWhile isIdentifierByte).length

/-! ### The tokenizer -/

structure Tokenizer where
  source : List UInt8
  position : ℕ

def Tokenizer.init (source : List UInt8) : Tokenizer :=
  ⟨source, 0⟩

/-- The kind and the length of the token at the start of a text that is not a dot command. -/
def token (text : List UInt8) (byte : UInt8) (next : Option UInt8) : Kind × ℕ :=
  if byte = 45 ∧ next = some 45 then (.comment, untilLineEnd text)
  else if byte = 47 ∧ next = some 42 then (.comment, untilBlockEnd text)
  else if byte = 39 then (.string, untilQuoteEnd text 39)
  else if byte = 34 ∨ byte = 96 then (.identifier, untilQuoteEnd text byte)
  else if byte = 91 then (.identifier, 1 + untilByte 93 (text.drop 1))
  else if isDigit byte then (.number, untilNumberEnd text)
  else if isIdentifierStart byte then
    let len := untilIdentifierEnd text
    (if isKeyword (text.take len) then .keyword else .identifier, len)
  else if isWhitespace byte then (.text, (text.takeWhile isWhitespace).length)
  else (.operator, 1)

def Tokenizer.next (tokenizer : Tokenizer) : Option (Span × Tokenizer) :=
  match tokenizer.source.drop tokenizer.position with
  | [] => none
  | byte :: rest =>
    if tokenizer.position = 0 ∧ byte = 46 then
      some (⟨0, tokenizer.source.length, .dot⟩, { tokenizer with position := tokenizer.source.length })
    else
      let (kind, len) := token (byte :: rest) byte rest.head?
      some (⟨tokenizer.position, len, kind⟩, { tokenizer with position := tokenizer.position + len })

/-- The spans `next` returns before it returns null, in at most `fuel` calls. -/
def Tokenizer.spans : ℕ → Tokenizer → Option (List Span)
  | 0, _ => none
  | fuel + 1, tokenizer =>
    match tokenizer.next with
    | none => some []
    | some (span, rest) => (rest.spans fuel).map (span :: ·)

/-! ### Complete statements -/

/-- `closedQuote`: the quotes before the last byte, back to the opening one, come in pairs. -/
def closedQuote (body : List UInt8) (quote : UInt8) : Bool :=
  if body.length < 2 ∨ body.getLast? ≠ some quote then false
  else ((body.drop 1).dropLast.reverse.takeWhile (· = quote)).length % 2 = 0

/-- One turn of the loop of `statementComplete`: null when it returns false, else `last_semicolon`. -/
def judge (kind : Kind) (body : List UInt8) (lastSemicolon : Bool) : Option Bool :=
  match kind with
  | .text => some lastSemicolon
  | .comment =>
    if [47, 42] <+: body ∧ ¬[42, 47] <:+ body then none else some lastSemicolon
  | .operator => some (body.head? = some 59)
  | .string => if body.length < 2 ∨ closedQuote body 39 = false then none else some false
  | .identifier =>
    match body.head? with
    | none => some false
    | some first =>
      if first = 34 ∨ first = 96 then if closedQuote body first then some false else none
      else if first = 91 then
        if body.length < 2 ∨ body.getLast? ≠ some 93 then none else some false
      else some false
  | _ => some false

/-- The loop of `statementComplete`, in at most `fuel` turns. -/
def completeLoop : ℕ → Tokenizer → Bool → Option Bool
  | 0, _, _ => none
  | fuel + 1, tokenizer, lastSemicolon =>
    match tokenizer.next with
    | none => some lastSemicolon
    | some (span, rest) =>
      match judge span.kind (span.bytes tokenizer.source) lastSemicolon with
      | none => some false
      | some lastSemicolon => completeLoop fuel rest lastSemicolon

def statementComplete (source : List UInt8) : Option Bool :=
  completeLoop (source.length + 1) (Tokenizer.init source) false

end Shell

end Zaxonlite
