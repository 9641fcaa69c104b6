import Mathlib.Data.List.Induction
import Zaxonlite.Shell.Tokens

/-!
# Reading what was typed

What a complete statement is needs no tokens: one reads the text byte by byte, keeps track of the quote or
comment one is in, and remembers whether the last byte that counted was a semicolon. The tokenizer agrees
with this reading but for two things. A number takes the sign behind its `e` even where that sign starts a
comment, and the comment `/*/`, which is open, passes for a closed one because it ends in `*/`.
-/

namespace Zaxonlite

namespace Shell

/-! ### Reading -/

/-- Where a reader is. The last five are inside a block comment. -/
inductive Place where
  | outside
  | word
  | number (before : UInt8)
  | quoted (quote : UInt8)
  | bracketed
  | line
  /-- Between the two bytes that open a block comment. -/
  | opening
  /-- Just behind them. -/
  | opened
  /-- Behind the three bytes of a comment that starts with `/*/`. -/
  | slashed
  | block
  /-- Between the two bytes that close it. -/
  | closing
  deriving DecidableEq

/-- The place of a reader, and whether the last byte outside white space and comments was a semicolon. -/
structure Reading where
  place : Place
  last : Bool
  deriving DecidableEq

/-- A byte outside quotes and comments. -/
def enter (last : Bool) (byte : UInt8) (next : Option UInt8) : Reading :=
  if byte = 45 ∧ next = some 45 then ⟨.line, last⟩
  else if byte = 47 ∧ next = some 42 then ⟨.opening, last⟩
  else if byte = 39 ∨ byte = 34 ∨ byte = 96 then ⟨.quoted byte, false⟩
  else if byte = 91 then ⟨.bracketed, false⟩
  else if isWhitespace byte then ⟨.outside, last⟩
  else ⟨.outside, byte = 59⟩

/-- A byte of the text. A doubled quote closes the quote and opens it again. -/
def step (reading : Reading) (byte : UInt8) (next : Option UInt8) : Reading :=
  match reading.place with
  | .quoted quote => ⟨if byte = quote then .outside else .quoted quote, reading.last⟩
  | .bracketed => ⟨if byte = 93 then .outside else .bracketed, reading.last⟩
  | .line => ⟨if byte = 10 then .outside else .line, reading.last⟩
  | .opening => ⟨.opened, reading.last⟩
  | .opened =>
    ⟨if byte = 47 then .slashed else if byte = 42 ∧ next = some 47 then .closing else .block, reading.last⟩
  | .slashed => ⟨if byte = 42 ∧ next = some 47 then .closing else .block, reading.last⟩
  | .block => ⟨if byte = 42 ∧ next = some 47 then .closing else .block, reading.last⟩
  | .closing => ⟨.outside, reading.last⟩
  | _ => enter reading.last byte next

/-- A byte outside quotes and comments, for a reader who knows words and numbers. -/
def enterToken (last : Bool) (byte : UInt8) (next : Option UInt8) : Reading :=
  if isDigit byte then ⟨.number byte, false⟩
  else if isIdentifierStart byte then ⟨.word, false⟩
  else enter last byte next

/-- A byte of the text, for a reader who takes the sign of an exponent as part of the number. -/
def stepNumbers (reading : Reading) (byte : UInt8) (next : Option UInt8) : Reading :=
  match reading.place with
  | .outside => enterToken reading.last byte next
  | .word => if isIdentifierByte byte then ⟨.word, false⟩ else enterToken reading.last byte next
  | .number before =>
    if isNumeric byte || isExponentSign (some before) byte then ⟨.number byte, false⟩
    else enterToken reading.last byte next
  | _ => step reading byte next

section

variable (next : Reading → UInt8 → Option UInt8 → Reading)

/-- The reading of a text, one byte after the other; each byte is seen with the one behind it. -/
def read (reading : Reading) : List UInt8 → Reading
  | [] => reading
  | byte :: rest => read (next reading byte rest.head?) rest

end

/-- The text ends outside quotes and block comments, and its last byte that counts is a semicolon. -/
def Reading.Complete (reading : Reading) : Prop :=
  (reading.place = .outside ∨ reading.place = .line) ∧ reading.last = true

instance (reading : Reading) : Decidable reading.Complete :=
  inferInstanceAs (Decidable (_ ∧ _))

/-- The text ends in `/*/` behind a complete statement. -/
def Reading.Slashed (reading : Reading) : Prop :=
  reading.place = .slashed ∧ reading.last = true

instance (reading : Reading) : Decidable reading.Slashed :=
  inferInstanceAs (Decidable (_ ∧ _))

/-- Nothing is open at the start. -/
def start : Reading := ⟨.outside, false⟩

def Complete (source : List UInt8) : Prop :=
  (read step start source).Complete

instance (source : List UInt8) : Decidable (Complete source) :=
  inferInstanceAs (Decidable (read step start source).Complete)

/-- What the tokenizer takes for a complete statement. -/
def Reading.Submits (reading : Reading) : Prop :=
  reading.Complete ∨ reading.Slashed

instance (reading : Reading) : Decidable reading.Submits :=
  inferInstanceAs (Decidable (_ ∨ _))

/-! ### The places of a token -/

theorem submits_outside {last : Bool} : (⟨.outside, last⟩ : Reading).Submits ↔ last = true := by
  unfold Reading.Submits Reading.Complete Reading.Slashed
  simp

theorem not_submits_of_last {place : Place} : ¬(⟨place, false⟩ : Reading).Submits := by
  unfold Reading.Submits Reading.Complete Reading.Slashed
  simp

theorem not_submits_of_place {reading : Reading} (houtside : reading.place ≠ .outside)
    (hline : reading.place ≠ .line) (hslashed : reading.place ≠ .slashed) : ¬reading.Submits := by
  rintro (⟨hplace, -⟩ | ⟨hplace, -⟩)
  · exact hplace.elim houtside hline
  · exact hslashed hplace

theorem toNat_of_whitespace {byte : UInt8} (h : isWhitespace byte = true) :
    byte.toNat = 32 ∨ 9 ≤ byte.toNat ∧ byte.toNat ≤ 13 := by
  rw [isWhitespace, Bool.or_eq_true, Bool.and_eq_true, decide_eq_true_iff, decide_eq_true_iff,
    decide_eq_true_iff, UInt8.le_iff_toNat_le, UInt8.le_iff_toNat_le] at h
  rcases h with rfl | h
  · exact .inl rfl
  · exact .inr h

theorem enterToken_of_whitespace {last : Bool} {byte : UInt8} {next : Option UInt8}
    (h : isWhitespace byte = true) : enterToken last byte next = ⟨.outside, last⟩ := by
  have hrange := toNat_of_whitespace h
  have hne (c : UInt8) (hc : c.toNat ≠ 32 ∧ (c.toNat < 9 ∨ 13 < c.toNat)) : byte ≠ c := by
    rintro rfl
    omega
  have hdigit : isDigit byte = false := by
    rw [isDigit, Bool.and_eq_false_iff, decide_eq_false_iff_not, UInt8.le_iff_toNat_le]
    have : (48 : UInt8).toNat = 48 := rfl
    exact .inl (by omega)
  have hstart : isIdentifierStart byte = false := by
    have hletter : isAlphabetic byte = false := by
      simp only [isAlphabetic, isUpper, Bool.or_eq_false_iff, Bool.and_eq_false_iff,
        decide_eq_false_iff_not, UInt8.le_iff_toNat_le]
      have h97 : (97 : UInt8).toNat = 97 := rfl
      have h65 : (65 : UInt8).toNat = 65 := rfl
      exact ⟨.inl (by omega), .inl (by omega)⟩
    rw [isIdentifierStart, hletter, Bool.false_or, Bool.or_eq_false_iff, decide_eq_false_iff_not,
      decide_eq_false_iff_not, ge_iff_le, UInt8.le_iff_toNat_le]
    have h128 : (0x80 : UInt8).toNat = 128 := rfl
    exact ⟨hne 95 (by decide), by omega⟩
  rw [enterToken, if_neg (by rw [hdigit]; decide), if_neg (by rw [hstart]; decide), enter,
    if_neg fun h => hne 45 (by decide) h.1, if_neg fun h => hne 47 (by decide) h.1,
    if_neg (by rw [not_or, not_or]; exact ⟨hne 39 (by decide), hne 34 (by decide), hne 96 (by decide)⟩),
    if_neg (hne 91 (by decide)), if_pos h]

theorem submits_line {last : Bool} (text : List UInt8) :
    (read stepNumbers ⟨.line, last⟩ text).Submits ↔
      (read stepNumbers ⟨.outside, last⟩ (text.drop (untilLineEnd text))).Submits := by
  induction text with
  | nil =>
    show (⟨.line, last⟩ : Reading).Submits ↔ (⟨.outside, last⟩ : Reading).Submits
    unfold Reading.Submits Reading.Complete Reading.Slashed
    simp
  | cons byte rest ih =>
    by_cases hbyte : byte = 10
    · subst hbyte
      exact Iff.rfl
    · have hlen : untilLineEnd (byte :: rest) = untilLineEnd rest + 1 := by
        have hne : decide (byte ≠ 10) = true := decide_eq_true hbyte
        rw [untilLineEnd, List.takeWhile_cons, if_pos hne, List.length_cons]
        rfl
      have hstep : stepNumbers ⟨.line, last⟩ byte rest.head? = ⟨.line, last⟩ := by
        show (⟨if byte = 10 then .outside else .line, last⟩ : Reading) = _
        rw [if_neg hbyte]
      rw [read, hstep, hlen, List.drop_succ_cons]
      exact ih

theorem submits_whitespace {last : Bool} (text : List UInt8) :
    read stepNumbers ⟨.outside, last⟩ text =
      read stepNumbers ⟨.outside, last⟩ (text.drop (text.takeWhile isWhitespace).length) := by
  induction text with
  | nil => rfl
  | cons byte rest ih =>
    by_cases hbyte : isWhitespace byte = true
    · rw [List.takeWhile_cons_of_pos hbyte, List.length_cons, List.drop_succ_cons, ← ih, read]
      show read stepNumbers (enterToken last byte rest.head?) rest = _
      rw [enterToken_of_whitespace hbyte]
    · rw [List.takeWhile_cons_of_neg hbyte]
      rfl

/-- A word is left at the first byte that is not one of its own. -/
theorem submits_word (text : List UInt8) :
    (read stepNumbers ⟨.word, false⟩ text).Submits ↔
      (read stepNumbers ⟨.outside, false⟩ (text.drop (untilIdentifierEnd text))).Submits := by
  induction text with
  | nil => exact iff_of_false not_submits_of_last not_submits_of_last
  | cons byte rest ih =>
    by_cases hbyte : isIdentifierByte byte = true
    · have hlen : untilIdentifierEnd (byte :: rest) = untilIdentifierEnd rest + 1 := by
        rw [untilIdentifierEnd, List.takeWhile_cons_of_pos hbyte, List.length_cons]
        rfl
      have hstep : stepNumbers ⟨.word, false⟩ byte rest.head? = ⟨.word, false⟩ := if_pos hbyte
      rw [read, hstep, hlen, List.drop_succ_cons]
      exact ih
    · have hlen : untilIdentifierEnd (byte :: rest) = 0 := by
        rw [untilIdentifierEnd, List.takeWhile_cons_of_neg hbyte, List.length_nil]
      have hstep : stepNumbers ⟨.word, false⟩ byte rest.head? = enterToken false byte rest.head? :=
        if_neg hbyte
      rw [read, hstep, hlen]
      exact Iff.rfl

theorem submits_number (text : List UInt8) (before : UInt8) :
    (read stepNumbers ⟨.number before, false⟩ text).Submits ↔
      (read stepNumbers ⟨.outside, false⟩ (text.drop (numberEnd (some before) text))).Submits := by
  induction text generalizing before with
  | nil => exact iff_of_false not_submits_of_last not_submits_of_last
  | cons byte rest ih =>
    rw [read, numberEnd]
    by_cases hbyte : (isNumeric byte || isExponentSign (some before) byte) = true
    · have hstep : stepNumbers ⟨.number before, false⟩ byte rest.head? = ⟨.number byte, false⟩ :=
        if_pos hbyte
      rw [hstep, if_pos hbyte, Nat.add_comm, List.drop_succ_cons]
      exact ih byte
    · have hstep : stepNumbers ⟨.number before, false⟩ byte rest.head? =
          enterToken false byte rest.head? := if_neg hbyte
      rw [hstep, if_neg hbyte]
      exact Iff.rfl

/-! ### Brackets -/

theorem untilByte_le (target : UInt8) (text : List UInt8) : untilByte target text ≤ text.length := by
  induction text with
  | nil => exact le_rfl
  | cons byte rest ih =>
    rw [untilByte, List.length_cons]
    split <;> omega

theorem read_bracketed (text : List UInt8) :
    (untilByte 93 text = text.length ∧ 93 ∉ text ∧
        read stepNumbers ⟨.bracketed, false⟩ text = ⟨.bracketed, false⟩) ∨
      ((text.take (untilByte 93 text)).getLast? = some 93 ∧
        read stepNumbers ⟨.bracketed, false⟩ text =
          read stepNumbers ⟨.outside, false⟩ (text.drop (untilByte 93 text))) := by
  induction text with
  | nil => exact .inl ⟨rfl, List.not_mem_nil, rfl⟩
  | cons byte rest ih =>
    have hstep : stepNumbers ⟨.bracketed, false⟩ byte rest.head? =
        ⟨if byte = 93 then .outside else .bracketed, false⟩ := rfl
    rw [read, hstep, untilByte]
    by_cases hbyte : byte = 93
    · rw [if_pos hbyte, if_pos hbyte, hbyte]
      exact .inr ⟨rfl, rfl⟩
    · rw [if_neg hbyte, if_neg hbyte, Nat.add_comm, List.take_succ_cons, List.drop_succ_cons]
      rcases ih with ⟨hlen, hmem, hread⟩ | ⟨hlast, hread⟩
      · refine .inl ⟨by rw [hlen, List.length_cons], ?_, hread⟩
        rw [List.mem_cons, not_or]
        exact ⟨Ne.symm hbyte, hmem⟩
      · refine .inr ⟨?_, hread⟩
        rw [List.getLast?_cons, hlast]
        rfl

/-! ### Block comments -/

/-- The places between the two ends of a block comment. -/
def Place.InBlock (place : Place) : Prop :=
  place = .opened ∨ place = .slashed ∨ place = .block

theorem step_closing {place : Place} {last : Bool} (h : place.InBlock) :
    stepNumbers ⟨place, last⟩ 42 (some 47) = ⟨.closing, last⟩ := by
  rcases h with rfl | rfl | rfl <;> rfl

theorem step_inBlock {place : Place} {last : Bool} {byte : UInt8} {next : Option UInt8}
    (h : place.InBlock) (hopen : ¬(byte = 42 ∧ next = some 47)) :
    stepNumbers ⟨place, last⟩ byte next = ⟨.block, last⟩ ∨
      place = .opened ∧ byte = 47 ∧ stepNumbers ⟨place, last⟩ byte next = ⟨.slashed, last⟩ := by
  rcases h with rfl | rfl | rfl
  · show (⟨if byte = 47 then .slashed else if byte = 42 ∧ next = some 47 then .closing else .block, last⟩ :
      Reading) = _ ∨ _ ∧ _ ∧ (⟨_, last⟩ : Reading) = _
    rw [if_neg hopen]
    by_cases hbyte : byte = 47
    · rw [if_pos hbyte]
      exact .inr ⟨rfl, hbyte, rfl⟩
    · rw [if_neg hbyte]
      exact .inl rfl
  · refine .inl ?_
    show (⟨if byte = 42 ∧ next = some 47 then .closing else .block, last⟩ : Reading) = _
    rw [if_neg hopen]
  · refine .inl ?_
    show (⟨if byte = 42 ∧ next = some 47 then .closing else .block, last⟩ : Reading) = _
    rw [if_neg hopen]

/-- Inside a block comment the tokenizer stops where the reader leaves it, or both run to the end. -/
theorem read_block {place : Place} {last : Bool} (hplace : place.InBlock) (text : List UInt8) :
    (∃ body rest, text = body ++ 42 :: 47 :: rest ∧ blockEnd text = body.length + 2 ∧
        read stepNumbers ⟨place, last⟩ text = read stepNumbers ⟨.outside, last⟩ rest) ∨
      (blockEnd text = text.length ∧ ¬[42, 47] <:+ text ∧
        (read stepNumbers ⟨place, last⟩ text = ⟨place, last⟩ ∧ text = [] ∨
          read stepNumbers ⟨place, last⟩ text = ⟨.slashed, last⟩ ∧ place = .opened ∧ text = [47] ∨
          read stepNumbers ⟨place, last⟩ text = ⟨.block, last⟩ ∧ text ≠ [] ∧
            (place = .opened → text ≠ [47]))) := by
  induction text generalizing place with
  | nil => exact .inr ⟨rfl, by decide, .inl ⟨rfl, rfl⟩⟩
  | cons byte rest ih =>
    by_cases hclosing : byte = 42 ∧ rest.head? = some 47
    · obtain ⟨rfl, hhead⟩ := hclosing
      obtain ⟨tail, rfl⟩ := List.head?_eq_some_iff.1 hhead
      refine .inl ⟨[], tail, rfl, rfl, ?_⟩
      rw [read, List.head?_cons, step_closing hplace]
      rfl
    · rw [blockEnd, if_neg hclosing, read]
      have hsuffix (h : ¬[42, 47] <:+ rest) : ¬[42, 47] <:+ byte :: rest := by
        rw [List.suffix_cons_iff, not_or]
        refine ⟨?_, h⟩
        intro heq
        cases heq
        exact hclosing ⟨rfl, rfl⟩
      rcases step_inBlock hplace hclosing with hstep | ⟨rfl, rfl, hstep⟩
      · rw [hstep]
        rcases ih (.inr (.inr rfl)) with ⟨body, tail, rfl, hend, hread⟩ | ⟨hend, hopen, hread⟩
        · refine .inl ⟨byte :: body, tail, rfl, ?_, hread⟩
          rw [hend, List.length_cons]
          omega
        · refine .inr ⟨by rw [hend, List.length_cons, Nat.add_comm], hsuffix hopen, .inr (.inr ?_)⟩
          refine ⟨?_, List.cons_ne_nil _ _, ?_⟩
          · rcases hread with ⟨hread, -⟩ | ⟨-, hno, -⟩ | ⟨hread, -⟩
            · exact hread
            · cases hno
            · exact hread
          · rintro rfl heq
            cases heq
            cases hstep
      · rw [hstep]
        rcases ih (.inr (.inl rfl)) with ⟨body, tail, rfl, hend, hread⟩ | ⟨hend, hopen, hread⟩
        · refine .inl ⟨47 :: body, tail, rfl, ?_, hread⟩
          rw [hend, List.length_cons]
          omega
        · refine .inr ⟨by rw [hend, List.length_cons, Nat.add_comm], hsuffix hopen, .inr ?_⟩
          rcases hread with ⟨hread, rfl⟩ | ⟨-, hno, -⟩ | ⟨hread, hne, -⟩
          · exact .inl ⟨hread, rfl, rfl⟩
          · cases hno
          · refine .inr ⟨hread, List.cons_ne_nil _ _, ?_⟩
            rintro - heq
            cases heq
            exact hne rfl

/-! ### Quotes -/

/-- The number of quotes a text ends in. -/
def trailing (quote : UInt8) (text : List UInt8) : ℕ :=
  (text.reverse.takeWhile (· = quote)).length

theorem closedQuote_cons (quote : UInt8) (content : List UInt8) :
    closedQuote (quote :: content) quote = decide (trailing quote content % 2 = 1) := by
  rw [closedQuote, trailing]
  cases content using List.reverseRecOn with
  | nil => rfl
  | append_singleton content byte =>
    have hlen : ¬(quote :: (content ++ [byte])).length < 2 := by
      rw [List.length_cons, List.length_append, List.length_singleton]
      omega
    have hlast : (quote :: (content ++ [byte])).getLast? = some byte := by
      rw [List.getLast?_cons, List.getLast?_concat]
      rfl
    rw [hlast, List.drop_succ_cons, List.drop_zero, List.dropLast_concat, List.reverse_append,
      List.reverse_singleton, List.singleton_append, List.takeWhile_cons]
    by_cases hbyte : byte = quote
    · rw [if_neg (by rw [not_or]; exact ⟨hlen, by rw [hbyte]; exact not_not_intro rfl⟩),
        if_pos (decide_eq_true hbyte), List.length_cons, decide_eq_decide]
      omega
    · rw [if_pos (.inr fun heq => hbyte (Option.some.inj heq)),
        if_neg (by rw [decide_eq_true_iff]; exact hbyte)]
      rfl

theorem pos_of_trailing {quote : UInt8} {text : List UInt8} (h : trailing quote text % 2 = 1) :
    0 < text.length := by
  cases text with
  | nil => cases h
  | cons byte text => exact Nat.succ_pos _

theorem trailing_cons (quote byte : UInt8) (text : List UInt8) :
    trailing quote (byte :: text) =
      if trailing quote text = text.length ∧ byte = quote then text.length + 1
      else trailing quote text := by
  rw [trailing, trailing, List.reverse_cons, List.takeWhile_append, List.length_reverse]
  by_cases hall : (text.reverse.takeWhile (· = quote)).length = text.length
  · rw [if_pos hall, List.length_append, List.length_reverse, List.takeWhile_cons, List.takeWhile_nil]
    by_cases hbyte : byte = quote
    · rw [if_pos (decide_eq_true hbyte), if_pos ⟨hall, hbyte⟩]
      rfl
    · rw [if_neg (by rw [decide_eq_true_iff]; exact hbyte), if_neg fun h => hbyte h.2, hall]
      rfl
  · rw [if_neg hall, if_neg fun h => hall h.1]

theorem trailing_pair (quote : UInt8) (text : List UInt8) :
    trailing quote (quote :: quote :: text) % 2 = trailing quote text % 2 := by
  have hle : trailing quote text ≤ text.length := by
    exact (List.takeWhile_sublist _).length_le.trans_eq List.length_reverse
  rw [trailing_cons, trailing_cons, List.length_cons]
  by_cases hall : trailing quote text = text.length
  · have hinner : trailing quote text = text.length ∧ quote = quote := ⟨hall, rfl⟩
    rw [if_pos hinner, if_pos ⟨rfl, rfl⟩, hall]
    omega
  · have hinner : ¬(trailing quote text = text.length ∧ quote = quote) := fun h => hall h.1
    have houter : ¬(trailing quote text = text.length + 1 ∧ quote = quote) := fun h => by omega
    rw [if_neg hinner, if_neg houter]

theorem trailing_of_ne {quote byte : UInt8} (h : byte ≠ quote) (text : List UInt8) :
    trailing quote (byte :: text) = trailing quote text := by
  rw [trailing_cons, if_neg fun heq => h heq.2]

def IsQuote (quote : UInt8) : Prop :=
  quote = 39 ∨ quote = 34 ∨ quote = 96

theorem stepNumbers_quote {quote : UInt8} (h : IsQuote quote) (last : Bool) (next : Option UInt8) :
    stepNumbers ⟨.outside, last⟩ quote next = ⟨.quoted quote, false⟩ := by
  rcases h with rfl | rfl | rfl <;> rfl

theorem quoteEnd_of_ne {quote byte : UInt8} (h : byte ≠ quote) (rest : List UInt8) :
    quoteEnd quote (byte :: rest) = 1 + quoteEnd quote rest := by
  cases rest with
  | nil => simp [quoteEnd, h]
  | cons next rest => rw [quoteEnd, if_pos h]

theorem quoteEnd_pair (quote : UInt8) (rest : List UInt8) :
    quoteEnd quote (quote :: quote :: rest) = 2 + quoteEnd quote rest := by
  rw [quoteEnd, if_neg (not_not_intro rfl), if_pos rfl]

theorem quoteEnd_closing {quote : UInt8} {rest : List UInt8} (h : rest.head? ≠ some quote) :
    quoteEnd quote (quote :: rest) = 1 := by
  cases rest with
  | nil => rw [quoteEnd, if_neg (not_not_intro rfl)]
  | cons next rest =>
    rw [quoteEnd, if_neg (not_not_intro rfl), if_neg fun heq => h (congrArg some heq)]

/-- Inside a quote the tokenizer stops where the reader leaves it for good, and the quotes at the end of
the span tell that it did; or both run to the end, and the quotes tell that too. -/
theorem read_quoted {quote : UInt8} (h : IsQuote quote) (text : List UInt8) :
    quoteEnd quote text ≤ text.length ∧
      (trailing quote (text.take (quoteEnd quote text)) % 2 = 1 ∧
          read stepNumbers ⟨.quoted quote, false⟩ text =
            read stepNumbers ⟨.outside, false⟩ (text.drop (quoteEnd quote text)) ∨
        quoteEnd quote text = text.length ∧ trailing quote text % 2 = 0 ∧
          read stepNumbers ⟨.quoted quote, false⟩ text = ⟨.quoted quote, false⟩) := by
  have hclose (next : Option UInt8) :
      stepNumbers ⟨.quoted quote, false⟩ quote next = ⟨.outside, false⟩ := by
    show (⟨if quote = quote then .outside else .quoted quote, false⟩ : Reading) = _
    rw [if_pos rfl]
  have hsingle : trailing quote [quote] % 2 = 1 := by
    rw [trailing_cons, if_pos ⟨rfl, rfl⟩]
    rfl
  induction text using quoteEnd.induct quote with
  | case1 => exact ⟨le_rfl, .inr ⟨rfl, rfl, rfl⟩⟩
  | case2 byte rest hbyte ih =>
    obtain ⟨hle, hcases⟩ := ih
    have hstep : stepNumbers ⟨.quoted quote, false⟩ byte rest.head? = ⟨.quoted quote, false⟩ := by
      show (⟨if byte = quote then .outside else .quoted quote, false⟩ : Reading) = _
      rw [if_neg hbyte]
    rw [quoteEnd_of_ne hbyte, Nat.add_comm, List.take_succ_cons, List.drop_succ_cons, read, hstep,
      trailing_of_ne hbyte, trailing_of_ne hbyte, List.length_cons]
    refine ⟨Nat.succ_le_succ hle, ?_⟩
    rcases hcases with hclosed | ⟨hlen, hopen⟩
    · exact .inl hclosed
    · exact .inr ⟨congrArg (· + 1) hlen, hopen⟩
  | case3 byte hbyte rest ih =>
    obtain rfl := not_not.1 hbyte
    obtain ⟨hle, hcases⟩ := ih
    rw [quoteEnd_pair, Nat.add_comm, List.take_succ_cons, List.take_succ_cons, List.drop_succ_cons,
      List.drop_succ_cons, read, hclose, read, stepNumbers_quote h, trailing_pair, trailing_pair,
      List.length_cons, List.length_cons]
    refine ⟨Nat.succ_le_succ (Nat.succ_le_succ hle), ?_⟩
    rcases hcases with hclosed | ⟨hlen, hopen⟩
    · exact .inl hclosed
    · exact .inr ⟨congrArg (· + 2) hlen, hopen⟩
  | case4 byte hbyte next rest hnext =>
    obtain rfl := not_not.1 hbyte
    have hhead : (next :: rest).head? ≠ some byte := fun heq => hnext (Option.some.inj heq)
    rw [quoteEnd_closing hhead, read, hclose]
    exact ⟨Nat.succ_le_succ (Nat.zero_le _), .inl ⟨hsingle, rfl⟩⟩
  | case5 byte hbyte =>
    obtain rfl := not_not.1 hbyte
    have hhead : ([] : List UInt8).head? ≠ some byte := (Option.some_ne_none byte).symm
    rw [quoteEnd_closing hhead, read, hclose]
    exact ⟨le_rfl, .inl ⟨hsingle, rfl⟩⟩

/-! ### One token -/

/-- What a turn of the loop does for a text: the reader leaves the token where the tokenizer does and with
the same semicolon, or he will not call the text complete. -/
def Judged (last : Bool) (text : List UInt8) (kind : Kind) (len : ℕ) : Prop :=
  match judge kind (text.take len) last with
  | none => ¬(read stepNumbers ⟨.outside, last⟩ text).Submits
  | some next => (read stepNumbers ⟨.outside, last⟩ text).Submits ↔
      (read stepNumbers ⟨.outside, next⟩ (text.drop len)).Submits

theorem judge_comment (body : List UInt8) (last : Bool) :
    judge .comment body last =
      if [47, 42] <+: body ∧ ¬[42, 47] <:+ body then none else some last := rfl

theorem judged_line {last : Bool} {rest : List UInt8} :
    Judged last (45 :: 45 :: rest) .comment (untilLineEnd (45 :: 45 :: rest)) := by
  have hlen : untilLineEnd (45 :: 45 :: rest) = untilLineEnd rest + 2 := rfl
  have hjudge : judge .comment ((45 :: 45 :: rest).take (untilLineEnd (45 :: 45 :: rest))) last =
      some last := by
    rw [hlen, List.take_succ_cons, judge_comment]
    refine if_neg ?_
    rintro ⟨hfront, -⟩
    exact absurd (List.cons_prefix_cons.1 hfront).1 (by decide)
  rw [Judged, hjudge]
  exact submits_line (45 :: rest)

theorem judged_block {last : Bool} {rest : List UInt8} :
    Judged last (47 :: 42 :: rest) .comment (untilBlockEnd (47 :: 42 :: rest)) := by
  have hread : read stepNumbers ⟨.outside, last⟩ (47 :: 42 :: rest) =
      read stepNumbers ⟨.opened, last⟩ rest := rfl
  have hlen : untilBlockEnd (47 :: 42 :: rest) = blockEnd rest + 2 := Nat.add_comm _ _
  have hfront (body : List UInt8) : [47, 42] <+: 47 :: 42 :: body := List.prefix_append [47, 42] body
  rw [Judged, hread, hlen, List.take_succ_cons, List.take_succ_cons, List.drop_succ_cons,
    List.drop_succ_cons]
  rcases read_block (.inl rfl) rest with ⟨body, tail, rfl, hend, hclosed⟩ | ⟨hend, hopen, hplace⟩
  · have htake : (body ++ 42 :: 47 :: tail).take (blockEnd (body ++ 42 :: 47 :: tail)) = body ++ [42, 47] := by
      rw [hend, List.take_length_add_append]
      rfl
    have hdrop : (body ++ 42 :: 47 :: tail).drop (blockEnd (body ++ 42 :: 47 :: tail)) = tail := by
      rw [hend, List.drop_length_add_append]
      rfl
    have hjudge : judge .comment (47 :: 42 :: (body ++ [42, 47])) last = some last := by
      rw [judge_comment]
      refine if_neg ?_
      rintro ⟨-, hsuffix⟩
      exact hsuffix (List.suffix_append (47 :: 42 :: body) [42, 47])
    rw [htake, hdrop, hjudge, hclosed]
  · rw [hend, List.take_length, List.drop_length]
    have hunclosed (hne : rest ≠ [47]) : ¬[42, 47] <:+ 47 :: 42 :: rest := by
      rw [List.suffix_cons_iff, List.suffix_cons_iff, not_or, not_or]
      refine ⟨by simp, ?_, hopen⟩
      intro heq
      exact hne (List.cons.inj heq).2.symm
    rcases hplace with ⟨hplace, rfl⟩ | ⟨hplace, -, rfl⟩ | ⟨hplace, -, hne⟩
    · have hjudge : judge .comment [47, 42] last = none := by
        rw [judge_comment]
        exact if_pos ⟨hfront [], hunclosed (by decide)⟩
      rw [hjudge, hplace]
      exact not_submits_of_place (by simp) (by simp) (by simp)
    · have hjudge : judge .comment [47, 42, 47] last = some last := by
        rw [judge_comment]
        refine if_neg ?_
        rintro ⟨-, hsuffix⟩
        exact hsuffix (by decide)
      rw [hjudge, hplace]
      show _ ↔ (⟨.outside, last⟩ : Reading).Submits
      rw [submits_outside, Reading.Submits, Reading.Complete, Reading.Slashed]
      simp
    · have hjudge : judge .comment (47 :: 42 :: rest) last = none := by
        rw [judge_comment]
        exact if_pos ⟨hfront rest, hunclosed (hne rfl)⟩
      rw [hjudge, hplace]
      exact not_submits_of_place (by simp) (by simp) (by simp)

theorem judge_quoted {quote : UInt8} {last : Bool} {kind : Kind} (content : List UInt8)
    (h : quote = 39 ∧ kind = .string ∨ (quote = 34 ∨ quote = 96) ∧ kind = .identifier) :
    judge kind (quote :: content) last =
      if trailing quote content % 2 = 1 then some false else none := by
  have hclosed := closedQuote_cons quote content
  rcases h with ⟨rfl, rfl⟩ | ⟨hquote, rfl⟩
  · have hjudge : judge .string (39 :: content) last =
        if (39 :: content).length < 2 ∨ closedQuote (39 :: content) 39 = false then none else some false :=
      rfl
    rw [hjudge, hclosed]
    by_cases hodd : trailing 39 content % 2 = 1
    · have hlen : ¬(39 :: content).length < 2 := by
        rw [List.length_cons]
        have := pos_of_trailing hodd
        omega
      rw [if_pos hodd, if_neg]
      rw [not_or, decide_eq_false_iff_not, not_not]
      exact ⟨hlen, hodd⟩
    · rw [if_neg hodd, if_pos (.inr (decide_eq_false hodd))]
  · have hjudge : judge .identifier (quote :: content) last =
        if quote = 34 ∨ quote = 96 then
          if closedQuote (quote :: content) quote then some false else none
        else if quote = 91 then
          if (quote :: content).length < 2 ∨ (quote :: content).getLast? ≠ some 93 then none else some false
        else some false := rfl
    rw [hjudge, if_pos hquote, hclosed]
    by_cases hodd : trailing quote content % 2 = 1
    · rw [if_pos hodd, if_pos (decide_eq_true hodd)]
    · rw [if_neg hodd, if_neg (by rw [decide_eq_true_iff]; exact hodd)]

theorem judged_quoted {quote : UInt8} {last : Bool} {kind : Kind} {rest : List UInt8}
    (h : quote = 39 ∧ kind = .string ∨ (quote = 34 ∨ quote = 96) ∧ kind = .identifier) :
    Judged last (quote :: rest) kind (untilQuoteEnd (quote :: rest) quote) := by
  have hquote : IsQuote quote := by
    rcases h with ⟨h, -⟩ | ⟨h, -⟩
    · exact .inl h
    · exact .inr h
  have hlen : untilQuoteEnd (quote :: rest) quote = quoteEnd quote rest + 1 := Nat.add_comm _ _
  rw [Judged, hlen, List.take_succ_cons, List.drop_succ_cons, judge_quoted _ h, read,
    stepNumbers_quote hquote]
  obtain ⟨-, ⟨hodd, hread⟩ | ⟨hend, heven, hread⟩⟩ := read_quoted hquote rest
  · rw [if_pos hodd, hread]
  · rw [hend, List.take_length, if_neg (by omega), hread]
    exact not_submits_of_last

theorem judge_bracketed (content : List UInt8) (last : Bool) :
    judge .identifier (91 :: content) last =
      if content.getLast? = some 93 then some false else none := by
  have hjudge : judge .identifier (91 :: content) last =
      if (91 :: content).length < 2 ∨ (91 :: content).getLast? ≠ some 93 then none else some false := rfl
  rw [hjudge]
  cases content with
  | nil => rfl
  | cons byte content =>
    have hlast : (91 :: byte :: content).getLast? = (byte :: content).getLast? := List.getLast?_cons_cons
    rw [hlast]
    by_cases heq : (byte :: content).getLast? = some 93
    · rw [if_pos heq, if_neg]
      rw [not_or, not_not]
      refine ⟨?_, heq⟩
      rw [List.length_cons, List.length_cons]
      omega
    · rw [if_neg heq, if_pos (.inr heq)]

theorem judged_bracketed {last : Bool} {rest : List UInt8} :
    Judged last (91 :: rest) .identifier (1 + untilByte 93 rest) := by
  have hstart : stepNumbers ⟨.outside, last⟩ 91 rest.head? = ⟨.bracketed, false⟩ := rfl
  rw [Judged, Nat.add_comm, List.take_succ_cons, List.drop_succ_cons, judge_bracketed, read, hstart]
  rcases read_bracketed rest with ⟨hlen, hmem, hread⟩ | ⟨hlast, hread⟩
  · have hlast : rest.getLast? ≠ some 93 := fun heq => hmem (List.mem_of_getLast? heq)
    rw [hlen, List.take_length, if_neg hlast, hread]
    exact not_submits_of_last
  · rw [if_pos hlast, hread]

theorem judged_number {last : Bool} {byte : UInt8} {rest : List UInt8} (h : isDigit byte = true) :
    Judged last (byte :: rest) .number (untilNumberEnd (byte :: rest)) := by
  have hnumeric : isNumeric byte = true := by
    rw [isNumeric, isHex, h]
    rfl
  have hlen : untilNumberEnd (byte :: rest) = numberEnd (some byte) rest + 1 := by
    rw [untilNumberEnd, numberEnd, hnumeric, Bool.true_or, if_pos rfl, Nat.add_comm]
  have hstart : stepNumbers ⟨.outside, last⟩ byte rest.head? = ⟨.number byte, false⟩ := if_pos h
  rw [Judged, hlen, List.drop_succ_cons, read, hstart]
  exact submits_number rest byte

theorem identifierByte_of_start {byte : UInt8} (h : isIdentifierStart byte = true) :
    isIdentifierByte byte = true := by
  rw [isIdentifierStart, Bool.or_eq_true, Bool.or_eq_true] at h
  rw [isIdentifierByte, Bool.or_eq_true, Bool.or_eq_true, Bool.or_eq_true, Bool.or_eq_true]
  rcases h with (h | h) | h
  · exact .inl (.inl (.inl (.inl h)))
  · exact .inl (.inl (.inr h))
  · exact .inr h

theorem judged_word {last : Bool} {byte : UInt8} {rest : List UInt8} {kind : Kind}
    (hdigit : ¬isDigit byte = true) (h : isIdentifierStart byte = true)
    (hkind : kind = .keyword ∨ kind = .identifier) :
    Judged last (byte :: rest) kind (untilIdentifierEnd (byte :: rest)) := by
  have hbyte := identifierByte_of_start h
  have hplain : byte ≠ 34 ∧ byte ≠ 96 ∧ byte ≠ 91 := by
    refine ⟨?_, ?_, ?_⟩
    all_goals
      rintro rfl
      cases h
  have hlen : untilIdentifierEnd (byte :: rest) = untilIdentifierEnd rest + 1 := by
    rw [untilIdentifierEnd, List.takeWhile_cons_of_pos hbyte, List.length_cons]
    rfl
  have hstart : stepNumbers ⟨.outside, last⟩ byte rest.head? = ⟨.word, false⟩ := by
    show enterToken last byte rest.head? = _
    rw [enterToken, if_neg hdigit, if_pos h]
  have hjudge (body : List UInt8) : judge kind (byte :: body) last = some false := by
    rcases hkind with rfl | rfl
    · rfl
    · show (if byte = 34 ∨ byte = 96 then _ else if byte = 91 then _ else some false) = some false
      rw [if_neg (not_or.2 ⟨hplain.1, hplain.2.1⟩), if_neg hplain.2.2]
  rw [Judged, hlen, List.take_succ_cons, hjudge, List.drop_succ_cons, read, hstart]
  exact submits_word rest

theorem judged_whitespace {last : Bool} {text : List UInt8} :
    Judged last text .text (text.takeWhile isWhitespace).length :=
  iff_of_eq (congrArg Reading.Submits (submits_whitespace text))

theorem judged_operator {last : Bool} {byte : UInt8} {rest : List UInt8}
    (hline : ¬(byte = 45 ∧ rest.head? = some 45)) (hblock : ¬(byte = 47 ∧ rest.head? = some 42))
    (hquote : ¬(byte = 39 ∨ byte = 34 ∨ byte = 96)) (hbracket : byte ≠ 91)
    (hdigit : ¬isDigit byte = true) (hword : ¬isIdentifierStart byte = true)
    (hspace : ¬isWhitespace byte = true) : Judged last (byte :: rest) .operator 1 := by
  have hstart : stepNumbers ⟨.outside, last⟩ byte rest.head? = ⟨.outside, decide (byte = 59)⟩ := by
    show enterToken last byte rest.head? = _
    rw [enterToken, if_neg hdigit, if_neg hword, enter, if_neg hline, if_neg hblock, if_neg hquote,
      if_neg hbracket, if_neg hspace]
  have hjudge : judge .operator [byte] last = some (decide (byte = 59)) := by
    show some (decide (some byte = some 59)) = _
    rw [Option.some.injEq, decide_eq_decide, Option.some.injEq]
  have htake : (byte :: rest).take 1 = [byte] := rfl
  rw [Judged, htake, hjudge, read, hstart]
  exact Iff.rfl

theorem blockEnd_le (text : List UInt8) : blockEnd text ≤ text.length := by
  induction text with
  | nil => exact le_rfl
  | cons byte rest ih =>
    rw [blockEnd, List.length_cons]
    split
    · rename_i hclosing
      obtain ⟨tail, rfl⟩ := List.head?_eq_some_iff.1 hclosing.2
      rw [List.length_cons]
      omega
    · omega

theorem numberEnd_le (before : Option UInt8) (text : List UInt8) : numberEnd before text ≤ text.length := by
  induction text generalizing before with
  | nil => exact le_rfl
  | cons byte rest ih =>
    have := ih (some byte)
    rw [numberEnd, List.length_cons]
    split <;> omega

theorem length_takeWhile_pos {p : UInt8 → Bool} {byte : UInt8} (h : p byte = true) (rest : List UInt8) :
    0 < ((byte :: rest).takeWhile p).length ∧
      ((byte :: rest).takeWhile p).length ≤ (byte :: rest).length := by
  refine ⟨?_, (List.takeWhile_sublist p).length_le⟩
  rw [List.takeWhile_cons_of_pos h, List.length_cons]
  exact Nat.succ_pos _

/-- Every token is judged right, is not empty and ends within the text. -/
theorem token_spec (last : Bool) (byte : UInt8) (rest : List UInt8) :
    Judged last (byte :: rest) (token (byte :: rest) byte rest.head?).1
        (token (byte :: rest) byte rest.head?).2 ∧
      0 < (token (byte :: rest) byte rest.head?).2 ∧
      (token (byte :: rest) byte rest.head?).2 ≤ (byte :: rest).length := by
  unfold token
  by_cases hline : byte = 45 ∧ rest.head? = some 45
  · obtain ⟨rfl, hhead⟩ := id hline
    obtain ⟨tail, rfl⟩ := List.head?_eq_some_iff.1 hhead
    rw [if_pos hline]
    exact ⟨judged_line, length_takeWhile_pos rfl _⟩
  rw [if_neg hline]
  by_cases hblock : byte = 47 ∧ rest.head? = some 42
  · obtain ⟨rfl, hhead⟩ := id hblock
    obtain ⟨tail, rfl⟩ := List.head?_eq_some_iff.1 hhead
    have hle := blockEnd_le tail
    rw [if_pos hblock]
    refine ⟨judged_block, Nat.add_pos_left (by decide) _, ?_⟩
    show 2 + blockEnd tail ≤ _
    rw [List.length_cons, List.length_cons]
    omega
  rw [if_neg hblock]
  have hquoted {quote : UInt8} (h : IsQuote quote) : 0 < untilQuoteEnd (quote :: rest) quote ∧
      untilQuoteEnd (quote :: rest) quote ≤ (quote :: rest).length := by
    have hle := (read_quoted h rest).1
    show 0 < 1 + quoteEnd quote rest ∧ 1 + quoteEnd quote rest ≤ _
    rw [List.length_cons]
    omega
  by_cases hstring : byte = 39
  · subst hstring
    rw [if_pos rfl]
    exact ⟨judged_quoted (.inl ⟨rfl, rfl⟩), hquoted (.inl rfl)⟩
  rw [if_neg hstring]
  by_cases hidentifier : byte = 34 ∨ byte = 96
  · rw [if_pos hidentifier]
    exact ⟨judged_quoted (.inr ⟨hidentifier, rfl⟩), hquoted (.inr hidentifier)⟩
  rw [if_neg hidentifier]
  by_cases hbracket : byte = 91
  · subst hbracket
    have hle := untilByte_le 93 rest
    rw [if_pos rfl]
    refine ⟨judged_bracketed, Nat.add_pos_left (by decide) _, ?_⟩
    show 1 + untilByte 93 rest ≤ _
    rw [List.length_cons]
    omega
  rw [if_neg hbracket]
  by_cases hdigit : isDigit byte = true
  · rw [if_pos hdigit]
    refine ⟨judged_number hdigit, ?_, numberEnd_le none _⟩
    have hnumeric : isNumeric byte = true := by
      rw [isNumeric, isHex, hdigit]
      rfl
    show 0 < numberEnd none (byte :: rest)
    rw [numberEnd, hnumeric, Bool.true_or, if_pos rfl]
    exact Nat.add_pos_left (by decide) _
  rw [if_neg hdigit]
  by_cases hword : isIdentifierStart byte = true
  · rw [if_pos hword]
    refine ⟨judged_word hdigit hword ?_, length_takeWhile_pos (identifierByte_of_start hword) _⟩
    exact ite_eq_or_eq _ _ _
  rw [if_neg hword]
  by_cases hspace : isWhitespace byte = true
  · rw [if_pos hspace]
    exact ⟨judged_whitespace, length_takeWhile_pos hspace _⟩
  rw [if_neg hspace]
  refine ⟨judged_operator hline hblock ?_ hbracket hdigit hword hspace, by decide, ?_⟩
  · rw [not_or]
    exact ⟨hstring, hidentifier⟩
  · exact Nat.succ_le_succ (Nat.zero_le _)

end Shell

end Zaxonlite
