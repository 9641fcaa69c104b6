import Zaxonlite.Shell.Reading

/-!
# Complete statements

The spans of a text lie one behind the other and cover it, so the loop over them ends, and what it answers
is what the reader who knows numbers would submit. That is a complete statement unless the two things the
tokenizer reads differently decide.
-/

namespace Zaxonlite

namespace Shell

/-! ### The loops -/

/-- The spans stand one behind the other from `position` to `stop`, none of them empty. -/
def Tiles : ℕ → List Span → ℕ → Prop
  | position, [], stop => position = stop
  | position, span :: rest, stop =>
    span.start = position ∧ 0 < span.len ∧ Tiles (position + span.len) rest stop

theorem drop_ne_nil {source : List UInt8} {position : ℕ} (h : position < source.length) :
    source.drop position ≠ [] := by
  rw [ne_eq, List.drop_eq_nil_iff]
  exact Nat.not_le.2 h

/-- `next` ends exactly at the end of the source, and else returns a span of what is left. -/
theorem next_spec {source : List UInt8} {position : ℕ} (h : position < source.length) :
    ∃ span, (⟨source, position⟩ : Tokenizer).next = some (span, ⟨source, position + span.len⟩) ∧
      span.start = position ∧ 0 < span.len ∧ position + span.len ≤ source.length := by
  obtain ⟨byte, rest, hdrop⟩ := List.exists_cons_of_ne_nil (drop_ne_nil h)
  have hlen : (byte :: rest).length = source.length - position := by
    rw [← hdrop, List.length_drop]
  unfold Tokenizer.next
  rw [hdrop]
  by_cases hdot : position = 0 ∧ byte = 46
  · obtain ⟨rfl, -⟩ := id hdot
    refine ⟨⟨0, source.length, .dot⟩, ?_, rfl, h, (Nat.zero_add _).le⟩
    rw [Nat.zero_add]
    exact if_pos hdot
  · obtain ⟨-, hpos, hle⟩ := token_spec false byte rest
    refine ⟨⟨position, (token (byte :: rest) byte rest.head?).2, (token (byte :: rest) byte rest.head?).1⟩,
      if_neg hdot, rfl, hpos, ?_⟩
    show position + (token (byte :: rest) byte rest.head?).2 ≤ _
    omega

theorem next_eq_none {source : List UInt8} {position : ℕ} (h : source.length ≤ position) :
    (⟨source, position⟩ : Tokenizer).next = none := by
  unfold Tokenizer.next
  rw [List.drop_eq_nil_of_le h]

/-- The tokenizer ends, and its spans cover the source. -/
theorem spans_tile {source : List UInt8} {fuel position : ℕ} (hle : position ≤ source.length)
    (hfuel : source.length - position < fuel) :
    ∃ spans, (⟨source, position⟩ : Tokenizer).spans fuel = some spans ∧
      Tiles position spans source.length := by
  induction fuel generalizing position with
  | zero => exact absurd hfuel (Nat.not_lt_zero _)
  | succ fuel ih =>
    unfold Tokenizer.spans
    by_cases hend : position = source.length
    · rw [next_eq_none hend.ge]
      exact ⟨[], rfl, hend⟩
    · obtain ⟨span, hnext, hstart, hpos, hbound⟩ := next_spec (Nat.lt_of_le_of_ne hle hend)
      obtain ⟨spans, hspans, htile⟩ := ih hbound (by omega)
      refine ⟨span :: spans, ?_, hstart, hpos, htile⟩
      rw [hnext]
      show (Tokenizer.spans fuel ⟨source, position + span.len⟩).map (span :: ·) = _
      rw [hspans]
      rfl

/-- The loop answers what the reader would submit. -/
theorem completeLoop_eq {source : List UInt8} {fuel position : ℕ} {last : Bool}
    (hle : position ≤ source.length) (hfuel : source.length - position < fuel)
    (hdot : source.head? ≠ some 46 ∨ position ≠ 0) :
    completeLoop fuel ⟨source, position⟩ last =
      some (decide (read stepNumbers ⟨.outside, last⟩ (source.drop position)).Submits) := by
  induction fuel generalizing position last with
  | zero => exact absurd hfuel (Nat.not_lt_zero _)
  | succ fuel ih =>
    unfold completeLoop
    by_cases hend : position = source.length
    · rw [next_eq_none hend.ge, List.drop_eq_nil_of_le hend.ge]
      show some last = some (decide (⟨.outside, last⟩ : Reading).Submits)
      rw [Option.some.injEq, Bool.eq_iff_iff, decide_eq_true_iff, submits_outside]
    · have hlt := Nat.lt_of_le_of_ne hle hend
      obtain ⟨byte, rest, hdrop⟩ := List.exists_cons_of_ne_nil (drop_ne_nil hlt)
      have hplain : ¬(position = 0 ∧ byte = 46) := by
        rintro ⟨rfl, rfl⟩
        rw [List.drop_zero] at hdrop
        rw [hdrop] at hdot
        exact hdot.elim (fun h => h rfl) fun h => h rfl
      obtain ⟨hjudged, hpos, hbound⟩ := token_spec last byte rest
      have hlen : (byte :: rest).length = source.length - position := by
        rw [← hdrop, List.length_drop]
      have hnext : (⟨source, position⟩ : Tokenizer).next =
          some (⟨position, (token (byte :: rest) byte rest.head?).2,
            (token (byte :: rest) byte rest.head?).1⟩,
            ⟨source, position + (token (byte :: rest) byte rest.head?).2⟩) := by
        unfold Tokenizer.next
        rw [hdrop]
        exact if_neg hplain
      have hbytes : (⟨position, (token (byte :: rest) byte rest.head?).2,
          (token (byte :: rest) byte rest.head?).1⟩ : Span).bytes source =
          (byte :: rest).take (token (byte :: rest) byte rest.head?).2 := by
        rw [Span.bytes, hdrop]
      rw [hnext]
      simp only [hbytes]
      rw [hdrop]
      unfold Judged at hjudged
      cases hjudge : judge (token (byte :: rest) byte rest.head?).1
          ((byte :: rest).take (token (byte :: rest) byte rest.head?).2) last with
      | none =>
        rw [hjudge] at hjudged
        show some false = _
        rw [decide_eq_false hjudged]
      | some next =>
        rw [hjudge] at hjudged
        show completeLoop fuel ⟨source, _⟩ next = _
        rw [ih (by omega) (by omega) (.inr (by omega)), ← List.drop_drop, hdrop, Option.some.injEq,
          decide_eq_decide]
        exact hjudged.symm

/-- **The shell submits what a reader who knows numbers takes for complete.** -/
theorem statementComplete_eq {source : List UInt8} (hdot : source.head? ≠ some 46) :
    statementComplete source = some (decide (read stepNumbers start source).Submits) :=
  completeLoop_eq (Nat.zero_le _) (Nat.lt_succ_self _) (.inl hdot)

/-! ### Where the two readings agree -/

/-- The spans cover the source, in order and without gap, and exactly the complete statements are submitted. -/
structure SubmitsExactly (source : List UInt8) : Prop where
  covered : ∀ fuel, source.length < fuel → ∃ spans,
    (Tokenizer.init source).spans fuel = some spans ∧ Tiles 0 spans source.length
  complete : statementComplete source = some true ↔ Complete source

/-- The two dashes of a line comment stand straight behind the `e` or `E` of a number, and no third one
behind them. -/
def Swallows (reading : Reading) (byte : UInt8) (rest : List UInt8) : Prop :=
  (reading.place = .number 101 ∨ reading.place = .number 69) ∧ byte = 45 ∧ rest.head? = some 45 ∧
    rest.tail.head? ≠ some 45

instance (reading : Reading) (byte : UInt8) (rest : List UInt8) : Decidable (Swallows reading byte rest) :=
  inferInstanceAs (Decidable (_ ∧ _))

/-- What stands behind each pair of dashes that a number swallows. -/
def swallowed (reading : Reading) : List UInt8 → List (List UInt8)
  | [] => []
  | byte :: rest =>
    if Swallows reading byte rest then rest.tail :: swallowed (stepNumbers reading byte rest.head?) rest
    else swallowed (stepNumbers reading byte rest.head?) rest

/-- What stands behind the line of a comment, once its two dashes are read. -/
def behindLine (text : List UInt8) : List UInt8 :=
  text.dropWhile (· ≠ 10)

/-- The text ends in a comment `/*/` behind a complete statement. -/
def EndsOpened (source : List UInt8) : Prop :=
  (read step start source).Slashed

instance (source : List UInt8) : Decidable (EndsOpened source) :=
  inferInstanceAs (Decidable (read step start source).Slashed)

/-- No number swallows a comment, and the text does not end in an open `/*/` behind a semicolon. Or one
does: what stands behind the line of the first such comment is then complete exactly if what stands straight
behind the last one is complete or ends so. -/
def Harmless (source : List UInt8) : List (List UInt8) → Prop
  | [] => ¬EndsOpened source
  | first :: others => Complete (behindLine first) ↔
      Complete (others.getLastD first) ∨ EndsOpened (others.getLastD first)

instance (source : List UInt8) : ∀ comments, Decidable (Harmless source comments)
  | [] => inferInstanceAs (Decidable (¬_))
  | _ :: _ => inferInstanceAs (Decidable (_ ↔ _))

def Undisturbed (source : List UInt8) : Prop :=
  Harmless source (swallowed start source)

instance (source : List UInt8) : Decidable (Undisturbed source) :=
  inferInstanceAs (Decidable (Harmless _ _))

/-- The reading of one who does not know words and numbers. -/
def Reading.forget (reading : Reading) : Reading :=
  match reading.place with
  | .word => ⟨.outside, reading.last⟩
  | .number _ => ⟨.outside, reading.last⟩
  | _ => reading

/-- A byte of a class without white space, quotes, slashes and semicolons is plain text. -/
theorem enter_eq_plain {p : UInt8 → Bool} {byte : UInt8} {last : Bool} {next : Option UInt8}
    (h : p byte = true) (hp : [9, 10, 11, 12, 13, 32, 34, 39, 47, 59, 91, 96].all (fun c => !p c) = true)
    (hdash : ¬(byte = 45 ∧ next = some 45)) : enter last byte next = ⟨.outside, false⟩ := by
  have hne (c : UInt8) (hc : c ∈ [9, 10, 11, 12, 13, 32, 34, 39, 47, 59, 91, 96]) : byte ≠ c := by
    rintro rfl
    have hno := List.all_eq_true.1 hp byte hc
    rw [h] at hno
    cases hno
  have hspace : ¬isWhitespace byte = true := by
    intro hspace
    have hrange := toNat_of_whitespace hspace
    have hne' (c : UInt8) (hc : c ∈ [9, 10, 11, 12, 13, 32, 34, 39, 47, 59, 91, 96]) :
        byte.toNat ≠ c.toNat := fun heq => hne c hc (UInt8.toNat_inj.1 heq)
    have h9 : byte.toNat ≠ 9 := hne' 9 (by decide)
    have h10 : byte.toNat ≠ 10 := hne' 10 (by decide)
    have h11 : byte.toNat ≠ 11 := hne' 11 (by decide)
    have h12 : byte.toNat ≠ 12 := hne' 12 (by decide)
    have h13 : byte.toNat ≠ 13 := hne' 13 (by decide)
    have h32 : byte.toNat ≠ 32 := hne' 32 (by decide)
    omega
  have hquote : ¬(byte = 39 ∨ byte = 34 ∨ byte = 96) := by
    rw [not_or, not_or]
    exact ⟨hne 39 (by decide), hne 34 (by decide), hne 96 (by decide)⟩
  rw [enter, if_neg hdash, if_neg fun heq => hne 47 (by decide) heq.1, if_neg hquote,
    if_neg (hne 91 (by decide)), if_neg hspace, decide_eq_false (hne 59 (by decide))]

theorem forget_enterToken (last : Bool) (byte : UInt8) (next : Option UInt8) :
    (enterToken last byte next).forget = enter last byte next := by
  unfold enterToken
  have hdash {p : UInt8 → Bool} (h : p byte = true) (hp : p 45 = false) : ¬(byte = 45 ∧ next = some 45) := by
    rintro ⟨rfl, -⟩
    rw [h] at hp
    cases hp
  by_cases hdigit : isDigit byte = true
  · rw [if_pos hdigit, enter_eq_plain hdigit (by decide) (hdash hdigit (by decide))]
    rfl
  · rw [if_neg hdigit]
    by_cases hstart : isIdentifierStart byte = true
    · rw [if_pos hstart, enter_eq_plain hstart (by decide) (hdash hstart (by decide))]
      rfl
    · rw [if_neg hstart]
      unfold enter
      split_ifs <;> rfl

def isSign (byte : UInt8) : Bool :=
  decide (byte = 43 ∨ byte = 45)

theorem isExponentSign_iff {before : Option UInt8} {byte : UInt8} :
    isExponentSign before byte = true ↔
      (byte = 43 ∨ byte = 45) ∧ (before = some 101 ∨ before = some 69) := by
  simp [isExponentSign]

/-- A word or a number ended no statement. -/
structure Reading.Tracks (reading : Reading) : Prop where
  word : reading.place = .word → reading.last = false
  number : ∀ c, reading.place = .number c → reading.last = false

theorem tracks_of_place {reading : Reading} (hword : reading.place ≠ .word)
    (hnumber : ∀ c, reading.place ≠ .number c) : reading.Tracks :=
  ⟨fun h => absurd h hword, fun c h => absurd h (hnumber c)⟩

theorem tracks_of_last (place : Place) : (⟨place, false⟩ : Reading).Tracks :=
  ⟨fun _ => rfl, fun _ _ => rfl⟩

theorem tracks_start : start.Tracks :=
  tracks_of_last _

theorem tracks_enterToken (last : Bool) (byte : UInt8) (next : Option UInt8) :
    (enterToken last byte next).Tracks := by
  unfold enterToken enter
  split_ifs
  case pos => exact tracks_of_last _
  case pos => exact tracks_of_last _
  all_goals exact tracks_of_place (by simp) (by simp)

theorem tracks_stepNumbers (reading : Reading) (byte : UInt8) (next : Option UInt8) :
    (stepNumbers reading byte next).Tracks := by
  obtain ⟨place, last⟩ := reading
  cases place with
  | outside => exact tracks_enterToken last byte next
  | word =>
    show (if isIdentifierByte byte then (⟨.word, false⟩ : Reading)
      else enterToken last byte next).Tracks
    split
    · exact tracks_of_last _
    · exact tracks_enterToken last byte next
  | number c =>
    show (if isNumeric byte || isExponentSign (some c) byte then (⟨.number byte, false⟩ : Reading)
      else enterToken last byte next).Tracks
    split
    · exact tracks_of_last _
    · exact tracks_enterToken last byte next
  | opening => exact tracks_of_place (by simp [stepNumbers, step]) (by simp [stepNumbers, step])
  | closing => exact tracks_of_place (by simp [stepNumbers, step]) (by simp [stepNumbers, step])
  | _ =>
    unfold stepNumbers step
    refine tracks_of_place ?_ ?_
    all_goals
      dsimp only
      split_ifs <;> simp

/-- One byte, unless it is the first dash of a comment behind an exponent. -/
theorem forget_stepNumbers {reading : Reading} {byte : UInt8} {next : Option UInt8} (htracks : reading.Tracks)
    (hfree : ¬((reading.place = .number 101 ∨ reading.place = .number 69) ∧ byte = 45 ∧ next = some 45)) :
    (stepNumbers reading byte next).forget = step reading.forget byte next := by
  obtain ⟨place, last⟩ := reading
  cases place with
  | outside => exact forget_enterToken last byte next
  | word =>
    obtain rfl : last = false := htracks.word rfl
    show (if isIdentifierByte byte then (⟨.word, false⟩ : Reading)
      else enterToken false byte next).forget = enter false byte next
    by_cases hbyte : isIdentifierByte byte = true
    · have hdash : ¬(byte = 45 ∧ next = some 45) := by
        rintro ⟨rfl, -⟩
        cases hbyte
      rw [if_pos hbyte, enter_eq_plain hbyte (by decide) hdash]
      rfl
    · rw [if_neg hbyte]
      exact forget_enterToken false byte next
  | number c =>
    obtain rfl : last = false := htracks.number c rfl
    show (if isNumeric byte || isExponentSign (some c) byte then (⟨.number byte, false⟩ : Reading)
      else enterToken false byte next).forget = enter false byte next
    by_cases hbyte : (isNumeric byte || isExponentSign (some c) byte) = true
    · rw [if_pos hbyte]
      rw [Bool.or_eq_true] at hbyte
      rcases hbyte with hnumeric | hsign
      · have hdash : ¬(byte = 45 ∧ next = some 45) := by
          rintro ⟨rfl, -⟩
          cases hnumeric
        rw [enter_eq_plain hnumeric (by decide) hdash]
        rfl
      · obtain ⟨hbyte, hexponent⟩ := isExponentSign_iff.1 hsign
        have hsigns : isSign byte = true := decide_eq_true hbyte
        have hplace : (Place.number c = .number 101) ∨ (Place.number c = .number 69) :=
          hexponent.imp (fun h => congrArg Place.number (Option.some.inj h))
            fun h => congrArg Place.number (Option.some.inj h)
        rw [enter_eq_plain hsigns (by decide) fun h => hfree ⟨hplace, h⟩]
        rfl
    · rw [if_neg hbyte]
      exact forget_enterToken false byte next
  | quoted quote =>
    show (⟨if byte = quote then .outside else .quoted quote, last⟩ : Reading).forget = ⟨_, last⟩
    split <;> rfl
  | bracketed =>
    show (⟨if byte = 93 then .outside else .bracketed, last⟩ : Reading).forget = ⟨_, last⟩
    split <;> rfl
  | line =>
    show (⟨if byte = 10 then .outside else .line, last⟩ : Reading).forget = ⟨_, last⟩
    split <;> rfl
  | opening => rfl
  | opened =>
    show (⟨if byte = 47 then .slashed else if byte = 42 ∧ next = some 47 then .closing else .block, last⟩ :
      Reading).forget = ⟨_, last⟩
    split_ifs <;> rfl
  | slashed =>
    show (⟨if byte = 42 ∧ next = some 47 then .closing else .block, last⟩ : Reading).forget = ⟨_, last⟩
    split <;> rfl
  | block =>
    show (⟨if byte = 42 ∧ next = some 47 then .closing else .block, last⟩ : Reading).forget = ⟨_, last⟩
    split <;> rfl
  | closing => rfl

/-- Behind an exponent the number takes the first dash, which for the plain reader opens a comment. -/
theorem step_exponent {reading : Reading} (htracks : reading.Tracks)
    (hplace : reading.place = .number 101 ∨ reading.place = .number 69) :
    stepNumbers reading 45 (some 45) = ⟨.number 45, false⟩ ∧
      step reading.forget 45 (some 45) = ⟨.line, false⟩ := by
  obtain ⟨place, last⟩ := reading
  rcases hplace with rfl | rfl
  · obtain rfl : last = false := htracks.number 101 rfl
    exact ⟨rfl, rfl⟩
  · obtain rfl : last = false := htracks.number 69 rfl
    exact ⟨rfl, rfl⟩

/-- How the two readers stand while no comment was swallowed: the same but for words and numbers, or at the
second of three dashes, of which the number took the first. -/
inductive Agree : Reading → Reading → List UInt8 → Prop
  | same {reading : Reading} {text : List UInt8} (htracks : reading.Tracks) :
    Agree reading reading.forget text
  | dashes (rest : List UInt8) : Agree ⟨.number 45, false⟩ ⟨.line, false⟩ (45 :: 45 :: rest)

theorem agree_step {reading plain : Reading} {byte : UInt8} {rest : List UInt8}
    (h : Agree reading plain (byte :: rest)) (hfree : ¬Swallows reading byte rest) :
    Agree (stepNumbers reading byte rest.head?) (step plain byte rest.head?) rest := by
  cases h with
  | same htracks =>
    by_cases hdash : (reading.place = .number 101 ∨ reading.place = .number 69) ∧ byte = 45 ∧
        rest.head? = some 45
    · obtain ⟨hplace, rfl, hhead⟩ := hdash
      have hthird : rest.tail.head? = some 45 := by
        by_contra hne
        exact hfree ⟨hplace, rfl, hhead, hne⟩
      obtain ⟨tail, rfl⟩ := List.head?_eq_some_iff.1 hhead
      obtain ⟨tail, rfl⟩ := List.head?_eq_some_iff.1 hthird
      obtain ⟨hnumbers, hplain⟩ := step_exponent htracks hplace
      rw [List.head?_cons, hnumbers, hplain]
      exact .dashes tail
    · rw [← forget_stepNumbers htracks hdash]
      exact .same (tracks_stepNumbers reading byte rest.head?)
  | dashes tail =>
    have hline : (⟨.line, false⟩ : Reading).Tracks := tracks_of_last _
    exact .same hline

theorem swallowed_of_not {reading : Reading} {byte : UInt8} {rest : List UInt8}
    (h : ¬Swallows reading byte rest) :
    swallowed reading (byte :: rest) = swallowed (stepNumbers reading byte rest.head?) rest :=
  if_neg h

theorem swallowed_of_swallows {reading : Reading} {byte : UInt8} {rest : List UInt8}
    (h : Swallows reading byte rest) :
    swallowed reading (byte :: rest) = rest.tail :: swallowed (stepNumbers reading byte rest.head?) rest :=
  if_pos h

/-- Where no comment is swallowed, knowing numbers makes no difference. -/
theorem forget_read {text : List UInt8} {reading plain : Reading} (h : Agree reading plain text)
    (hnone : swallowed reading text = []) :
    (read stepNumbers reading text).forget = read step plain text ∧
      (read stepNumbers reading text).Tracks := by
  induction text generalizing reading plain with
  | nil =>
    cases h with
    | same htracks => exact ⟨rfl, htracks⟩
  | cons byte rest ih =>
    have hfree : ¬Swallows reading byte rest := by
      intro hswallows
      rw [swallowed_of_swallows hswallows] at hnone
      cases hnone
    rw [swallowed_of_not hfree] at hnone
    exact ih (agree_step h hfree) hnone

/-- Behind a swallowed comment the reader who knows numbers starts over. -/
theorem read_swallows {reading : Reading} {byte : UInt8} {rest : List UInt8} (htracks : reading.Tracks)
    (h : Swallows reading byte rest) :
    read stepNumbers reading (byte :: rest) = read stepNumbers start rest.tail ∧
      swallowed (stepNumbers reading byte rest.head?) rest = swallowed start rest.tail := by
  obtain ⟨hplace, rfl, hhead, hthird⟩ := h
  obtain ⟨tail, rfl⟩ := List.head?_eq_some_iff.1 hhead
  have hnumber := (step_exponent htracks hplace).1
  have hdash : stepNumbers ⟨.number 45, false⟩ 45 tail.head? = start := by
    show enter false 45 tail.head? = start
    rw [enter, if_neg fun h => hthird h.2]
    rfl
  constructor
  · rw [read, read, List.head?_cons, hnumber, hdash]
    rfl
  · have hfree : ¬Swallows ⟨.number 45, false⟩ 45 tail := by
      rintro ⟨hplace, -⟩
      exact hplace.elim (by simp) (by simp)
    rw [List.head?_cons, hnumber, swallowed_of_not hfree, hdash]
    rfl

/-- So what he reads is decided by what stands behind the last one. -/
theorem read_last {text last : List UInt8} {reading : Reading} (htracks : reading.Tracks)
    (h : (swallowed reading text).getLast? = some last) :
    read stepNumbers reading text = read stepNumbers start last ∧ swallowed start last = [] := by
  induction text generalizing reading with
  | nil => cases h
  | cons byte rest ih =>
    have htail := ih (tracks_stepNumbers reading byte rest.head?)
    by_cases hswallows : Swallows reading byte rest
    · obtain ⟨hread, hrest⟩ := read_swallows htracks hswallows
      rw [swallowed_of_swallows hswallows, List.getLast?_cons, Option.some.injEq] at h
      cases hlast : (swallowed (stepNumbers reading byte rest.head?) rest).getLast? with
      | none =>
        rw [hlast] at h
        obtain rfl : rest.tail = last := h
        rw [List.getLast?_eq_none_iff] at hlast
        exact ⟨hread, hrest.symm.trans hlast⟩
      | some other =>
        rw [hlast] at h
        obtain rfl : other = last := h
        exact htail hlast
    · rw [swallowed_of_not hswallows] at h
      exact htail h

theorem complete_line (text : List UInt8) :
    (read step ⟨.line, false⟩ text).Complete ↔ Complete (behindLine text) := by
  induction text with
  | nil => exact iff_of_false (by decide) (by decide)
  | cons byte rest ih =>
    by_cases hbyte : byte = 10
    · subst hbyte
      exact Iff.rfl
    · have hdrop : behindLine (byte :: rest) = behindLine rest :=
        List.dropWhile_cons_of_pos (decide_eq_true hbyte)
      have hstep : step ⟨.line, false⟩ byte rest.head? = ⟨.line, false⟩ := by
        show (⟨if byte = 10 then .outside else .line, false⟩ : Reading) = _
        rw [if_neg hbyte]
      rw [read, hstep, hdrop]
      exact ih

/-- For the plain reader the first swallowed comment is one, and its line is lost. -/
theorem complete_first {text first : List UInt8} {reading plain : Reading} (h : Agree reading plain text)
    (hfirst : (swallowed reading text).head? = some first) :
    (read step plain text).Complete ↔ Complete (behindLine first) := by
  induction text generalizing reading plain with
  | nil => cases hfirst
  | cons byte rest ih =>
    by_cases hswallows : Swallows reading byte rest
    · rw [swallowed_of_swallows hswallows, List.head?_cons, Option.some.injEq] at hfirst
      obtain ⟨hplace, rfl, hhead, -⟩ := hswallows
      obtain ⟨tail, rfl⟩ := List.head?_eq_some_iff.1 hhead
      obtain rfl : tail = first := hfirst
      cases h with
      | same htracks =>
        rw [read, List.head?_cons, (step_exponent htracks hplace).2]
        exact complete_line tail
      | dashes => exact absurd hplace (by simp)
    · rw [swallowed_of_not hswallows] at hfirst
      exact ih (agree_step h hswallows) hfirst

theorem not_complete_of_slashed {reading : Reading} (h : reading.Slashed) : ¬reading.Complete := by
  rintro ⟨hplace, -⟩
  rw [h.1] at hplace
  exact hplace.elim (by simp) (by simp)

theorem submits_forget {reading : Reading} (h : reading.Tracks) :
    reading.forget.Submits ↔ reading.Submits := by
  obtain ⟨place, last⟩ := reading
  cases place with
  | word =>
    obtain rfl : last = false := h.word rfl
    exact iff_of_false not_submits_of_last not_submits_of_last
  | number c =>
    obtain rfl : last = false := h.number c rfl
    exact iff_of_false not_submits_of_last not_submits_of_last
  | _ => exact Iff.rfl

theorem agree_start (text : List UInt8) : Agree start start text :=
  .same tracks_start

theorem complete_of_swallowed {source first : List UInt8} (h : (swallowed start source).head? = some first) :
    Complete source ↔ Complete (behindLine first) :=
  complete_first (agree_start source) h

/-- The reader who knows numbers submits a text in which none swallows a comment if it is complete or ends in
an open `/*/`. -/
theorem submits_of_swallowed {source : List UInt8} (h : swallowed start source = []) :
    (read stepNumbers start source).Submits ↔ Complete source ∨ EndsOpened source := by
  obtain ⟨hforget, htracks⟩ := forget_read (agree_start source) h
  rw [← submits_forget htracks, hforget]
  exact Iff.rfl

theorem undisturbed_iff (source : List UInt8) :
    Undisturbed source ↔ ((read stepNumbers start source).Submits ↔ Complete source) := by
  unfold Undisturbed
  cases hswallowed : swallowed start source with
  | nil =>
    have hno : EndsOpened source → ¬Complete source := not_complete_of_slashed
    rw [submits_of_swallowed hswallowed]
    constructor
    · exact fun hopened => or_iff_left hopened
    · exact fun hiff hopened => hno hopened (hiff.1 (.inr hopened))
  | cons first others =>
    have hlast : (swallowed start source).getLast? = some (others.getLastD first) := by
      rw [hswallowed, List.getLast?_cons, List.getLastD_eq_getLast?]
    have hfirst : (swallowed start source).head? = some first := by
      rw [hswallowed]
      rfl
    obtain ⟨hread, hnone⟩ := read_last tracks_start hlast
    rw [hread, submits_of_swallowed hnone, complete_of_swallowed hfirst]
    exact Iff.comm

/-- **The shell submits exactly the complete statements, unless a number swallows a comment or the text ends
in an open one that passes for closed.** -/
theorem submitsExactly_iff {source : List UInt8} (hdot : source.head? ≠ some 46) :
    SubmitsExactly source ↔ Undisturbed source := by
  have hspans : ∀ fuel, source.length < fuel → ∃ spans,
      (Tokenizer.init source).spans fuel = some spans ∧ Tiles 0 spans source.length :=
    fun fuel hfuel => spans_tile (Nat.zero_le _) hfuel
  have hsubmits : statementComplete source = some true ↔ (read stepNumbers start source).Submits := by
    rw [statementComplete_eq hdot, Option.some.injEq, decide_eq_true_iff]
  rw [undisturbed_iff, ← hsubmits]
  exact ⟨fun h => h.complete, fun h => ⟨hspans, h⟩⟩

/-- A semicolon in a string is not the end of a statement, and the one behind it is. A swallowed comment does
no harm where a line and a semicolon follow. -/
theorem submitsExactly_select :
    SubmitsExactly (asciiBytes "select ';';") ∧ SubmitsExactly (asciiBytes "select 1e--\n;") :=
  ⟨(submitsExactly_iff (by decide)).2 (by decide), (submitsExactly_iff (by decide)).2 (by decide)⟩

/-- Half a comment is submitted, and so is a semicolon in a comment behind a hexadecimal number. -/
theorem open_comment_submitted :
    ¬SubmitsExactly (asciiBytes "select 1; /*/") ∧ ¬SubmitsExactly (asciiBytes "select 0xe--;") := by
  refine ⟨?_, ?_⟩
  · intro h
    exact absurd (h.complete.1 (by decide +kernel)) (by decide)
  · intro h
    exact absurd (h.complete.1 (by decide +kernel)) (by decide)

end Shell

end Zaxonlite
