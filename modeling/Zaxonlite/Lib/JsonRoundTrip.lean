import Zaxonlite.Lib.Json

/-!
# What is written is read back

For every escaping the reader undoes, a written document is read back as the document it was, when its
strings and names are UTF-8, and is refused as a whole when one of them is not.
-/

namespace Json

variable {escape : UInt8 → List UInt8}

/-! ### Strings -/

/-- Bytes that stay inside the string are read before what follows them. -/
theorem scanString_append {state next : Scan} {xs out : List UInt8} (h : state.run xs = some (next, out))
    (rest : List UInt8) :
    scanString state (xs ++ rest) = (scanString next rest).map fun read => (out ++ read.1, read.2) := by
  induction xs generalizing state next out with
  | nil =>
    rw [Scan.run, Option.some.injEq, Prod.mk.injEq] at h
    obtain ⟨rfl, rfl⟩ := h
    rw [List.nil_append]
    cases scanString state rest with
    | none => rfl
    | some read => rfl
  | cons b xs ih =>
    rw [Scan.run, Option.bind_eq_bind, Option.bind_eq_some_iff] at h
    obtain ⟨⟨middle, first⟩, hstep, h⟩ := h
    obtain ⟨⟨last, more⟩, hrun, heq⟩ := Option.bind_eq_some_iff.1 h
    cases heq
    have hinside : ¬(state = .text .start ∧ b = 34) := by
      intro hquote
      obtain ⟨rfl, rfl⟩ := hquote
      cases hstep
    rw [List.cons_append, scanString, if_neg hinside, hstep]
    simp only [Option.bind_eq_bind, Option.bind_some]
    rw [ih hrun]
    cases scanString next rest with
    | none => rfl
    | some read => exact congrArg (fun text => some (text, read.2)) (List.append_assoc ..).symm

/-- A byte that stands for itself. -/
theorem scanString_plain {utf8 : Utf8} {b : UInt8} (hlow : 32 ≤ b) (hquote : b ≠ 34) (hback : b ≠ 92)
    (rest : List UInt8) :
    scanString (.text utf8) (b :: rest) = (utf8.step b).elim none fun next =>
      (scanString (.text next) rest).map fun read => (b :: read.1, read.2) := by
  have hnot : ¬b < 32 := by
    rw [UInt8.lt_iff_toNat_lt]
    have := UInt8.le_iff_toNat_le.1 hlow
    omega
  rw [scanString, if_neg fun h => hquote h.2, Scan.step, if_neg hnot, if_neg fun h => hquote h.2,
    if_neg fun h => hback h.2]
  cases utf8.step b with
  | none => rfl
  | some next =>
    show (scanString (.text next) rest >>= _) = Option.map _ (scanString (.text next) rest)
    cases scanString (.text next) rest with
    | none => rfl
    | some read => rfl

theorem scanString_inside {utf8 : Utf8} {b : UInt8} (hstate : utf8 ≠ .start) (hb : b < 128)
    (rest : List UInt8) : scanString (.text utf8) (b :: rest) = none := by
  have hnot {P : Prop} : ¬(utf8 = .start ∧ P) := fun h => hstate h.1
  have hclosed : ¬(Scan.text utf8 = .text .start ∧ b = 34) := by
    intro h
    exact hstate (Scan.text.inj h.1)
  have hstep : (Scan.text utf8).step b = none := by
    rw [Scan.step, if_neg hnot, if_neg hnot, Utf8.step_inside hstate hb]
    exact ite_self _
  rw [scanString, if_neg hclosed, hstep]
  rfl

/-- **An escaped string is read back exactly when it is UTF-8.** -/
theorem scanString_escaped (hescape : Escapes escape) (utf8 : Utf8) (text rest : List UInt8) :
    scanString (.text utf8) (text.flatMap escape ++ 34 :: rest) =
      if utf8.accepts text then some (text, rest) else none := by
  induction text generalizing utf8 with
  | nil =>
    rw [List.flatMap_nil, List.nil_append, Utf8.accepts_nil]
    by_cases hstart : utf8 = .start
    · subst hstart
      rfl
    · rw [scanString_inside hstart (by decide), if_neg]
      simpa using hstart
  | cons b text ih =>
    rw [List.flatMap_cons, List.append_assoc, Utf8.accepts_cons]
    rcases hescape b with ⟨hlow, hquote, hback, heq⟩ | ⟨hascii, hhead, hrun⟩
    · rw [heq, List.singleton_append, scanString_plain hlow hquote hback]
      cases utf8.step b with
      | none => rfl
      | some next =>
        show Option.map _ (scanString (.text next) _) = if next.accepts text = true then _ else _
        rw [ih]
        split
        · rfl
        · rfl
    · by_cases hstart : utf8 = .start
      · subst hstart
        rw [scanString_append hrun, ih, Utf8.step_ascii hascii]
        show Option.map _ _ = if Utf8.start.accepts text = true then _ else _
        split
        · rfl
        · rfl
      · obtain ⟨tail, htail⟩ : ∃ tail, escape b = 92 :: tail := by
          cases hall : escape b with
          | nil => rw [hall] at hhead; cases hhead
          | cons c tail =>
            rw [hall] at hhead
            cases hhead
            exact ⟨tail, rfl⟩
        rw [htail, List.cons_append, scanString_inside hstart (by decide), Utf8.step_inside hstart hascii]
        rfl

theorem scanString_writeString (hescape : Escapes escape) (text rest : List UInt8) :
    ∃ body, writeString escape text ++ rest = 34 :: body ∧
      scanString (.text .start) body = if Utf8.start.accepts text then some (text, rest) else none := by
  refine ⟨text.flatMap escape ++ 34 :: rest, ?_, scanString_escaped hescape .start text rest⟩
  rw [writeString, List.cons_append, List.append_assoc, List.singleton_append]

/-! ### Numbers -/

theorem numeric_of_step {state next : NumberState} {b : UInt8} (h : state.step b = some next) :
    numeric b = true := by
  rw [numeric, decide_eq_true_iff]
  by_contra hnot
  simp only [not_or] at hnot
  obtain ⟨hdigit, hplus, hminus, hpoint, hupper, hlower⟩ := hnot
  have hzero : b ≠ 48 := by
    intro heq
    exact hdigit (heq ▸ by decide)
  cases state <;>
    simp only [NumberState.step, NumberState.afterInteger, hdigit, hplus, hminus, hpoint, hupper, hlower,
      hzero, or_self, if_false, reduceCtorEq] at h

theorem numeric_of_accepts {state : NumberState} {text : List UInt8} (h : state.accepts text = true) :
    ∀ b ∈ text, numeric b = true := by
  induction text generalizing state with
  | nil => exact fun b hb => absurd hb List.not_mem_nil
  | cons b text ih =>
    rw [NumberState.accepts, List.foldlM_cons, Option.bind_eq_bind] at h
    cases hstep : state.step b with
    | none =>
      rw [hstep] at h
      cases h
    | some next =>
      rw [hstep] at h
      exact List.forall_mem_cons.2 ⟨numeric_of_step hstep, ih h⟩

/-- What follows a value does not lengthen a number. -/
def Ends (rest : List UInt8) : Prop :=
  ∀ b ∈ rest.head?, numeric b = false

theorem ends_nil : Ends [] := by
  intro b hb
  cases hb

theorem ends_cons {b : UInt8} (h : numeric b = false) (rest : List UInt8) : Ends (b :: rest) := by
  intro c hc
  cases hc
  exact h

theorem parseNumber_append (literal : Literal) {rest : List UInt8} (hrest : Ends rest) :
    parseNumber (literal.text ++ rest) = some (.number literal, rest) := by
  have hall := numeric_of_accepts literal.valid
  have htail : rest.takeWhile numeric = [] ∧ rest.dropWhile numeric = rest := by
    cases rest with
    | nil => exact ⟨rfl, rfl⟩
    | cons b rest =>
      have hb := hrest b rfl
      rw [List.takeWhile_cons, List.dropWhile_cons, hb]
      exact ⟨rfl, rfl⟩
  have htake : (literal.text ++ rest).takeWhile numeric = literal.text := by
    rw [List.takeWhile_append_of_pos hall, htail.1, List.append_nil]
  have hdrop : (literal.text ++ rest).dropWhile numeric = rest := by
    rw [List.dropWhile_append_of_pos hall, htail.2]
  have hvalid : NumberState.start.accepts ((literal.text ++ rest).takeWhile numeric) = true := by
    rw [htake]
    exact literal.valid
  rw [parseNumber, dif_pos hvalid, hdrop]
  simp only [htake]

theorem literal_head (literal : Literal) :
    ∃ b tail, literal.text = b :: tail ∧ numeric b = true := by
  cases hall : literal.text with
  | nil =>
    have hvalid := literal.valid
    rw [hall] at hvalid
    cases hvalid
  | cons b tail =>
    have hnumeric := numeric_of_accepts literal.valid
    rw [hall] at hnumeric
    exact ⟨b, tail, rfl, hnumeric b List.mem_cons_self⟩

/-! ### Integers -/

theorem foldlM_step_ofNat {state : NumberState} (hstate : state = .start ∨ state = .minus) (n : ℕ) :
    (Decimal.ofNat n).foldlM NumberState.step state = some (if n = 0 then .zero else .integer) := by
  have hdigit : ∀ d < 10, NumberState.Digit (UInt8.ofNat (48 + d)) ∧ UInt8.ofNat (48 + d) ≠ 45 ∧
      (UInt8.ofNat (48 + d) = 48 ↔ d = 0) := by
    decide
  induction n using Nat.strongRecOn with
  | ind n ih =>
    by_cases h : n < 10
    · obtain ⟨hin, hminus, hzero⟩ := hdigit n h
      rw [Decimal.ofNat_of_lt h, List.foldlM_cons]
      rcases hstate with rfl | rfl
      · rw [NumberState.step, if_neg hminus, if_pos hin]
        by_cases hn : n = 0
        · rw [if_pos (hzero.2 hn), if_pos hn]
          rfl
        · rw [if_neg fun heq => hn (hzero.1 heq), if_neg hn]
          rfl
      · rw [NumberState.step, if_pos hin]
        by_cases hn : n = 0
        · rw [if_pos (hzero.2 hn), if_pos hn]
          rfl
        · rw [if_neg fun heq => hn (hzero.1 heq), if_neg hn]
          rfl
    · have hin := (hdigit (n % 10) (Nat.mod_lt n (by decide))).1
      rw [Decimal.ofNat_of_le (Nat.le_of_not_lt h), List.foldlM_append, ih (n / 10) (by omega),
        if_neg (by omega : ¬n / 10 = 0), if_neg (by omega : ¬n = 0)]
      show NumberState.step .integer _ >>= _ = _
      rw [NumberState.step, if_pos hin]
      rfl

theorem accepts_ofNat {state : NumberState} (hstate : state = .start ∨ state = .minus) (n : ℕ) :
    state.accepts (Decimal.ofNat n) = true := by
  rw [NumberState.accepts, foldlM_step_ofNat hstate n]
  split
  · rfl
  · rfl

/-- An integer as a number of a document. -/
def Literal.ofInt (n : ℤ) : Literal where
  text := Decimal.ofInt n
  valid := by
    rw [Decimal.ofInt]
    split
    · exact accepts_ofNat (.inr rfl) n.natAbs
    · exact accepts_ofNat (.inl rfl) n.natAbs

theorem integer_ofInt (n : ℤ) : (Literal.ofInt n).integer = some n := by
  have hdigits := Decimal.digit_of_mem_ofNat n.natAbs
  have hplain : (Decimal.ofNat n.natAbs).any (fun b => b = 46 ∨ b = 69 ∨ b = 101) = false := by
    rw [List.any_eq_false]
    intro b hb
    have := hdigits b hb
    rw [decide_eq_true_iff]
    rintro (rfl | rfl | rfl)
    · exact absurd this (by decide)
    · exact absurd this (by decide)
    · exact absurd this (by decide)
  have htext : (Literal.ofInt n).text = Decimal.ofInt n := rfl
  rw [Literal.integer, htext, Decimal.ofInt]
  by_cases hneg : n < 0
  · have hzero : Decimal.ofNat n.natAbs ≠ [48] := by
      intro heq
      have hvalue := Decimal.value_ofNat n.natAbs
      rw [heq] at hvalue
      have : Decimal.value [48] = 0 := rfl
      omega
    rw [if_pos hneg, if_neg]
    · show some (-(Decimal.value (Decimal.ofNat n.natAbs) : ℤ)) = some n
      rw [Decimal.value_ofNat]
      exact congrArg some (by omega)
    · rw [List.any_cons, hplain]
      rintro (heq | heq)
      · exact hzero (List.tail_eq_of_cons_eq heq)
      · cases heq
  · have hminus : ∀ tail, Decimal.ofNat n.natAbs ≠ 45 :: tail := by
      intro tail heq
      have := hdigits 45 (heq ▸ List.mem_cons_self)
      exact absurd this (by decide)
    rw [if_neg hneg, if_neg]
    · split
      · rename_i heq
        exact absurd heq (hminus _)
      · rw [Decimal.value_ofNat]
        exact congrArg some (by omega)
    · rw [hplain]
      rintro (heq | heq)
      · exact hminus _ heq
      · cases heq

/-! ### Values -/

theorem skipSpace_cons {b : UInt8} (h : space b = false) (rest : List UInt8) :
    skipSpace (b :: rest) = b :: rest := by
  rw [skipSpace, List.dropWhile_cons, h]
  rfl

theorem write_head (value : Value) :
    ∃ b tail, value.write escape = b :: tail ∧ space b = false ∧ b ≠ 93 := by
  cases value with
  | null => exact ⟨110, _, rfl, rfl, by decide⟩
  | bool b =>
    cases b with
    | true => exact ⟨116, _, rfl, rfl, by decide⟩
    | false => exact ⟨102, _, rfl, rfl, by decide⟩
  | number literal =>
    obtain ⟨b, tail, hall, hnumeric⟩ := literal_head literal
    refine ⟨b, tail, hall, ?_, ?_⟩
    · by_contra hspace
      rw [Bool.not_eq_false, space, decide_eq_true_iff] at hspace
      rcases hspace with rfl | rfl | rfl | rfl <;> exact absurd hnumeric (by decide)
    · intro heq
      subst heq
      exact absurd hnumeric (by decide)
  | string text => exact ⟨34, _, rfl, rfl, by decide⟩
  | array items => exact ⟨91, _, rfl, rfl, by decide⟩
  | object members => exact ⟨123, _, rfl, rfl, by decide⟩

theorem parseValue_number (literal : Literal) (fuel : ℕ) {rest : List UInt8} (hrest : Ends rest) :
    parseValue (fuel + 1) (literal.text ++ rest) = some (.number literal, rest) := by
  have hparse := parseNumber_append literal hrest
  obtain ⟨b, tail, hall, hnumeric⟩ := literal_head literal
  have hspace : space b = false := by
    by_contra hspace
    rw [Bool.not_eq_false, space, decide_eq_true_iff] at hspace
    rcases hspace with rfl | rfl | rfl | rfl <;> exact absurd hnumeric (by decide)
  rw [hall, List.cons_append] at hparse ⊢
  rw [parseValue, skipSpace_cons hspace]
  split
  iterate 6
    · rename_i heq
      cases heq
      exact absurd hnumeric (by decide)
  · exact hparse

theorem parseValue_bracket (fuel : ℕ) (rest : List UInt8) :
    parseValue (fuel + 1) (91 :: rest) =
      (match skipSpace rest with
      | 93 :: rest => some (Value.array [], rest)
      | rest => do
        let (items, rest) ← parseItems fuel rest
        pure (Value.array items, rest)) := by
  rw [parseValue]
  rfl

theorem parseValue_items {b : UInt8} (hspace : space b = false) (hb : b ≠ 93) (fuel : ℕ)
    (tail : List UInt8) :
    parseValue (fuel + 1) (91 :: b :: tail) =
      (parseItems fuel (b :: tail)).map fun read => (.array read.1, read.2) := by
  rw [parseValue_bracket, skipSpace_cons hspace]
  split
  · rename_i heq
    cases heq
    exact absurd rfl hb
  · cases parseItems fuel (b :: tail) with
    | none => rfl
    | some read => rfl

theorem parseValue_brace (fuel : ℕ) (tail : List UInt8) :
    parseValue (fuel + 1) (123 :: 34 :: tail) = (do
      let (members, rest) ← parseMembers fuel (34 :: tail)
      pure (Value.object members, rest)) := by
  rw [parseValue]
  rfl

theorem parseValue_members (fuel : ℕ) (tail : List UInt8) :
    parseValue (fuel + 1) (123 :: 34 :: tail) =
      (parseMembers fuel (34 :: tail)).map fun read => (.object read.1, read.2) := by
  rw [parseValue_brace]
  cases parseMembers fuel (34 :: tail) with
  | none => rfl
  | some read => rfl

theorem parseItems_of_value {item : Value} {fuel : ℕ} {input rest : List UInt8}
    (h : parseValue fuel input = some (item, rest)) :
    parseItems (fuel + 1) input =
      (match skipSpace rest with
      | 44 :: rest => do
        let (items, rest) ← parseItems fuel rest
        pure (item :: items, rest)
      | 93 :: rest => some ([item], rest)
      | _ => none) := by
  rw [parseItems, h]
  rfl

/-- One item and what comes after it. -/
theorem parseItems_cons {item : Value} {fuel : ℕ} {input rest : List UInt8}
    (h : parseValue fuel input = if item.unicode then some (item, rest) else none) :
    parseItems (fuel + 1) input = if item.unicode then
      (match skipSpace rest with
      | 44 :: rest => (parseItems fuel rest).map fun read => (item :: read.1, read.2)
      | 93 :: rest => some ([item], rest)
      | _ => none) else none := by
  cases hunicode : item.unicode with
  | false =>
    rw [hunicode] at h
    rw [parseItems, h]
    rfl
  | true =>
    rw [hunicode] at h
    rw [parseItems_of_value h]
    split
    · rename_i rest _
      cases parseItems fuel rest with
      | none => rfl
      | some read => rfl
    · rfl
    · rfl

theorem parseMembers_quote (fuel : ℕ) (body : List UInt8) :
    parseMembers (fuel + 1) (34 :: body) = (do
      let (name, rest) ← scanString (.text .start) body
      match skipSpace rest with
      | 58 :: rest => do
        let (item, rest) ← parseValue fuel rest
        match skipSpace rest with
        | 44 :: rest => do
          let (members, rest) ← parseMembers fuel rest
          pure ((name, item) :: members, rest)
        | 125 :: rest => some ([(name, item)], rest)
        | _ => none
      | _ => none) := by
  rw [parseMembers]
  rfl

theorem parseMembers_of_name {name body input : List UInt8} (fuel : ℕ)
    (h : scanString (.text .start) body = some (name, 58 :: input)) :
    parseMembers (fuel + 1) (34 :: body) = (do
      let (item, rest) ← parseValue fuel input
      match skipSpace rest with
      | 44 :: rest => do
        let (members, rest) ← parseMembers fuel rest
        pure ((name, item) :: members, rest)
      | 125 :: rest => some ([(name, item)], rest)
      | _ => none) := by
  rw [parseMembers_quote, h]
  rfl

theorem parseMembers_of_item {name body input rest : List UInt8} {item : Value} {fuel : ℕ}
    (hname : scanString (.text .start) body = some (name, 58 :: input))
    (h : parseValue fuel input = some (item, rest)) :
    parseMembers (fuel + 1) (34 :: body) =
      (match skipSpace rest with
      | 44 :: rest => do
        let (members, rest) ← parseMembers fuel rest
        pure ((name, item) :: members, rest)
      | 125 :: rest => some ([(name, item)], rest)
      | _ => none) := by
  rw [parseMembers_of_name fuel hname, h]
  rfl

/-- One member and what comes after it. -/
theorem parseMembers_cons (hescape : Escapes escape) {name : List UInt8} {item : Value} {fuel : ℕ}
    {input rest : List UInt8}
    (h : parseValue fuel input = if item.unicode then some (item, rest) else none) :
    parseMembers (fuel + 1) (writeString escape name ++ 58 :: input) =
      if Utf8.start.accepts name && item.unicode then
        (match skipSpace rest with
        | 44 :: rest => (parseMembers fuel rest).map fun read => ((name, item) :: read.1, read.2)
        | 125 :: rest => some ([(name, item)], rest)
        | _ => none) else none := by
  obtain ⟨body, hwrite, hscan⟩ := scanString_writeString hescape name (58 :: input)
  rw [hwrite]
  cases hname : Utf8.start.accepts name with
  | false =>
    rw [hname] at hscan
    rw [parseMembers_quote, hscan]
    rfl
  | true =>
    rw [hname] at hscan
    cases hunicode : item.unicode with
    | false =>
      rw [hunicode] at h
      rw [parseMembers_of_name fuel hscan, h]
      rfl
    | true =>
      rw [hunicode] at h
      rw [parseMembers_of_item hscan h]
      split
      · rename_i rest _
        cases parseMembers fuel rest with
        | none => rfl
        | some read => rfl
      · rfl
      · rfl

theorem size_pos (value : Value) : 0 < value.size := by
  cases value with
  | null | bool b | number literal | string text => exact Nat.one_pos
  | array items =>
    rw [Value.size]
    exact Nat.succ_pos _
  | object members =>
    rw [Value.size]
    exact Nat.succ_pos _

mutual

/-- **A written value is read back when its strings are UTF-8, and refused when one is not.** -/
theorem parseValue_write (hescape : Escapes escape) (fuel : ℕ) (value : Value) (hfuel : value.size ≤ fuel)
    {rest : List UInt8} (hrest : Ends rest) :
    parseValue fuel (value.write escape ++ rest) = if value.unicode then some (value, rest) else none := by
  cases fuel with
  | zero => exact absurd hfuel (Nat.not_le.2 (size_pos value))
  | succ fuel =>
    cases value with
    | null => rfl
    | bool b =>
      cases b with
      | true => rfl
      | false => rfl
    | number literal => exact parseValue_number literal fuel hrest
    | string text =>
      obtain ⟨body, hwrite, hscan⟩ := scanString_writeString hescape text rest
      rw [Value.write, hwrite, parseValue, Value.unicode]
      show (do
        let (text, rest) ← scanString (.text .start) body
        pure (Value.string text, rest)) = _
      rw [hscan]
      cases Utf8.start.accepts text with
      | true => rfl
      | false => rfl
    | array items =>
      rw [Value.size] at hfuel
      rw [Value.write, Value.unicode]
      cases items with
      | nil => rfl
      | cons item items =>
        have hitems := parseItems_write hescape fuel item items (Nat.le_of_succ_le_succ hfuel) rest
        obtain ⟨b, tail, hwrite, hspace, hb⟩ := @write_head escape item
        obtain ⟨more, hmore⟩ : ∃ more, writeItems escape (item :: items) = b :: more := by
          cases items with
          | nil => exact ⟨_, by rw [writeItems, hwrite, List.cons_append]⟩
          | cons next items => exact ⟨_, by rw [writeItems, hwrite, List.cons_append]⟩
        rw [hmore] at hitems ⊢
        rw [List.cons_append, List.cons_append, parseValue_items hspace hb, ← List.cons_append, hitems]
        cases unicodeItems (item :: items) with
        | true => rfl
        | false => rfl
    | object members =>
      rw [Value.size] at hfuel
      rw [Value.write, Value.unicode]
      cases members with
      | nil => rfl
      | cons member members =>
        have hmembers := parseMembers_write hescape fuel member members (Nat.le_of_succ_le_succ hfuel) rest
        obtain ⟨more, hmore⟩ : ∃ more, writeMembers escape (member :: members) = 34 :: more := by
          cases members with
          | nil => exact ⟨_, rfl⟩
          | cons next members => exact ⟨_, rfl⟩
        rw [hmore] at hmembers ⊢
        rw [List.cons_append, List.cons_append, parseValue_members, ← List.cons_append, hmembers]
        cases unicodeMembers (member :: members) with
        | true => rfl
        | false => rfl
termination_by fuel

theorem parseItems_write (hescape : Escapes escape) (fuel : ℕ) (item : Value) (items : List Value)
    (hfuel : sizeItems (item :: items) ≤ fuel) (rest : List UInt8) :
    parseItems fuel (writeItems escape (item :: items) ++ rest) =
      if unicodeItems (item :: items) then some (item :: items, rest) else none := by
  rw [sizeItems] at hfuel
  cases fuel with
  | zero => omega
  | succ fuel =>
    cases items with
    | nil =>
      have hitem := parseValue_write hescape fuel item (by omega) (@ends_cons 93 rfl rest)
      rw [writeItems, List.append_assoc, List.singleton_append, parseItems_cons hitem, unicodeItems,
        unicodeItems, Bool.and_true]
      rfl
    | cons next items =>
      have hitem := parseValue_write hescape fuel item (by omega)
        (@ends_cons 44 rfl (writeItems escape (next :: items) ++ rest))
      have hitems := parseItems_write hescape fuel next items (by omega) rest
      rw [writeItems, List.append_assoc, List.cons_append, parseItems_cons hitem, unicodeItems]
      show (if item.unicode = true then
        Option.map _ (parseItems fuel (writeItems escape (next :: items) ++ rest)) else none) = _
      rw [hitems]
      cases item.unicode with
      | false => rfl
      | true =>
        rw [Bool.true_and]
        cases unicodeItems (next :: items) with
        | true => rfl
        | false => rfl
termination_by fuel

theorem parseMembers_write (hescape : Escapes escape) (fuel : ℕ) (member : List UInt8 × Value)
    (members : List (List UInt8 × Value)) (hfuel : sizeMembers (member :: members) ≤ fuel)
    (rest : List UInt8) :
    parseMembers fuel (writeMembers escape (member :: members) ++ rest) =
      if unicodeMembers (member :: members) then some (member :: members, rest) else none := by
  rw [sizeMembers] at hfuel
  cases fuel with
  | zero => omega
  | succ fuel =>
    cases members with
    | nil =>
      have hitem := parseValue_write hescape fuel member.2 (by omega) (@ends_cons 125 rfl rest)
      rw [writeMembers, List.append_assoc, List.cons_append, List.append_assoc, List.singleton_append,
        parseMembers_cons hescape hitem, unicodeMembers, unicodeMembers, Bool.and_true]
      rfl
    | cons next members =>
      have hitem := parseValue_write hescape fuel member.2 (by omega)
        (@ends_cons 44 rfl (writeMembers escape (next :: members) ++ rest))
      have hmembers := parseMembers_write hescape fuel next members (by omega) rest
      rw [writeMembers, List.append_assoc, List.cons_append, List.append_assoc, List.cons_append,
        parseMembers_cons hescape hitem, unicodeMembers, ← Bool.and_assoc]
      show (if (Utf8.start.accepts member.1 && member.2.unicode) = true then
        Option.map _ (parseMembers fuel (writeMembers escape (next :: members) ++ rest)) else none) = _
      rw [hmembers]
      cases Utf8.start.accepts member.1 && member.2.unicode with
      | false => rfl
      | true =>
        rw [Bool.true_and]
        cases unicodeMembers (next :: members) with
        | true => rfl
        | false => rfl
termination_by fuel

end

mutual

theorem size_le_write : ∀ value : Value, value.size ≤ (value.write escape).length
  | .null => by
    rw [Value.write]
    exact Nat.le_add_left 1 3
  | .bool true => by
    rw [Value.write]
    exact Nat.le_add_left 1 3
  | .bool false => by
    rw [Value.write]
    exact Nat.le_add_left 1 4
  | .number literal => by
    obtain ⟨b, tail, hall, -⟩ := literal_head literal
    rw [Value.write, hall]
    exact Nat.le_add_left 1 tail.length
  | .string text => by
    rw [Value.write]
    exact Nat.le_add_left 1 _
  | .array items => by
    rw [Value.size, Value.write, List.length_cons]
    exact Nat.succ_le_succ (sizeItems_le_write items)
  | .object members => by
    rw [Value.size, Value.write, List.length_cons]
    exact Nat.succ_le_succ (sizeMembers_le_write members)

theorem sizeItems_le_write : ∀ items : List Value, sizeItems items ≤ (writeItems escape items).length
  | [] => Nat.zero_le _
  | [item] => by
    have hitem := size_le_write item
    rw [sizeItems, sizeItems, writeItems, List.length_append, List.length_singleton]
    omega
  | item :: next :: items => by
    have hitem := size_le_write item
    have hitems := sizeItems_le_write (next :: items)
    rw [sizeItems, writeItems, List.length_append, List.length_cons]
    omega

theorem sizeMembers_le_write :
    ∀ members : List (List UInt8 × Value), sizeMembers members ≤ (writeMembers escape members).length
  | [] => Nat.zero_le _
  | [(_, item)] => by
    have hitem := size_le_write item
    rw [sizeMembers, sizeMembers, writeMembers, List.length_append, List.length_cons, List.length_append,
      List.length_singleton]
    omega
  | (_, item) :: next :: members => by
    have hitem := size_le_write item
    have hmembers := sizeMembers_le_write (next :: members)
    rw [sizeMembers, writeMembers, List.length_append, List.length_cons, List.length_append, List.length_cons]
    omega

end

/-- **A document is read back exactly when its strings are UTF-8.** -/
theorem parse_write (hescape : Escapes escape) (value : Value) :
    parse (value.write escape) = if value.unicode then some value else none := by
  have h := parseValue_write hescape _ value (@size_le_write escape value) ends_nil
  rw [List.append_nil] at h
  rw [parse, h]
  cases value.unicode with
  | true => rfl
  | false => rfl

end Json
