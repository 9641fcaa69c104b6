import Mathlib.Data.List.Induction
import Zaxonlite.Lib.Hex

/-!
# Decimal text

The decimal counterpart of the hexadecimal reader: a sign, underscores between digits, overflow checked
while accumulating. The texts it reads are described without it, by a grammar.
-/

namespace Decimal

/-- `charToDigit` in base ten. -/
def charToDigit (c : UInt8) : Option ℕ :=
  if 48 ≤ c.toNat ∧ c.toNat ≤ 57 then some (c.toNat - 48) else none

/-- One character of a positive number that must not exceed `max`. -/
def accumulate (max acc : ℕ) (c : UInt8) : Option ℕ :=
  if c = 95 then some acc
  else do
    let value ← charToDigit c
    if 10 * acc + value ≤ max then some (10 * acc + value) else none

/-- One character of a negative number: an unsigned result admits only zeros. -/
def accumulateNegative (acc : ℕ) (c : UInt8) : Option ℕ :=
  if c = 95 then some acc
  else do
    let value ← charToDigit c
    if value = 0 then some acc else none

/-- `parseInt` of an unsigned type in base ten. -/
def parseInt (max : ℕ) : List UInt8 → Option ℕ
  | [] => none
  | 43 :: rest => Hex.parseDigits (accumulate max) rest
  | 45 :: rest => Hex.parseDigits accumulateNegative rest
  | text => Hex.parseDigits (accumulate max) text

/-! ### The grammar -/

/-- A digit or an underscore. -/
def Figure (c : UInt8) : Prop :=
  c = 95 ∨ 48 ≤ c.toNat ∧ c.toNat ≤ 57

instance (c : UInt8) : Decidable (Figure c) :=
  inferInstanceAs (Decidable (_ ∨ _))

/-- Digits, with underscores only between them. -/
structure Numeral (text : List UInt8) : Prop where
  nonempty : text ≠ []
  head : text.head? ≠ some 95
  last : text.getLast? ≠ some 95
  figures : ∀ c ∈ text, Figure c

/-- One more digit; an underscore counts for nothing. -/
def append (acc : ℕ) (c : UInt8) : ℕ :=
  if c = 95 then acc else 10 * acc + (c.toNat - 48)

/-- The number a numeral stands for. -/
def value (text : List UInt8) : ℕ :=
  text.foldl append 0

/-- The texts of a number no greater than `max`, with or without a sign. -/
inductive Signed (max : ℕ) : List UInt8 → ℕ → Prop
  | plain {text : List UInt8} (h : Numeral text) (hmax : value text ≤ max) : Signed max text (value text)
  | plus {text : List UInt8} (h : Numeral text) (hmax : value text ≤ max) :
    Signed max (43 :: text) (value text)
  | minus {text : List UInt8} (h : Numeral text) (hzero : value text = 0) : Signed max (45 :: text) 0

/-! ### The reader reads the grammar -/

theorem charToDigit_eq_some {c : UInt8} {n : ℕ} :
    charToDigit c = some n ↔ (48 ≤ c.toNat ∧ c.toNat ≤ 57) ∧ n = c.toNat - 48 := by
  unfold charToDigit
  split
  · rename_i h
    rw [Option.some.injEq]
    exact ⟨fun heq => ⟨h, heq.symm⟩, fun heq => heq.2.symm⟩
  · rename_i h
    constructor
    · intro heq
      cases heq
    · intro heq
      exact absurd heq.1 h

theorem accumulate_eq_some {max acc n : ℕ} {c : UInt8} (hacc : acc ≤ max) :
    accumulate max acc c = some n ↔ Figure c ∧ n = append acc c ∧ n ≤ max := by
  unfold accumulate append Figure
  by_cases hc : c = 95
  · rw [if_pos hc, if_pos hc, Option.some.injEq]
    constructor
    · intro heq
      exact ⟨.inl hc, heq.symm, heq ▸ hacc⟩
    · intro heq
      exact heq.2.1.symm
  · rw [if_neg hc, if_neg hc, Option.bind_eq_bind, Option.bind_eq_some_iff]
    constructor
    · rintro ⟨digit, hdigit, h⟩
      obtain ⟨hrange, rfl⟩ := charToDigit_eq_some.1 hdigit
      rw [Option.ite_none_right_eq_some, Option.some.injEq] at h
      exact ⟨.inr hrange, h.2.symm, h.2 ▸ h.1⟩
    · rintro ⟨hfigure, rfl, hmax⟩
      refine ⟨c.toNat - 48, charToDigit_eq_some.2 ⟨hfigure.resolve_left hc, rfl⟩, ?_⟩
      rw [if_pos hmax]

theorem accumulateNegative_eq_some {acc n : ℕ} {c : UInt8} :
    accumulateNegative acc c = some n ↔ Figure c ∧ (c = 95 ∨ c.toNat = 48) ∧ n = acc := by
  unfold accumulateNegative Figure
  by_cases hc : c = 95
  · rw [if_pos hc, Option.some.injEq]
    exact ⟨fun heq => ⟨.inl hc, .inl hc, heq.symm⟩, fun heq => heq.2.2.symm⟩
  · rw [if_neg hc, Option.bind_eq_bind, Option.bind_eq_some_iff]
    constructor
    · rintro ⟨digit, hdigit, h⟩
      obtain ⟨hrange, rfl⟩ := charToDigit_eq_some.1 hdigit
      rw [Option.ite_none_right_eq_some, Option.some.injEq] at h
      exact ⟨.inr hrange, .inr (by omega), h.2.symm⟩
    · rintro ⟨hfigure, hzero, rfl⟩
      refine ⟨c.toNat - 48, charToDigit_eq_some.2 ⟨hfigure.resolve_left hc, rfl⟩, ?_⟩
      have := hzero.resolve_left hc
      rw [if_pos (by omega)]

theorem le_append (acc : ℕ) (c : UInt8) : acc ≤ append acc c := by
  unfold append
  split <;> omega

theorem le_foldl_append (text : List UInt8) (acc : ℕ) : acc ≤ text.foldl append acc := by
  induction text generalizing acc with
  | nil => exact le_rfl
  | cons c text ih => exact le_trans (le_append acc c) (ih (append acc c))

/-- The running value never goes down, so the check at every digit is one check at the end. -/
theorem foldlM_accumulate_eq_some {max acc n : ℕ} {text : List UInt8} (hacc : acc ≤ max) :
    text.foldlM (accumulate max) acc = some n ↔
      (∀ c ∈ text, Figure c) ∧ n = text.foldl append acc ∧ n ≤ max := by
  induction text generalizing acc with
  | nil =>
    rw [List.foldlM_nil, Option.pure_def, Option.some.injEq]
    constructor
    · intro heq
      exact ⟨fun _ hno => absurd hno List.not_mem_nil, heq.symm, heq ▸ hacc⟩
    · intro heq
      exact heq.2.1.symm
  | cons c text ih =>
    rw [List.foldlM_cons, Option.bind_eq_bind, Option.bind_eq_some_iff, List.forall_mem_cons,
      List.foldl_cons]
    constructor
    · rintro ⟨next, hnext, hrest⟩
      obtain ⟨hc, rfl, hle⟩ := (accumulate_eq_some hacc).1 hnext
      obtain ⟨hall, heq, hmax⟩ := (ih hle).1 hrest
      exact ⟨⟨hc, hall⟩, heq, hmax⟩
    · rintro ⟨⟨hc, hall⟩, heq, hmax⟩
      have hle : append acc c ≤ max := by
        have := le_foldl_append text (append acc c)
        omega
      exact ⟨append acc c, (accumulate_eq_some hacc).2 ⟨hc, rfl, hle⟩, (ih hle).2 ⟨hall, heq, hmax⟩⟩

theorem foldl_append_eq_zero {text : List UInt8} (h : ∀ c ∈ text, Figure c) :
    text.foldl append 0 = 0 ↔ ∀ c ∈ text, c = 95 ∨ c.toNat = 48 := by
  induction text with
  | nil => exact ⟨fun _ _ hno => absurd hno List.not_mem_nil, fun _ => rfl⟩
  | cons c text ih =>
    obtain ⟨hc, htext⟩ := List.forall_mem_cons.1 h
    rw [List.foldl_cons, List.forall_mem_cons]
    have hstep : append 0 c = 0 ↔ c = 95 ∨ c.toNat = 48 := by
      unfold append
      split
      · rename_i hunder
        exact ⟨fun _ => .inl hunder, fun _ => rfl⟩
      · rename_i hunder
        have hrange := hc.resolve_left hunder
        constructor
        · intro hzero
          exact .inr (by omega)
        · intro hzero
          have := hzero.resolve_left hunder
          omega
    constructor
    · intro hzero
      have hfirst : append 0 c = 0 := by
        have := le_foldl_append text (append 0 c)
        omega
      rw [hfirst] at hzero
      exact ⟨hstep.1 hfirst, (ih htext).1 hzero⟩
    · rintro ⟨hfirst, hrest⟩
      rw [hstep.2 hfirst]
      exact (ih htext).2 hrest

theorem foldlM_accumulateNegative_eq_some {acc n : ℕ} {text : List UInt8} :
    text.foldlM accumulateNegative acc = some n ↔
      (∀ c ∈ text, Figure c) ∧ (∀ c ∈ text, c = 95 ∨ c.toNat = 48) ∧ n = acc := by
  induction text generalizing acc with
  | nil =>
    rw [List.foldlM_nil, Option.pure_def, Option.some.injEq]
    exact ⟨fun heq => ⟨fun _ hno => absurd hno List.not_mem_nil,
      fun _ hno => absurd hno List.not_mem_nil, heq.symm⟩, fun heq => heq.2.2.symm⟩
  | cons c text ih =>
    rw [List.foldlM_cons, Option.bind_eq_bind, Option.bind_eq_some_iff, List.forall_mem_cons,
      List.forall_mem_cons]
    constructor
    · rintro ⟨next, hnext, hrest⟩
      obtain ⟨hc, hzero, rfl⟩ := accumulateNegative_eq_some.1 hnext
      obtain ⟨hall, hzeros, heq⟩ := ih.1 hrest
      exact ⟨⟨hc, hall⟩, ⟨hzero, hzeros⟩, heq⟩
    · rintro ⟨⟨hc, hall⟩, ⟨hzero, hzeros⟩, heq⟩
      exact ⟨acc, accumulateNegative_eq_some.2 ⟨hc, hzero, rfl⟩, ih.2 ⟨hall, hzeros, heq⟩⟩

theorem parseDigits_eq_some {step : ℕ → UInt8 → Option ℕ} {text : List UInt8} {n : ℕ} :
    Hex.parseDigits step text = some n ↔
      (text ≠ [] ∧ text.head? ≠ some 95 ∧ text.getLast? ≠ some 95) ∧ text.foldlM step 0 = some n := by
  unfold Hex.parseDigits
  rw [Option.ite_none_left_eq_some, not_or, not_or]

theorem parseDigits_accumulate {max n : ℕ} {text : List UInt8} :
    Hex.parseDigits (accumulate max) text = some n ↔ Numeral text ∧ n = value text ∧ n ≤ max := by
  rw [parseDigits_eq_some, foldlM_accumulate_eq_some (Nat.zero_le max)]
  constructor
  · rintro ⟨⟨hne, hhead, hlast⟩, hall, heq, hmax⟩
    exact ⟨⟨hne, hhead, hlast, hall⟩, heq, hmax⟩
  · rintro ⟨hnum, heq, hmax⟩
    exact ⟨⟨hnum.nonempty, hnum.head, hnum.last⟩, hnum.figures, heq, hmax⟩

theorem parseDigits_accumulateNegative {n : ℕ} {text : List UInt8} :
    Hex.parseDigits accumulateNegative text = some n ↔ Numeral text ∧ value text = 0 ∧ n = 0 := by
  rw [parseDigits_eq_some, foldlM_accumulateNegative_eq_some]
  constructor
  · rintro ⟨⟨hne, hhead, hlast⟩, hall, hzeros, heq⟩
    exact ⟨⟨hne, hhead, hlast, hall⟩, (foldl_append_eq_zero hall).2 hzeros, heq⟩
  · rintro ⟨hnum, hzero, heq⟩
    exact ⟨⟨hnum.nonempty, hnum.head, hnum.last⟩, hnum.figures,
      (foldl_append_eq_zero hnum.figures).1 hzero, heq⟩

/-- **`parseInt` reads exactly the grammar.** -/
theorem parseInt_eq_some {max n : ℕ} {text : List UInt8} :
    parseInt max text = some n ↔ Signed max text n := by
  unfold parseInt
  split
  · constructor
    · intro h
      cases h
    · intro h
      cases h with
      | plain h => exact absurd rfl h.nonempty
  · rename_i rest
    rw [parseDigits_accumulate]
    constructor
    · rintro ⟨hnum, rfl, hmax⟩
      exact .plus hnum hmax
    · intro h
      cases h with
      | plain h => exact absurd (h.figures 43 List.mem_cons_self) (by decide)
      | plus h hmax => exact ⟨h, rfl, hmax⟩
  · rename_i rest
    rw [parseDigits_accumulateNegative]
    constructor
    · rintro ⟨hnum, hzero, rfl⟩
      exact .minus hnum hzero
    · intro h
      cases h with
      | plain h => exact absurd (h.figures 45 List.mem_cons_self) (by decide)
      | minus h hzero => exact ⟨h, hzero, rfl⟩
  · rename_i hplus hminus
    rw [parseDigits_accumulate]
    constructor
    · rintro ⟨hnum, rfl, hmax⟩
      exact .plain hnum hmax
    · intro h
      cases h with
      | plain h hmax => exact ⟨h, rfl, hmax⟩
      | plus h => exact absurd rfl (hplus _)
      | minus h => exact absurd rfl (hminus _)

theorem Signed.not_mem {max n : ℕ} {text : List UInt8} {c : UInt8} (h : Signed max text n)
    (hfigure : ¬Figure c) (hplus : c ≠ 43) (hminus : c ≠ 45) : c ∉ text := by
  intro hc
  cases h with
  | plain h => exact hfigure (h.figures c hc)
  | plus h => exact hfigure (h.figures c ((List.mem_cons.1 hc).resolve_left hplus))
  | minus h => exact hfigure (h.figures c ((List.mem_cons.1 hc).resolve_left hminus))

theorem Signed.ne_nil {max n : ℕ} {text : List UInt8} (h : Signed max text n) : text ≠ [] := by
  cases h with
  | plain h => exact h.nonempty
  | plus h => exact List.cons_ne_nil _ _
  | minus h => exact List.cons_ne_nil _ _

theorem Signed.le_max {max n : ℕ} {text : List UInt8} (h : Signed max text n) : n ≤ max := by
  cases h with
  | plain h hmax => exact hmax
  | plus h hmax => exact hmax
  | minus h => exact Nat.zero_le max

/-! ### Writing -/

/-- A natural number in decimal. -/
def ofNat (n : ℕ) : List UInt8 :=
  (Nat.toDigits 10 n).map fun c => UInt8.ofNat c.toNat

/-- An integer in decimal, with a sign when it is negative. -/
def ofInt (n : ℤ) : List UInt8 :=
  if n < 0 then 45 :: ofNat n.natAbs else ofNat n.natAbs

theorem digitChar_facts : ∀ n < 10, UInt8.ofNat (Nat.digitChar n).toNat = UInt8.ofNat (48 + n) ∧
    (UInt8.ofNat (48 + n)).toNat = 48 + n := by
  decide

theorem ofNat_of_lt {n : ℕ} (h : n < 10) : ofNat n = [UInt8.ofNat (48 + n)] := by
  rw [ofNat, Nat.toDigits_of_lt_base h, List.map_singleton, (digitChar_facts n h).1]

theorem ofNat_of_le {n : ℕ} (h : 10 ≤ n) : ofNat n = ofNat (n / 10) ++ [UInt8.ofNat (48 + n % 10)] := by
  rw [ofNat, Nat.toDigits_of_base_le (by decide) h, List.map_append, List.map_singleton,
    (digitChar_facts (n % 10) (Nat.mod_lt n (by decide))).1]
  rfl

theorem append_digit (acc : ℕ) {n : ℕ} (h : n < 10) : append acc (UInt8.ofNat (48 + n)) = 10 * acc + n := by
  have hbyte := (digitChar_facts n h).2
  have hunder : UInt8.ofNat (48 + n) ≠ 95 := by
    intro heq
    rw [heq] at hbyte
    have : (95 : UInt8).toNat = 95 := rfl
    omega
  rw [append, if_neg hunder, hbyte, Nat.add_sub_cancel_left]

theorem value_ofNat (n : ℕ) : value (ofNat n) = n := by
  induction n using Nat.strongRecOn with
  | ind n ih =>
    by_cases h : n < 10
    · rw [ofNat_of_lt h, value, List.foldl_cons, List.foldl_nil, append_digit 0 h]
      omega
    · have hle : 10 ≤ n := Nat.le_of_not_lt h
      have hprefix := ih (n / 10) (by omega)
      rw [value] at hprefix
      rw [ofNat_of_le hle, value, List.foldl_append, hprefix, List.foldl_cons, List.foldl_nil,
        append_digit _ (Nat.mod_lt n (by decide))]
      omega

theorem digit_of_mem_ofNat (n : ℕ) : ∀ c ∈ ofNat n, 48 ≤ c.toNat ∧ c.toNat ≤ 57 := by
  have hdigit {m : ℕ} (h : m < 10) : 48 ≤ (UInt8.ofNat (48 + m)).toNat ∧
      (UInt8.ofNat (48 + m)).toNat ≤ 57 := by
    rw [(digitChar_facts m h).2]
    omega
  induction n using Nat.strongRecOn with
  | ind n ih =>
    by_cases h : n < 10
    · rw [ofNat_of_lt h]
      intro c hc
      rw [List.mem_singleton.1 hc]
      exact hdigit h
    · rw [ofNat_of_le (Nat.le_of_not_lt h)]
      intro c hc
      rcases List.mem_append.1 hc with hc | hc
      · exact ih (n / 10) (by omega) c hc
      · rw [List.mem_singleton.1 hc]
        exact hdigit (Nat.mod_lt n (by decide))

theorem ofNat_ne_nil (n : ℕ) : ofNat n ≠ [] := by
  by_cases h : n < 10
  · rw [ofNat_of_lt h]
    exact List.cons_ne_nil _ _
  · rw [ofNat_of_le (Nat.le_of_not_lt h)]
    exact List.concat_ne_nil _ _

theorem length_ofNat_le {n k : ℕ} (hk : 0 < k) (h : n < 10 ^ k) : (ofNat n).length ≤ k := by
  induction k, hk using Nat.le_induction generalizing n with
  | base =>
    rw [ofNat_of_lt (by omega)]
    exact le_rfl
  | succ k hk ih =>
    by_cases hn : n < 10
    · rw [ofNat_of_lt hn, List.length_singleton]
      omega
    · have hrest := ih (n := n / 10) (by omega)
      rw [ofNat_of_le (Nat.le_of_not_lt hn), List.length_append, List.length_singleton]
      omega

theorem head?_ofNat {n : ℕ} (h : 0 < n) : (ofNat n).head? ≠ some 48 := by
  induction n using Nat.strongRecOn with
  | ind n ih =>
    by_cases hn : n < 10
    · rw [ofNat_of_lt hn, List.head?_cons, ne_eq, Option.some.injEq]
      intro heq
      have hbyte := (digitChar_facts n hn).2
      rw [heq] at hbyte
      have : (48 : UInt8).toNat = 48 := rfl
      omega
    · rw [ofNat_of_le (Nat.le_of_not_lt hn), List.head?_append_of_ne_nil _ (ofNat_ne_nil _)]
      exact ih (n / 10) (by omega) (by omega)

theorem not_mem_ofNat (n : ℕ) {c : UInt8} (h : ¬(48 ≤ c.toNat ∧ c.toNat ≤ 57)) : c ∉ ofNat n :=
  fun hc => h (digit_of_mem_ofNat n c hc)

theorem numeral_of_digits {text : List UInt8} (hne : text ≠ [])
    (hdigits : ∀ c ∈ text, 48 ≤ c.toNat ∧ c.toNat ≤ 57) : Numeral text where
  nonempty := hne
  head := by
    intro h
    exact absurd (hdigits 95 (List.mem_of_head? h)) (by decide)
  last := by
    intro h
    exact absurd (hdigits 95 (List.mem_of_getLast? h)) (by decide)
  figures := fun c hc => .inr (hdigits c hc)

theorem numeral_ofNat (n : ℕ) : Numeral (ofNat n) :=
  numeral_of_digits (ofNat_ne_nil n) (digit_of_mem_ofNat n)

/-- Digits without a zero in front are the written form of the number they stand for. -/
theorem ofNat_value {text : List UInt8} (hne : text ≠ [])
    (hdigits : ∀ c ∈ text, 48 ≤ c.toNat ∧ c.toNat ≤ 57) (hhead : text.head? ≠ some 48) :
    ofNat (value text) = text := by
  induction text using List.reverseRecOn with
  | nil => exact absurd rfl hne
  | append_singleton text c ih =>
    have hc := hdigits c List.mem_concat_self
    have hbyte : UInt8.ofNat (48 + (c.toNat - 48)) = c := by
      rw [Nat.add_sub_cancel' hc.1, UInt8.ofNat_toNat]
    have hvalue : value (text ++ [c]) = 10 * value text + (c.toNat - 48) := by
      rw [value, List.foldl_append, List.foldl_cons, List.foldl_nil, ← value, ← hbyte,
        append_digit _ (by omega), hbyte]
    by_cases htext : text = []
    · rw [hvalue, htext]
      have hzero : value [] = 0 := rfl
      rw [hzero, ofNat_of_lt (by omega), Nat.mul_zero, Nat.zero_add, hbyte]
      rfl
    · have hhead' : text.head? ≠ some 48 := by
        rw [← List.head?_append_of_ne_nil text htext]
        exact hhead
      have hprefix := ih htext (fun d hd => hdigits d (List.mem_append_left _ hd)) hhead'
      have hpos : 0 < value text := by
        rw [Nat.pos_iff_ne_zero]
        intro hzero
        rw [hzero, ofNat_of_lt (by decide)] at hprefix
        rw [← hprefix] at hhead'
        exact hhead' rfl
      have hdiv : (10 * value text + (c.toNat - 48)) / 10 = value text := by omega
      have hmod : (10 * value text + (c.toNat - 48)) % 10 = c.toNat - 48 := by omega
      rw [hvalue, ofNat_of_le (by omega), hdiv, hmod, hprefix, hbyte]

end Decimal
