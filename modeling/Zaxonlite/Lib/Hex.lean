import Zaxonlite.Lib.Bytes

/-!
# Hexadecimal text

Fixed-width numbers and byte strings as lower-case hexadecimal text, and the readers that take them
back. The readers follow the usual library behaviour: either letter case, a sign, underscores between
digits, and overflow checked while accumulating.
-/

namespace Hex

/-- The lower-case digit of a value below sixteen. -/
def digit (n : ℕ) : UInt8 :=
  if n < 10 then UInt8.ofNat (48 + n) else UInt8.ofNat (87 + n)

/-- `charToDigit` in base sixteen. -/
def charToDigit (c : UInt8) : Option ℕ :=
  if 48 ≤ c.toNat ∧ c.toNat ≤ 57 then some (c.toNat - 48)
  else if 65 ≤ c.toNat ∧ c.toNat ≤ 70 then some (c.toNat - 55)
  else if 97 ≤ c.toNat ∧ c.toNat ≤ 102 then some (c.toNat - 87)
  else none

/-- The `width` low digits of a value, most significant first. -/
def fixed : ℕ → ℕ → List UInt8
  | 0, _ => []
  | width + 1, value => fixed width (value / 16) ++ [digit (value % 16)]

/-- `bytesToHex`. -/
def ofBytes (bytes : List UInt8) : List UInt8 :=
  bytes.flatMap fun b => [digit (b.toNat / 16), digit (b.toNat % 16)]

/-- `hexToBytes`: pairs of digits. -/
def toBytes : List UInt8 → Option (List UInt8)
  | [] => some []
  | [_] => none
  | hi :: lo :: rest => do
    let high ← charToDigit hi
    let low ← charToDigit lo
    let bytes ← toBytes rest
    pure (UInt8.ofNat (16 * high + low) :: bytes)

/-- One character of a positive number that must not exceed `max`. -/
def accumulate (max acc : ℕ) (c : UInt8) : Option ℕ :=
  if c = 95 then some acc
  else do
    let value ← charToDigit c
    if 16 * acc + value ≤ max then some (16 * acc + value) else none

/-- One character of a negative number: an unsigned result admits only zeros. -/
def accumulateNegative (acc : ℕ) (c : UInt8) : Option ℕ :=
  if c = 95 then some acc
  else do
    let value ← charToDigit c
    if value = 0 then some acc else none

/-- The digits of a number, after its sign. -/
def parseDigits (step : ℕ → UInt8 → Option ℕ) (text : List UInt8) : Option ℕ :=
  if text = [] ∨ text.head? = some 95 ∨ text.getLast? = some 95 then none
  else text.foldlM step 0

/-- A number with or without a sign. -/
def parseSigned (max : ℕ) : List UInt8 → Option ℕ
  | [] => none
  | 43 :: rest => parseDigits (accumulate max) rest
  | 45 :: rest => parseDigits accumulateNegative rest
  | text => parseDigits (accumulate max) text

/-- `parseInt` of an unsigned type in base sixteen. -/
def parseInt (max : ℕ) (text : List UInt8) : Option {n : ℕ // n ≤ max} := do
  let value ← parseSigned max text
  if h : value ≤ max then some ⟨value, h⟩ else none

/-! ### Reading back -/

theorem digit_facts : ∀ n < 16,
    charToDigit (digit n) = some n ∧ digit n ≠ 32 ∧ digit n ≠ 43 ∧ digit n ≠ 45 ∧ digit n ≠ 95 := by
  decide

@[simp] theorem length_fixed (width value : ℕ) : (fixed width value).length = width := by
  induction width generalizing value with
  | zero => rfl
  | succ width ih => rw [fixed, List.length_append, ih, List.length_singleton]

@[simp] theorem length_ofBytes (bytes : List UInt8) : (ofBytes bytes).length = 2 * bytes.length := by
  induction bytes with
  | nil => rfl
  | cons b bytes ih =>
    rw [ofBytes, List.flatMap_cons, List.length_append, ← ofBytes, ih]
    simp only [List.length_cons, List.length_nil]
    omega

theorem mem_fixed {width value : ℕ} {c : UInt8} (h : c ∈ fixed width value) :
    ∃ n < 16, c = digit n := by
  induction width generalizing value with
  | zero => exact absurd h List.not_mem_nil
  | succ width ih =>
    rw [fixed] at h
    rcases List.mem_append.1 h with h | h
    · exact ih h
    · rw [List.mem_singleton] at h
      exact ⟨value % 16, Nat.mod_lt _ (by decide), h⟩

theorem mem_ofBytes {bytes : List UInt8} {c : UInt8} (h : c ∈ ofBytes bytes) :
    ∃ n < 16, c = digit n := by
  obtain ⟨b, -, hc⟩ := List.mem_flatMap.1 h
  have hb := b.toNat_lt
  rcases List.mem_cons.1 hc with hc | hc
  · exact ⟨b.toNat / 16, by omega, hc⟩
  · rw [List.mem_singleton] at hc
    exact ⟨b.toNat % 16, Nat.mod_lt _ (by decide), hc⟩

/-- **Bytes written in hexadecimal are read back.** -/
theorem toBytes_ofBytes (bytes : List UInt8) : toBytes (ofBytes bytes) = some bytes := by
  induction bytes with
  | nil => rfl
  | cons b bytes ih =>
    have hb := b.toNat_lt
    have hhigh := (digit_facts (b.toNat / 16) (by omega)).1
    have hlow := (digit_facts (b.toNat % 16) (Nat.mod_lt _ (by decide))).1
    have hsum : 16 * (b.toNat / 16) + b.toNat % 16 = b.toNat := Nat.div_add_mod _ _
    rw [ofBytes, List.flatMap_cons, ← ofBytes]
    simp only [List.cons_append, List.nil_append, toBytes, hhigh, hlow, ih, hsum, bind, Option.bind,
      pure, UInt8.ofNat_toNat]

theorem foldlM_accumulate {max width value : ℕ} (hmax : value ≤ max) (hfit : value < 16 ^ width) :
    (fixed width value).foldlM (accumulate max) 0 = some value := by
  induction width generalizing value with
  | zero =>
    rw [Nat.pow_zero, Nat.lt_one_iff] at hfit
    rw [hfit]
    rfl
  | succ width ih =>
    have hfront : (fixed width (value / 16)).foldlM (accumulate max) 0 = some (value / 16) := by
      rw [Nat.pow_succ] at hfit
      exact ih (by omega) (by omega)
    obtain ⟨hdigit, -, -, -, hunder⟩ := digit_facts (value % 16) (Nat.mod_lt _ (by decide))
    have hsum : 16 * (value / 16) + value % 16 = value := Nat.div_add_mod _ _
    rw [fixed, List.foldlM_append, hfront]
    simp only [bind, Option.bind, List.foldlM_cons, List.foldlM_nil, accumulate, if_neg hunder, hdigit,
      hsum, if_pos hmax, pure]

/-- **A number written at a fixed width is read back.** -/
theorem parseInt_fixed {max width value : ℕ} (hmax : value ≤ max) (hfit : value < 16 ^ (width + 1)) :
    parseInt max (fixed (width + 1) value) = some ⟨value, hmax⟩ := by
  have hdigits := foldlM_accumulate hmax hfit
  have hplain : ∀ c ∈ fixed (width + 1) value, c ≠ 43 ∧ c ≠ 45 ∧ c ≠ 95 := by
    intro c hc
    obtain ⟨n, hn, rfl⟩ := mem_fixed hc
    exact (digit_facts n hn).2.2
  have hne : fixed (width + 1) value ≠ [] :=
    List.ne_nil_of_length_pos (by rw [length_fixed]; exact Nat.succ_pos width)
  have hparse : parseDigits (accumulate max) (fixed (width + 1) value) = some value := by
    have hedges : ¬ (fixed (width + 1) value = [] ∨ (fixed (width + 1) value).head? = some 95 ∨
        (fixed (width + 1) value).getLast? = some 95) := by
      rintro (hnil | hhead | hlast)
      · exact hne hnil
      · exact (hplain 95 (List.mem_of_head? hhead)).2.2 rfl
      · exact (hplain 95 (List.mem_of_getLast? hlast)).2.2 rfl
    rw [parseDigits, if_neg hedges, hdigits]
  have hsign : parseSigned max (fixed (width + 1) value) = some value := by
    unfold parseSigned
    split
    · rename_i hnil
      exact absurd hnil hne
    · rename_i rest heq
      exact absurd rfl (hplain 43 (heq ▸ List.mem_cons_self)).1
    · rename_i rest heq
      exact absurd rfl (hplain 45 (heq ▸ List.mem_cons_self)).2.1
    · exact hparse
  rw [parseInt, hsign]
  simp only [bind, Option.bind, dif_pos hmax]

end Hex
