import Mathlib.Data.Nat.Basic
import Mathlib.Data.List.Basic

/-!
# Base64

The standard alphabet with padding. Three bytes become four symbols, a shorter last group is padded
with `=`, and the reader is strict: a symbol outside the alphabet, a length that is no multiple of four
or leftover bits that are not zero are refused.
-/

namespace Base64

/-- The symbol of a value below sixty-four. -/
def symbol (n : ℕ) : UInt8 :=
  if n < 26 then UInt8.ofNat (65 + n)
  else if n < 52 then UInt8.ofNat (71 + n)
  else if n < 62 then UInt8.ofNat (n - 4)
  else if n = 62 then 43
  else 47

/-- The value of a symbol. -/
def index (c : UInt8) : Option ℕ :=
  if 65 ≤ c.toNat ∧ c.toNat ≤ 90 then some (c.toNat - 65)
  else if 97 ≤ c.toNat ∧ c.toNat ≤ 122 then some (c.toNat - 71)
  else if 48 ≤ c.toNat ∧ c.toNat ≤ 57 then some (c.toNat + 4)
  else if c = 43 then some 62
  else if c = 47 then some 63
  else none

/-- The padding character. -/
def pad : UInt8 := 61

def encode : List UInt8 → List UInt8
  | [] => []
  | [x] => [symbol (x.toNat / 4), symbol (x.toNat % 4 * 16), pad, pad]
  | [x, y] =>
    [symbol (x.toNat / 4), symbol (x.toNat % 4 * 16 + y.toNat / 16), symbol (y.toNat % 16 * 4), pad]
  | x :: y :: z :: rest =>
    symbol (x.toNat / 4) :: symbol (x.toNat % 4 * 16 + y.toNat / 16) ::
      symbol (y.toNat % 16 * 4 + z.toNat / 64) :: symbol (z.toNat % 64) :: encode rest

/-- `decode`, group by group. Only the last group may be padded. -/
def decode : List UInt8 → Option (List UInt8)
  | [] => some []
  | a :: b :: c :: d :: rest => do
    let first ← index a
    let second ← index b
    if d = pad ∧ c = pad ∧ rest = [] then
      if second % 16 = 0 then some [UInt8.ofNat (first * 4 + second / 16)] else none
    else do
      let third ← index c
      if d = pad ∧ rest = [] then
        if third % 4 = 0 then
          some [UInt8.ofNat (first * 4 + second / 16), UInt8.ofNat (second % 16 * 16 + third / 4)]
        else none
      else do
        let fourth ← index d
        let bytes ← decode rest
        pure (UInt8.ofNat (first * 4 + second / 16) :: UInt8.ofNat (second % 16 * 16 + third / 4) ::
          UInt8.ofNat (third % 4 * 64 + fourth) :: bytes)
  | _ => none

/-- A symbol is printable, is read back and is not the padding character. -/
theorem symbol_facts : ∀ n < 64,
    index (symbol n) = some n ∧ symbol n ≠ pad ∧ 32 ≤ symbol n ∧ symbol n < 128 ∧ symbol n ≠ 34 ∧
      symbol n ≠ 92 := by
  decide

theorem index_symbol {n : ℕ} (h : n < 64) : index (symbol n) = some n :=
  (symbol_facts n h).1

theorem symbol_ne_pad {n : ℕ} (h : n < 64) : symbol n ≠ pad :=
  (symbol_facts n h).2.1

theorem ofNat_parts {x : UInt8} {n : ℕ} (h : n = x.toNat) : UInt8.ofNat n = x := by
  rw [h]
  exact UInt8.ofNat_toNat

/-- **Bytes written in base64 are read back.** -/
theorem decode_encode (bytes : List UInt8) : decode (encode bytes) = some bytes := by
  fun_induction encode bytes with
  | case1 => rfl
  | case2 x =>
    have hx := x.toNat_lt
    have hbyte : UInt8.ofNat (x.toNat / 4 * 4 + x.toNat % 4 * 16 / 16) = x := ofNat_parts (by omega)
    rw [decode, index_symbol (by omega), index_symbol (by omega)]
    simp only [Option.bind_eq_bind, Option.bind_some]
    rw [if_pos ⟨trivial, trivial, trivial⟩, if_pos (by omega), hbyte]
  | case3 x y =>
    have hx := x.toNat_lt
    have hy := y.toNat_lt
    have hfirst : UInt8.ofNat (x.toNat / 4 * 4 + (x.toNat % 4 * 16 + y.toNat / 16) / 16) = x :=
      ofNat_parts (by omega)
    have hsecond : UInt8.ofNat ((x.toNat % 4 * 16 + y.toNat / 16) % 16 * 16 + y.toNat % 16 * 4 / 4) = y :=
      ofNat_parts (by omega)
    rw [decode, index_symbol (by omega), index_symbol (by omega), index_symbol (by omega)]
    simp only [Option.bind_eq_bind, Option.bind_some]
    rw [if_neg fun h => symbol_ne_pad (by omega) h.2.1, if_pos ⟨trivial, trivial⟩, if_pos (by omega), hfirst, hsecond]
  | case4 x y z rest ih =>
    have hx := x.toNat_lt
    have hy := y.toNat_lt
    have hz := z.toNat_lt
    have hfirst : UInt8.ofNat (x.toNat / 4 * 4 + (x.toNat % 4 * 16 + y.toNat / 16) / 16) = x :=
      ofNat_parts (by omega)
    have hsecond : UInt8.ofNat ((x.toNat % 4 * 16 + y.toNat / 16) % 16 * 16 +
        (y.toNat % 16 * 4 + z.toNat / 64) / 4) = y :=
      ofNat_parts (by omega)
    have hthird : UInt8.ofNat ((y.toNat % 16 * 4 + z.toNat / 64) % 4 * 64 + z.toNat % 64) = z :=
      ofNat_parts (by omega)
    have hlast : symbol (z.toNat % 64) ≠ pad := symbol_ne_pad (by omega)
    rw [decode, index_symbol (by omega), index_symbol (by omega), index_symbol (by omega),
      index_symbol (by omega), ih]
    simp only [Option.bind_eq_bind, Option.bind_some]
    rw [if_neg fun h => hlast h.1, if_neg fun h => hlast h.1, hfirst, hsecond, hthird]
    rfl

theorem length_decode_le {text bytes : List UInt8} (h : decode text = some bytes) :
    bytes.length ≤ text.length := by
  induction text using decode.induct generalizing bytes with
  | case1 =>
    cases h
    exact Nat.le_refl _
  | case2 a b c d rest ih =>
    rw [decode] at h
    obtain ⟨first, -, h⟩ := Option.bind_eq_some_iff.1 h
    obtain ⟨second, -, h⟩ := Option.bind_eq_some_iff.1 h
    split at h
    · split at h
      · cases h
        simp
      · cases h
    · obtain ⟨third, -, h⟩ := Option.bind_eq_some_iff.1 h
      split at h
      · split at h
        · cases h
          simp
        · cases h
      · obtain ⟨fourth, -, h⟩ := Option.bind_eq_some_iff.1 h
        obtain ⟨more, hmore, h⟩ := Option.bind_eq_some_iff.1 h
        cases h
        have hlength := ih hmore
        simp only [List.length_cons]
        omega
  | case3 text hnil hgroup =>
    rw [decode] at h
    · cases h
    · exact hnil
    · exact hgroup

/-- A character that stands in quoted text as itself. -/
def Plain (c : UInt8) : Prop :=
  32 ≤ c ∧ c < 128 ∧ c ≠ 34 ∧ c ≠ 92

theorem plain_symbol {n : ℕ} (h : n < 64) : Plain (symbol n) :=
  (symbol_facts n h).2.2

theorem plain_pad : Plain pad := by
  refine ⟨?_, ?_, ?_, ?_⟩ <;> decide

theorem plain_encode (bytes : List UInt8) : ∀ c ∈ encode bytes, Plain c := by
  fun_induction encode bytes with
  | case1 => exact fun c hc => absurd hc List.not_mem_nil
  | case2 x =>
    have hx := x.toNat_lt
    simp only [List.forall_mem_cons, List.not_mem_nil, false_imp_iff, implies_true, and_true]
    exact ⟨plain_symbol (by omega), plain_symbol (by omega), plain_pad, plain_pad⟩
  | case3 x y =>
    have hx := x.toNat_lt
    have hy := y.toNat_lt
    simp only [List.forall_mem_cons, List.not_mem_nil, false_imp_iff, implies_true, and_true]
    exact ⟨plain_symbol (by omega), plain_symbol (by omega), plain_symbol (by omega), plain_pad⟩
  | case4 x y z rest ih =>
    have hx := x.toNat_lt
    have hy := y.toNat_lt
    have hz := z.toNat_lt
    simp only [List.forall_mem_cons]
    exact ⟨plain_symbol (by omega), plain_symbol (by omega), plain_symbol (by omega),
      plain_symbol (by omega), ih⟩

end Base64
