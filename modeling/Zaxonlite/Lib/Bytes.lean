import Mathlib.Algebra.Group.Int.Defs
import Mathlib.Algebra.Group.Nat.Defs
import Mathlib.Data.Int.Basic
import Mathlib.Data.List.Basic
import Mathlib.Order.Basic

/-!
# Little-endian integers

Fixed-width unsigned integers laid out least significant byte first. Writing reduces the value modulo
the width, so a value that fits is read back exactly.
-/

namespace Bytes

/-- The `width` low bytes of a value, least significant first. -/
def encodeLe : ℕ → ℕ → List UInt8
  | 0, _ => []
  | width + 1, value => UInt8.ofNat value :: encodeLe width (value / 256)

/-- The value of a little-endian byte string. -/
def decodeLe : List UInt8 → ℕ
  | [] => 0
  | b :: bs => b.toNat + 256 * decodeLe bs

@[simp] theorem length_encodeLe (width value : ℕ) : (encodeLe width value).length = width := by
  induction width generalizing value with
  | zero => rfl
  | succ width ih => rw [encodeLe, List.length_cons, ih]

theorem decodeLe_encodeLe (width value : ℕ) :
    decodeLe (encodeLe width value) = value % 256 ^ width := by
  induction width generalizing value with
  | zero => rw [encodeLe, decodeLe, Nat.pow_zero, Nat.mod_one]
  | succ width ih =>
    rw [encodeLe, decodeLe, ih, Nat.pow_succ', Nat.mod_mul]
    rfl

theorem decodeLe_encodeLe_of_lt {width value : ℕ} (h : value < 256 ^ width) :
    decodeLe (encodeLe width value) = value := by
  rw [decodeLe_encodeLe, Nat.mod_eq_of_lt h]

theorem encodeLe_decodeLe (bytes : List UInt8) : encodeLe bytes.length (decodeLe bytes) = bytes := by
  induction bytes with
  | nil => rfl
  | cons b bs ih =>
    have hmod : (b.toNat + 256 * decodeLe bs) % 256 = b.toNat := by
      have := b.toNat_lt
      omega
    have hdiv : (b.toNat + 256 * decodeLe bs) / 256 = decodeLe bs := by
      have := b.toNat_lt
      omega
    have hbyte : UInt8.ofNat (b.toNat + 256 * decodeLe bs) = b := by
      apply UInt8.toNat_inj.1
      rw [UInt8.toNat_ofNat', hmod]
    rw [List.length_cons, decodeLe, encodeLe, hbyte, hdiv, ih]

theorem decodeLe_lt (bytes : List UInt8) : decodeLe bytes < 256 ^ bytes.length := by
  induction bytes with
  | nil => exact Nat.one_pos
  | cons b bs ih =>
    have hb := b.toNat_lt
    rw [decodeLe, List.length_cons, Nat.pow_succ']
    omega

/-- A signed value in two's complement. -/
def encodeLeSigned (width : ℕ) (value : ℤ) : List UInt8 :=
  encodeLe width (value % 256 ^ width).toNat

/-- The signed value of a two's complement byte string. -/
def toSigned (width : ℕ) (value : ℕ) : ℤ :=
  if 2 * value < 256 ^ width then value else (value : ℤ) - 256 ^ width

theorem toSigned_emod {width : ℕ} {value : ℤ} (hlo : -(256 ^ width) ≤ 2 * value)
    (hhi : 2 * value < 256 ^ width) : toSigned width (value % 256 ^ width).toNat = value := by
  have hpow : ((256 ^ width : ℕ) : ℤ) = 256 ^ width := Int.natCast_pow 256 width
  have hpos : (0 : ℤ) < 256 ^ width := Int.pow_pos (by decide)
  have hcast : ((value % 256 ^ width).toNat : ℤ) = value % 256 ^ width :=
    Int.toNat_of_nonneg (Int.emod_nonneg _ (by omega))
  rw [toSigned]
  by_cases hneg : value < 0
  · have hmod : value % 256 ^ width = value + 256 ^ width := by
      rw [← Int.add_emod_right, Int.emod_eq_of_lt (by omega) (by omega)]
    rw [if_neg (by omega), hcast, hmod]
    omega
  · have hmod : value % 256 ^ width = value := Int.emod_eq_of_lt (by omega) (by omega)
    rw [if_pos (by omega), hcast, hmod]

/-- Read a `width`-byte integer at an offset. -/
def readLe (bytes : List UInt8) (offset width : ℕ) : ℕ :=
  decodeLe ((bytes.drop offset).take width)

theorem readLe_lt (bytes : List UInt8) (offset width : ℕ) : readLe bytes offset width < 256 ^ width := by
  have hlen : ((bytes.drop offset).take width).length ≤ width := by
    rw [List.length_take]
    exact Nat.min_le_left _ _
  exact (decodeLe_lt _).trans_le (Nat.pow_le_pow_right (by decide) hlen)

section Records

variable {α : Type} {f : α → List UInt8} {size : ℕ} {pre post : List UInt8} {offset k width : ℕ}

theorem readLe_encodeLe {value : ℕ} (h : value < 256 ^ width) (post : List UInt8) :
    readLe (encodeLe width value ++ post) 0 width = value := by
  rw [readLe, List.drop_zero, List.take_append_of_le_length (length_encodeLe width value).ge,
    List.take_of_length_le (length_encodeLe width value).le, decodeLe_encodeLe_of_lt h]

theorem readLe_append (hlen : pre.length = offset) :
    readLe (pre ++ post) (offset + k) width = readLe post k width := by
  subst hlen
  rw [readLe, readLe, ← List.drop_drop, List.drop_left]

/-- The integer a string ends with. -/
theorem readLe_last {value : ℕ} (h : value < 256 ^ width) :
    readLe (pre ++ encodeLe width value) ((pre ++ encodeLe width value).length - width) width = value := by
  have hlen : (pre ++ encodeLe width value).length - width = pre.length + 0 := by
    rw [List.length_append, length_encodeLe, Nat.add_sub_cancel, Nat.add_zero]
  rw [hlen, readLe_append rfl, ← List.append_nil (encodeLe width value), readLe_encodeLe h]

theorem length_records (hsize : ∀ a, (f a).length = size) (l : List α) :
    (l.flatMap f).length = l.length * size := by
  induction l with
  | nil => simp
  | cons a l ih =>
    rw [List.flatMap_cons, List.length_append, hsize, ih, List.length_cons, Nat.succ_mul,
      Nat.add_comm]

theorem length_records_le {l : List α} (h : ∀ a ∈ l, (f a).length ≤ size) :
    (l.flatMap f).length ≤ l.length * size := by
  induction l with
  | nil => simp
  | cons a l ih =>
    have hrest := ih fun b hb => h b (List.mem_cons_of_mem a hb)
    have hfirst := h a List.mem_cons_self
    rw [List.flatMap_cons, List.length_append, List.length_cons, Nat.succ_mul]
    omega

/-- Reading inside the `i`-th of equally long records reads that record. -/
theorem readLe_records (hsize : ∀ a, (f a).length = size) {l : List α} {i : ℕ} {a : α}
    (h : l[i]? = some a) (post : List UInt8) (hk : k + width ≤ size) :
    readLe (l.flatMap f ++ post) (i * size + k) width = readLe (f a) k width := by
  obtain ⟨hi, rfl⟩ := List.getElem?_eq_some_iff.1 h
  have hsplit : l.flatMap f = (l.take i).flatMap f ++ (f l[i] ++ (l.drop (i + 1)).flatMap f) := by
    conv_lhs => rw [← List.take_append_drop i l]
    rw [List.flatMap_append, List.drop_eq_getElem_cons hi, List.flatMap_cons]
  have hlen : ((l.take i).flatMap f).length = i * size := by
    rw [length_records hsize, List.length_take, Nat.min_eq_left hi.le]
  have hdrop : k ≤ (f l[i]).length := by
    rw [hsize]
    omega
  have htake : width ≤ ((f l[i]).drop k).length := by
    rw [List.length_drop, hsize]
    omega
  rw [hsplit, List.append_assoc, readLe_append hlen, readLe, readLe, List.append_assoc,
    List.drop_append_of_le_length hdrop, List.take_append_of_le_length htake]

end Records

end Bytes
