import Zaxonlite.Lib.Exact
import Mathlib.Algebra.BigOperators.Fin
import Mathlib.Data.Fin.VecNotation
import Mathlib.Data.List.OfFn
import Mathlib.Tactic.Abel

/-!
# Vector distance kernels

The cosine distance of two blobs of single-precision numbers needs three sums: their dot product and the square
of the length of each. The reference kernel adds the terms up in order. The unrolled one spreads each sum over
sixteen accumulators, adds these up in a fixed order and takes the last few dimensions one by one. Without
rounding the two find the same sums.
-/

namespace Zaxonlite

namespace Vectors

/-! ### The kernels -/

inductive VectorError where
  | lengthMismatch
  | emptyVector
  | malformedBlob
  | nonFinite
  | zeroMagnitude
  deriving DecidableEq, Repr

/-- How a kernel ends without a distance. -/
inductive VectorFault where
  | refused (error : VectorError)
  /-- An element past the end of a blob was read. -/
  | outOfBounds
  deriving DecidableEq, Repr

def validate (a b : List UInt8) : Except VectorFault ℕ :=
  if a.length ≠ b.length then throw (.refused .lengthMismatch)
  else if a.length = 0 then throw (.refused .emptyVector)
  else if a.length % 4 ≠ 0 then throw (.refused .malformedBlob)
  else pure (a.length / 4)

/-- `bytesAsSlice`, for little-endian single-precision numbers. -/
def bytesAsSlice : List UInt8 → List Exact
  | b₀ :: b₁ :: b₂ :: b₃ :: bytes =>
    .ofBits32 (b₀.toNat + 2 ^ 8 * b₁.toNat + 2 ^ 16 * b₂.toNat + 2 ^ 24 * b₃.toNat) :: bytesAsSlice bytes
  | _ => []

/-- The dot product and the squared lengths. -/
structure Totals (K : Type*) where
  dot : K
  magA : K
  magB : K
  deriving DecidableEq, Repr

section Kernels

variable {K : Type*} [AddCommMonoid K] [Mul K]

def element (a : List K) (i : ℕ) : Except VectorFault K :=
  match a[i]? with
  | some x => pure x
  | none => throw .outOfBounds

def Totals.zero : Totals K where
  dot := 0
  magA := 0
  magB := 0

/-- One more dimension. -/
def Totals.add (t : Totals K) (x y : K) : Totals K where
  dot := t.dot + x * y
  magA := t.magA + x * x
  magB := t.magB + y * y

/-- The sums of `cosineDistanceScalar`. -/
def scalarTotals (a b : List K) (dims : ℕ) : Except VectorFault (Totals K) :=
  (List.range dims).foldlM (fun t i => do
    let x ← element a i
    let y ← element b i
    pure (t.add x y)) .zero

/-- `@Vector(4, f32)`. -/
abbrev Lanes (K : Type*) := Fin 4 → K

structure Accumulators (K : Type*) where
  dot : Fin 4 → Lanes K
  magA : Fin 4 → Lanes K
  magB : Fin 4 → Lanes K

def Accumulators.zero : Accumulators K where
  dot := 0
  magA := 0
  magB := 0

def load4 (values : List K) (i : ℕ) : Except VectorFault (Lanes K) := do
  let x₀ ← element values i
  let x₁ ← element values (i + 1)
  let x₂ ← element values (i + 2)
  let x₃ ← element values (i + 3)
  pure ![x₀, x₁, x₂, x₃]

def reduce (acc : Fin 4 → Lanes K) : K :=
  let s01 := acc 0 + acc 1
  let s23 := acc 2 + acc 3
  let s := s01 + s23
  s 0 + s 1 + s 2 + s 3

/-- Four dimensions of a block. -/
def blockLane (a b : List K) (i : ℕ) (acc : Accumulators K) (lane : Fin 4) :
    Except VectorFault (Accumulators K) := do
  let av ← load4 a (i + lane * 4)
  let bv ← load4 b (i + lane * 4)
  pure {
    dot := Function.update acc.dot lane (acc.dot lane + av * bv)
    magA := Function.update acc.magA lane (acc.magA lane + av * av)
    magB := Function.update acc.magB lane (acc.magB lane + bv * bv) }

/-- The blocks of sixteen dimensions from `i` on, and where they end. -/
def blocks (a b : List K) (dims i : ℕ) (acc : Accumulators K) :
    Except VectorFault (ℕ × Accumulators K) :=
  if i + 16 ≤ dims then do
    let acc ← [0, 1, 2, 3].foldlM (blockLane a b i) acc
    blocks a b dims (i + 16) acc
  else pure (i, acc)
termination_by dims - i

/-- The dimensions from `i` on, one by one. -/
def tail (a b : List K) (dims i : ℕ) (t : Totals K) : Except VectorFault (Totals K) :=
  if i < dims then do
    let x ← element a i
    let y ← element b i
    tail a b dims (i + 1) (t.add x y)
  else pure t
termination_by dims - i

def Accumulators.totals (acc : Accumulators K) : Totals K where
  dot := reduce acc.dot
  magA := reduce acc.magA
  magB := reduce acc.magB

/-- The sums of `cosineDistanceSimd`. -/
def simdTotals (a b : List K) (dims : ℕ) : Except VectorFault (Totals K) := do
  let (i, acc) ← blocks a b dims 0 .zero
  tail a b dims i acc.totals

end Kernels

def finish (sqrt : ℚ → ℚ) (t : Totals Exact) : Except VectorFault ℚ :=
  match t.dot, t.magA, t.magB with
  | .finite dot, .finite magA, .finite magB =>
    if magA = 0 ∨ magB = 0 then throw (.refused .zeroMagnitude)
    else pure (1 - dot / sqrt (magA * magB))
  | _, _, _ => throw (.refused .nonFinite)

def cosineDistanceScalar (sqrt : ℚ → ℚ) (a b : List UInt8) : Except VectorFault ℚ := do
  let dims ← validate a b
  let t ← scalarTotals (bytesAsSlice a) (bytesAsSlice b) dims
  finish sqrt t

def cosineDistanceSimd (sqrt : ℚ → ℚ) (a b : List UInt8) : Except VectorFault ℚ := do
  let dims ← validate a b
  let t ← simdTotals (bytesAsSlice a) (bytesAsSlice b) dims
  finish sqrt t

/-- The parts of a compile target that choose a kernel. -/
inductive Backend where
  | neon128
  | sse128
  | wasm128
  | scalar
  deriving DecidableEq, Repr

def cosineDistanceBytes (sqrt : ℚ → ℚ) (backend : Backend) (a b : List UInt8) : Except VectorFault ℚ :=
  match backend with
  | .scalar => cosineDistanceScalar sqrt a b
  | _ => cosineDistanceSimd sqrt a b

/-! ### What is read -/

section Reads

variable {K : Type*} {a b : List K} {f g : ℕ → K} {dims : ℕ}

/-- The first `n` elements of a slice. -/
def Holds (a : List K) (f : ℕ → K) (n : ℕ) : Prop :=
  ∀ i < n, element a i = .ok (f i)

theorem Holds.mono {n m : ℕ} (h : Holds a f m) (hn : n ≤ m) : Holds a f n :=
  fun i hi => h i (hi.trans_le hn)

theorem load4_eq (ha : Holds a f dims) {i : ℕ} (hi : i + 4 ≤ dims) :
    load4 a i = .ok fun k => f (i + k) := by
  have hlanes : ![f i, f (i + 1), f (i + 2), f (i + 3)] = fun k : Fin 4 => f (i + k) :=
    funext fun
      | 0 => rfl
      | 1 => rfl
      | 2 => rfl
      | 3 => rfl
  simp only [load4, ha i (by omega), ha (i + 1) (by omega), ha (i + 2) (by omega), ha (i + 3) (by omega), bind,
    Except.bind, pure, Except.pure, hlanes]

end Reads

/-! ### The reduction -/

theorem reduce_add {K : Type*} [AddCommMonoid K] (acc : Fin 4 → Lanes K) (p : ℕ → K) :
    reduce (fun lane => acc lane + fun k : Fin 4 => p (lane * 4 + k)) =
      reduce acc + ∑ j ∈ Finset.range 16, p j := by
  simp only [reduce, Pi.add_apply, Finset.sum_range_succ, Finset.sum_range_zero]
  simp only [Fin.isValue, Fin.coe_ofNat_eq_mod, Nat.zero_mod, zero_mul, add_zero, Nat.one_mod, one_mul,
    Nat.reduceMod, Nat.reduceMul, Nat.mod_succ, zero_add, Nat.reduceAdd]
  abel

/-! ### The sums -/

section Sums

variable {K : Type*} [AddCommMonoid K] [Mul K] {a b : List K} {f g : ℕ → K} {dims : ℕ}

/-- The sums over the first `n` dimensions. -/
def sums (f g : ℕ → K) (n : ℕ) : Totals K where
  dot := ∑ i ∈ Finset.range n, f i * g i
  magA := ∑ i ∈ Finset.range n, f i * f i
  magB := ∑ i ∈ Finset.range n, g i * g i

theorem sums_zero (f g : ℕ → K) : sums f g 0 = .zero := by
  simp only [sums, Totals.zero, Finset.range_zero, Finset.sum_empty]

theorem sums_succ (f g : ℕ → K) (n : ℕ) : sums f g (n + 1) = (sums f g n).add (f n) (g n) := by
  simp only [sums, Totals.add, Finset.sum_range_succ]

theorem scalarTotals_eq (ha : Holds a f dims) (hb : Holds b g dims) :
    scalarTotals a b dims = .ok (sums f g dims) := by
  induction dims with
  | zero => exact congrArg Except.ok (sums_zero f g).symm
  | succ dims ih =>
    have hfirst := ih (ha.mono dims.le_succ) (hb.mono dims.le_succ)
    rw [scalarTotals] at hfirst ⊢
    rw [List.range_succ, List.foldlM_append, hfirst, sums_succ]
    simp only [bind, Except.bind, List.foldlM_cons, List.foldlM_nil, ha dims dims.lt_succ_self,
      hb dims dims.lt_succ_self, pure, Except.pure]

theorem tail_eq (ha : Holds a f dims) (hb : Holds b g dims) {i : ℕ} (hi : i ≤ dims) :
    tail a b dims i (sums f g i) = .ok (sums f g dims) := by
  induction hk : dims - i generalizing i with
  | zero =>
    obtain rfl : i = dims := by omega
    rw [tail, if_neg (lt_irrefl _)]
    rfl
  | succ k ih =>
    have hlt : i < dims := by omega
    rw [tail, if_pos hlt, ha i hlt, hb i hlt]
    simp only [bind, Except.bind]
    rw [← sums_succ]
    exact ih hlt (by omega)

/-- The accumulators after four dimensions of a block that starts at `i`. -/
def Accumulators.afterLane (acc : Accumulators K) (f g : ℕ → K) (i : ℕ) (lane : Fin 4) : Accumulators K where
  dot := Function.update acc.dot lane
    (acc.dot lane + fun k : Fin 4 => f (i + (lane * 4 + k)) * g (i + (lane * 4 + k)))
  magA := Function.update acc.magA lane
    (acc.magA lane + fun k : Fin 4 => f (i + (lane * 4 + k)) * f (i + (lane * 4 + k)))
  magB := Function.update acc.magB lane
    (acc.magB lane + fun k : Fin 4 => g (i + (lane * 4 + k)) * g (i + (lane * 4 + k)))

def Accumulators.afterBlock (acc : Accumulators K) (f g : ℕ → K) (i : ℕ) : Accumulators K where
  dot lane := acc.dot lane + fun k : Fin 4 => f (i + (lane * 4 + k)) * g (i + (lane * 4 + k))
  magA lane := acc.magA lane + fun k : Fin 4 => f (i + (lane * 4 + k)) * f (i + (lane * 4 + k))
  magB lane := acc.magB lane + fun k : Fin 4 => g (i + (lane * 4 + k)) * g (i + (lane * 4 + k))

theorem Accumulators.afterLane_all (acc : Accumulators K) (f g : ℕ → K) (i : ℕ) :
    (((acc.afterLane f g i 0).afterLane f g i 1).afterLane f g i 2).afterLane f g i 3 =
      acc.afterBlock f g i := by
  have hupdate (v d : Fin 4 → Lanes K) :
      Function.update (Function.update (Function.update (Function.update v 0 (v 0 + d 0)) 1 (v 1 + d 1))
        2 (v 2 + d 2)) 3 (v 3 + d 3) = fun lane => v lane + d lane :=
    funext fun
      | 0 => rfl
      | 1 => rfl
      | 2 => rfl
      | 3 => rfl
  have hdot := hupdate acc.dot fun lane k => f (i + (lane * 4 + k)) * g (i + (lane * 4 + k))
  have hmagA := hupdate acc.magA fun lane k => f (i + (lane * 4 + k)) * f (i + (lane * 4 + k))
  have hmagB := hupdate acc.magB fun lane k => g (i + (lane * 4 + k)) * g (i + (lane * 4 + k))
  exact congr (congr (congrArg Accumulators.mk hdot) hmagA) hmagB

theorem blockLane_eq (ha : Holds a f dims) (hb : Holds b g dims) {i : ℕ} (hi : i + 16 ≤ dims)
    (acc : Accumulators K) (lane : Fin 4) : blockLane a b i acc lane = .ok (acc.afterLane f g i lane) := by
  have hlane : i + lane * 4 + 4 ≤ dims := by omega
  rw [blockLane, load4_eq ha hlane, load4_eq hb hlane]
  simp only [bind, Except.bind, pure, Except.pure, Accumulators.afterLane, Nat.add_assoc]
  rfl

theorem totals_afterBlock {acc : Accumulators K} {i : ℕ} (h : acc.totals = sums f g i) :
    (acc.afterBlock f g i).totals = sums f g (i + 16) := by
  simp only [Accumulators.totals, sums, Totals.mk.injEq] at h ⊢
  simp only [Accumulators.afterBlock, Finset.sum_range_add, ← h.1, ← h.2.1, ← h.2.2]
  exact ⟨reduce_add acc.dot fun j => f (i + j) * g (i + j), reduce_add acc.magA fun j => f (i + j) * f (i + j),
    reduce_add acc.magB fun j => g (i + j) * g (i + j)⟩

/-- The blocks add up every dimension before the one they end at. -/
theorem blocks_eq (ha : Holds a f dims) (hb : Holds b g dims) {i : ℕ} (hi : i ≤ dims) {acc : Accumulators K}
    (hacc : acc.totals = sums f g i) :
    ∃ j acc', blocks a b dims i acc = .ok (j, acc') ∧ j ≤ dims ∧ acc'.totals = sums f g j := by
  induction hk : dims - i using Nat.strong_induction_on generalizing i acc with
  | _ k ih =>
    rw [blocks]
    split
    case isTrue hfit =>
      have hblock : [0, 1, 2, 3].foldlM (blockLane a b i) acc = .ok (acc.afterBlock f g i) := by
        simp only [List.foldlM_cons, List.foldlM_nil, blockLane_eq ha hb hfit, bind, Except.bind, pure,
          Except.pure, Accumulators.afterLane_all]
      rw [hblock]
      exact ih (dims - (i + 16)) (by omega) hfit (totals_afterBlock hacc) rfl
    case isFalse => exact ⟨i, acc, rfl, hi, hacc⟩

theorem totals_zero : (Accumulators.zero : Accumulators K).totals = sums f g 0 := by
  simp only [Accumulators.totals, Accumulators.zero, reduce, Pi.zero_apply, Pi.add_apply, add_zero, sums,
    Finset.range_zero, Finset.sum_empty]

theorem simdTotals_eq (ha : Holds a f dims) (hb : Holds b g dims) :
    simdTotals a b dims = .ok (sums f g dims) := by
  obtain ⟨j, acc, hblocks, hj, hacc⟩ := blocks_eq ha hb dims.zero_le totals_zero
  rw [simdTotals, hblocks]
  simp only [bind, Except.bind]
  rw [hacc]
  exact tail_eq ha hb hj

end Sums

/-! ### The distances -/

theorem holds_getD {K : Type*} (a : List K) (x : K) : Holds a (fun i => a.getD i x) a.length := by
  intro i hi
  simp only [element, List.getD_eq_getElem?_getD, List.getElem?_eq_getElem hi, Option.getD_some]
  rfl

theorem length_bytesAsSlice (a : List UInt8) : (bytesAsSlice a).length = a.length / 4 := by
  fun_induction bytesAsSlice a with
  | case1 b₀ b₁ b₂ b₃ bytes ih =>
    simp only [List.length_cons, ih]
    omega
  | case2 bytes hshort =>
    have hlength : bytes.length < 4 := by
      match bytes with
      | [] => decide
      | [_] => simp
      | [_, _] => simp
      | [_, _, _] => simp
      | b₀ :: b₁ :: b₂ :: b₃ :: bytes => exact absurd rfl (hshort b₀ b₁ b₂ b₃ bytes)
    rw [Nat.div_eq_of_lt hlength, List.length_nil]

def blobSums (a b : List UInt8) (dims : ℕ) : Totals Exact :=
  sums (fun i => (bytesAsSlice a).getD i 0) (fun i => (bytesAsSlice b).getD i 0) dims

theorem validate_eq_ok {a b : List UInt8} {dims : ℕ} (h : validate a b = .ok dims) :
    (bytesAsSlice a).length = dims ∧ (bytesAsSlice b).length = dims := by
  rw [length_bytesAsSlice, length_bytesAsSlice]
  unfold validate at h
  split at h
  case isTrue => cases h
  case isFalse hlength =>
    rw [not_not] at hlength
    rw [← hlength]
    split at h
    case isTrue => cases h
    case isFalse =>
      split at h
      case isTrue => cases h
      case isFalse =>
        cases h
        exact ⟨rfl, rfl⟩

theorem validate_comm (a b : List UInt8) : validate a b = validate b a := by
  unfold validate
  by_cases h : a.length = b.length
  · rw [h]
  · rw [if_pos h, if_pos (Ne.symm h)]

theorem cosineDistanceScalar_eq (sqrt : ℚ → ℚ) (a b : List UInt8) :
    cosineDistanceScalar sqrt a b = (do let dims ← validate a b; finish sqrt (blobSums a b dims)) := by
  rw [cosineDistanceScalar]
  cases h : validate a b with
  | error fault => rfl
  | ok dims =>
    obtain ⟨ha, hb⟩ := validate_eq_ok h
    simp only [bind, Except.bind]
    rw [scalarTotals_eq (ha ▸ holds_getD _ 0) (hb ▸ holds_getD _ 0)]
    rfl

theorem cosineDistanceSimd_eq (sqrt : ℚ → ℚ) (a b : List UInt8) :
    cosineDistanceSimd sqrt a b = (do let dims ← validate a b; finish sqrt (blobSums a b dims)) := by
  rw [cosineDistanceSimd]
  cases h : validate a b with
  | error fault => rfl
  | ok dims =>
    obtain ⟨ha, hb⟩ := validate_eq_ok h
    simp only [bind, Except.bind]
    rw [simdTotals_eq (ha ▸ holds_getD _ 0) (hb ▸ holds_getD _ 0)]
    rfl

theorem cosineDistanceBytes_eq_scalar (sqrt : ℚ → ℚ) (backend : Backend) (a b : List UInt8) :
    cosineDistanceBytes sqrt backend a b = cosineDistanceScalar sqrt a b := by
  have hagree : cosineDistanceSimd sqrt a b = cosineDistanceScalar sqrt a b := by
    rw [cosineDistanceSimd_eq, cosineDistanceScalar_eq]
  cases backend with
  | scalar => rfl
  | neon128 => exact hagree
  | sse128 => exact hagree
  | wasm128 => exact hagree

theorem finish_swap (sqrt : ℚ → ℚ) (dot magA magB : Exact) :
    finish sqrt ⟨dot, magA, magB⟩ = finish sqrt ⟨dot, magB, magA⟩ := by
  cases dot <;> cases magA <;> cases magB <;> simp only [finish, or_comm, mul_comm]

theorem cosineDistanceSimd_comm (sqrt : ℚ → ℚ) (a b : List UInt8) :
    cosineDistanceSimd sqrt a b = cosineDistanceSimd sqrt b a := by
  have hswap (dims : ℕ) : finish sqrt (blobSums a b dims) = finish sqrt (blobSums b a dims) := by
    simp only [blobSums, sums, Exact.mul_comm ((bytesAsSlice a).getD _ 0) ((bytesAsSlice b).getD _ 0)]
    exact finish_swap sqrt _ _ _
  rw [cosineDistanceSimd_eq, cosineDistanceSimd_eq, validate_comm]
  simp only [hswap]

theorem finish_inBounds (sqrt : ℚ → ℚ) (t : Totals Exact) : finish sqrt t ≠ .error .outOfBounds := by
  unfold finish
  split
  · split <;> simp [throw, throwThe, MonadExceptOf.throw, pure, Except.pure]
  · simp [throw, throwThe, MonadExceptOf.throw]

theorem cosineDistanceScalar_inBounds (sqrt : ℚ → ℚ) (a b : List UInt8) :
    cosineDistanceScalar sqrt a b ≠ .error .outOfBounds := by
  rw [cosineDistanceScalar_eq]
  cases h : validate a b with
  | error fault =>
    rintro ⟨⟩
    unfold validate at h
    repeat' split at h
    all_goals cases h
  | ok dims => exact finish_inBounds sqrt _

/-- **Without rounding both kernels find the sums over every dimension, each taken once, and read nothing past
the ends of the blobs; so they agree on the distance and on every error, in either order of the blobs.** -/
theorem simd_agrees_with_scalar (sqrt : ℚ → ℚ) :
    (∀ (n : ℕ) (x y : Fin n → Exact),
      scalarTotals (List.ofFn x) (List.ofFn y) n =
          .ok ⟨∑ i, x i * y i, ∑ i, x i * x i, ∑ i, y i * y i⟩ ∧
        simdTotals (List.ofFn x) (List.ofFn y) n =
          .ok ⟨∑ i, x i * y i, ∑ i, x i * x i, ∑ i, y i * y i⟩) ∧
      ∀ a b : List UInt8,
        cosineDistanceSimd sqrt a b = cosineDistanceScalar sqrt a b ∧
        cosineDistanceSimd sqrt a b = cosineDistanceSimd sqrt b a ∧
        cosineDistanceSimd sqrt a b ≠ .error .outOfBounds ∧
        cosineDistanceScalar sqrt a b ≠ .error .outOfBounds := by
  refine ⟨fun n x y => ?_, fun a b => ?_⟩
  · have hholds (z : Fin n → Exact) : Holds (List.ofFn z) (fun i => (List.ofFn z).getD i 0) n := by
      have h := holds_getD (List.ofFn z) 0
      rwa [List.length_ofFn] at h
    have hsums : sums (fun i => (List.ofFn x).getD i 0) (fun i => (List.ofFn y).getD i 0) n =
        ⟨∑ i, x i * y i, ∑ i, x i * x i, ∑ i, y i * y i⟩ := by
      simp only [sums, Finset.sum_range, List.getD_eq_getElem?_getD, List.getElem?_ofFn, Fin.is_lt, dite_true,
        Option.getD_some, Fin.eta]
    rw [← hsums]
    exact ⟨scalarTotals_eq (hholds x) (hholds y), simdTotals_eq (hholds x) (hholds y)⟩
  · have hagree : cosineDistanceSimd sqrt a b = cosineDistanceScalar sqrt a b := by
      rw [cosineDistanceSimd_eq, cosineDistanceScalar_eq]
    refine ⟨hagree, cosineDistanceSimd_comm sqrt a b, ?_, cosineDistanceScalar_inBounds sqrt a b⟩
    rw [hagree]
    exact cosineDistanceScalar_inBounds sqrt a b

end Vectors

end Zaxonlite
