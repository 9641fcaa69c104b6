import Mathlib.Algebra.BigOperators.Group.Multiset.Basic
import Mathlib.Algebra.Order.BigOperators.Group.Multiset
import Mathlib.Algebra.Order.Field.Basic
import Mathlib.Data.Multiset.AddSub
import Mathlib.Tactic.LinearCombination
import Mathlib.Tactic.Ring

/-!
# The mean of a multiset and the squared deviations from it

Both are kept up to date one value at a time: when `x` joins the values `s`, the mean moves from `mean s` to
`mean (x ::ₘ s)` and the squared deviations grow by `(x - mean s) * (x - mean (x ::ₘ s))`. Read backwards, the
same equations say what a value that leaves takes with it.
-/

namespace Moments

variable {K : Type*} [Field K]

/-- The mean, zero of no values. -/
def mean (s : Multiset K) : K :=
  s.sum / s.card

/-- The sum of the squared deviations from the mean. -/
def deviations (s : Multiset K) : K :=
  (s.map fun x => (x - mean s) ^ 2).sum

@[simp] theorem mean_zero : mean (0 : Multiset K) = 0 := by
  rw [mean, Multiset.sum_zero, zero_div]

@[simp] theorem deviations_zero : deviations (0 : Multiset K) = 0 := by
  rw [deviations, Multiset.map_zero, Multiset.sum_zero]

theorem deviations_nonneg [LinearOrder K] [IsStrictOrderedRing K] (s : Multiset K) : 0 ≤ deviations s := by
  refine Multiset.sum_nonneg fun d hd => ?_
  obtain ⟨x, -, rfl⟩ := Multiset.mem_map.mp hd
  exact sq_nonneg _

theorem sum_sub_sq (s : Multiset K) (c : K) :
    (s.map fun x => (x - c) ^ 2).sum =
      (s.map fun x => x ^ 2).sum - 2 * c * s.sum + s.card * c ^ 2 := by
  induction s using Multiset.induction with
  | empty => simp
  | cons x s ih =>
    rw [Multiset.map_cons, Multiset.map_cons, Multiset.sum_cons, Multiset.sum_cons, Multiset.sum_cons, ih,
      Multiset.card_cons, Nat.cast_succ]
    ring

section CharZero

variable [CharZero K]

theorem card_mul_mean (s : Multiset K) : s.card * mean s = s.sum := by
  rcases s.empty_or_exists_mem with rfl | ⟨x, hx⟩
  · simp
  · have hcard : (s.card : K) ≠ 0 := Nat.cast_ne_zero.mpr (Multiset.card_pos_iff_exists_mem.mpr ⟨x, hx⟩).ne'
    rw [mean, mul_div_cancel₀ _ hcard]

theorem succ_card_mul_mean (x : K) (s : Multiset K) :
    (s.card + 1) * mean (x ::ₘ s) = x + s.card * mean s := by
  have h := card_mul_mean (x ::ₘ s)
  rw [Multiset.card_cons, Nat.cast_succ, Multiset.sum_cons] at h
  rw [h, card_mul_mean]

theorem deviations_eq (s : Multiset K) :
    deviations s = (s.map fun x => x ^ 2).sum - s.card * mean s ^ 2 := by
  rw [deviations, sum_sub_sq]
  linear_combination 2 * mean s * card_mul_mean s

theorem mean_cons (x : K) (s : Multiset K) : mean (x ::ₘ s) = mean s + (x - mean s) / (s.card + 1) := by
  have hcard : (s.card : K) + 1 ≠ 0 := Nat.cast_add_one_ne_zero _
  rw [← sub_eq_iff_eq_add', eq_div_iff hcard]
  linear_combination succ_card_mul_mean x s

theorem deviations_cons (x : K) (s : Multiset K) :
    deviations (x ::ₘ s) = deviations s + (x - mean s) * (x - mean (x ::ₘ s)) := by
  rw [deviations_eq, deviations_eq, Multiset.map_cons, Multiset.sum_cons, Multiset.card_cons, Nat.cast_succ]
  linear_combination -(mean s + mean (x ::ₘ s)) * succ_card_mul_mean x s

theorem mean_of_cons (x : K) {s : Multiset K} (h : s ≠ 0) :
    mean s = mean (x ::ₘ s) - (x - mean (x ::ₘ s)) / s.card := by
  have hcard : (s.card : K) ≠ 0 := Nat.cast_ne_zero.mpr (Multiset.card_pos.mpr h).ne'
  rw [eq_sub_iff_add_eq, ← eq_sub_iff_add_eq', div_eq_iff hcard]
  linear_combination -succ_card_mul_mean x s

end CharZero

end Moments
