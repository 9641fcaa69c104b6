import Zaxonlite.Lib.Moments
import Zaxonlite.Lib.Program
import Mathlib.Algebra.Order.Ring.Rat

/-!
# The deviation of a sliding window

`stddev_samp` keeps three numbers of the values in its window. A value that enters moves all three, and one
that leaves moves them back by formulas of its own, with a case apart for the last value. Over exact rationals
the three are always the count, the mean and the squared deviations of the values present.
-/

namespace Zaxonlite

namespace Search

open Program Moments

/-- `Welford`, over exact rationals. The count is a natural number where the source has a `u64`. -/
structure Welford where
  count : ℕ
  mean : ℚ
  m2 : ℚ
  deriving DecidableEq, Repr

inductive WelfordError where
  | internalState
  deriving DecidableEq, Repr

namespace Welford

/-- The state SQLite allocates. -/
def empty : Welford where
  count := 0
  mean := 0
  m2 := 0

def step (x : ℚ) (w : Welford) : Welford :=
  let count := w.count + 1
  let delta := x - w.mean
  let mean := w.mean + delta / count
  ⟨count, mean, w.m2 + delta * (x - mean)⟩

/-- How far below zero `inverse` takes `m2` for a rounding error. -/
def tolerance (x : ℚ) : ℚ :=
  1 / 10 ^ 8 * max 1 (x * x)

/-- The state without a value, as `inverse` computes it where another is left. -/
def removed (x : ℚ) (w : Welford) : Welford :=
  let remaining := w.count - 1
  let delta := x - w.mean
  let mean := w.mean - delta / remaining
  ⟨remaining, mean, w.m2 - (x - mean) * delta⟩

def inverse (x : ℚ) : EStateM WelfordError Welford Unit := do
  let w ← get
  if w.count = 0 then throw .internalState
  else if w.count = 1 then modify fun _ => empty
  else
    modify (removed x)
    let w ← get
    if w.m2 < 0 then
      if w.m2 < -tolerance x then throw .internalState
      else modify fun w => { w with m2 := 0 }
    else pure ()

def sampleStddev (sqrt : ℚ → ℚ) (w : Welford) : Option ℚ :=
  if w.count = 0 then none
  else if w.count = 1 then some 0
  else some (sqrt (w.m2 / (w.count - 1 : ℕ)))

end Welford

/-- A value enters the window, or leaves it. -/
inductive Change where
  | step (x : ℚ)
  | inverse (x : ℚ)
  deriving DecidableEq, Repr

def Change.run : Change → EStateM WelfordError Welford Unit
  | .step x => modify (Welford.step x)
  | .inverse x => Welford.inverse x

/-- The values present after some changes, unless one of them takes out a value that is not there. -/
def present (s : Multiset ℚ) : List Change → Option (Multiset ℚ)
  | [] => some s
  | .step x :: changes => present (x ::ₘ s) changes
  | .inverse x :: changes => if x ∈ s then present (s.erase x) changes else none

/-- No more values are present than steps were taken, so fewer than 2^64 changes keep the count of the source in
its width. -/
theorem card_le_of_present {s s' : Multiset ℚ} {changes : List Change} (h : present s changes = some s') :
    s'.card ≤ s.card + changes.length := by
  induction changes generalizing s with
  | nil =>
    obtain rfl := Option.some.inj h
    exact Nat.le_add_right _ _
  | cons change changes ih =>
    rw [List.length_cons]
    cases change with
    | step x =>
      have hrest := ih h
      rw [Multiset.card_cons] at hrest
      omega
    | inverse x =>
      rw [present] at h
      split at h
      case isTrue hx =>
        have hrest := ih h
        have hless : (s.erase x).card ≤ s.card := Multiset.card_le_card (Multiset.erase_le x s)
        omega
      case isFalse => cases h

/-! ### One change -/

namespace Welford

def ofValues (s : Multiset ℚ) : Welford where
  count := s.card
  mean := Moments.mean s
  m2 := deviations s

theorem ofValues_zero : ofValues 0 = empty := by
  simp only [ofValues, empty, Multiset.card_zero, mean_zero, deviations_zero]

theorem step_ofValues (x : ℚ) (s : Multiset ℚ) : step x (ofValues s) = ofValues (x ::ₘ s) := by
  simp only [step, ofValues, Multiset.card_cons, Nat.cast_succ, ← mean_cons, ← deviations_cons]

theorem removed_ofValues (x : ℚ) {s : Multiset ℚ} (hs : s ≠ 0) :
    removed x (ofValues (x ::ₘ s)) = ofValues s := by
  have hmean := mean_of_cons x hs
  have hm2 : deviations (x ::ₘ s) - (x - Moments.mean s) * (x - Moments.mean (x ::ₘ s)) = deviations s := by
    rw [deviations_cons, add_sub_cancel_right]
  simp only [removed, ofValues, Multiset.card_cons, Nat.add_sub_cancel, ← hmean, hm2]

theorem inverse_ofValues (x : ℚ) (s : Multiset ℚ) :
    inverse x (ofValues (x ::ₘ s)) = .ok () (ofValues s) := by
  rcases eq_or_ne s 0 with rfl | hs
  · rw [ofValues_zero]
    rfl
  · have hcard : (ofValues (x ::ₘ s)).count = s.card + 1 := Multiset.card_cons x s
    have hpos : s.card ≠ 0 := (Multiset.card_pos.mpr hs).ne'
    have hm2 : ¬ (ofValues s).m2 < 0 := not_lt.mpr (deviations_nonneg s)
    obtain ⟨⟨⟩, w, heq, rfl⟩ : ∃ u w, inverse x (ofValues (x ::ₘ s)) = .ok u w ∧ w = ofValues s := by
      refine eq_ok_of_wp ?_
      simp only [inverse, wp_bind, wp_get, wp_ite, wp_throw, wp_modify, wp_pure, hcard, removed_ofValues x hs]
      refine ⟨fun h => absurd h (Nat.succ_ne_zero _), fun _ => ⟨fun h => ?_, fun _ => ?_⟩⟩
      · exact absurd (Nat.succ_injective h) hpos
      · exact ⟨fun h => absurd h hm2, fun _ => trivial⟩
    exact heq

end Welford

/-! ### A window -/

theorem run_ofValues {s s' : Multiset ℚ} {changes : List Change} (h : present s changes = some s') :
    changes.forM Change.run (Welford.ofValues s) = .ok ⟨⟩ (Welford.ofValues s') := by
  induction changes generalizing s with
  | nil =>
    obtain rfl := Option.some.inj h
    rfl
  | cons change changes ih =>
    cases change with
    | step x =>
      have hrun : Change.run (.step x) (Welford.ofValues s) = .ok ⟨⟩ (Welford.ofValues (x ::ₘ s)) := by
        rw [← Welford.step_ofValues]
        rfl
      exact (bind_of_ok hrun fun _ => changes.forM Change.run).trans (ih h)
    | inverse x =>
      rw [present] at h
      split at h
      case isTrue hx =>
        have hrun := Welford.inverse_ofValues x (s.erase x)
        rw [Multiset.cons_erase hx] at hrun
        exact (bind_of_ok hrun fun _ => changes.forM Change.run).trans (ih h)
      case isFalse => cases h

/-- **After changes that take out only what is there, the state is the count, the mean and the squared deviations
of the values present; none of the changes has failed.** -/
theorem welford_of_present {changes : List Change} {s : Multiset ℚ} (h : present 0 changes = some s) :
    changes.forM Change.run Welford.empty = .ok ⟨⟩ ⟨s.card, Moments.mean s, Moments.deviations s⟩ ∧
      0 ≤ Moments.deviations s := by
  refine ⟨?_, deviations_nonneg s⟩
  rw [← Welford.ofValues_zero]
  exact run_ofValues h

theorem sampleStddev_ofValues {sqrt : ℚ → ℚ} (hsqrt : sqrt 0 = 0) {s : Multiset ℚ} (hs : s ≠ 0) :
    Welford.sampleStddev sqrt (Welford.ofValues s) = some (sqrt (deviations s / (s.card - 1 : ℕ))) := by
  have hcard : (Welford.ofValues s).count = s.card := rfl
  rw [Welford.sampleStddev, hcard, if_neg (Multiset.card_pos.mpr hs).ne']
  split
  case isTrue hone =>
    obtain ⟨x, rfl⟩ := Multiset.card_eq_one.mp hone
    rw [Multiset.card_singleton, Nat.sub_self, Nat.cast_zero, div_zero, hsqrt]
  case isFalse => rfl

/-- A window that three values enter, two of them the same, and one of the two leaves. -/
theorem welford_of_present_repeated :
    [Change.step 1, .step 1, .step 4, .inverse 1].forM Change.run Welford.empty =
        .ok ⟨⟩ ⟨2, Moments.mean {4, 1}, Moments.deviations {4, 1}⟩ ∧
      0 ≤ Moments.deviations ({4, 1} : Multiset ℚ) :=
  welford_of_present (s := {4, 1}) (by decide)

end Search

end Zaxonlite
