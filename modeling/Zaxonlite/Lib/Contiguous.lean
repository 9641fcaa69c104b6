import Mathlib.Data.List.Basic
import Mathlib.Data.List.Infix
import Mathlib.Data.List.Nodup
import Mathlib.Data.List.Perm.Subperm
import Mathlib.Data.List.Range

/-!
# Contiguous runs

A log position advances over a set of known positions as far as they are contiguous. `runEnd known
base` is the end of the run `base + 1, base + 2, …` of positions in `known`. A stream of positions is
in a window over `base` when each one lies at most the window above the run its predecessors reach:
the bound under which a ring of that size reorders the stream.
-/

namespace Contiguous

/-- Advance from `base` over known positions, at most `fuel` times. -/
def runEndFrom (known : List ℕ) : ℕ → ℕ → ℕ
  | 0, base => base
  | fuel + 1, base => if base + 1 ∈ known then runEndFrom known fuel (base + 1) else base

/-- The end of the contiguous run of known positions above `base`. -/
def runEnd (known : List ℕ) (base : ℕ) : ℕ :=
  runEndFrom known known.length base

/-- `last` ends the contiguous run of known positions above `base`. -/
structure IsRunEnd (known : List ℕ) (base last : ℕ) : Prop where
  base_le : base ≤ last
  mem : ∀ s, base < s → s ≤ last → s ∈ known
  next_notMem : last + 1 ∉ known

theorem IsRunEnd.unique {known : List ℕ} {base a b : ℕ} (ha : IsRunEnd known base a)
    (hb : IsRunEnd known base b) : a = b := by
  have hle : ∀ {x y}, IsRunEnd known base x → IsRunEnd known base y → x ≤ y := by
    intro x y hx hy
    by_contra hlt
    push Not at hlt
    exact hy.next_notMem (hx.mem (y + 1) (Nat.lt_succ_of_le hy.base_le) hlt)
  exact le_antisymm (hle ha hb) (hle hb ha)

theorem runEndFrom_mem (known : List ℕ) (fuel base s : ℕ) (hlo : base < s)
    (hhi : s ≤ runEndFrom known fuel base) : s ∈ known := by
  induction fuel generalizing base with
  | zero =>
    simp only [runEndFrom] at hhi
    omega
  | succ fuel ih =>
    simp only [runEndFrom] at hhi
    split at hhi
    · rename_i hmem
      rcases Nat.eq_or_lt_of_le (Nat.succ_le_of_lt hlo) with heq | hlt
      · rwa [← heq]
      · exact ih (base + 1) hlt hhi
    · omega

theorem le_runEndFrom (known : List ℕ) (fuel base : ℕ) : base ≤ runEndFrom known fuel base := by
  induction fuel generalizing base with
  | zero => exact le_rfl
  | succ fuel ih =>
    simp only [runEndFrom]
    split
    · exact le_trans (Nat.le_succ base) (ih (base + 1))
    · exact le_rfl

private theorem runEndFrom_stuck (known : List ℕ) (fuel base : ℕ)
    (hmem : runEndFrom known fuel base + 1 ∈ known) : runEndFrom known fuel base = base + fuel := by
  induction fuel generalizing base with
  | zero => rfl
  | succ fuel ih =>
    simp only [runEndFrom] at hmem ⊢
    split
    · rename_i hnext
      rw [if_pos hnext] at hmem
      rw [ih (base + 1) hmem]
      omega
    · rename_i hnext
      rw [if_neg hnext] at hmem
      exact absurd hmem hnext

theorem runEnd_spec (known : List ℕ) (base : ℕ) : IsRunEnd known base (runEnd known base) := by
  refine ⟨le_runEndFrom known _ base, fun s => runEndFrom_mem known _ base s, fun hmem => ?_⟩
  -- Running out of fuel would put more distinct positions into `known` than it has members.
  have hfull := runEndFrom_stuck known known.length base hmem
  have hsub : List.range' (base + 1) (known.length + 1) ⊆ known := by
    intro s hs
    rw [List.mem_range'_1] at hs
    rcases Nat.lt_or_ge s (base + known.length + 1) with hlt | hge
    · refine runEndFrom_mem known known.length base s (by omega) ?_
      rw [hfull]
      omega
    · have hs' : s = runEnd known base + 1 := by
        rw [runEnd, hfull]
        omega
      rwa [hs']
  have hlen := (List.subperm_of_subset List.nodup_range' hsub).length_le
  rw [List.length_range'] at hlen
  omega

theorem runEnd_eq {known : List ℕ} {base last : ℕ} (h : IsRunEnd known base last) :
    runEnd known base = last :=
  (runEnd_spec known base).unique h

theorem base_le_runEnd (known : List ℕ) (base : ℕ) : base ≤ runEnd known base :=
  (runEnd_spec known base).base_le

theorem mem_of_le_runEnd {known : List ℕ} {base s : ℕ} (hlo : base < s)
    (hhi : s ≤ runEnd known base) : s ∈ known :=
  (runEnd_spec known base).mem s hlo hhi

theorem le_runEnd {known : List ℕ} {base last : ℕ}
    (hmem : ∀ s, base < s → s ≤ last → s ∈ known) : last ≤ runEnd known base := by
  by_contra hlt
  push Not at hlt
  have hspec := runEnd_spec known base
  exact hspec.next_notMem (hmem _ (Nat.lt_succ_of_le hspec.base_le) hlt)

theorem runEnd_eq_of_run {known : List ℕ} {base mid : ℕ} (hbase : base ≤ mid)
    (hmem : ∀ s, base < s → s ≤ mid → s ∈ known) : runEnd known base = runEnd known mid := by
  have hspec := runEnd_spec known mid
  refine runEnd_eq ⟨le_trans hbase hspec.base_le, fun s hlo hhi => ?_, hspec.next_notMem⟩
  rcases Nat.lt_or_ge mid s with hlt | hge
  · exact hspec.mem s hlt hhi
  · exact hmem s hlo hge

theorem runEnd_congr {known known' : List ℕ} {base : ℕ}
    (h : ∀ s, base < s → (s ∈ known ↔ s ∈ known')) : runEnd known base = runEnd known' base := by
  have hspec := runEnd_spec known' base
  refine runEnd_eq ⟨hspec.base_le, fun s hlo hhi => (h s hlo).2 (hspec.mem s hlo hhi), fun hmem => ?_⟩
  exact hspec.next_notMem ((h _ (Nat.lt_succ_of_le hspec.base_le)).1 hmem)

theorem runEnd_mono_known {known known' : List ℕ} (base : ℕ) (hsub : known ⊆ known') :
    runEnd known base ≤ runEnd known' base :=
  le_runEnd fun _ hlo hhi => hsub (mem_of_le_runEnd hlo hhi)

theorem runEnd_mono_base (known : List ℕ) {base base' : ℕ} (hle : base ≤ base') :
    runEnd known base ≤ runEnd known base' := by
  rcases Nat.lt_or_ge (runEnd known base) base' with hlt | hge
  · exact le_trans hlt.le (base_le_runEnd known base')
  · exact le_runEnd fun s hlo hhi => mem_of_le_runEnd (lt_of_le_of_lt hle hlo) hhi

theorem runEnd_append_ne {known : List ℕ} {base s : ℕ} (hne : s ≠ runEnd known base + 1) :
    runEnd (known ++ [s]) base = runEnd known base := by
  have hspec := runEnd_spec known base
  refine runEnd_eq ⟨hspec.base_le, fun t hlo hhi => ?_, ?_⟩
  · exact List.mem_append_left _ (hspec.mem t hlo hhi)
  · rw [List.mem_append, List.mem_singleton, not_or]
    exact ⟨hspec.next_notMem, fun h => hne h.symm⟩

/-- Each position of the stream lies at most `window` above the run its predecessors reach. -/
def InWindow (window base : ℕ) (stream : List ℕ) : Prop :=
  ∀ pre s post, stream = pre ++ s :: post → s ≤ runEnd pre base + window

theorem inWindow_nil (window base : ℕ) : InWindow window base [] := by
  intro pre s post h
  simp at h

theorem InWindow.of_append {window base : ℕ} {xs ys : List ℕ} (h : InWindow window base (xs ++ ys)) :
    InWindow window base xs := by
  intro pre s post heq
  exact h pre s (post ++ ys) (by rw [heq]; simp)

theorem InWindow.concat {window base : ℕ} {xs : List ℕ} {s : ℕ} (h : InWindow window base xs)
    (hs : s ≤ runEnd xs base + window) : InWindow window base (xs ++ [s]) := by
  intro pre t post heq
  rcases List.eq_nil_or_concat post with rfl | ⟨post', u, rfl⟩
  · obtain ⟨rfl, ht⟩ := List.append_inj' heq rfl
    rw [List.singleton_inj] at ht
    rwa [← ht]
  · refine h pre t post' ?_
    have heq' : xs ++ [s] = (pre ++ t :: post') ++ [u] := by
      rw [heq]
      simp
    exact (List.append_inj' heq' rfl).1

theorem InWindow.bound {window base : ℕ} {xs ys : List ℕ} {s : ℕ}
    (h : InWindow window base (xs ++ s :: ys)) : s ≤ runEnd xs base + window :=
  h xs s ys rfl

theorem InWindow.le_of_mem {window base : ℕ} {stream : List ℕ} {s : ℕ}
    (h : InWindow window base stream) (hs : s ∈ stream) : s ≤ runEnd stream base + window := by
  obtain ⟨pre, post, rfl⟩ := List.append_of_mem hs
  refine le_trans (h pre s post rfl) (Nat.add_le_add_right ?_ window)
  exact runEnd_mono_known base (List.subset_append_left pre _)

theorem mod_ne_of_lt {window s t : ℕ} (hlt : t < s) (hwin : s < t + window) :
    s % window ≠ t % window := by
  intro h
  have hmod : (s - t) % window = 0 := by
    have := Nat.sub_mod_eq_zero_of_mod_eq h
    exact this
  have hdiff : s - t < window := by omega
  rw [Nat.mod_eq_of_lt hdiff] at hmod
  omega

theorem InWindow.mono_base {window base base' : ℕ} {stream : List ℕ}
    (h : InWindow window base stream) (hle : base ≤ base') : InWindow window base' stream := by
  intro pre s post heq
  exact le_trans (h pre s post heq) (Nat.add_le_add_right (runEnd_mono_base pre hle) window)

/-- Positions at or below the base can be cut off the front of a stream. -/
theorem InWindow.drop_low {window base : ℕ} {low rest : List ℕ}
    (h : InWindow window base (low ++ rest)) (hlow : ∀ s ∈ low, s ≤ base) :
    InWindow window base rest := by
  intro pre s post heq
  have hcongr : runEnd (low ++ pre) base = runEnd pre base := by
    refine runEnd_congr fun t ht => ?_
    rw [List.mem_append]
    refine ⟨fun hmem => hmem.resolve_left fun hl => ?_, Or.inr⟩
    exact absurd (hlow t hl) (Nat.not_le_of_lt ht)
  rw [← hcongr]
  exact h (low ++ pre) s post (by rw [heq, List.append_assoc])

end Contiguous
