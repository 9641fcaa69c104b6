import Mathlib.Algebra.Order.BigOperators.Group.List
import Mathlib.Algebra.Order.Group.Nat
import Mathlib.Algebra.GroupWithZero.Nat
import Zaxonlite.Lib.Run

/-!
# Threads over a shared state

Any number of threads work on one shared state, each with a local state of its own, and one of them moves at a
time. Two kinds of invariant come up: a number in the shared state is the sum of what the threads contribute to
it, and something holds of every thread.
-/

/-- A shared state and the local states of its threads. -/
structure Threads (σ κ : Type*) where
  shared : σ
  locals : List κ

namespace Threads

open Run

variable {σ κ : Type*}

inductive Step (move : σ → κ → σ → κ → Prop) : Threads σ κ → Threads σ κ → Prop
  | moves {s s' : σ} {t t' : κ} (before after : List κ) :
    move s t s' t' → Step move ⟨s, before ++ t :: after⟩ ⟨s', before ++ t' :: after⟩

variable {move : σ → κ → σ → κ → Prop}

theorem Step.mono {move' : σ → κ → σ → κ → Prop} (h : ∀ s t s' t', move s t s' t' → move' s t s' t')
    {x y : Threads σ κ} (hstep : Step move x y) : Step move' x y := by
  cases hstep with
  | moves before after hm => exact .moves before after (h _ _ _ _ hm)

/-! ### Sums -/

def total (w : κ → ℕ) (ts : List κ) : ℕ :=
  (ts.map w).sum

theorem total_at (w : κ → ℕ) (before after : List κ) (t : κ) :
    total w (before ++ t :: after) = total w (before ++ after) + w t := by
  simp only [total, List.map_append, List.map_cons, List.sum_append, List.sum_cons]
  omega

theorem le_total {w : κ → ℕ} {ts : List κ} {t : κ} (h : t ∈ ts) : w t ≤ total w ts := by
  obtain ⟨before, after, rfl⟩ := List.append_of_mem h
  rw [total_at]
  exact Nat.le_add_left _ _

theorem exists_of_total_pos {w : κ → ℕ} {ts : List κ} (h : 0 < total w ts) : ∃ t ∈ ts, 0 < w t := by
  by_contra hno
  rw [not_exists] at hno
  have hzero : total w ts = 0 := List.sum_eq_zero fun x hx => ?_
  · omega
  obtain ⟨t, ht, rfl⟩ := List.mem_map.1 hx
  exact Nat.eq_zero_of_not_pos fun hpos => hno t ⟨ht, hpos⟩

theorem total_mono {w w' : κ → ℕ} (h : ∀ t, w t ≤ w' t) (ts : List κ) : total w ts ≤ total w' ts :=
  List.sum_le_sum fun t _ => h t

theorem total_toNat (p : κ → Bool) (ts : List κ) : total (fun t => (p t).toNat) ts = ts.countP p := by
  induction ts with
  | nil => rfl
  | cons t ts ih =>
    rw [total, List.map_cons, List.sum_cons, List.countP_cons, Nat.add_comm]
    cases hp : p t
    · exact congrArg (· + 0) ih
    · exact congrArg (· + 1) ih

/-! ### Accounts -/

section Accounts

variable {ι : Type*} (count : ι → σ → ℕ) (weight : ι → κ → ℕ)

/-- Each number of the shared state is the sum of what the threads contribute to it. -/
def Accounted (x : Threads σ κ) : Prop :=
  ∀ i, count i x.shared = total (weight i) x.locals

def Covers (s : σ) (t : κ) : Prop :=
  ∀ i, weight i t ≤ count i s

/-- What two threads contribute is there. -/
def CoversBoth (s : σ) (t u : κ) : Prop :=
  ∀ i, weight i t + weight i u ≤ count i s

variable {count weight}

theorem Accounted.covers {x : Threads σ κ} (h : Accounted count weight x) {t : κ} (ht : t ∈ x.locals) :
    Covers count weight x.shared t :=
  fun i => (le_total ht).trans_eq (h i).symm

theorem Accounted.coversBoth {s : σ} {before after : List κ} {t u : κ}
    (h : Accounted count weight ⟨s, before ++ t :: after⟩) (hu : u ∈ before ++ after) :
    CoversBoth count weight s t u := fun i => by
  have hle : weight i u ≤ total (weight i) (before ++ after) := le_total hu
  have hsum : count i s = total (weight i) (before ++ t :: after) := h i
  rw [total_at] at hsum
  omega

theorem Accounted.mono {x : Threads σ κ} (h : Accounted count weight x) {i j : ι}
    (hle : ∀ t, weight i t ≤ weight j t) : count i x.shared ≤ count j x.shared := by
  rw [h i, h j]
  exact total_mono hle _

theorem Accounted.exists_of_pos {x : Threads σ κ} (h : Accounted count weight x) {i : ι}
    (hpos : 0 < count i x.shared) : ∃ t ∈ x.locals, 0 < weight i t :=
  exists_of_total_pos (h i ▸ hpos)

/-- Every number changes by what the moving thread's contribution changes by. -/
theorem Step.accounted {I : σ → Prop}
    (hmove : ∀ s t s' t', I s → Covers count weight s t → move s t s' t' →
      ∀ i, count i s' + weight i t = count i s + weight i t') {x y : Threads σ κ}
    (hstep : Step move x y) (hI : I x.shared) (h : Accounted count weight x) : Accounted count weight y := by
  cases hstep with
  | @moves s s' t t' before after hm =>
    have hcovers : Covers count weight s t := h.covers (List.mem_append_right _ List.mem_cons_self)
    intro i
    have hbalance := hmove s t s' t' hI hcovers hm i
    have hle := hcovers i
    have hsum : count i s = total (weight i) (before ++ t :: after) := h i
    change count i s' = total (weight i) (before ++ t' :: after)
    rw [total_at] at hsum ⊢
    omega

/-- What a move makes true of the thread that moves and keeps true of the others is true of all threads. -/
theorem Step.forall {P : σ → κ → Prop} {I : σ → Prop}
    (hself : ∀ s t s' t', I s → Covers count weight s t → move s t s' t' → P s t → P s' t')
    (hothers : ∀ s t s' t' u, I s → CoversBoth count weight s t u → move s t s' t' → P s t → P s u → P s' u)
    {x y : Threads σ κ} (hstep : Step move x y) (hI : I x.shared) (ha : Accounted count weight x)
    (h : ∀ t ∈ x.locals, P x.shared t) : ∀ t ∈ y.locals, P y.shared t := by
  cases hstep with
  | @moves s s' t t' before after hm =>
    intro u hu
    rw [List.mem_append, List.mem_cons] at hu
    have hother (hu : u ∈ before ++ after) :=
      hothers _ _ _ _ u hI (ha.coversBoth hu) hm (h _ (List.mem_append_right _ List.mem_cons_self)) (h u (by
        rw [List.mem_append] at hu
        exact List.mem_append.2 (hu.imp_right (List.mem_cons_of_mem _))))
    rcases hu with hbefore | rfl | hafter
    · exact hother (List.mem_append_left _ hbefore)
    · have hmem : t ∈ before ++ t :: after := List.mem_append_right _ List.mem_cons_self
      exact hself _ _ _ _ hI (ha.covers hmem) hm (h _ hmem)
    · exact hother (List.mem_append_right _ hafter)

/-- What every move keeps of the shared state. -/
theorem Step.shared {I J : σ → Prop} {P : σ → κ → Prop}
    (hmove : ∀ s t s' t', I s → Covers count weight s t → P s t → move s t s' t' → J s → J s')
    {x y : Threads σ κ} (hstep : Step move x y) (hI : I x.shared) (ha : Accounted count weight x)
    (hP : ∀ t ∈ x.locals, P x.shared t) (h : J x.shared) : J y.shared := by
  cases hstep with
  | @moves s s' t t' before after hm =>
    have hmem : t ∈ before ++ t :: after := List.mem_append_right _ List.mem_cons_self
    exact hmove _ _ _ _ hI (ha.covers hmem) (hP _ hmem) hm h

end Accounts

/-! ### Termination -/

/-- If a move takes work off the thread that makes it, or leaves everything but that thread's waiting as it was, no
run goes on for ever. -/
theorem Step.wellFounded (work : κ → ℕ) (waiting : σ → κ → ℕ)
    (hmove : ∀ s t s' t', move s t s' t' →
      work t' < work t ∨ work t' = work t ∧ s' = s ∧ waiting s t' < waiting s t) :
    WellFounded fun y x : Threads σ κ => Step move x y := by
  refine Subrelation.wf (r := InvImage (Prod.Lex (· < ·) (· < ·)) fun x : Threads σ κ =>
    (total work x.locals, total (waiting x.shared) x.locals)) ?_
    (InvImage.wf _ (WellFounded.prod_lex Nat.lt_wfRel.wf Nat.lt_wfRel.wf))
  intro y x hstep
  cases hstep with
  | @moves s s' t t' before after hm =>
    rcases hmove _ _ _ _ hm with hwork | ⟨hwork, rfl, hwaiting⟩
    · refine Prod.Lex.left _ _ ?_
      change total work (before ++ t' :: after) < total work (before ++ t :: after)
      rw [total_at, total_at]
      omega
    · change Prod.Lex _ _ (total work (before ++ t' :: after), total (waiting _) (before ++ t' :: after))
        (total work (before ++ t :: after), total (waiting _) (before ++ t :: after))
      rw [total_at, total_at, total_at, total_at, hwork]
      exact Prod.Lex.right _ (Nat.add_lt_add_left hwaiting _)

end Threads
