import Zaxonlite.Lib.Checked

/-!
# Where a computation goes wrong

A computation is allowed some of its errors. It is at fault when it ends in another. A chain is at fault
where its first faulty part is, and a loop at the first element that is, all before it having gone well.
-/

namespace Faults

open Checked

variable {ε α β : Type} (own : ε → Prop)

/-- The computation ends in an error that it is not allowed. -/
def Faulty (x : Except ε α) : Prop :=
  ∃ e, x = .error e ∧ ¬own e

variable {own}

theorem not_faulty_ok (a : α) : ¬Faulty own (.ok a : Except ε α) := by
  rintro ⟨e, h, -⟩
  cases h

theorem not_faulty_error {e : ε} (h : own e) : ¬Faulty own (.error e : Except ε α) := by
  rintro ⟨e', heq, hno⟩
  cases heq
  exact hno h

theorem faulty_error {e : ε} (h : ¬own e) : Faulty own (.error e : Except ε α) :=
  ⟨e, rfl, h⟩

theorem faulty_bind {x : Except ε α} {f : α → Except ε β} :
    Faulty own (x >>= f) ↔ Faulty own x ∨ ∃ a, x = .ok a ∧ Faulty own (f a) := by
  cases x with
  | error e =>
    rw [error_bind]
    constructor
    · rintro ⟨e', h, hno⟩
      cases h
      exact .inl ⟨e, rfl, hno⟩
    · rintro (⟨e', h, hno⟩ | ⟨a, h, -⟩)
      · cases h
        exact ⟨e, rfl, hno⟩
      · cases h
  | ok a =>
    rw [ok_bind]
    constructor
    · intro h
      exact .inr ⟨a, rfl, h⟩
    · rintro (h | ⟨b, hb, h⟩)
      · exact absurd h (not_faulty_ok a)
      · cases hb
        exact h

theorem not_faulty_require {e : ε} (h : own e) (c : Prop) [Decidable c] : ¬Faulty own (require e c) := by
  by_cases hc : c
  · rw [require_of hc]
    exact not_faulty_ok ()
  · rw [require_of_not hc]
    exact not_faulty_error h

/-- A loop is at fault at the first element whose turn is. -/
theorem faulty_foldlM {f : β → α → Except ε β} {start : β} {l : List α} :
    Faulty own (l.foldlM f start) ↔ ∃ before x after state, l = before ++ x :: after ∧
      before.foldlM f start = .ok state ∧ Faulty own (f state x) := by
  induction l generalizing start with
  | nil =>
    constructor
    · intro h
      exact absurd h (not_faulty_ok start)
    · rintro ⟨before, x, after, state, h, -⟩
      exact absurd h (by simp)
  | cons y l ih =>
    rw [List.foldlM_cons, faulty_bind]
    constructor
    · rintro (h | ⟨next, hnext, h⟩)
      · exact ⟨[], y, l, start, rfl, rfl, h⟩
      · obtain ⟨before, x, after, state, rfl, hbefore, hx⟩ := ih.1 h
        refine ⟨y :: before, x, after, state, rfl, ?_, hx⟩
        rw [List.foldlM_cons, hnext]
        exact hbefore
    · rintro ⟨before, x, after, state, hsplit, hbefore, hx⟩
      cases before with
      | nil =>
        obtain ⟨rfl, rfl⟩ := List.cons.inj hsplit
        cases hbefore
        exact .inl hx
      | cons z before =>
        obtain ⟨rfl, rfl⟩ := List.cons.inj hsplit
        rw [List.foldlM_cons] at hbefore
        obtain ⟨next, hnext, hbefore⟩ := bind_eq_ok.1 hbefore
        exact .inr ⟨next, hnext, ih.2 ⟨before, x, after, state, rfl, hbefore, hx⟩⟩

theorem faulty_mapM {f : α → Except ε β} {l : List α} :
    Faulty own (l.mapM f) ↔ ∃ before x after results, l = before ++ x :: after ∧
      before.mapM f = .ok results ∧ Faulty own (f x) := by
  induction l with
  | nil =>
    rw [List.mapM_nil]
    constructor
    · intro h
      exact absurd h (not_faulty_ok _)
    · rintro ⟨before, x, after, results, h, -⟩
      exact absurd h (by simp)
  | cons y l ih =>
    rw [List.mapM_cons, faulty_bind]
    constructor
    · rintro (h | ⟨first, hfirst, h⟩)
      · exact ⟨[], y, l, [], rfl, rfl, h⟩
      · rcases faulty_bind.1 h with h | ⟨rest, -, h⟩
        · obtain ⟨before, x, after, results, rfl, hbefore, hx⟩ := ih.1 h
          refine ⟨y :: before, x, after, first :: results, rfl, ?_, hx⟩
          rw [List.mapM_cons, hfirst, hbefore]
          rfl
        · exact absurd h (not_faulty_ok _)
    · rintro ⟨before, x, after, results, hsplit, hbefore, hx⟩
      cases before with
      | nil =>
        obtain ⟨rfl, rfl⟩ := List.cons.inj hsplit
        exact .inl hx
      | cons z before =>
        obtain ⟨rfl, rfl⟩ := List.cons.inj hsplit
        rw [List.mapM_cons] at hbefore
        obtain ⟨first, hfirst, hbefore⟩ := bind_eq_ok.1 hbefore
        obtain ⟨rest, hrest, -⟩ := bind_eq_ok.1 hbefore
        exact .inr ⟨first, hfirst, faulty_bind.2 (.inl (ih.2 ⟨before, x, after, rest, rfl, hrest, hx⟩))⟩

end Faults
