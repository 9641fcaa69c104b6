import Mathlib.Logic.Basic

/-!
# Runs of a transition system

A system is given by its initial states and a step relation; a state is reachable when finitely many
steps lead to it. A property that holds initially and that every step preserves holds of every
reachable state.
-/

namespace Run

variable {σ : Type*}

/-- The states some finite run ends in. -/
inductive Reachable (init : σ → Prop) (step : σ → σ → Prop) : σ → Prop
  | start {s : σ} : init s → Reachable init step s
  | step {s s' : σ} : Reachable init step s → step s s' → Reachable init step s'

theorem Reachable.invariant {init : σ → Prop} {step : σ → σ → Prop} {I : σ → Prop}
    (hinit : ∀ s, init s → I s) (hstep : ∀ s s', I s → step s s' → I s') {s : σ}
    (h : Reachable init step s) : I s := by
  induction h with
  | start h => exact hinit _ h
  | step _ hs ih => exact hstep _ _ ih hs

end Run
