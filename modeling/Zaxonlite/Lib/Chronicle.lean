import Mathlib.Data.List.Basic

/-!
# Chronicles

A chronicle is the list of what happened, in its order. It is legal when each of its events is allowed after those
before it. That is a property of every way to cut it at an event, and it is kept by appending a part that is legal
after the rest.
-/

namespace Chronicle

variable {α : Type*}

/-- Every event is allowed after those before it; `before` is what happened before the chronicle. -/
def Legal (allowed : List α → α → Prop) : List α → List α → Prop
  | _, [] => True
  | before, event :: events => allowed before event ∧ Legal allowed (before ++ [event]) events

variable {allowed : List α → α → Prop} {before events after : List α} {event : α}

@[simp] theorem legal_nil : Legal allowed before [] :=
  trivial

theorem legal_cons :
    Legal allowed before (event :: events) ↔ allowed before event ∧ Legal allowed (before ++ [event]) events :=
  Iff.rfl

theorem legal_append :
    Legal allowed before (events ++ after) ↔
      Legal allowed before events ∧ Legal allowed (before ++ events) after := by
  induction events generalizing before with
  | nil => rw [List.nil_append, List.append_nil, and_iff_right legal_nil]
  | cons event events ih =>
    rw [List.cons_append, legal_cons, legal_cons, ih, List.append_assoc, List.singleton_append, and_assoc]

theorem Legal.at_event (h : Legal allowed [] (before ++ event :: after)) : allowed before event := by
  have hrest := (legal_append.1 h).2
  rw [List.nil_append] at hrest
  exact hrest.1

theorem legal_of_forall (hmono : ∀ before more event, allowed before event → allowed (before ++ more) event)
    (h : ∀ event ∈ events, allowed before event) : Legal allowed before events := by
  induction events generalizing before with
  | nil => trivial
  | cons event events ih =>
    refine ⟨h event List.mem_cons_self, ih fun e he => ?_⟩
    exact hmono _ _ _ (h e (List.mem_cons_of_mem _ he))

end Chronicle
