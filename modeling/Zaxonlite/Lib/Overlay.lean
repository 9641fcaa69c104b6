import Mathlib.Data.List.Basic

/-!
# Overlays

An overlay is a partial assignment laid over a total one: where it is defined it wins, elsewhere the
underlying value shows through. A sequence of blind writes is a list of overlays, the later ones on
top. The facts here are the ones recovery by replay rests on: an index some overlay of a list covers
forgets what lay beneath it, so replaying a list over a state that already received part of it ends
where replaying it over the original state does.
-/

namespace Overlay

variable {ι α : Type*}

/-- A partial assignment of values to indices. -/
abbrev Patch (ι α : Type*) := ι → Option α

/-- Lay one patch over a total assignment. -/
def apply (p : Patch ι α) (f : ι → α) : ι → α :=
  fun i => (p i).getD (f i)

/-- Lay the patches over an assignment in order, the last one on top. -/
def applyAll (ps : List (Patch ι α)) (f : ι → α) : ι → α :=
  ps.foldl (fun g p => apply p g) f

/-- Some patch of the list assigns the index. -/
def Covers (ps : List (Patch ι α)) (i : ι) : Prop :=
  ∃ p ∈ ps, p i ≠ none

@[simp] theorem applyAll_cons (p : Patch ι α) (ps : List (Patch ι α)) (f : ι → α) :
    applyAll (p :: ps) f = applyAll ps (apply p f) := rfl

@[simp] theorem not_covers_nil (i : ι) : ¬ Covers ([] : List (Patch ι α)) i := by
  rintro ⟨p, hp, -⟩
  simp at hp

theorem covers_cons {p : Patch ι α} {ps : List (Patch ι α)} {i : ι} :
    Covers (p :: ps) i ↔ p i ≠ none ∨ Covers ps i := by
  simp [Covers]

theorem applyAll_congr_at (ps : List (Patch ι α)) {f g : ι → α} {i : ι} (h : f i = g i) :
    applyAll ps f i = applyAll ps g i := by
  induction ps generalizing f g with
  | nil => exact h
  | cons p ps ih =>
    refine ih ?_
    simp only [apply, h]

theorem applyAll_of_covers {ps : List (Patch ι α)} {i : ι} (h : Covers ps i) (f g : ι → α) :
    applyAll ps f i = applyAll ps g i := by
  induction ps generalizing f g with
  | nil => exact absurd h (not_covers_nil i)
  | cons p ps ih =>
    rcases covers_cons.1 h with hp | hps
    · refine applyAll_congr_at ps ?_
      obtain ⟨a, ha⟩ := Option.ne_none_iff_exists'.1 hp
      simp only [apply, ha, Option.getD_some]
    · exact ih hps _ _

theorem applyAll_of_not_covers {ps : List (Patch ι α)} {i : ι} (h : ¬ Covers ps i) (f : ι → α) :
    applyAll ps f i = f i := by
  induction ps generalizing f with
  | nil => rfl
  | cons p ps ih =>
    rw [covers_cons, not_or, not_not] at h
    rw [applyAll_cons, ih h.2]
    simp only [apply, h.1, Option.getD_none]

/-- The replay of a list equals the replay over a patched assignment exactly when the patches and
the assignment agree on every index the list leaves alone. -/
theorem applyAll_eq_iff (ps : List (Patch ι α)) (f g : ι → α) :
    applyAll ps f = applyAll ps g ↔ ∀ i, ¬ Covers ps i → f i = g i := by
  constructor
  · intro h i hi
    have hfg := congrFun h i
    rwa [applyAll_of_not_covers hi, applyAll_of_not_covers hi] at hfg
  · intro h
    funext i
    by_cases hi : Covers ps i
    · exact applyAll_of_covers hi f g
    · exact applyAll_congr_at ps (h i hi)

end Overlay
