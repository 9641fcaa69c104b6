import Mathlib.Order.Defs.Unbundled

/-!
# Fallible programs over a state

Programs in `EStateM` change a state and either return or raise an error, and an error keeps the
changes made before it. `wp x Q E s` is the weakest precondition: `x` run from `s` ends in `Q` when it
returns and in `E` when it raises. The simp set below executes a program symbolically; loops are
handled by the rules for `List.foldlM` and `List.forM`, whose invariants speak of the prefix already
processed.
-/

namespace Program

variable {ε σ α β : Type}

/-- `x` run from `s` returns into `Q` or raises into `E`. -/
def wp (x : EStateM ε σ α) (Q : α → σ → Prop) (E : ε → σ → Prop) (s : σ) : Prop :=
  match x s with
  | .ok a s' => Q a s'
  | .error e s' => E e s'

/-- Run `x`, and on an error change the state before passing the error on. -/
def onError (x : EStateM ε σ α) (f : σ → σ) : EStateM ε σ α := fun s =>
  match x s with
  | .ok a s' => .ok a s'
  | .error e s' => .error e (f s')

/-- The state a program ends in, whether it returns or raises. -/
def finalState (x : EStateM ε σ α) (s : σ) : σ :=
  match x s with
  | .ok _ s' => s'
  | .error _ s' => s'

@[simp] theorem wp_pure (a : α) (Q : α → σ → Prop) (E : ε → σ → Prop) (s : σ) :
    wp (pure a : EStateM ε σ α) Q E s ↔ Q a s := Iff.rfl

@[simp] theorem wp_throw (e : ε) (Q : α → σ → Prop) (E : ε → σ → Prop) (s : σ) :
    wp (throw e : EStateM ε σ α) Q E s ↔ E e s := Iff.rfl

@[simp] theorem wp_get (Q : σ → σ → Prop) (E : ε → σ → Prop) (s : σ) :
    wp (get : EStateM ε σ σ) Q E s ↔ Q s s := Iff.rfl

@[simp] theorem wp_modify (f : σ → σ) (Q : PUnit → σ → Prop) (E : ε → σ → Prop) (s : σ) :
    wp (modify f : EStateM ε σ PUnit) Q E s ↔ Q ⟨⟩ (f s) := Iff.rfl

@[simp] theorem wp_bind (x : EStateM ε σ α) (f : α → EStateM ε σ β) (Q : β → σ → Prop)
    (E : ε → σ → Prop) (s : σ) :
    wp (x >>= f) Q E s ↔ wp x (fun a => wp (f a) Q E) E s := by
  simp only [wp, bind, EStateM.bind]
  cases x s <;> rfl

@[simp] theorem wp_map (x : EStateM ε σ α) (f : α → β) (Q : β → σ → Prop) (E : ε → σ → Prop)
    (s : σ) : wp (f <$> x) Q E s ↔ wp x (fun a => Q (f a)) E s := by
  simp only [wp, Functor.map, EStateM.map]
  cases x s <;> rfl

@[simp] theorem wp_onError (x : EStateM ε σ α) (f : σ → σ) (Q : α → σ → Prop) (E : ε → σ → Prop)
    (s : σ) : wp (onError x f) Q E s ↔ wp x Q (fun e s' => E e (f s')) s := by
  simp only [wp, onError]
  cases x s <;> rfl

theorem wp_ite (c : Prop) [Decidable c] (x y : EStateM ε σ α) (Q : α → σ → Prop) (E : ε → σ → Prop)
    (s : σ) : wp (if c then x else y) Q E s ↔ (c → wp x Q E s) ∧ (¬ c → wp y Q E s) := by
  by_cases h : c
  · simp only [h, if_true, forall_const, not_true, false_implies, and_true]
  · simp only [h, if_false, false_implies, true_and, not_false_eq_true, forall_const]

theorem wp_mono {x : EStateM ε σ α} {Q Q' : α → σ → Prop} {E E' : ε → σ → Prop} {s : σ}
    (h : wp x Q E s) (hQ : ∀ a s', Q a s' → Q' a s') (hE : ∀ e s', E e s' → E' e s') :
    wp x Q' E' s := by
  simp only [wp] at h ⊢
  cases hx : x s with
  | ok a s' =>
    rw [hx] at h
    exact hQ a s' h
  | error e s' =>
    rw [hx] at h
    exact hE e s' h

theorem wp_and {x : EStateM ε σ α} {Q Q' : α → σ → Prop} {E E' : ε → σ → Prop} {s : σ}
    (h : wp x Q E s) (h' : wp x Q' E' s) :
    wp x (fun a s' => Q a s' ∧ Q' a s') (fun e s' => E e s' ∧ E' e s') s := by
  simp only [wp] at h h' ⊢
  cases hx : x s with
  | ok a s' =>
    rw [hx] at h h'
    exact ⟨h, h'⟩
  | error e s' =>
    rw [hx] at h h'
    exact ⟨h, h'⟩

theorem wp_self (x : EStateM ε σ α) (s : σ) :
    wp x (fun a s' => x s = .ok a s') (fun e s' => x s = .error e s') s := by
  simp only [wp]
  cases x s <;> rfl

theorem finalState_of_wp {x : EStateM ε σ α} {P : σ → Prop} {s : σ}
    (h : wp x (fun _ => P) (fun _ => P) s) : P (finalState x s) := by
  simp only [wp, finalState] at h ⊢
  cases hx : x s with
  | ok a s' =>
    rw [hx] at h
    exact h
  | error e s' =>
    rw [hx] at h
    exact h

theorem eq_ok_of_wp {x : EStateM ε σ α} {Q : α → σ → Prop} {s : σ}
    (h : wp x Q (fun _ _ => False) s) : ∃ a s', x s = .ok a s' ∧ Q a s' := by
  simp only [wp] at h
  cases hx : x s with
  | ok a s' =>
    rw [hx] at h
    exact ⟨a, s', rfl, h⟩
  | error e s' =>
    rw [hx] at h
    exact h.elim

theorem eq_error_of_wp {x : EStateM ε σ α} {E : ε → σ → Prop} {s : σ}
    (h : wp x (fun _ _ => False) E s) : ∃ e s', x s = .error e s' ∧ E e s' := by
  simp only [wp] at h
  cases hx : x s with
  | ok a s' =>
    rw [hx] at h
    exact h.elim
  | error e s' =>
    rw [hx] at h
    exact ⟨e, s', rfl, h⟩

theorem bind_of_ok {x : EStateM ε σ α} {a : α} {s s' : σ} (h : x s = .ok a s')
    (f : α → EStateM ε σ β) : (x >>= f) s = f a s' := by
  simp only [bind, EStateM.bind, h]

theorem bind_of_error {x : EStateM ε σ α} {e : ε} {s s' : σ} (h : x s = .error e s')
    (f : α → EStateM ε σ β) : (x >>= f) s = .error e s' := by
  simp only [bind, EStateM.bind, h]

/-- The loop rule: an invariant of the processed prefix, the accumulator and the state. -/
theorem wp_foldlM {f : β → α → EStateM ε σ β} {E : ε → σ → Prop} (I : List α → β → σ → Prop)
    (l : List α) (init : β) (s : σ) (hinit : I [] init s)
    (hstep : ∀ pre a post b s', l = pre ++ a :: post → I pre b s' →
      wp (f b a) (fun b' => I (pre ++ [a]) b') E s') :
    wp (l.foldlM f init) (I l) E s := by
  suffices h : ∀ pre post b s', l = pre ++ post → I pre b s' →
      wp (post.foldlM f b) (I l) E s' from h [] l init s rfl hinit
  intro pre post
  induction post generalizing pre with
  | nil =>
    intro b s' hl hI
    rw [List.append_nil] at hl
    rw [List.foldlM_nil, wp_pure, hl]
    exact hI
  | cons a post ih =>
    intro b s' hl hI
    rw [List.foldlM_cons, wp_bind]
    refine wp_mono (hstep pre a post b s' hl hI) (fun b' s'' hI' => ?_) (fun _ _ h => h)
    exact ih (pre ++ [a]) b' s'' (by rw [hl, List.append_assoc, List.singleton_append]) hI'

/-- The loop rule for a loop without an accumulator. -/
theorem wp_forM {f : α → EStateM ε σ PUnit} {E : ε → σ → Prop} (I : List α → σ → Prop)
    (l : List α) (s : σ) (hinit : I [] s)
    (hstep : ∀ pre a post s', l = pre ++ a :: post → I pre s' →
      wp (f a) (fun _ => I (pre ++ [a])) E s') :
    wp (l.forM f) (fun _ => I l) E s := by
  suffices h : ∀ pre post s', l = pre ++ post → I pre s' →
      wp (post.forM f) (fun _ => I l) E s' from h [] l s rfl hinit
  intro pre post
  induction post generalizing pre with
  | nil =>
    intro s' hl hI
    rw [List.append_nil] at hl
    change I l s'
    rwa [hl]
  | cons a post ih =>
    intro s' hl hI
    change wp (f a >>= fun _ => post.forM f) _ _ _
    rw [wp_bind]
    refine wp_mono (hstep pre a post s' hl hI) (fun _ s'' hI' => ?_) (fun _ _ h => h)
    exact ih (pre ++ [a]) s'' (by rw [hl, List.append_assoc, List.singleton_append]) hI'

/-! ### Frames -/

/-- The program leaves a view of the state as it was, whether it returns or raises. -/
def Keeps {γ : Type*} (φ : σ → γ) (x : EStateM ε σ α) : Prop :=
  ∀ s, wp x (fun _ s' => φ s' = φ s) (fun _ s' => φ s' = φ s) s

section Keeps

variable {γ : Type*} {φ : σ → γ} {x : EStateM ε σ α}

theorem keeps_pure (a : α) : Keeps φ (pure a : EStateM ε σ α) := fun _ => rfl

theorem keeps_throw (e : ε) : Keeps φ (throw e : EStateM ε σ α) := fun _ => rfl

theorem keeps_get : Keeps φ (get : EStateM ε σ σ) := fun _ => rfl

theorem keeps_modify {f : σ → σ} (h : ∀ s, φ (f s) = φ s) :
    Keeps φ (modify f : EStateM ε σ PUnit) := fun s => h s

theorem Keeps.bind {f : α → EStateM ε σ β} (hx : Keeps φ x) (hf : ∀ a, Keeps φ (f a)) :
    Keeps φ (x >>= f) := by
  intro s
  rw [wp_bind]
  refine wp_mono (hx s) (fun a s' h => ?_) (fun _ _ h => h)
  exact wp_mono (hf a s') (fun _ _ h' => h'.trans h) (fun _ _ h' => h'.trans h)

theorem Keeps.ite {c : Prop} [Decidable c] {y : EStateM ε σ α} (hx : Keeps φ x) (hy : Keeps φ y) :
    Keeps φ (if c then x else y) := by
  split
  · exact hx
  · exact hy

theorem Keeps.onError {f : σ → σ} (hx : Keeps φ x) (hf : ∀ s, φ (f s) = φ s) :
    Keeps φ (onError x f) := by
  intro s
  rw [wp_onError]
  exact wp_mono (hx s) (fun _ _ h => h) (fun _ s' h => (hf s').trans h)

theorem Keeps.forM {f : α → EStateM ε σ PUnit} (hf : ∀ a, Keeps φ (f a)) (l : List α) :
    Keeps φ (l.forM f) := by
  induction l with
  | nil => exact keeps_pure _
  | cons a l ih => exact (hf a).bind fun _ => ih

theorem Keeps.foldlM {f : β → α → EStateM ε σ β} (hf : ∀ b a, Keeps φ (f b a)) (l : List α) (init : β) :
    Keeps φ (l.foldlM f init) := by
  induction l generalizing init with
  | nil => exact keeps_pure _
  | cons a l ih =>
    rw [List.foldlM_cons]
    exact (hf init a).bind fun b => ih b

theorem Keeps.finalState (hx : Keeps φ x) (s : σ) : φ (finalState x s) = φ s :=
  finalState_of_wp (P := fun s' => φ s' = φ s) (hx s)

end Keeps

/-! ### Relations -/

/-- The program ends, whether it returns or raises, in a state related to the one it started in. -/
def Follows (R : σ → σ → Prop) (x : EStateM ε σ α) : Prop :=
  ∀ s, wp x (fun _ => R s) (fun _ => R s) s

section Follows

variable {R : σ → σ → Prop} {x : EStateM ε σ α}

theorem follows_pure [Std.Refl R] (a : α) : Follows R (pure a : EStateM ε σ α) :=
  fun s => Std.Refl.refl s

theorem follows_throw [Std.Refl R] (e : ε) : Follows R (throw e : EStateM ε σ α) :=
  fun s => Std.Refl.refl s

theorem follows_get [Std.Refl R] : Follows R (get : EStateM ε σ σ) := fun s => Std.Refl.refl s

theorem Follows.ite {c : Prop} [Decidable c] {y : EStateM ε σ α} (hx : Follows R x)
    (hy : Follows R y) : Follows R (if c then x else y) := by
  split
  · exact hx
  · exact hy

variable [IsTrans σ R]

theorem Follows.wp_trans (hx : Follows R x) {s s' : σ} (h : R s s') :
    wp x (fun _ => R s) (fun _ => R s) s' :=
  wp_mono (hx s') (fun _ _ h' => IsTrans.trans _ _ _ h h') (fun _ _ h' => IsTrans.trans _ _ _ h h')

theorem Follows.bind {f : α → EStateM ε σ β} (hx : Follows R x) (hf : ∀ a, Follows R (f a)) :
    Follows R (x >>= f) := by
  intro s
  rw [wp_bind]
  exact wp_mono (hx s) (fun a s' h => (hf a).wp_trans h) (fun _ _ h => h)

theorem Follows.onError {f : σ → σ} (hx : Follows R x) (hf : ∀ s, R s (f s)) :
    Follows R (onError x f) := by
  intro s
  rw [wp_onError]
  exact wp_mono (hx s) (fun _ _ h => h) (fun _ s' h => IsTrans.trans _ _ _ h (hf s'))

theorem Follows.forM [Std.Refl R] {f : α → EStateM ε σ PUnit} (hf : ∀ a, Follows R (f a))
    (l : List α) : Follows R (l.forM f) := by
  induction l with
  | nil => exact follows_pure _
  | cons a l ih => exact (hf a).bind fun _ => ih

end Follows

/-! ### Invariants -/

/-- The program keeps an invariant of the state, whether it returns or raises. -/
def Maintains (I : σ → Prop) (x : EStateM ε σ α) : Prop :=
  ∀ s, I s → wp x (fun _ => I) (fun _ => I) s

section Maintains

variable {I : σ → Prop} {x : EStateM ε σ α}

theorem maintains_pure (a : α) : Maintains I (pure a : EStateM ε σ α) := fun _ h => h

theorem maintains_throw (e : ε) : Maintains I (throw e : EStateM ε σ α) := fun _ h => h

theorem maintains_get : Maintains I (get : EStateM ε σ σ) := fun _ h => h

theorem maintains_modify {f : σ → σ} (hf : ∀ s, I s → I (f s)) :
    Maintains I (modify f : EStateM ε σ PUnit) := hf

theorem Maintains.bind {f : α → EStateM ε σ β} (hx : Maintains I x) (hf : ∀ a, Maintains I (f a)) :
    Maintains I (x >>= f) := by
  intro s h
  rw [wp_bind]
  exact wp_mono (hx s h) (fun a s' h' => hf a s' h') (fun _ _ h' => h')

theorem Maintains.ite {c : Prop} [Decidable c] {y : EStateM ε σ α} (hx : Maintains I x)
    (hy : Maintains I y) : Maintains I (if c then x else y) := by
  split
  · exact hx
  · exact hy

theorem Maintains.onError {f : σ → σ} (hx : Maintains I x) (hf : ∀ s, I s → I (f s)) :
    Maintains I (onError x f) := by
  intro s h
  rw [wp_onError]
  exact wp_mono (hx s h) (fun _ _ h' => h') (fun _ s' h' => hf s' h')

theorem Maintains.forM {f : α → EStateM ε σ PUnit} (hf : ∀ a, Maintains I (f a)) (l : List α) :
    Maintains I (l.forM f) := by
  induction l with
  | nil => exact maintains_pure _
  | cons a l ih => exact (hf a).bind fun _ => ih

end Maintains

/-! ### Errors -/

def Raises (E : ε → Prop) (x : EStateM ε σ α) : Prop :=
  ∀ s, wp x (fun _ _ => True) (fun e _ => E e) s

section Raises

variable {E : ε → Prop} {x : EStateM ε σ α}

theorem raises_pure (a : α) : Raises E (pure a : EStateM ε σ α) := fun _ => trivial

theorem raises_throw {e : ε} (h : E e) : Raises E (throw e : EStateM ε σ α) := fun _ => h

theorem raises_get : Raises E (get : EStateM ε σ σ) := fun _ => trivial

theorem raises_modify (f : σ → σ) : Raises E (modify f : EStateM ε σ PUnit) := fun _ => trivial

theorem Raises.bind {f : α → EStateM ε σ β} (hx : Raises E x) (hf : ∀ a, Raises E (f a)) :
    Raises E (x >>= f) := by
  intro s
  rw [wp_bind]
  exact wp_mono (hx s) (fun a s' _ => hf a s') fun _ _ h => h

theorem Raises.ite {c : Prop} [Decidable c] {y : EStateM ε σ α} (hx : Raises E x) (hy : Raises E y) :
    Raises E (if c then x else y) := by
  split
  · exact hx
  · exact hy

theorem Raises.onError {f : σ → σ} (hx : Raises E x) : Raises E (onError x f) := by
  intro s
  rw [wp_onError]
  exact hx s

theorem Raises.forM {f : α → EStateM ε σ PUnit} (hf : ∀ a, Raises E (f a)) (l : List α) :
    Raises E (l.forM f) := by
  induction l with
  | nil => exact raises_pure _
  | cons a l ih => exact (hf a).bind fun _ => ih

theorem Raises.foldlM {f : β → α → EStateM ε σ β} (hf : ∀ b a, Raises E (f b a)) (l : List α) (init : β) :
    Raises E (l.foldlM f init) := by
  induction l generalizing init with
  | nil => exact raises_pure _
  | cons a l ih =>
    rw [List.foldlM_cons]
    exact (hf init a).bind fun b => ih b

end Raises

/-! ### Pairs -/

/-- Run from `s` and from `t` the programs return the same into related states, or they raise the same error. -/
def Alike {τ : Type} (R : σ → τ → Prop) (x : EStateM ε σ α) (y : EStateM ε τ α) (s : σ) (t : τ) : Prop :=
  wp x (fun a s' => wp y (fun b t' => a = b ∧ R s' t') (fun _ _ => False) t)
    (fun e _ => wp y (fun _ _ => False) (fun e' _ => e = e') t) s

section Alike

variable {τ : Type} {R : σ → τ → Prop} {x : EStateM ε σ α} {y : EStateM ε τ α} {s : σ} {t : τ}

theorem wp_bind_of_ok {f : α → EStateM ε σ β} {a : α} {s' : σ} (h : x s = .ok a s') (Q : β → σ → Prop)
    (E : ε → σ → Prop) : wp (x >>= f) Q E s ↔ wp (f a) Q E s' := by
  simp only [wp, bind_of_ok h]

theorem Alike.bind {R' : σ → τ → Prop} {f : α → EStateM ε σ β} {g : α → EStateM ε τ β}
    (h : Alike R x y s t) (hf : ∀ a s' t', R s' t' → Alike R' (f a) (g a) s' t') :
    Alike R' (x >>= f) (y >>= g) s t := by
  rw [Alike, wp_bind]
  refine wp_mono h (fun a s' h' => ?_) fun e s' h' => ?_
  · obtain ⟨b, t', hy, rfl, hR⟩ := eq_ok_of_wp h'
    exact wp_mono (hf a s' t' hR) (fun _ _ h'' => (wp_bind_of_ok hy _ _).2 h'') fun _ _ h'' =>
      (wp_bind_of_ok hy _ _).2 h''
  · obtain ⟨e', t', hy, rfl⟩ := eq_error_of_wp h'
    simp only [wp, bind_of_error hy]

theorem Alike.and_left {P : σ → Prop} (h : Alike R x y s t) (hx : wp x (fun _ => P) (fun _ _ => True) s) :
    Alike (fun s' t' => P s' ∧ R s' t') x y s t := by
  refine wp_mono (wp_and h hx) (fun a s' h' => ?_) fun _ _ h' => h'.1
  exact wp_mono h'.1 (fun _ _ h'' => ⟨h''.1, h'.2, h''.2⟩) fun _ _ hno => hno

theorem alike_onError_left {f : σ → σ} : Alike R (onError x f) y s t ↔ Alike R x y s t := by
  simp only [Alike, wp_onError]

theorem Alike.forM {f : β → EStateM ε σ PUnit} {g : β → EStateM ε τ PUnit}
    (hf : ∀ b s t, R s t → Alike R (f b) (g b) s t) (l : List β) (h : R s t) :
    Alike R (l.forM f) (l.forM g) s t := by
  induction l generalizing s t with
  | nil => exact ⟨rfl, h⟩
  | cons b l ih => exact (hf b s t h).bind fun _ s' t' h' => ih h'

/-- What a program does on its own before it meets the other one. -/
theorem alike_of_wp_left {γ : Type} {x : EStateM ε σ γ} {f : γ → EStateM ε σ α}
    (h : wp x (fun c s' => Alike R (f c) y s' t) (fun e _ => wp y (fun _ _ => False) (fun e' _ => e = e') t) s) :
    Alike R (x >>= f) y s t := by
  rw [Alike, wp_bind]
  exact h

theorem alike_of_wp_right {γ : Type} {y : EStateM ε τ γ} {g : γ → EStateM ε τ α}
    (h : wp y (fun c t' => Alike R x (g c) s t') (fun _ _ => False) t) : Alike R x (y >>= g) s t := by
  obtain ⟨c, t', hy, h'⟩ := eq_ok_of_wp h
  exact wp_mono h' (fun _ _ h'' => (wp_bind_of_ok hy _ _).2 h'') fun _ _ h'' => (wp_bind_of_ok hy _ _).2 h''

theorem alike_self {R : σ → σ → Prop} (hR : ∀ a s', x s = .ok a s' → R s' s') : Alike R x x s s := by
  refine wp_mono (wp_self x s) (fun a s' h => ?_) fun e s' h => ?_
  · simp only [wp, h]
    exact ⟨trivial, hR a s' h⟩
  · simp only [wp, h]

theorem Alike.error {e : ε} {s' : σ} (h : Alike R x y s t) (hx : x s = .error e s') :
    ∃ t', y t = .error e t' := by
  simp only [Alike, wp, hx] at h
  obtain ⟨e', t', hy, rfl⟩ := eq_error_of_wp h
  exact ⟨t', hy⟩

end Alike

end Program
