import Mathlib.Algebra.Group.Nat.Defs
import Mathlib.Data.Int.Notation
import Mathlib.Data.Nat.Basic

/-!
# Arithmetic that stops the program

Where the language checks an operation at run time, the operation has a value only in range. Each one here
ends in the error it is given otherwise, so that a function written with them shows every check its source
makes.
-/

namespace Checked

variable {ε : Type}

/-- Addition in an unsigned type of `bits` bits. -/
def add (e : ε) (bits a b : ℕ) : Except ε ℕ :=
  if a + b < 2 ^ bits then .ok (a + b) else .error e

/-- A product in an unsigned type of `bits` bits. -/
def mul (e : ε) (bits a b : ℕ) : Except ε ℕ :=
  if a * b < 2 ^ bits then .ok (a * b) else .error e

/-- A difference of unsigned integers. -/
def sub (e : ε) (a b : ℕ) : Except ε ℕ :=
  if b ≤ a then .ok (a - b) else .error e

/-- A conversion to an unsigned type of `bits` bits, or to a signed one of `bits + 1`. -/
def cast (e : ε) (bits a : ℕ) : Except ε ℕ :=
  if a < 2 ^ bits then .ok a else .error e

/-- A conversion of a signed integer to an unsigned type that holds its non-negative values. -/
def unsigned (e : ε) (n : ℤ) : Except ε ℕ :=
  if 0 ≤ n then .ok n.toNat else .error e

/-- An index into an array of `size` elements. -/
def index (e : ε) (size i : ℕ) : Except ε Unit :=
  if i < size then .ok () else .error e

/-- A slice of `size` elements at `offset` of an array of `length`. -/
def slice (e : ε) (length offset size : ℕ) : Except ε Unit :=
  if offset + size ≤ length then .ok () else .error e

/-- Go on only under a condition. -/
def require (e : ε) (c : Prop) [Decidable c] : Except ε Unit :=
  if c then .ok () else .error e

variable {e : ε} {bits length offset size a b i : ℕ}

theorem add_of_lt (h : a + b < 2 ^ bits) : add e bits a b = .ok (a + b) :=
  if_pos h

theorem mul_of_lt (h : a * b < 2 ^ bits) : mul e bits a b = .ok (a * b) :=
  if_pos h

theorem sub_of_le (h : b ≤ a) : sub e a b = .ok (a - b) :=
  if_pos h

theorem cast_of_lt (h : a < 2 ^ bits) : cast e bits a = .ok a :=
  if_pos h

theorem unsigned_of_nonneg {n : ℤ} (h : 0 ≤ n) : unsigned e n = .ok n.toNat :=
  if_pos h

theorem index_of_lt (h : i < size) : index e size i = .ok () :=
  if_pos h

theorem slice_of_le (h : offset + size ≤ length) : slice e length offset size = .ok () :=
  if_pos h

theorem require_of {c : Prop} [Decidable c] (h : c) : require e c = .ok () :=
  if_pos h

theorem require_of_not {c : Prop} [Decidable c] (h : ¬ c) : require e c = .error e :=
  if_neg h

theorem add_of_le (h : 2 ^ bits ≤ a + b) : add e bits a b = .error e :=
  if_neg (not_lt.2 h)

theorem cast_of_le (h : 2 ^ bits ≤ a) : cast e bits a = .error e :=
  if_neg (not_lt.2 h)

section Bind

variable {α β : Type}

@[simp] theorem ok_bind (a : α) (f : α → Except ε β) : (Except.ok a >>= f) = f a :=
  rfl

@[simp] theorem error_bind (e : ε) (f : α → Except ε β) : (Except.error e >>= f) = .error e :=
  rfl

theorem bind_eq_ok {x : Except ε α} {f : α → Except ε β} {b : β} :
    x >>= f = .ok b ↔ ∃ a, x = .ok a ∧ f a = .ok b := by
  cases x with
  | error e =>
    constructor
    · intro h
      cases h
    · rintro ⟨a, h, -⟩
      cases h
  | ok a =>
    constructor
    · intro h
      exact ⟨a, rfl, h⟩
    · rintro ⟨b, hb, hf⟩
      cases hb
      exact hf

/-- The chain reaches its end. -/
def Succeeds (x : Except ε α) : Prop :=
  ∃ a, x = .ok a

theorem succeeds_ok (a : α) : Succeeds (.ok a : Except ε α) :=
  ⟨a, rfl⟩

theorem not_succeeds_error : ¬Succeeds (.error e : Except ε α) := by
  intro h
  obtain ⟨a, h⟩ := h
  cases h

theorem Succeeds.bind {x : Except ε α} {f : α → Except ε β} (h : Succeeds x)
    (hf : ∀ a, x = .ok a → Succeeds (f a)) : Succeeds (x >>= f) := by
  obtain ⟨a, rfl⟩ := h
  exact hf a rfl

theorem Succeeds.of_bind {x : Except ε α} {f : α → Except ε β} (h : Succeeds (x >>= f)) :
    ∃ a, x = .ok a ∧ Succeeds (f a) := by
  obtain ⟨b, h⟩ := h
  obtain ⟨a, hx, hf⟩ := bind_eq_ok.1 h
  exact ⟨a, hx, b, hf⟩

/-- Whatever the chain ends in has the property. -/
def Ensures (P : α → Prop) (x : Except ε α) : Prop :=
  ∀ a, x = .ok a → P a

theorem ensures_ok {P : α → Prop} {a : α} (h : P a) : Ensures P (.ok a : Except ε α) := by
  intro b hb
  cases hb
  exact h

theorem Ensures.bind {P : α → Prop} {Q : β → Prop} {x : Except ε α} {f : α → Except ε β} (h : Ensures P x)
    (hf : ∀ a, P a → Ensures Q (f a)) : Ensures Q (x >>= f) := by
  intro b hb
  obtain ⟨a, hx, hfa⟩ := bind_eq_ok.1 hb
  exact hf a (h a hx) b hfa

theorem ensures_eq (x : Except ε α) : Ensures (fun a => x = .ok a) x := by
  intro a h
  exact h

theorem succeeds_add : Succeeds (add e bits a b) ↔ a + b < 2 ^ bits := by
  constructor
  · intro h
    by_contra hnot
    rw [add_of_le (not_lt.1 hnot)] at h
    exact not_succeeds_error h
  · intro h
    exact ⟨a + b, add_of_lt h⟩

theorem succeeds_cast : Succeeds (cast e bits a) ↔ a < 2 ^ bits := by
  constructor
  · intro h
    by_contra hnot
    rw [cast_of_le (not_lt.1 hnot)] at h
    exact not_succeeds_error h
  · intro h
    exact ⟨a, cast_of_lt h⟩

end Bind

end Checked
