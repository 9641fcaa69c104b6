import Mathlib.Algebra.BigOperators.Group.Finset.Basic
import Mathlib.Algebra.Order.Ring.Rat

/-!
# Floating point without rounding

The numbers of a binary floating point format, with the arithmetic they would have if nothing were ever rounded
and nothing overflowed: exact rationals, beside the infinities and the one value that is not a number. Sums
depend neither on the order nor on the grouping of their terms.
-/

/-- A rational, an infinity or not a number. -/
inductive Exact where
  | finite (q : ℚ)
  | infinite (negative : Bool)
  | nan
  deriving DecidableEq, Repr

namespace Exact

protected def add : Exact → Exact → Exact
  | .finite p, .finite q => .finite (p + q)
  | .finite _, .infinite s => .infinite s
  | .infinite s, .finite _ => .infinite s
  | .infinite s, .infinite t => if s = t then .infinite s else .nan
  | .nan, _ => .nan
  | _, .nan => .nan

/-- An infinity, times a rational. -/
def scaled (q : ℚ) (negative : Bool) : Exact :=
  if q = 0 then .nan else .infinite (decide (q < 0) ^^ negative)

protected def mul : Exact → Exact → Exact
  | .finite p, .finite q => .finite (p * q)
  | .finite p, .infinite s => scaled p s
  | .infinite s, .finite p => scaled p s
  | .infinite s, .infinite t => .infinite (s ^^ t)
  | .nan, _ => .nan
  | _, .nan => .nan

instance : Zero Exact := ⟨.finite 0⟩

instance : Add Exact := ⟨Exact.add⟩

instance : Mul Exact := ⟨Exact.mul⟩

protected theorem add_comm (x y : Exact) : x + y = y + x := by
  change Exact.add x y = Exact.add y x
  cases x with
  | finite p =>
    cases y with
    | finite q => exact congrArg finite (add_comm p q)
    | infinite t => rfl
    | nan => rfl
  | infinite s =>
    cases y with
    | finite q => rfl
    | infinite t => cases s <;> cases t <;> rfl
    | nan => rfl
  | nan => cases y <;> rfl

protected theorem add_assoc (x y z : Exact) : x + y + z = x + (y + z) := by
  change Exact.add (Exact.add x y) z = Exact.add x (Exact.add y z)
  cases x with
  | finite p =>
    cases y with
    | finite q =>
      cases z with
      | finite r => exact congrArg finite (add_assoc p q r)
      | infinite u => rfl
      | nan => rfl
    | infinite t =>
      cases z with
      | finite r => rfl
      | infinite u => cases t <;> cases u <;> rfl
      | nan => rfl
    | nan => rfl
  | infinite s =>
    cases y with
    | finite q => cases z <;> rfl
    | infinite t =>
      cases z with
      | finite r => cases s <;> cases t <;> rfl
      | infinite u => cases s <;> cases t <;> cases u <;> rfl
      | nan => cases s <;> cases t <;> rfl
    | nan => rfl
  | nan => rfl

protected theorem zero_add (x : Exact) : 0 + x = x := by
  change Exact.add (.finite 0) x = x
  cases x with
  | finite p => exact congrArg finite (zero_add p)
  | infinite s => rfl
  | nan => rfl

instance : AddCommMonoid Exact where
  add_assoc := Exact.add_assoc
  zero_add := Exact.zero_add
  add_zero x := (Exact.add_comm x 0).trans (Exact.zero_add x)
  add_comm := Exact.add_comm
  nsmul := nsmulRec

protected theorem mul_comm (x y : Exact) : x * y = y * x := by
  change Exact.mul x y = Exact.mul y x
  cases x with
  | finite p =>
    cases y with
    | finite q => exact congrArg finite (mul_comm p q)
    | infinite t => rfl
    | nan => rfl
  | infinite s =>
    cases y with
    | finite q => rfl
    | infinite t => exact congrArg infinite (Bool.xor_comm s t)
    | nan => rfl
  | nan => cases y <;> rfl

/-- The value of the bits of a single-precision number. -/
def ofBits32 (bits : ℕ) : Exact :=
  let negative : Bool := decide (bits / 2 ^ 31 % 2 = 1)
  let exponent : ℕ := bits / 2 ^ 23 % 2 ^ 8
  let fraction : ℕ := bits % 2 ^ 23
  if exponent = 255 then
    if fraction = 0 then .infinite negative else .nan
  else
    let magnitude : ℚ :=
      if exponent = 0 then fraction / 2 ^ 149
      else (2 ^ 23 + fraction) * 2 ^ exponent / 2 ^ 150
    .finite (if negative then -magnitude else magnitude)

/-- One and a half, the least positive number, and minus infinity. -/
example : ofBits32 0x3FC00000 = .finite (3 / 2) ∧ ofBits32 1 = .finite (1 / 2 ^ 149) ∧
    ofBits32 0xFF800000 = .infinite true := by decide +kernel

end Exact
