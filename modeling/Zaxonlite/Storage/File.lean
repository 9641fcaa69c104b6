import Zaxonlite.Lib.Overlay

/-!
# Files

The database image is an ordinary file: a length and a byte at every offset, where bytes past the
length read as zero, so extending a file over a gap leaves zeroes in it. The image is changed by
positional writes and by setting the length. Both are blind: what they store does not depend on what
the file holds, which makes a sequence of them a list of overlays.
-/

namespace Zaxonlite

/-- A file's length and bytes; a byte past the end is zero. -/
@[ext] structure File where
  length : ℕ
  byte : ℕ → UInt8
  byte_beyond : ∀ i, length ≤ i → byte i = 0

/-- A newly created file. -/
def File.empty : File where
  length := 0
  byte := fun _ => 0
  byte_beyond := fun _ _ => rfl

instance : Inhabited File := ⟨File.empty⟩

inductive FileOp where
  | writePositional (offset : ℕ) (bytes : List UInt8)
  | setLength (length : ℕ)
  deriving DecidableEq, Repr

namespace FileOp

/-- The bytes the operation stores. Cutting a file stores zeroes from the new end on. -/
def patch : FileOp → Overlay.Patch ℕ UInt8
  | writePositional offset bytes => fun i => if offset ≤ i then bytes[i - offset]? else none
  | setLength length => fun i => if length ≤ i then some 0 else none

def resize : FileOp → ℕ → ℕ
  | writePositional offset bytes, length =>
    if bytes.isEmpty then length else max length (offset + bytes.length)
  | setLength length, _ => length

end FileOp

namespace File

/-- Run one operation. -/
def exec (f : File) (op : FileOp) : File where
  length := op.resize f.length
  byte := Overlay.apply op.patch f.byte
  byte_beyond := by
    intro i hi
    cases op with
    | setLength n =>
      have hn : n ≤ i := hi
      simp [Overlay.apply, FileOp.patch, hn]
    | writePositional offset bytes =>
      simp only [FileOp.resize] at hi
      cases hbytes : bytes with
      | nil =>
        simp only [hbytes, List.isEmpty_nil, if_true] at hi
        simp [Overlay.apply, FileOp.patch, f.byte_beyond i hi]
      | cons b bs =>
        simp only [hbytes, List.isEmpty_cons, Bool.false_eq_true, if_false] at hi
        have hnone : (b :: bs)[i - offset]? = none := by
          rw [List.getElem?_eq_none_iff]
          omega
        simp only [Overlay.apply, FileOp.patch, hnone, ite_self, Option.getD_none]
        exact f.byte_beyond i (by omega)

/-- Run operations in order. -/
def execAll (f : File) (ops : List FileOp) : File :=
  ops.foldl exec f

@[simp] theorem execAll_nil (f : File) : f.execAll [] = f := rfl

@[simp] theorem execAll_cons (f : File) (op : FileOp) (ops : List FileOp) :
    f.execAll (op :: ops) = (f.exec op).execAll ops := rfl

theorem execAll_append (f : File) (ops ops' : List FileOp) :
    f.execAll (ops ++ ops') = (f.execAll ops).execAll ops' := by
  simp only [execAll, List.foldl_append]

theorem execAll_byte (f : File) (ops : List FileOp) :
    (f.execAll ops).byte = Overlay.applyAll (ops.map FileOp.patch) f.byte := by
  induction ops generalizing f with
  | nil => rfl
  | cons op ops ih => rw [execAll_cons, ih, List.map_cons, Overlay.applyAll_cons, exec]

end File

/-! ### Replay

A sequence that ends by setting the length decides the whole file length; together with the overlay
rule it decides every byte it covers. -/

/-- The operation stores a byte at the offset. -/
def FileOp.Touches (op : FileOp) (i : ℕ) : Prop :=
  op.patch i ≠ none

instance (op : FileOp) (i : ℕ) : Decidable (op.Touches i) :=
  inferInstanceAs (Decidable (op.patch i ≠ none))

theorem FileOp.covers_map_patch {ops : List FileOp} {i : ℕ} :
    Overlay.Covers (ops.map FileOp.patch) i ↔ ∃ op ∈ ops, op.Touches i := by
  simp [Overlay.Covers, FileOp.Touches]

/-- The sequence is empty or ends by setting the length. -/
def Settled (ops : List FileOp) : Prop :=
  ops = [] ∨ ∃ pre n, ops = pre ++ [FileOp.setLength n]

theorem Settled.append {ops ops' : List FileOp} (h : Settled ops) (h' : Settled ops') :
    Settled (ops ++ ops') := by
  rcases h' with rfl | ⟨pre, n, rfl⟩
  · rwa [List.append_nil]
  · exact Or.inr ⟨ops ++ pre, n, by rw [List.append_assoc]⟩

namespace File

theorem execAll_length_eq {ops : List FileOp} (h : Settled ops) (hne : ops ≠ []) (f g : File) :
    (f.execAll ops).length = (g.execAll ops).length := by
  obtain ⟨pre, n, rfl⟩ := h.resolve_left hne
  simp only [execAll_append, execAll_cons, execAll_nil, exec, FileOp.resize]

/-- Two files replay to the same one exactly when they agree wherever the sequence stores nothing,
and in length if the sequence is empty. -/
theorem execAll_eq_iff {ops : List FileOp} (h : Settled ops) (f g : File) :
    f.execAll ops = g.execAll ops ↔
      (∀ i, (∀ op ∈ ops, ¬ op.Touches i) → f.byte i = g.byte i) ∧
        (ops = [] → f.length = g.length) := by
  have hbytes : (f.execAll ops).byte = (g.execAll ops).byte ↔
      ∀ i, (∀ op ∈ ops, ¬ op.Touches i) → f.byte i = g.byte i := by
    rw [execAll_byte, execAll_byte, Overlay.applyAll_eq_iff]
    refine forall_congr' fun i => imp_congr_left ?_
    rw [FileOp.covers_map_patch]
    push Not
    rfl
  constructor
  · intro heq
    refine ⟨hbytes.1 (by rw [heq]), ?_⟩
    rintro rfl
    rw [execAll_nil, execAll_nil] at heq
    rw [heq]
  · rintro ⟨hbyte, hlen⟩
    refine File.ext ?_ (hbytes.2 hbyte)
    by_cases hne : ops = []
    · subst hne
      exact hlen rfl
    · exact execAll_length_eq h hne f g

/-- **Replay over a partly written file.** Operations all of which the replayed sequence performs
again leave no trace. -/
theorem execAll_replay {ops done : List FileOp} (h : Settled ops) (hsub : done ⊆ ops) (f : File) :
    (f.execAll done).execAll ops = f.execAll ops := by
  rw [execAll_eq_iff h]
  constructor
  · intro i hi
    rw [execAll_byte]
    refine Overlay.applyAll_of_not_covers (fun hcov => ?_) f.byte
    obtain ⟨op, hop, htouch⟩ := FileOp.covers_map_patch.1 hcov
    exact hi op (hsub hop) htouch
  · rintro rfl
    rw [List.eq_nil_of_subset_nil hsub, execAll_nil]

end File

end Zaxonlite
