import Mathlib.Data.List.Basic
import Mathlib.Order.Nat
import Mathlib.Tactic.SplitIfs

/-!
# Contents in chunks

A content goes over a connection in chunks, each with the offset it belongs at. A reader of a file cuts the file into
chunks of a largest size; a receiver takes a chunk where the last one ended and nowhere else. What a receiver ends up
with does not depend on where the content was cut.
-/

namespace Chunks

variable {α : Type*}

/-- The chunks follow each other from an offset on, and make up the content. -/
inductive Tiles : ℕ → List (ℕ × List α) → List α → Prop
  | nil {offset : ℕ} : Tiles offset [] []
  | cons {offset : ℕ} {bytes content : List α} {chunks : List (ℕ × List α)} (hne : bytes ≠ [])
    (h : Tiles (offset + bytes.length) chunks content) : Tiles offset ((offset, bytes) :: chunks) (bytes ++ content)

/-- What a reader of a file gets, at most `limit` at a time, up to a size or to the end of the file. -/
def cut (limit size : ℕ) (content : List α) (offset : ℕ) : List (ℕ × List α) :=
  if offset < size then
    if _h : (content.drop offset).take limit = [] then []
    else
      (offset, (content.drop offset).take limit) ::
        cut limit size content (offset + ((content.drop offset).take limit).length)
  else []
termination_by size - offset
decreasing_by
  have hpos := List.length_pos_iff.2 _h
  omega

/-- Takes a chunk where what there is ends, if it fits. -/
def gather (fits : ℕ × List α → Bool) : List α → List (ℕ × List α) → Option (List α)
  | content, [] => some content
  | content, (offset, bytes) :: chunks =>
    if offset = content.length ∧ bytes ≠ [] ∧ fits (offset, bytes) then gather fits (content ++ bytes) chunks else none

/-- A write at an offset; what it leaves between the end of the content and the offset is filled. -/
def overwrite (fill : α) (content : List α) (offset : ℕ) (bytes : List α) : List α :=
  content.take offset ++ List.replicate (offset - content.length) fill ++ bytes ++
    content.drop (offset + bytes.length)

theorem overwrite_length (fill : α) (content bytes : List α) :
    overwrite fill content content.length bytes = content ++ bytes := by
  rw [overwrite, List.take_length, Nat.sub_self, List.replicate_zero, List.append_nil,
    List.drop_of_length_le (Nat.le_add_right _ _), List.append_nil]

section Tiles

variable {offset limit : ℕ} {content : List α} {chunks : List (ℕ × List α)}

theorem Tiles.bounds (h : Tiles offset chunks content) :
    ∀ chunk ∈ chunks, offset ≤ chunk.1 ∧ chunk.1 + chunk.2.length ≤ offset + content.length := by
  induction h with
  | nil => exact fun _ hmem => absurd hmem List.not_mem_nil
  | cons hne h ih =>
    intro chunk hmem
    rw [List.length_append]
    rcases List.mem_cons.1 hmem with rfl | hmem
    · exact ⟨le_rfl, by dsimp only; omega⟩
    · obtain ⟨hlow, hhigh⟩ := ih chunk hmem
      omega

theorem Tiles.eq_flatMap (h : Tiles offset chunks content) : content = chunks.flatMap Prod.snd := by
  induction h with
  | nil => rfl
  | cons hne h ih => rw [List.flatMap_cons, ← ih]

theorem tiles_cut (hlimit : 0 < limit) (offset : ℕ) :
    Tiles offset (cut limit content.length content offset) (content.drop offset) := by
  induction offset using cut.induct limit content.length content with
  | case1 offset hlt hnil =>
    have hnil : content.drop offset = [] := (List.take_eq_nil_iff.1 hnil).resolve_left hlimit.ne'
    have hle := List.drop_eq_nil_iff.1 hnil
    omega
  | case2 offset hlt hne ih =>
    rw [cut, if_pos hlt, dif_neg hne]
    have hrest : content.drop (offset + ((content.drop offset).take limit).length) =
        (content.drop offset).drop limit := by
      rw [← List.drop_drop, List.length_take]
      rcases Nat.le_total limit (content.drop offset).length with h | h
      · rw [Nat.min_eq_left h]
      · rw [Nat.min_eq_right h, List.drop_length, List.drop_of_length_le h]
    rw [hrest] at ih
    have htiles := Tiles.cons hne ih
    rwa [List.take_append_drop] at htiles
  | case3 offset hge =>
    rw [cut, if_neg hge, List.drop_of_length_le (Nat.le_of_not_lt hge)]
    exact .nil

theorem length_le_of_mem_cut {size : ℕ} :
    ∀ chunk ∈ cut limit size content offset, chunk.2.length ≤ limit := by
  induction offset using cut.induct limit size content with
  | case1 offset hlt hnil =>
    rw [cut, if_pos hlt, dif_pos hnil]
    exact fun _ hmem => absurd hmem List.not_mem_nil
  | case2 offset hlt hne ih =>
    rw [cut, if_pos hlt, dif_neg hne]
    exact List.forall_mem_cons.2 ⟨List.length_take_le _ _, ih⟩
  | case3 offset hge =>
    rw [cut, if_neg hge]
    exact fun _ hmem => absurd hmem List.not_mem_nil

end Tiles

variable {fits : ℕ × List α → Bool} {chunks : List (ℕ × List α)}

/-- What is gathered is what the chunks make up, each of them fitting. -/
theorem gather_eq_some_iff {content whole : List α} :
    gather fits content chunks = some whole ↔
      ∃ rest, whole = content ++ rest ∧ Tiles content.length chunks rest ∧ ∀ chunk ∈ chunks, fits chunk := by
  induction chunks generalizing content with
  | nil =>
    rw [gather]
    constructor
    · intro h
      obtain rfl := Option.some.inj h
      exact ⟨[], (List.append_nil _).symm, .nil, fun _ hmem => absurd hmem List.not_mem_nil⟩
    · rintro ⟨rest, rfl, htiles, -⟩
      cases htiles
      rw [List.append_nil]
  | cons chunk chunks ih =>
    obtain ⟨offset, bytes⟩ := chunk
    rw [gather]
    constructor
    · intro h
      split_ifs at h with hgood
      obtain ⟨rfl, hne, hfits⟩ := hgood
      obtain ⟨rest, rfl, htiles, hall⟩ := ih.1 h
      rw [List.length_append] at htiles
      exact ⟨bytes ++ rest, List.append_assoc _ _ _, .cons hne htiles, List.forall_mem_cons.2 ⟨hfits, hall⟩⟩
    · rintro ⟨rest, rfl, htiles, hall⟩
      obtain ⟨hfits, hrest⟩ := List.forall_mem_cons.1 hall
      cases htiles with
      | cons hne h =>
        rw [if_pos ⟨rfl, hne, hfits⟩]
        refine ih.2 ⟨_, (List.append_assoc _ _ _).symm, ?_, hrest⟩
        rw [List.length_append]
        exact h

end Chunks
