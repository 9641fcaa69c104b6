import Mathlib.Data.List.Induction
import Mathlib.Data.List.Nodup

/-!
# Tables of latest values

A table of a fixed number of slots keeps the latest value under each key. A value whose key is held
replaces the held one, a value of a new key takes the first empty slot, and once no slot is empty the
values of further keys are dropped. The keys are therefore admitted in order of first appearance, and a
key that was not admitted is never found.
-/

namespace LatestTable

variable {α κ : Type*} [DecidableEq κ] (key : α → κ)

/-- Put the value in the slot that holds its key. -/
def replace (x : α) : List (Option α) → Option (List (Option α))
  | [] => none
  | some held :: rest =>
    if key held = key x then some (some x :: rest) else (replace x rest).map (some held :: ·)
  | none :: rest => (replace x rest).map (none :: ·)

/-- Put the value in the first empty slot. -/
def fill (x : α) : List (Option α) → Option (List (Option α))
  | [] => none
  | some held :: rest => (fill x rest).map (some held :: ·)
  | none :: rest => some (some x :: rest)

/-- Record a value. -/
def put (slots : List (Option α)) (x : α) : List (Option α) :=
  match replace key x slots with
  | some slots' => slots'
  | none => (fill x slots).getD slots

/-- The first slot that holds a value under the key with the property. -/
def find (p : α → Prop) [DecidablePred p] (slots : List (Option α)) (k : κ) : Option α :=
  slots.findSome? fun slot => slot.filter fun held => key held = k ∧ p held

/-- The latest value under a key. -/
def latest (log : List α) (k : κ) : Option α :=
  log.reverse.find? fun x => key x = k

/-- The keys of a log, in order of first appearance. -/
def keys (log : List α) : List κ :=
  log.foldl (fun ks x => if key x ∈ ks then ks else ks ++ [key x]) []

section Log

variable {key} {log : List α} {x : α} {k : κ}

theorem latest_concat (log : List α) (x : α) (k : κ) :
    latest key (log ++ [x]) k = if key x = k then some x else latest key log k := by
  rw [latest, List.reverse_append, List.reverse_singleton, List.singleton_append, List.find?_cons]
  by_cases h : key x = k
  · simp only [h, decide_true, if_true]
  · simp only [h, decide_false, if_false, latest]

theorem latest_mem (h : latest key log k = some x) : x ∈ log ∧ key x = k := by
  rw [latest] at h
  constructor
  · exact List.mem_reverse.1 (List.mem_of_find?_eq_some h)
  · have hkey := List.find?_some h
    exact of_decide_eq_true hkey

theorem exists_latest (h : x ∈ log) : ∃ y, latest key log (key x) = some y := by
  apply Option.isSome_iff_exists.1
  rw [latest, List.find?_isSome]
  exact ⟨x, List.mem_reverse.2 h, decide_eq_true rfl⟩

theorem keys_concat (log : List α) (x : α) :
    keys key (log ++ [x]) =
      if key x ∈ keys key log then keys key log else keys key log ++ [key x] := by
  rw [keys, List.foldl_append]
  rfl

theorem nodup_keys (log : List α) : (keys key log).Nodup := by
  induction log using List.reverseRecOn with
  | nil => exact List.nodup_nil
  | append_singleton log x ih =>
    rw [keys_concat]
    split
    · exact ih
    · rename_i hnew
      apply ih.append (List.nodup_singleton _)
      intro k hk hx
      rw [List.mem_singleton] at hx
      exact hnew (hx ▸ hk)

theorem mem_keys : k ∈ keys key log ↔ ∃ x ∈ log, key x = k := by
  induction log using List.reverseRecOn with
  | nil => simp [keys]
  | append_singleton log x ih =>
    rw [keys_concat]
    split
    · rename_i hold
      rw [ih]
      constructor
      · rintro ⟨y, hy, hkey⟩
        exact ⟨y, List.mem_append_left _ hy, hkey⟩
      · rintro ⟨y, hy, hkey⟩
        rcases List.mem_append.1 hy with hy | hy
        · exact ⟨y, hy, hkey⟩
        · rw [List.mem_singleton] at hy
          subst hy
          exact ih.1 (hkey ▸ hold)
    · rw [List.mem_append, ih, List.mem_singleton]
      constructor
      · rintro (⟨y, hy, hkey⟩ | rfl)
        · exact ⟨y, List.mem_append_left _ hy, hkey⟩
        · exact ⟨x, List.mem_append_right _ List.mem_cons_self, rfl⟩
      · rintro ⟨y, hy, hkey⟩
        rcases List.mem_append.1 hy with hy | hy
        · exact Or.inl ⟨y, hy, hkey⟩
        · rw [List.mem_singleton] at hy
          subst hy
          exact Or.inr hkey.symm

end Log

/-! ### The table of a log -/

section Table

variable {key} {g : κ → Option α} {ks : List κ} {x : α} {k : κ}

/-- The slots hold values of just these keys, in order. -/
def Holds (key : α → κ) (g : κ → Option α) (ks : List κ) : Prop :=
  ∀ k ∈ ks, ∃ v, g k = some v ∧ key v = k

theorem replace_of_mem (h : Holds key g ks) (hnodup : ks.Nodup) (hmem : key x ∈ ks)
    (rest : List (Option α)) : replace key x (ks.map g ++ rest) =
      some (ks.map (Function.update g (key x) (some x)) ++ rest) := by
  induction ks with
  | nil => exact absurd hmem List.not_mem_nil
  | cons k ks ih =>
    obtain ⟨v, hv, hkey⟩ := h k List.mem_cons_self
    rw [List.nodup_cons] at hnodup
    rw [List.map_cons, List.map_cons, List.cons_append, hv, replace, hkey]
    by_cases hk : k = key x
    · have hsame : ks.map (Function.update g (key x) (some x)) = ks.map g := by
        apply List.map_congr_left
        intro k' hk'
        apply Function.update_of_ne
        intro heq
        exact hnodup.1 (hk ▸ heq ▸ hk')
      rw [if_pos hk, hsame, hk, Function.update_self]
      rfl
    · have htail := ih (fun k' hk' => h k' (List.mem_cons_of_mem k hk')) hnodup.2
        ((List.mem_cons.1 hmem).resolve_left (Ne.symm hk))
      rw [if_neg hk, htail, Function.update_of_ne hk, hv]
      rfl

theorem replace_of_notMem (h : Holds key g ks) (hnot : key x ∉ ks) (free : ℕ) :
    replace key x (ks.map g ++ List.replicate free none) = none := by
  induction ks with
  | nil =>
    rw [List.map_nil, List.nil_append]
    induction free with
    | zero => rfl
    | succ free ih => rw [List.replicate_succ, replace, ih, Option.map_none]
  | cons k ks ih =>
    obtain ⟨v, hv, hkey⟩ := h k List.mem_cons_self
    rw [List.mem_cons, not_or] at hnot
    rw [List.map_cons, List.cons_append, hv, replace, hkey, if_neg (Ne.symm hnot.1),
      ih (fun k' hk' => h k' (List.mem_cons_of_mem k hk')) hnot.2, Option.map_none]

omit [DecidableEq κ] in
theorem fill_free (h : Holds key g ks) (free : ℕ) :
    fill x (ks.map g ++ List.replicate (free + 1) none) =
      some (ks.map g ++ (some x :: List.replicate free none)) := by
  induction ks with
  | nil => rfl
  | cons k ks ih =>
    obtain ⟨v, hv, -⟩ := h k List.mem_cons_self
    rw [List.map_cons, List.cons_append, hv, fill,
      ih (fun k' hk' => h k' (List.mem_cons_of_mem k hk'))]
    rfl

omit [DecidableEq κ] in
theorem fill_full (h : Holds key g ks) : fill x (ks.map g) = none := by
  induction ks with
  | nil => rfl
  | cons k ks ih =>
    obtain ⟨v, hv, -⟩ := h k List.mem_cons_self
    rw [List.map_cons, hv, fill, ih (fun k' hk' => h k' (List.mem_cons_of_mem k hk')),
      Option.map_none]

theorem find_of_notMem (p : α → Prop) [DecidablePred p] (h : Holds key g ks) (hnot : k ∉ ks) (free : ℕ) :
    find key p (ks.map g ++ List.replicate free none) k = none := by
  rw [find, List.findSome?_eq_none_iff]
  intro slot hslot
  rcases List.mem_append.1 hslot with hslot | hslot
  · obtain ⟨k', hk', rfl⟩ := List.mem_map.1 hslot
    obtain ⟨v, hv, hkey⟩ := h k' hk'
    have hne : k' ≠ k := fun heq => hnot (heq ▸ hk')
    rw [hv, Option.filter_some, if_neg]
    simp [hkey, hne]
  · rw [List.eq_of_mem_replicate hslot]
    rfl

theorem find_of_mem (p : α → Prop) [DecidablePred p] (h : Holds key g ks) (hnodup : ks.Nodup)
    (hmem : k ∈ ks) (free : ℕ) :
    find key p (ks.map g ++ List.replicate free none) k = (g k).filter (p ·) := by
  induction ks with
  | nil => exact absurd hmem List.not_mem_nil
  | cons k' ks ih =>
    obtain ⟨v, hv, hkey⟩ := h k' List.mem_cons_self
    rw [List.nodup_cons] at hnodup
    have htail : Holds key g ks := fun k'' hk'' => h k'' (List.mem_cons_of_mem k' hk'')
    rw [List.map_cons, List.cons_append, find, List.findSome?_cons, hv, Option.filter_some]
    by_cases hk : k' = k
    · subst hk
      -- No later slot has the key, so the one found decides.
      have hrest := find_of_notMem p htail hnodup.1 free
      rw [find] at hrest
      rw [hv, Option.filter_some]
      by_cases hp : p v
      · simp only [hkey, hp, and_true, decide_true, if_true]
      · simp only [hkey, hp, and_false, decide_false, Bool.false_eq_true, if_false, hrest]
    · have hrest := ih htail hnodup.2 ((List.mem_cons.1 hmem).resolve_left (Ne.symm hk))
      rw [find] at hrest
      simp only [hkey, hk, false_and, decide_false, Bool.false_eq_true, if_false, hrest]

end Table

section Admitted

variable {key} {log : List α} {x : α} {k : κ}

/-- The keys the table had room for. -/
def admitted (key : α → κ) (capacity : ℕ) (log : List α) : List κ :=
  (keys key log).take capacity

theorem holds_latest (capacity : ℕ) (log : List α) :
    Holds key (latest key log) (admitted key capacity log) := by
  intro k hk
  obtain ⟨x, hx, rfl⟩ := mem_keys.1 (List.mem_of_mem_take hk)
  have hsome : ∃ y, latest key log (key x) = some y := exists_latest hx
  obtain ⟨y, hy⟩ := hsome
  exact ⟨y, hy, (latest_mem hy).2⟩

/-- The table holds the latest value of every admitted key, and nothing else. -/
theorem foldl_put (capacity : ℕ) (log : List α) :
    log.foldl (put key) (List.replicate capacity none) =
      (admitted key capacity log).map (latest key log) ++
        List.replicate (capacity - (admitted key capacity log).length) none := by
  induction log using List.reverseRecOn with
  | nil =>
    have hnone : admitted key capacity [] = [] := List.take_nil
    rw [hnone]
    rfl
  | append_singleton log x ih =>
    have hholds : Holds key (latest key log) (admitted key capacity log) := holds_latest capacity log
    have hupdate : latest key (log ++ [x]) = Function.update (latest key log) (key x) (some x) := by
      funext k
      rw [latest_concat, Function.update_apply]
      by_cases hk : key x = k
      · rw [if_pos hk, if_pos hk.symm]
      · rw [if_neg hk, if_neg (Ne.symm hk)]
    rw [List.foldl_append, List.foldl_cons, List.foldl_nil, ih, put]
    by_cases hin : key x ∈ admitted key capacity log
    · have hsame : admitted key capacity (log ++ [x]) = admitted key capacity log := by
        rw [admitted, keys_concat, if_pos (List.mem_of_mem_take hin)]
        rfl
      rw [replace_of_mem hholds (List.Nodup.sublist (List.take_sublist _ _) (nodup_keys log)) hin,
        hsame, hupdate]
    · rw [replace_of_notMem hholds hin]
      have hrest : (admitted key capacity log).map (latest key (log ++ [x])) =
          (admitted key capacity log).map (latest key log) := by
        apply List.map_congr_left
        intro k hk
        rw [hupdate, Function.update_of_ne]
        rintro rfl
        exact hin hk
      by_cases hroom : (keys key log).length < capacity
      · -- A new key, and an empty slot for it.
        have hall : admitted key capacity log = keys key log := List.take_of_length_le (Nat.le_of_lt hroom)
        have hnew : admitted key capacity (log ++ [x]) = admitted key capacity log ++ [key x] := by
          rw [hall] at hin ⊢
          rw [admitted, keys_concat, if_neg hin, List.take_of_length_le]
          rw [List.length_append, List.length_singleton]
          omega
        have hfree : capacity - (admitted key capacity log).length =
            capacity - (admitted key capacity (log ++ [x])).length + 1 := by
          rw [hnew, List.length_append, List.length_singleton, hall]
          omega
        rw [hfree, fill_free hholds, Option.getD_some, hnew, List.map_append, hrest, List.map_singleton,
          latest_concat, if_pos rfl, List.append_assoc]
        rfl
      · -- The table is full.
        have hfull : (admitted key capacity log).length = capacity := by
          rw [admitted, List.length_take]
          omega
        have hsame : admitted key capacity (log ++ [x]) = admitted key capacity log := by
          rw [admitted, keys_concat]
          split
          · rfl
          · rw [List.take_append_of_le_length (by omega)]
            rfl
        rw [hfull, Nat.sub_self, List.replicate_zero, List.append_nil, fill_full hholds, hsame, hrest,
          hfull, Nat.sub_self, List.replicate_zero, List.append_nil]
        rfl

theorem find_foldl_put (p : α → Prop) [DecidablePred p] (capacity : ℕ) (log : List α) (k : κ) :
    find key p (log.foldl (put key) (List.replicate capacity none)) k =
      if k ∈ admitted key capacity log then (latest key log k).filter (p ·) else none := by
  have hholds : Holds key (latest key log) (admitted key capacity log) := holds_latest capacity log
  rw [foldl_put]
  split
  · rename_i hin
    exact find_of_mem p hholds (List.Nodup.sublist (List.take_sublist _ _) (nodup_keys log)) hin _
  · rename_i hout
    exact find_of_notMem p hholds hout _

end Admitted

end LatestTable
