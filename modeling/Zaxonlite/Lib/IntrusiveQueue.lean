import Mathlib.Data.List.Induction
import Mathlib.Data.List.Nodup
import Mathlib.Logic.Function.Basic
import Mathlib.Tactic.Common

/-!
# Intrusive queues

A queue threaded through its elements: a pointer to the first, a pointer to the last, and in each element
a pointer to the next. Elements are appended at the end, taken from the front, and unlinked from anywhere
by a walk from the front. What the pointers hold is a list, and the three operations are those of lists.
-/

/-- Both ends, and the link of every element. -/
structure IntrusiveQueue (α : Type*) where
  head : Option α
  tail : Option α
  next : α → Option α

namespace IntrusiveQueue

variable {α : Type*} [DecidableEq α]

def empty : IntrusiveQueue α where
  head := none
  tail := none
  next := fun _ => none

/-- Append an element; its own link is cleared. -/
def push (q : IntrusiveQueue α) (a : α) : IntrusiveQueue α :=
  match q.tail with
  | some last =>
    { head := q.head, tail := some a, next := Function.update (Function.update q.next a none) last (some a) }
  | none => { head := some a, tail := some a, next := Function.update q.next a none }

/-- Take the first element. -/
def pop (q : IntrusiveQueue α) : Option (α × IntrusiveQueue α) :=
  match q.head with
  | none => none
  | some a => some (a,
    { head := q.next a
      tail := if q.next a = none then none else q.tail
      next := Function.update q.next a none })

/-- Link the element before `current`, or the head, past it. -/
def bypass (q : IntrusiveQueue α) (previous : Option α) (current : α) : IntrusiveQueue α :=
  let tail := if q.tail = some current then previous else q.tail
  match previous with
  | some before => { head := q.head, tail := tail, next := Function.update q.next before (q.next current) }
  | none => { head := q.next current, tail := tail, next := q.next }

/-- The walk that unlinks an element, from a cursor and the element before it. -/
def unlinkFrom (q : IntrusiveQueue α) (a : α) : ℕ → Option α → Option α → Option (IntrusiveQueue α)
  | 0, _, none => some q
  | 0, _, some _ => none
  | _ + 1, _, none => some q
  | fuel + 1, previous, some current =>
    if current = a then some (q.bypass previous current)
    else unlinkFrom q a fuel (some current) (q.next current)

/-- Unlink an element wherever it is. -/
def unlink (q : IntrusiveQueue α) (a : α) (fuel : ℕ) : Option (IntrusiveQueue α) :=
  q.unlinkFrom a fuel none q.head

/-! ### What the pointers hold -/

/-- Following the links from `start` passes the listed elements and arrives at `stop`. -/
def Links (next : α → Option α) : Option α → List α → Option α → Prop
  | start, [], stop => start = stop
  | start, a :: rest, stop => start = some a ∧ Links next (next a) rest stop

/-- The pointers hold the list: each element once, and the last pointer at its last element. -/
structure Holds (q : IntrusiveQueue α) (l : List α) : Prop where
  links : Links q.next q.head l none
  last : q.tail = l.getLast?
  nodup : l.Nodup

omit [DecidableEq α] in
theorem links_append {next : α → Option α} {start stop : Option α} {xs ys : List α} :
    Links next start (xs ++ ys) stop ↔
      ∃ middle, Links next start xs middle ∧ Links next middle ys stop := by
  induction xs generalizing start with
  | nil => exact ⟨fun h => ⟨start, rfl, h⟩, fun ⟨_, hstart, h⟩ => (show start = _ from hstart) ▸ h⟩
  | cons x xs ih =>
    rw [List.cons_append, Links, ih]
    constructor
    · intro h
      obtain ⟨hstart, middle, hxs, hys⟩ := h
      exact ⟨middle, ⟨hstart, hxs⟩, hys⟩
    · intro h
      obtain ⟨middle, ⟨hstart, hxs⟩, hys⟩ := h
      exact ⟨hstart, middle, hxs, hys⟩

omit [DecidableEq α] in
theorem Links.congr {next next' : α → Option α} {start stop : Option α} {l : List α}
    (h : Links next start l stop) (hsame : ∀ a ∈ l, next' a = next a) : Links next' start l stop := by
  induction l generalizing start with
  | nil => exact h
  | cons a rest ih =>
    refine ⟨h.1, ?_⟩
    rw [hsame a List.mem_cons_self]
    exact ih h.2 fun b hb => hsame b (List.mem_cons_of_mem a hb)

theorem Links.update {next : α → Option α} {start stop : Option α} {l : List α} {a : α}
    (h : Links next start l stop) (ha : a ∉ l) (link : Option α) :
    Links (Function.update next a link) start l stop := by
  apply h.congr
  intro b hb
  apply Function.update_of_ne
  rintro rfl
  exact ha hb

omit [DecidableEq α] in
theorem holds_empty : (empty : IntrusiveQueue α).Holds [] :=
  ⟨rfl, rfl, List.nodup_nil⟩

omit [DecidableEq α] in
theorem Holds.head_eq {q : IntrusiveQueue α} {l : List α} (h : q.Holds l) : q.head = l.head? := by
  cases l with
  | nil => exact h.links
  | cons a l => exact h.links.1

/-! ### The operations -/

section Operations

variable {q q' : IntrusiveQueue α} {l : List α} {a : α}

theorem Holds.push (h : q.Holds l) (ha : a ∉ l) : (q.push a).Holds (l ++ [a]) where
  links := by
    rw [IntrusiveQueue.push, h.last]
    cases l using List.reverseRecOn with
    | nil => exact ⟨rfl, Function.update_self _ _ _⟩
    | append_singleton l last _ =>
      rw [List.getLast?_concat]
      have hnodup := List.nodup_append.1 h.nodup
      have hne : last ≠ a := fun heq => ha (heq ▸ List.mem_append_right l List.mem_cons_self)
      obtain ⟨middle, hbefore, hmiddle, hlast⟩ := links_append.1 h.links
      have hout : last ∉ l := fun hmem => hnodup.2.2 last hmem last List.mem_cons_self rfl
      have hfresh : a ∉ l := fun hmem => ha (List.mem_append_left _ hmem)
      rw [links_append]
      refine ⟨some a, links_append.2 ⟨middle, (hbefore.update hfresh _).update hout _, hmiddle, ?_⟩, rfl, ?_⟩
      · exact Function.update_self _ _ _
      · show Function.update (Function.update q.next a none) last (some a) a = none
        rw [Function.update_of_ne hne.symm, Function.update_self]
  last := by
    rw [List.getLast?_concat, IntrusiveQueue.push]
    cases q.tail <;> rfl
  nodup := by
    rw [List.nodup_append]
    refine ⟨h.nodup, List.nodup_singleton a, ?_⟩
    intro b hb c hc heq
    rw [List.mem_singleton.1 hc] at heq
    exact ha (heq ▸ hb)

theorem Holds.pop_nil (h : q.Holds []) : q.pop = none := by
  rw [IntrusiveQueue.pop, h.head_eq]
  rfl

theorem Holds.pop (h : q.Holds (a :: l)) : ∃ q', q.pop = some (a, q') ∧ q'.Holds l := by
  have hnodup := List.nodup_cons.1 h.nodup
  have hrest : Links q.next (q.next a) l none := h.links.2
  rw [IntrusiveQueue.pop, h.links.1]
  refine ⟨_, rfl, hrest.update hnodup.1 _, ?_, hnodup.2⟩
  show (if q.next a = none then none else q.tail) = l.getLast?
  cases l with
  | nil => exact if_pos hrest
  | cons b l =>
    have hnext : q.next a = some b := hrest.1
    rw [hnext, if_neg (Option.some_ne_none b), h.last, List.getLast?_cons_cons]

/-- A walk that has passed some of the list without meeting the element unlinks it from what is left. -/
theorem unlinkFrom_holds {before after : List α} (h : q.Holds (before ++ after)) (ha : a ∉ before)
    {cursor : Option α} (hbefore : Links q.next q.head before cursor)
    (hafter : Links q.next cursor after none) {fuel : ℕ}
    (hwalk : q.unlinkFrom a fuel before.getLast? cursor = some q') :
    q'.Holds ((before ++ after).erase a) := by
  induction after generalizing before cursor fuel with
  | nil =>
    obtain rfl : cursor = none := hafter
    rw [List.append_nil] at h ⊢
    rw [List.erase_of_not_mem ha]
    cases fuel <;> exact Option.some.inj hwalk ▸ h
  | cons current after ih =>
    obtain ⟨rfl, hafter⟩ := hafter
    cases fuel with
    | zero => cases hwalk
    | succ fuel =>
      rw [unlinkFrom] at hwalk
      split at hwalk
      · rename_i hcurrent
        subst hcurrent
        obtain rfl := Option.some.inj hwalk
        have hnodup := List.nodup_append.1 h.nodup
        have hrest := List.nodup_cons.1 hnodup.2.1
        rw [List.erase_append_right _ ha, List.erase_cons_head]
        cases before using List.reverseRecOn with
        | nil =>
          refine ⟨hafter, ?_, hrest.2⟩
          show (if q.tail = some current then none else q.tail) = after.getLast?
          rw [h.last, List.nil_append]
          cases after using List.reverseRecOn with
          | nil => exact if_pos rfl
          | append_singleton after last _ =>
            rw [← List.cons_append, List.getLast?_concat, List.getLast?_concat, if_neg]
            intro heq
            exact hrest.1 (List.mem_append_right after (List.mem_singleton.2 (Option.some.inj heq).symm))
        | append_singleton before last _ =>
          obtain ⟨middle, hfirst, hmiddle, hlast⟩ := links_append.1 hbefore
          have hinner := List.nodup_append.1 hnodup.1
          have hout : last ∉ before := fun hmem => hinner.2.2 last hmem last List.mem_cons_self rfl
          have hlater : last ∉ after := by
            intro hmem
            exact hnodup.2.2 last (List.mem_append_right _ List.mem_cons_self) last
              (List.mem_cons_of_mem current hmem) rfl
          rw [List.getLast?_concat]
          refine ⟨?_, ?_, ?_⟩
          · refine links_append.2 ⟨q.next current, links_append.2 ⟨middle, hfirst.update hout _, hmiddle, ?_⟩,
              hafter.update hlater _⟩
            exact Function.update_self _ _ _
          · show (if q.tail = some current then some last else q.tail) = _
            rw [h.last]
            cases after using List.reverseRecOn with
            | nil => rw [List.getLast?_concat, if_pos rfl, List.append_nil, List.getLast?_concat]
            | append_singleton after final _ =>
              rw [← List.cons_append, ← List.append_assoc, List.getLast?_concat, ← List.append_assoc,
                List.getLast?_concat, if_neg]
              intro heq
              exact hrest.1 (List.mem_append_right after (List.mem_singleton.2 (Option.some.inj heq).symm))
          · rw [List.nodup_append]
            refine ⟨hnodup.1, hrest.2, ?_⟩
            intro b hb c hc
            exact hnodup.2.2 b hb c (List.mem_cons_of_mem current hc)
      · rename_i hcurrent
        have hlast : (before ++ [current]).getLast? = some current := List.getLast?_concat
        rw [← hlast] at hwalk
        rw [← List.singleton_append, ← List.append_assoc] at h ⊢
        apply ih h _ _ hafter hwalk
        · intro hmem
          rcases List.mem_append.1 hmem with hmem | hmem
          · exact ha hmem
          · exact hcurrent (List.mem_singleton.1 hmem).symm
        · exact links_append.2 ⟨some current, hbefore, rfl, rfl⟩

theorem Holds.unlink (h : q.Holds l) {fuel : ℕ} (hunlink : q.unlink a fuel = some q') :
    q'.Holds (l.erase a) :=
  @unlinkFrom_holds _ _ _ _ _ [] l h List.not_mem_nil _ rfl h.links fuel hunlink

theorem unlinkFrom_ends {cursor : Option α} (hlinks : Links q.next cursor l none) (previous : Option α)
    {fuel : ℕ} (hfuel : l.length ≤ fuel) : ∃ q', q.unlinkFrom a fuel previous cursor = some q' := by
  induction l generalizing cursor previous fuel with
  | nil =>
    obtain rfl : cursor = none := hlinks
    exact ⟨q, by cases fuel <;> rfl⟩
  | cons current l ih =>
    obtain ⟨rfl, hrest⟩ := hlinks
    cases fuel with
    | zero => cases hfuel
    | succ fuel =>
      rw [unlinkFrom]
      split
      · exact ⟨_, rfl⟩
      · exact ih hrest _ (Nat.le_of_succ_le_succ hfuel)

theorem Holds.unlink_ends (h : q.Holds l) (a : α) {fuel : ℕ} (hfuel : l.length ≤ fuel) :
    ∃ q', q.unlink a fuel = some q' :=
  unlinkFrom_ends h.links none hfuel

end Operations

end IntrusiveQueue
