import Mathlib.Order.Nat
import Zaxonlite.Lib.IntrusiveQueue
import Zaxonlite.Lib.Run

/-!
# Ticket gates

A gate admits one caller at a time. Callers that find it taken wait in a queue threaded through their
tickets, and whoever leaves hands the gate to the oldest of them; a waiting caller may give up and unlink
its ticket. Callers are numbered as they arrive, so that first in, first out is an order on numbers. The
tickets live in the callers' frames and are used again by their next calls.
-/

open Run

/-- The flag, the queue and the flags of the tickets. -/
structure TicketGate (α : Type*) where
  busy : Bool
  queue : IntrusiveQueue α
  granted : α → Bool

namespace TicketGate

variable {α : Type*} [DecidableEq α]

/-- Free, with no ticket in the queue. -/
def idle : TicketGate α where
  busy := false
  queue := IntrusiveQueue.empty
  granted := fun _ => false

/-- Queue a fresh ticket. -/
def enqueue (g : TicketGate α) (a : α) : TicketGate α :=
  { g with queue := g.queue.push a, granted := Function.update g.granted a false }

/-- Enter a free gate, or queue; the flag tells which. -/
def tryEnter (g : TicketGate α) (a : α) : Bool × TicketGate α :=
  if g.busy = false ∧ g.queue.head = none then (true, { g with busy := true }) else (false, g.enqueue a)

def free (g : TicketGate α) : TicketGate α :=
  { g with busy := false }

/-- Hand the gate to the oldest ticket, which is returned, or free it. -/
def handOver (g : TicketGate α) : Option α × TicketGate α :=
  match g.queue.pop with
  | some (a, q) => (some a, { g with queue := q, granted := Function.update g.granted a true })
  | none => (none, g.free)

/-- Unlink an abandoned ticket. -/
def remove (g : TicketGate α) (a : α) (fuel : ℕ) : Option (TicketGate α) :=
  (g.queue.unlink a fuel).map fun q => { g with queue := q }

end TicketGate

/-- The code of a gate: what arriving, leaving and giving up do. Leaving may depend on whether the owner of
the gate is stopping, and tells which ticket it handed the gate to. -/
structure GateCode (α : Type*) where
  tryEnter : TicketGate α → α → Bool × TicketGate α
  release : Bool → TicketGate α → Option α × TicketGate α
  remove : TicketGate α → α → ℕ → Option (TicketGate α)

/-- The code hands over unless it is stopping and does not then, when it frees the gate. -/
structure GateCode.Implements {α : Type*} [DecidableEq α] (code : GateCode α) (handsOver : Bool → Bool) :
    Prop where
  tryEnter : ∀ g a, code.tryEnter g a = g.tryEnter a
  release : ∀ stopping g, code.release stopping g = if handsOver stopping then g.handOver else (none, g.free)
  remove : ∀ g a fuel, code.remove g a fuel = g.remove a fuel
  stops : ∀ stopping, handsOver stopping = false → handsOver true = false

inductive CallerPhase where
  | outside
  | waiting
  | inside
  deriving DecidableEq

/-- A gate, its callers, and the numbers of the calls that entered, left without entering, and were handed
the gate. -/
structure GateRun (α : Type*) where
  gate : TicketGate α
  stopping : Bool
  phase : α → CallerPhase
  call : α → ℕ
  calls : ℕ
  entered : List ℕ
  gone : List ℕ
  handed : List ℕ

namespace GateRun

variable {α : Type*} [DecidableEq α]

def start : GateRun α where
  gate := TicketGate.idle
  stopping := false
  phase := fun _ => .outside
  call := fun _ => 0
  calls := 0
  entered := []
  gone := []
  handed := []

/-- The caller is inside, or has been handed the gate and has not woken yet. -/
def Owns (s : GateRun α) (t : α) : Prop :=
  s.phase t = .inside ∨ s.phase t = .waiting ∧ s.gate.granted t = true

def Queued (s : GateRun α) (t : α) : Prop :=
  s.phase t = .waiting ∧ s.gate.granted t = false

/-- One critical section of one caller. A queued caller may give up at any time. -/
inductive Step (code : GateCode α) : GateRun α → GateRun α → Prop
  | refused {s : GateRun α} {t : α} : s.stopping = true → s.phase t = .outside →
    Step code s { s with calls := s.calls + 1, gone := s.gone ++ [s.calls] }
  | enters {s : GateRun α} {t : α} {g : TicketGate α} : s.stopping = false → s.phase t = .outside →
    code.tryEnter s.gate t = (true, g) →
    Step code s
      { s with
        gate := g
        phase := Function.update s.phase t .inside
        call := Function.update s.call t s.calls
        calls := s.calls + 1
        entered := s.entered ++ [s.calls] }
  | waits {s : GateRun α} {t : α} {g : TicketGate α} : s.stopping = false → s.phase t = .outside →
    code.tryEnter s.gate t = (false, g) →
    Step code s
      { s with
        gate := g
        phase := Function.update s.phase t .waiting
        call := Function.update s.call t s.calls
        calls := s.calls + 1 }
  | wakes {s : GateRun α} {t : α} : s.phase t = .waiting → s.gate.granted t = true →
    Step code s
      { s with phase := Function.update s.phase t .inside, entered := s.entered ++ [s.call t] }
  | abandons {s : GateRun α} {t : α} {fuel : ℕ} {g : TicketGate α} : s.phase t = .waiting →
    s.gate.granted t = false → code.remove s.gate t fuel = some g →
    Step code s
      { s with gate := g, phase := Function.update s.phase t .outside, gone := s.gone ++ [s.call t] }
  | releases {s : GateRun α} {t : α} : s.phase t = .inside →
    Step code s
      { s with
        gate := (code.release s.stopping s.gate).2
        phase := Function.update s.phase t .outside
        handed := s.handed ++ ((code.release s.stopping s.gate).1.map s.call).toList }
  | stops {s : GateRun α} : Step code s { s with stopping := true }

/-- What a gate promises in every state. -/
structure Safe (handsOver : Bool → Bool) (s : GateRun α) : Prop where
  exclusive : ∀ t u, s.Owns t → s.Owns u → t = u
  inOrder : s.entered.Pairwise (· < ·)
  fair : ∀ n ∈ s.entered, ∀ m < n, m ∈ s.entered ∨ m ∈ s.gone
  listed : ∃ l, s.gate.queue.Holds l ∧ ∀ t, t ∈ l ↔ s.Queued t
  unlinks : ∀ t, s.Queued t → ∃ fuel g, s.gate.remove t fuel = some g
  free : s.gate.busy = false → handsOver s.stopping = true → ∀ t, s.phase t ≠ .waiting
  owned : s.gate.busy = true → ∃ t, s.Owns t
  final : ∀ n ∈ s.handed, n ∉ s.gone
  abandoned : ∀ n ∈ s.gone, n ∉ s.entered

/-! ### The invariant -/

/-- What is true of a gate whose queue holds `l`: besides the tickets, in which order calls stand. -/
structure Inv (handsOver : Bool → Bool) (s : GateRun α) (l : List α) : Prop where
  holds : s.gate.queue.Holds l
  listed : ∀ t, t ∈ l ↔ s.Queued t
  exclusive : ∀ t u, s.Owns t → s.Owns u → t = u
  free : s.gate.busy = false → ∀ t, ¬ s.Owns t
  owned : s.gate.busy = true → ∃ t, s.Owns t
  idle : s.gate.busy = false → l = [] ∨ handsOver s.stopping = false
  below : ∀ t, s.phase t ≠ .outside → s.call t < s.calls
  queued : (l.map s.call).Pairwise (· < ·)
  owner : ∀ t, s.Owns t → ∀ u ∈ l, s.call t < s.call u
  inOrder : s.entered.Pairwise (· < ·)
  enteredBelow : ∀ n ∈ s.entered, n < s.calls ∧ ∀ t, s.phase t = .waiting → n < s.call t
  goneBelow : ∀ n ∈ s.gone, n < s.calls ∧ n ∉ s.entered ∧ ∀ t, s.phase t = .waiting → s.call t ≠ n
  accounted : ∀ n < s.calls, n ∈ s.entered ∨ n ∈ s.gone ∨ ∃ t, s.phase t = .waiting ∧ s.call t = n
  final : ∀ n ∈ s.handed, n < s.calls ∧ n ∉ s.gone ∧ ∀ t, s.Queued t → s.call t ≠ n

variable {handsOver : Bool → Bool} {code : GateCode α} {s s' : GateRun α} {l : List α}

omit [DecidableEq α] in
theorem waiting_cases {t : α} (h : s.phase t = .waiting) : s.Queued t ∨ s.Owns t := by
  cases hgranted : s.gate.granted t with
  | false => exact .inl ⟨h, hgranted⟩
  | true => exact .inr (.inr ⟨h, hgranted⟩)

theorem Inv.safe (h : Inv handsOver s l) : s.Safe handsOver where
  exclusive := h.exclusive
  inOrder := h.inOrder
  fair := by
    intro n hn m hm
    rcases h.accounted m (lt_trans hm (h.enteredBelow n hn).1) with hentered | hgone | ⟨t, hwaiting, hcall⟩
    · exact .inl hentered
    · exact .inr hgone
    · have hless := (h.enteredBelow n hn).2 t hwaiting
      omega
  listed := ⟨l, h.holds, h.listed⟩
  unlinks := by
    intro t _
    obtain ⟨q, hq⟩ := h.holds.unlink_ends t le_rfl
    refine ⟨l.length, { s.gate with queue := q }, ?_⟩
    rw [TicketGate.remove, hq]
    rfl
  free := by
    intro hbusy hhands t hwaiting
    rcases waiting_cases hwaiting with hqueued | howns
    · rcases h.idle hbusy with rfl | hstopping
      · exact List.not_mem_nil ((h.listed t).2 hqueued)
      · rw [hhands] at hstopping
        cases hstopping
    · exact h.free hbusy t howns
  owned := h.owned
  final := fun n hn => (h.final n hn).2.1
  abandoned := fun n hn => (h.goneBelow n hn).2.1

omit [DecidableEq α] in
theorem inv_start : Inv handsOver (start : GateRun α) [] where
  holds := IntrusiveQueue.holds_empty
  listed := fun t => ⟨fun h => absurd h List.not_mem_nil, fun h => by cases h.1⟩
  exclusive := by
    rintro t u (h | h)
    · cases h
    · cases h.1
  free := by
    rintro - t (h | h)
    · cases h
    · cases h.1
  owned := fun h => by cases h
  idle := fun _ => .inl rfl
  below := fun t h => absurd rfl h
  queued := List.Pairwise.nil
  owner := fun _ _ _ h => absurd h List.not_mem_nil
  inOrder := List.Pairwise.nil
  enteredBelow := fun _ h => absurd h List.not_mem_nil
  goneBelow := fun _ h => absurd h List.not_mem_nil
  accounted := fun _ h => absurd h (Nat.not_lt_zero _)
  final := fun _ h => absurd h List.not_mem_nil

/-! ### Steps -/

omit [DecidableEq α] in
theorem Inv.refused (h : Inv handsOver s l) :
    Inv handsOver { s with calls := s.calls + 1, gone := s.gone ++ [s.calls] } l :=
  { h with
    below := fun t ht => Nat.lt_succ_of_lt (h.below t ht)
    enteredBelow := fun n hn => ⟨Nat.lt_succ_of_lt (h.enteredBelow n hn).1, (h.enteredBelow n hn).2⟩
    goneBelow := by
      intro n hn
      rcases List.mem_append.1 hn with hn | hn
      · exact ⟨Nat.lt_succ_of_lt (h.goneBelow n hn).1, (h.goneBelow n hn).2⟩
      · obtain rfl := List.mem_singleton.1 hn
        refine ⟨Nat.lt_succ_self _, ?_, ?_⟩
        · intro hentered
          exact absurd (h.enteredBelow _ hentered).1 (lt_irrefl _)
        · intro t hwaiting
          have hless := h.below t (by rw [hwaiting]; exact CallerPhase.noConfusion)
          exact hless.ne
    accounted := by
      intro n hn
      rcases Nat.lt_succ_iff_lt_or_eq.1 hn with hn | rfl
      · rcases h.accounted n hn with hentered | hgone | hwaiting
        · exact .inl hentered
        · exact .inr (.inl (List.mem_append_left _ hgone))
        · exact .inr (.inr hwaiting)
      · exact .inr (.inl (List.mem_append_right _ List.mem_cons_self))
    final := by
      intro n hn
      obtain ⟨hless, hgone, hqueued⟩ := h.final n hn
      refine ⟨Nat.lt_succ_of_lt hless, ?_, hqueued⟩
      intro hmem
      rcases List.mem_append.1 hmem with hmem | hmem
      · exact hgone hmem
      · exact hless.ne (List.mem_singleton.1 hmem) }

omit [DecidableEq α] in
theorem Inv.nobody (h : Inv handsOver s l) (hfree : s.gate.busy = false) (hhead : s.gate.queue.head = none) :
    l = [] ∧ ∀ t, s.phase t ≠ .waiting := by
  have hempty : l = [] := List.head?_eq_none_iff.1 (h.holds.head_eq.symm.trans hhead)
  refine ⟨hempty, ?_⟩
  intro t hwaiting
  rcases waiting_cases hwaiting with hqueued | howns
  · have hmem := (h.listed t).2 hqueued
    rw [hempty] at hmem
    cases hmem
  · exact h.free hfree t howns

theorem Inv.enters (h : Inv handsOver s l) {t : α} (hfree : s.gate.busy = false)
    (hhead : s.gate.queue.head = none) :
    Inv handsOver
      { s with
        gate := { s.gate with busy := true }
        phase := Function.update s.phase t .inside
        call := Function.update s.call t s.calls
        calls := s.calls + 1
        entered := s.entered ++ [s.calls] } l := by
  obtain ⟨rfl, hnobody⟩ := h.nobody hfree hhead
  have hphase : ∀ u, Function.update s.phase t CallerPhase.inside u ≠ .waiting := by
    intro u hwaiting
    by_cases hu : u = t
    · rw [hu, Function.update_self] at hwaiting
      cases hwaiting
    · rw [Function.update_of_ne hu] at hwaiting
      exact hnobody u hwaiting
  have howns : ∀ u, Function.update s.phase t CallerPhase.inside u = .inside → u = t := by
    intro u hinside
    by_contra hu
    rw [Function.update_of_ne hu] at hinside
    exact h.free hfree u (.inl hinside)
  have hself : Function.update s.phase t CallerPhase.inside t = .inside := Function.update_self _ _ _
  refine ⟨h.holds, ?_, ?_, ?_, ?_, ?_, ?_, ?_, ?_, ?_, ?_, ?_, ?_, ?_⟩
  · exact fun u => ⟨fun hu => absurd hu List.not_mem_nil, fun hu => absurd hu.1 (hphase u)⟩
  · rintro u v (hu | hu) (hv | hv)
    · rw [howns u hu, howns v hv]
    · exact absurd hv.1 (hphase v)
    · exact absurd hu.1 (hphase u)
    · exact absurd hu.1 (hphase u)
  · exact fun hbusy => by cases hbusy
  · exact fun _ => ⟨t, .inl hself⟩
  · exact fun hbusy => by cases hbusy
  · intro u hu
    by_cases hut : u = t
    · show Function.update s.call t s.calls u < s.calls + 1
      rw [hut, Function.update_self]
      exact Nat.lt_succ_self _
    · replace hu : Function.update s.phase t CallerPhase.inside u ≠ .outside := hu
      rw [Function.update_of_ne hut] at hu
      show Function.update s.call t s.calls u < s.calls + 1
      rw [Function.update_of_ne hut]
      exact Nat.lt_succ_of_lt (h.below u hu)
  · exact List.Pairwise.nil
  · exact fun u _ v hv => absurd hv List.not_mem_nil
  · refine List.pairwise_append.2 ⟨h.inOrder, List.pairwise_singleton _ _, ?_⟩
    intro n hn m hm
    rw [List.mem_singleton.1 hm]
    exact (h.enteredBelow n hn).1
  · intro n hn
    refine ⟨?_, fun u hu => absurd hu (hphase u)⟩
    rcases List.mem_append.1 hn with hn | hn
    · exact Nat.lt_succ_of_lt (h.enteredBelow n hn).1
    · rw [List.mem_singleton.1 hn]
      exact Nat.lt_succ_self _
  · intro n hn
    obtain ⟨hless, hentered, -⟩ := h.goneBelow n hn
    refine ⟨Nat.lt_succ_of_lt hless, ?_, fun u hu => absurd hu (hphase u)⟩
    intro hmem
    rcases List.mem_append.1 hmem with hmem | hmem
    · exact hentered hmem
    · exact hless.ne (List.mem_singleton.1 hmem)
  · intro n hn
    rcases Nat.lt_succ_iff_lt_or_eq.1 hn with hn | rfl
    · rcases h.accounted n hn with hentered | hgone | ⟨u, hu, -⟩
      · exact .inl (List.mem_append_left _ hentered)
      · exact .inr (.inl hgone)
      · exact absurd hu (hnobody u)
    · exact .inl (List.mem_append_right _ List.mem_cons_self)
  · intro n hn
    obtain ⟨hless, hgone, -⟩ := h.final n hn
    exact ⟨Nat.lt_succ_of_lt hless, hgone, fun u hu => absurd hu.1 (hphase u)⟩

theorem Inv.waits (h : Inv handsOver s l) {t : α} (hphase : s.phase t = .outside)
    (htaken : ¬ (s.gate.busy = false ∧ s.gate.queue.head = none)) :
    Inv handsOver
      { s with
        gate := s.gate.enqueue t
        phase := Function.update s.phase t .waiting
        call := Function.update s.call t s.calls
        calls := s.calls + 1 } (l ++ [t]) := by
  set s' : GateRun α :=
    { s with
      gate := s.gate.enqueue t
      phase := Function.update s.phase t .waiting
      call := Function.update s.call t s.calls
      calls := s.calls + 1 } with hs'
  have hself : s'.phase t = .waiting ∧ s'.gate.granted t = false ∧ s'.call t = s.calls :=
    ⟨Function.update_self _ _ _, Function.update_self _ _ _, Function.update_self _ _ _⟩
  have hother : ∀ u, u ≠ t →
      s'.phase u = s.phase u ∧ s'.gate.granted u = s.gate.granted u ∧ s'.call u = s.call u :=
    fun u hu => ⟨Function.update_of_ne hu _ _, Function.update_of_ne hu _ _, Function.update_of_ne hu _ _⟩
  have houtside : ∀ u, s.phase u ≠ .outside → u ≠ t := by
    rintro u hu rfl
    exact hu hphase
  have howns : ∀ u, s'.Owns u ↔ s.Owns u := by
    intro u
    by_cases hu : u = t
    · subst hu
      rw [Owns, Owns, hself.1, hself.2.1, hphase]
      simp
    · rw [Owns, Owns, (hother u hu).1, (hother u hu).2.1]
  have hqueued : ∀ u, s'.Queued u ↔ s.Queued u ∨ u = t := by
    intro u
    by_cases hu : u = t
    · subst hu
      exact ⟨fun _ => .inr rfl, fun _ => ⟨hself.1, hself.2.1⟩⟩
    · rw [Queued, Queued, (hother u hu).1, (hother u hu).2.1]
      exact ⟨.inl, fun h => h.resolve_right hu⟩
  have hnot : t ∉ l := fun hmem => houtside t (by rw [((h.listed t).1 hmem).1]; exact CallerPhase.noConfusion) rfl
  have hmap : l.map s'.call = l.map s.call := by
    apply List.map_congr_left
    intro u hu
    exact (hother u fun heq => hnot (heq ▸ hu)).2.2
  have hwaiting : ∀ u, s'.phase u = .waiting → u = t ∨ s.phase u = .waiting ∧ s'.call u = s.call u := by
    intro u hu
    by_cases hut : u = t
    · exact .inl hut
    · rw [(hother u hut).1] at hu
      exact .inr ⟨hu, (hother u hut).2.2⟩
  have hcalls : ∀ u, s.phase u ≠ .outside → s'.call u = s.call u ∧ s.call u < s.calls :=
    fun u hu => ⟨(hother u (houtside u hu)).2.2, h.below u hu⟩
  have hownsPhase : ∀ u, s.Owns u → s.phase u ≠ .outside := by
    rintro u (hu | hu)
    · rw [hu]
      exact CallerPhase.noConfusion
    · rw [hu.1]
      exact CallerPhase.noConfusion
  refine ⟨h.holds.push hnot, ?_, ?_, ?_, ?_, ?_, ?_, ?_, ?_, h.inOrder, ?_, ?_, ?_, ?_⟩
  · intro u
    rw [List.mem_append, List.mem_singleton, hqueued, h.listed]
  · intro u v hu hv
    exact h.exclusive u v ((howns u).1 hu) ((howns v).1 hv)
  · exact fun hbusy u hu => h.free hbusy u ((howns u).1 hu)
  · intro hbusy
    obtain ⟨u, hu⟩ := h.owned hbusy
    exact ⟨u, (howns u).2 hu⟩
  · intro hbusy
    rcases h.idle hbusy with rfl | hstopping
    · exact absurd ⟨hbusy, h.holds.head_eq⟩ htaken
    · exact .inr hstopping
  · intro u hu
    show s'.call u < s.calls + 1
    by_cases hut : u = t
    · rw [hut, hself.2.2]
      exact Nat.lt_succ_self _
    · rw [(hother u hut).1] at hu
      rw [(hother u hut).2.2]
      exact Nat.lt_succ_of_lt (h.below u hu)
  · rw [List.map_append, hmap, List.pairwise_append]
    refine ⟨h.queued, List.pairwise_singleton _ _, ?_⟩
    intro n hn m hm
    obtain ⟨u, hu, rfl⟩ := List.mem_map.1 hn
    rw [List.map_singleton, List.mem_singleton, hself.2.2] at hm
    rw [hm]
    exact h.below u (by rw [((h.listed u).1 hu).1]; exact CallerPhase.noConfusion)
  · intro u hu v hv
    have hown := (howns u).1 hu
    obtain ⟨hsame, hless⟩ := hcalls u (hownsPhase u hown)
    rw [hsame]
    rcases List.mem_append.1 hv with hv | hv
    · rw [(hother v fun heq => hnot (heq ▸ hv)).2.2]
      exact h.owner u hown v hv
    · rw [List.mem_singleton.1 hv, hself.2.2]
      exact hless
  · intro n hn
    obtain ⟨hless, hbelow⟩ := h.enteredBelow n hn
    refine ⟨Nat.lt_succ_of_lt hless, ?_⟩
    intro u hu
    rcases hwaiting u hu with rfl | ⟨hu, hsame⟩
    · rw [hself.2.2]
      exact hless
    · rw [hsame]
      exact hbelow u hu
  · intro n hn
    obtain ⟨hless, hentered, hne⟩ := h.goneBelow n hn
    refine ⟨Nat.lt_succ_of_lt hless, hentered, ?_⟩
    intro u hu
    rcases hwaiting u hu with rfl | ⟨hu, hsame⟩
    · rw [hself.2.2]
      exact hless.ne'
    · rw [hsame]
      exact hne u hu
  · intro n hn
    rcases Nat.lt_succ_iff_lt_or_eq.1 hn with hn | rfl
    · rcases h.accounted n hn with hentered | hgone | ⟨u, hu, hcall⟩
      · exact .inl hentered
      · exact .inr (.inl hgone)
      · have hne := houtside u (by rw [hu]; exact CallerPhase.noConfusion)
        exact .inr (.inr ⟨u, (hother u hne).1.trans hu, (hother u hne).2.2.trans hcall⟩)
    · exact .inr (.inr ⟨t, hself.1, hself.2.2⟩)
  · intro n hn
    obtain ⟨hless, hgone, hne⟩ := h.final n hn
    refine ⟨Nat.lt_succ_of_lt hless, hgone, ?_⟩
    intro u hu
    rcases (hqueued u).1 hu with hu | rfl
    · rw [(hcalls u (by rw [hu.1]; exact CallerPhase.noConfusion)).1]
      exact hne u hu
    · rw [hself.2.2]
      exact hless.ne'

theorem Inv.wakes (h : Inv handsOver s l) {t : α} (hwaiting : s.phase t = .waiting)
    (hgranted : s.gate.granted t = true) :
    Inv handsOver
      { s with phase := Function.update s.phase t .inside, entered := s.entered ++ [s.call t] } l := by
  set s' : GateRun α :=
    { s with phase := Function.update s.phase t .inside, entered := s.entered ++ [s.call t] } with hs'
  have hself : s'.phase t = .inside := Function.update_self _ _ _
  have hother : ∀ u, u ≠ t → s'.phase u = s.phase u := fun u hu => Function.update_of_ne hu _ _
  have hown : s.Owns t := .inr ⟨hwaiting, hgranted⟩
  have howns : ∀ u, s'.Owns u ↔ s.Owns u := by
    intro u
    by_cases hu : u = t
    · subst hu
      exact ⟨fun _ => hown, fun _ => .inl hself⟩
    · rw [Owns, Owns, hother u hu]
  have hstill : ∀ u, s'.phase u = .waiting → s.phase u = .waiting ∧ u ≠ t := by
    intro u hu
    by_cases hut : u = t
    · rw [hut, hself] at hu
      cases hu
    · exact ⟨(hother u hut).symm.trans hu, hut⟩
  have hqueued : ∀ u, s'.Queued u ↔ s.Queued u := by
    intro u
    constructor
    · intro hu
      exact ⟨(hstill u hu.1).1, hu.2⟩
    · intro hu
      have hne : u ≠ t := by
        rintro rfl
        cases hgranted.symm.trans hu.2
      exact ⟨(hother u hne).trans hu.1, hu.2⟩
  -- Whoever still waits does so in the queue, behind the owner.
  have hbehind : ∀ u, s'.phase u = .waiting → s.call t < s.call u := by
    intro u hu
    obtain ⟨hu, hne⟩ := hstill u hu
    rcases waiting_cases hu with hqueue | howner
    · exact h.owner t hown u ((h.listed u).2 hqueue)
    · exact absurd (h.exclusive u t howner hown) hne
  refine ⟨h.holds, ?_, ?_, ?_, ?_, h.idle, ?_, h.queued, ?_, ?_, ?_, ?_, ?_, ?_⟩
  · exact fun u => (h.listed u).trans (hqueued u).symm
  · exact fun u v hu hv => h.exclusive u v ((howns u).1 hu) ((howns v).1 hv)
  · exact fun hbusy u hu => h.free hbusy u ((howns u).1 hu)
  · exact fun _ => ⟨t, .inl hself⟩
  · intro u hu
    by_cases hut : u = t
    · rw [hut]
      exact h.below t (by rw [hwaiting]; exact CallerPhase.noConfusion)
    · rw [hother u hut] at hu
      exact h.below u hu
  · exact fun u hu => h.owner u ((howns u).1 hu)
  · refine List.pairwise_append.2 ⟨h.inOrder, List.pairwise_singleton _ _, ?_⟩
    intro n hn m hm
    rw [List.mem_singleton.1 hm]
    exact (h.enteredBelow n hn).2 t hwaiting
  · intro n hn
    rcases List.mem_append.1 hn with hn | hn
    · exact ⟨(h.enteredBelow n hn).1, fun u hu => (h.enteredBelow n hn).2 u (hstill u hu).1⟩
    · rw [List.mem_singleton.1 hn]
      exact ⟨h.below t (by rw [hwaiting]; exact CallerPhase.noConfusion), hbehind⟩
  · intro n hn
    obtain ⟨hless, hentered, hne⟩ := h.goneBelow n hn
    refine ⟨hless, ?_, fun u hu => hne u (hstill u hu).1⟩
    intro hmem
    rcases List.mem_append.1 hmem with hmem | hmem
    · exact hentered hmem
    · exact hne t hwaiting (List.mem_singleton.1 hmem).symm
  · intro n hn
    rcases h.accounted n hn with hentered | hgone | ⟨u, hu, hcall⟩
    · exact .inl (List.mem_append_left _ hentered)
    · exact .inr (.inl hgone)
    · by_cases hut : u = t
      · rw [hut] at hcall
        exact .inl (List.mem_append_right _ (List.mem_singleton.2 hcall.symm))
      · exact .inr (.inr ⟨u, (hother u hut).trans hu, hcall⟩)
  · intro n hn
    obtain ⟨hless, hgone, hne⟩ := h.final n hn
    exact ⟨hless, hgone, fun u hu => hne u ((hqueued u).1 hu)⟩

theorem Inv.abandons (h : Inv handsOver s l) {t : α} {fuel : ℕ} {g : TicketGate α} (hqueue : s.Queued t)
    (hremove : s.gate.remove t fuel = some g) :
    Inv handsOver
      { s with gate := g, phase := Function.update s.phase t .outside, gone := s.gone ++ [s.call t] }
      (l.erase t) := by
  obtain ⟨q, hunlink, rfl⟩ := Option.map_eq_some_iff.1 hremove
  set s' : GateRun α :=
    { s with
      gate := { s.gate with queue := q }
      phase := Function.update s.phase t .outside
      gone := s.gone ++ [s.call t] } with hs'
  have hself : s'.phase t = .outside := Function.update_self _ _ _
  have hother : ∀ u, u ≠ t → s'.phase u = s.phase u := fun u hu => Function.update_of_ne hu _ _
  have hmem : t ∈ l := (h.listed t).2 hqueue
  have hstill : ∀ u, s'.phase u ≠ .outside → s'.phase u = s.phase u ∧ u ≠ t := by
    intro u hu
    have hne : u ≠ t := by
      rintro rfl
      exact hu hself
    exact ⟨hother u hne, hne⟩
  have hwaiting : ∀ u, s'.phase u = .waiting → s.phase u = .waiting ∧ u ≠ t := by
    intro u hu
    obtain ⟨hsame, hne⟩ := hstill u (by rw [hu]; exact CallerPhase.noConfusion)
    exact ⟨hsame.symm.trans hu, hne⟩
  have howns : ∀ u, s'.Owns u ↔ s.Owns u := by
    intro u
    by_cases hu : u = t
    · subst hu
      rw [Owns, Owns, hself, hqueue.1]
      show _ ∨ _ ∧ s.gate.granted u = true ↔ _ ∨ _ ∧ s.gate.granted u = true
      rw [hqueue.2]
      simp
    · rw [Owns, Owns, hother u hu]
  have hqueued : ∀ u, s'.Queued u ↔ s.Queued u ∧ u ≠ t := by
    intro u
    constructor
    · intro hu
      exact ⟨⟨(hwaiting u hu.1).1, hu.2⟩, (hwaiting u hu.1).2⟩
    · intro hu
      exact ⟨(hother u hu.2).trans hu.1.1, hu.1.2⟩
  -- The numbers of waiting callers differ: they are in the queue, or one owns the gate.
  have hdistinct : ∀ u, s'.phase u = .waiting → s.call u ≠ s.call t := by
    intro u hu
    obtain ⟨hu, hne⟩ := hwaiting u hu
    rcases waiting_cases hu with hin | howner
    · intro heq
      have hinjective := List.inj_on_of_nodup_map (h.queued.imp fun hlt => Nat.ne_of_lt hlt)
      exact hne (hinjective ((h.listed u).2 hin) hmem heq)
    · exact (h.owner u howner t hmem).ne
  have hsub : (l.erase t).Sublist l := List.erase_sublist
  refine ⟨h.holds.unlink hunlink, ?_, ?_, ?_, ?_, ?_, ?_, ?_, ?_, h.inOrder, ?_, ?_, ?_, ?_⟩
  · intro u
    rw [h.holds.nodup.mem_erase_iff, hqueued, h.listed, and_comm]
  · exact fun u v hu hv => h.exclusive u v ((howns u).1 hu) ((howns v).1 hv)
  · exact fun hbusy u hu => h.free hbusy u ((howns u).1 hu)
  · intro hbusy
    obtain ⟨u, hu⟩ := h.owned hbusy
    exact ⟨u, (howns u).2 hu⟩
  · intro hbusy
    rcases h.idle hbusy with rfl | hstopping
    · exact .inl rfl
    · exact .inr hstopping
  · intro u hu
    rw [(hstill u hu).1] at hu
    exact h.below u hu
  · exact h.queued.sublist (hsub.map s.call)
  · exact fun u hu v hv => h.owner u ((howns u).1 hu) v (hsub.subset hv)
  · intro n hn
    obtain ⟨hless, hbelow⟩ := h.enteredBelow n hn
    exact ⟨hless, fun u hu => hbelow u (hwaiting u hu).1⟩
  · intro n hn
    rcases List.mem_append.1 hn with hn | hn
    · obtain ⟨hless, hentered, hne⟩ := h.goneBelow n hn
      exact ⟨hless, hentered, fun u hu => hne u (hwaiting u hu).1⟩
    · rw [List.mem_singleton.1 hn]
      refine ⟨h.below t (by rw [hqueue.1]; exact CallerPhase.noConfusion), ?_, hdistinct⟩
      intro hentered
      exact absurd ((h.enteredBelow _ hentered).2 t hqueue.1) (lt_irrefl _)
  · intro n hn
    rcases h.accounted n hn with hentered | hgone | ⟨u, hu, hcall⟩
    · exact .inl hentered
    · exact .inr (.inl (List.mem_append_left _ hgone))
    · by_cases hut : u = t
      · rw [hut] at hcall
        exact .inr (.inl (List.mem_append_right _ (List.mem_singleton.2 hcall.symm)))
      · exact .inr (.inr ⟨u, (hother u hut).trans hu, hcall⟩)
  · intro n hn
    obtain ⟨hless, hgone, hne⟩ := h.final n hn
    refine ⟨hless, ?_, fun u hu => hne u ((hqueued u).1 hu).1⟩
    intro hin
    rcases List.mem_append.1 hin with hin | hin
    · exact hgone hin
    · exact hne t hqueue (List.mem_singleton.1 hin).symm

section Releasing

variable {t : α}

theorem Inv.releaser (h : Inv handsOver s l) (hinside : s.phase t = .inside) {u : α}
    (hu : Function.update s.phase t CallerPhase.outside u = .inside ∨
      Function.update s.phase t CallerPhase.outside u = .waiting ∧ s.gate.granted u = true) : False := by
  have hne : u ≠ t := by
    rintro rfl
    rw [Function.update_self] at hu
    rcases hu with hu | hu
    · cases hu
    · cases hu.1
  rw [Function.update_of_ne hne] at hu
  exact hne (h.exclusive u t hu (.inl hinside))

/-- Leaving without a hand-over: nobody owns the gate afterwards. -/
theorem Inv.frees (h : Inv handsOver s l) (hinside : s.phase t = .inside)
    (hidle : l = [] ∨ handsOver s.stopping = false) :
    Inv handsOver { s with gate := s.gate.free, phase := Function.update s.phase t .outside } l := by
  set s' : GateRun α := { s with gate := s.gate.free, phase := Function.update s.phase t .outside } with hs'
  have hnone : ∀ u, ¬ s'.Owns u := fun u hu => h.releaser hinside hu
  have hsame : ∀ u, s'.phase u ≠ .outside → s'.phase u = s.phase u := by
    intro u hu
    apply Function.update_of_ne
    rintro rfl
    exact hu (Function.update_self _ _ _)
  have hwaiting : ∀ u, s'.phase u = .waiting ↔ s.phase u = .waiting := by
    intro u
    constructor
    · intro hu
      rw [← hsame u (by rw [hu]; exact CallerPhase.noConfusion)]
      exact hu
    · intro hu
      refine (Function.update_of_ne ?_ _ _).trans hu
      rintro rfl
      cases hinside.symm.trans hu
  have hqueued : ∀ u, s'.Queued u ↔ s.Queued u := fun u => and_congr_left fun _ => hwaiting u
  refine ⟨h.holds, ?_, ?_, fun _ => hnone, ?_, fun _ => hidle, ?_, h.queued, ?_, h.inOrder, ?_, ?_, ?_, ?_⟩
  · exact fun u => (h.listed u).trans (hqueued u).symm
  · exact fun u v hu => absurd hu (hnone u)
  · exact fun hbusy => by cases hbusy
  · intro u hu
    rw [hsame u hu] at hu
    exact h.below u hu
  · exact fun u hu => absurd hu (hnone u)
  · exact fun n hn => ⟨(h.enteredBelow n hn).1, fun u hu => (h.enteredBelow n hn).2 u ((hwaiting u).1 hu)⟩
  · intro n hn
    obtain ⟨hless, hentered, hne⟩ := h.goneBelow n hn
    exact ⟨hless, hentered, fun u hu => hne u ((hwaiting u).1 hu)⟩
  · intro n hn
    rcases h.accounted n hn with hentered | hgone | ⟨u, hu, hcall⟩
    · exact .inl hentered
    · exact .inr (.inl hgone)
    · exact .inr (.inr ⟨u, (hwaiting u).2 hu, hcall⟩)
  · intro n hn
    obtain ⟨hless, hgone, hne⟩ := h.final n hn
    exact ⟨hless, hgone, fun u hu => hne u ((hqueued u).1 hu)⟩

/-- Leaving with a hand-over: the oldest ticket owns the gate. -/
theorem Inv.hands_over {a : α} {q : IntrusiveQueue α} (h : Inv handsOver s (a :: l))
    (hinside : s.phase t = .inside) (hq : q.Holds l) :
    Inv handsOver
      { s with
        gate := { s.gate with queue := q, granted := Function.update s.gate.granted a true }
        phase := Function.update s.phase t .outside
        handed := s.handed ++ [s.call a] } l := by
  set s' : GateRun α :=
    { s with
      gate := { s.gate with queue := q, granted := Function.update s.gate.granted a true }
      phase := Function.update s.phase t .outside
      handed := s.handed ++ [s.call a] } with hs'
  have hfirst : s.Queued a := (h.listed a).1 List.mem_cons_self
  have hqueuedCalls := List.pairwise_cons.1 h.queued
  have hsame : ∀ u, s'.phase u ≠ .outside → s'.phase u = s.phase u := by
    intro u hu
    apply Function.update_of_ne
    rintro rfl
    exact hu (Function.update_self _ _ _)
  have hwaiting : ∀ u, s'.phase u = .waiting ↔ s.phase u = .waiting := by
    intro u
    constructor
    · intro hu
      rw [← hsame u (by rw [hu]; exact CallerPhase.noConfusion)]
      exact hu
    · intro hu
      refine (Function.update_of_ne ?_ _ _).trans hu
      rintro rfl
      cases hinside.symm.trans hu
  have hother : ∀ u, u ≠ a → s'.gate.granted u = s.gate.granted u :=
    fun u hu => Function.update_of_ne hu _ _
  have hown : s'.Owns a := .inr ⟨(hwaiting a).2 hfirst.1, Function.update_self _ _ _⟩
  have honly : ∀ u, s'.Owns u → u = a := by
    intro u hu
    by_contra hne
    rw [Owns, hother u hne] at hu
    exact h.releaser hinside hu
  have hqueued : ∀ u, s'.Queued u ↔ s.Queued u ∧ u ≠ a := by
    intro u
    by_cases hu : u = a
    · subst hu
      constructor
      · intro hin
        have hgranted : s'.gate.granted u = true := Function.update_self _ _ _
        cases hgranted.symm.trans hin.2
      · exact fun hin => absurd rfl hin.2
    · rw [Queued, Queued, hother u hu, hwaiting]
      exact ⟨fun hin => ⟨hin, hu⟩, And.left⟩
  have hnodup := List.nodup_cons.1 h.holds.nodup
  have hbusy : s.gate.busy = true := by
    by_contra hfree
    exact h.free (Bool.eq_false_iff.2 hfree) t (.inl hinside)
  refine ⟨hq, ?_, ?_, ?_, fun _ => ⟨a, hown⟩, ?_, ?_, hqueuedCalls.2, ?_, h.inOrder, ?_, ?_, ?_, ?_⟩
  · intro u
    rw [hqueued, ← h.listed, List.mem_cons]
    constructor
    · exact fun hu => ⟨.inr hu, fun heq => hnodup.1 (heq ▸ hu)⟩
    · exact fun hu => hu.1.resolve_left hu.2
  · intro u v hu hv
    rw [honly u hu, honly v hv]
  · exact fun hfree => absurd (hbusy.symm.trans hfree) Bool.noConfusion
  · exact fun hfree => absurd (hbusy.symm.trans hfree) Bool.noConfusion
  · intro u hu
    rw [hsame u hu] at hu
    exact h.below u hu
  · intro u hu v hv
    rw [honly u hu]
    exact hqueuedCalls.1 _ (List.mem_map_of_mem hv)
  · exact fun n hn => ⟨(h.enteredBelow n hn).1, fun u hu => (h.enteredBelow n hn).2 u ((hwaiting u).1 hu)⟩
  · intro n hn
    obtain ⟨hless, hentered, hne⟩ := h.goneBelow n hn
    exact ⟨hless, hentered, fun u hu => hne u ((hwaiting u).1 hu)⟩
  · intro n hn
    rcases h.accounted n hn with hentered | hgone | ⟨u, hu, hcall⟩
    · exact .inl hentered
    · exact .inr (.inl hgone)
    · exact .inr (.inr ⟨u, (hwaiting u).2 hu, hcall⟩)
  · intro n hn
    rcases List.mem_append.1 hn with hn | hn
    · obtain ⟨hless, hgone, hne⟩ := h.final n hn
      exact ⟨hless, hgone, fun u hu => hne u ((hqueued u).1 hu).1⟩
    · rw [List.mem_singleton.1 hn]
      refine ⟨h.below a (by rw [hfirst.1]; exact CallerPhase.noConfusion), ?_, ?_⟩
      · exact fun hgone => (h.goneBelow _ hgone).2.2 a hfirst.1 rfl
      · intro u hu
        obtain ⟨hu, hne⟩ := (hqueued u).1 hu
        have hin := List.mem_cons.1 ((h.listed u).2 hu)
        exact (hqueuedCalls.1 _ (List.mem_map_of_mem (hin.resolve_left hne))).ne'

end Releasing

theorem Inv.step (hcode : code.Implements handsOver) (h : Inv handsOver s l) (hstep : Step code s s') :
    ∃ l', Inv handsOver s' l' := by
  cases hstep with
  | refused hstopping houtside => exact ⟨l, h.refused⟩
  | @enters t g hrunning houtside hentry =>
    rw [hcode.tryEnter, TicketGate.tryEnter] at hentry
    split at hentry
    · rename_i hidle
      obtain ⟨-, rfl⟩ := Prod.mk.inj hentry
      exact ⟨l, h.enters hidle.1 hidle.2⟩
    · cases (Prod.mk.inj hentry).1
  | @waits t g hrunning houtside hentry =>
    rw [hcode.tryEnter, TicketGate.tryEnter] at hentry
    split at hentry
    · cases (Prod.mk.inj hentry).1
    · rename_i htaken
      obtain ⟨-, rfl⟩ := Prod.mk.inj hentry
      exact ⟨l ++ [t], h.waits houtside htaken⟩
  | wakes hwaiting hgranted => exact ⟨l, h.wakes hwaiting hgranted⟩
  | @abandons t fuel g hwaiting hgranted hremove =>
    rw [hcode.remove] at hremove
    exact ⟨l.erase t, h.abandons ⟨hwaiting, hgranted⟩ hremove⟩
  | @releases t hinside =>
    rw [hcode.release]
    cases hhands : handsOver s.stopping with
    | false =>
      have hfreed := h.frees hinside (.inr hhands)
      rw [← List.append_nil s.handed] at hfreed
      exact ⟨l, hfreed⟩
    | true =>
      simp only [if_true, TicketGate.handOver]
      cases l with
      | nil =>
        rw [h.holds.pop_nil]
        have hfreed := h.frees hinside (.inl rfl)
        rw [← List.append_nil s.handed] at hfreed
        exact ⟨[], hfreed⟩
      | cons a l =>
        obtain ⟨q, hpop, hq⟩ := h.holds.pop
        rw [hpop]
        exact ⟨l, h.hands_over hinside hq⟩
  | stops =>
    refine ⟨l, { h with idle := ?_ }⟩
    intro hbusy
    exact (h.idle hbusy).imp_right (hcode.stops s.stopping)

/-- **A ticket gate is safe** in every state of every run. -/
theorem safe_of_reachable (hcode : code.Implements handsOver)
    (h : Reachable (fun s => s = start) (Step code) s) : s.Safe handsOver := by
  have hinv : ∃ l, Inv handsOver s l := by
    apply h.invariant
    · rintro s rfl
      exact ⟨[], inv_start⟩
    · intro s s' ⟨l, hl⟩ hstep
      exact hl.step hcode hstep
  obtain ⟨l, hl⟩ := hinv
  exact hl.safe

end GateRun
