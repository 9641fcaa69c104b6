import Zaxonlite.Lib.TicketGate

/-!
# The writer gates

A server runs one replicated write at a time, and a remote client sends one at a time. Both admit callers
through a gate with a queue of tickets on the callers' stacks. A caller of the server gives up when its
deadline passes or the node fails or shuts down, a caller of the client when its deadline passes or the
client closes. The two differ in how they leave: the server always hands the gate over, the client frees it
once it is closing.
-/

namespace Zaxonlite

open Run

variable {α : Type*} [DecidableEq α]

/-! ### The server -/

/-- `runWrite` up to its wait for the grant. -/
def runWriteAdmit (g : TicketGate α) (ticket : α) : Bool × TicketGate α :=
  if g.busy = true ∨ g.queue.head ≠ none then (false, g.enqueue ticket) else (true, { g with busy := true })

def releaseWriterGate (g : TicketGate α) : Option α × TicketGate α :=
  g.handOver

def removeWriterTicket (g : TicketGate α) (ticket : α) (fuel : ℕ) : Option (TicketGate α) :=
  g.remove ticket fuel

def writerGate : GateCode α where
  tryEnter := runWriteAdmit
  release := fun _ g => releaseWriterGate g
  remove := removeWriterTicket

theorem writerGate_implements : (writerGate : GateCode α).Implements fun _ => true where
  tryEnter := by
    intro g ticket
    show runWriteAdmit g ticket = g.tryEnter ticket
    rw [runWriteAdmit, TicketGate.tryEnter]
    by_cases hbusy : g.busy = true
    · rw [if_pos (.inl hbusy), if_neg (by rw [hbusy]; exact fun h => Bool.noConfusion h.1)]
    · rw [Bool.not_eq_true] at hbusy
      by_cases hhead : g.queue.head = none
      · rw [if_neg (by rw [hbusy, hhead]; simp), if_pos ⟨hbusy, hhead⟩]
      · rw [if_pos (.inr hhead), if_neg fun h => hhead h.2]
  release := fun _ _ => rfl
  remove := fun _ _ _ => rfl
  stops := fun _ h => h

/-! ### The client -/

/-- `acquireWriteLane` up to its wait for the grant. -/
def acquireWriteLane (g : TicketGate α) (ticket : α) : Bool × TicketGate α :=
  if g.busy = false ∧ g.queue.head = none then (true, { g with busy := true }) else (false, g.enqueue ticket)

/-- `releaseWriteLane`; during close no hand-over happens. -/
def releaseWriteLane (closing : Bool) (g : TicketGate α) : Option α × TicketGate α :=
  if closing then (none, g.free) else g.handOver

def removeWriteTicketLocked (g : TicketGate α) (ticket : α) (fuel : ℕ) : Option (TicketGate α) :=
  g.remove ticket fuel

def writeLane : GateCode α where
  tryEnter := acquireWriteLane
  release := releaseWriteLane
  remove := removeWriteTicketLocked

theorem writeLane_implements : (writeLane : GateCode α).Implements fun closing => !closing where
  tryEnter := fun _ _ => rfl
  release := by
    intro closing g
    cases closing <;> rfl
  remove := fun _ _ _ => rfl
  stops := fun _ _ => rfl

/-! ### Both -/

/-- **The writer gates admit one caller at a time, in order, and strand none**, whatever callers arrive,
give up, leave and stop, in whatever order. -/
theorem writerGates_safe :
    (∀ s : GateRun α, Reachable (fun s => s = GateRun.start) (GateRun.Step writerGate) s →
      s.Safe fun _ => true) ∧
    ∀ s : GateRun α, Reachable (fun s => s = GateRun.start) (GateRun.Step writeLane) s →
      s.Safe fun closing => !closing :=
  ⟨fun _ h => GateRun.safe_of_reachable writerGate_implements h,
    fun _ h => GateRun.safe_of_reachable writeLane_implements h⟩

/-- Three callers: the first enters, the second gives up in the queue, and the first hands over to the
third. -/
theorem writerGates_safe_handed : ∃ s : GateRun ℕ,
    Reachable (fun s => s = GateRun.start) (GateRun.Step writerGate) s ∧ s.entered = [0] ∧ s.gone = [1] ∧
      s.handed = [2] ∧ s.Safe fun _ => true := by
  have h₀ : Reachable (fun s => s = GateRun.start) (GateRun.Step (writerGate (α := ℕ))) GateRun.start :=
    .start rfl
  have h₁ := h₀.step (GateRun.Step.enters (t := 0) rfl rfl rfl)
  have h₂ := h₁.step (GateRun.Step.waits (t := 1) rfl rfl rfl)
  have h₃ := h₂.step (GateRun.Step.waits (t := 2) rfl rfl rfl)
  have h₄ := h₃.step (GateRun.Step.abandons (t := 1) rfl rfl (show writerGate.remove _ 1 3 = some _ from rfl))
  have h₅ := h₄.step (GateRun.Step.releases (t := 0) rfl)
  exact ⟨_, h₅, rfl, rfl, rfl, writerGates_safe.1 _ h₅⟩

end Zaxonlite
