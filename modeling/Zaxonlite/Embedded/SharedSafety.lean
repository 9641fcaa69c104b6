import Zaxonlite.Embedded.SharedNode

/-!
# What the facade's counters count

Every counter and flag of the facade is the sum of what its threads hold: an entrant for each thread inside, a
ticket for each that waits for its turn or has it, and so on. From that follow the exclusion of readers, writers
and the gate, and what a closed facade still holds.
-/

namespace Zaxonlite

namespace Embedded

open Threads

/-! ### How a section ends -/

namespace SharedNode

variable (s : SharedNode)

theorem awaitTurn_cases (expired : Bool) :
    s.awaitTurn expired = (s, .asleep s.look) ∧ s.turnBlocked = true ∧ s.closed = false ∨
      (∃ e, s.awaitTurn expired = ({ s with writeTickets := s.writeTickets - 1 }, .failed e)) ∨
      s.awaitTurn expired = ({ s with nodeBusy := true }, .passed ()) ∧ s.turnBlocked = false ∧ s.closed = false := by
  rw [awaitTurn]
  split_ifs with hblocked hclosed hexpired hclosed
  · exact .inr (.inl ⟨_, rfl⟩)
  · exact .inr (.inl ⟨_, rfl⟩)
  · exact .inl ⟨rfl, hblocked, Bool.not_eq_true _ ▸ hclosed⟩
  · exact .inr (.inl ⟨_, rfl⟩)
  · exact .inr (.inr ⟨rfl, Bool.not_eq_true _ ▸ hblocked, Bool.not_eq_true _ ▸ hclosed⟩)

theorem acquireNodeTurn_cases (expired : Bool) :
    (∃ e, s.acquireNodeTurn expired = (s, .failed e)) ∨
      s.acquireNodeTurn expired = awaitTurn { s with writeTickets := s.writeTickets + 1 } expired ∧
        s.writeTickets < s.options.writeQueueDepth ∧ s.closed = false := by
  rw [acquireNodeTurn]
  split_ifs with hclosed hfull
  · exact .inl ⟨_, rfl⟩
  · exact .inl ⟨_, rfl⟩
  · exact .inr ⟨rfl, Nat.lt_of_not_le hfull, Bool.not_eq_true _ ▸ hclosed⟩

theorem awaitExclusive_cases :
    s.awaitExclusive = (s, .asleep s.look) ∧ s.gateBlocked = true ∧ s.closed = false ∨
      s.awaitExclusive = ({ s with exclusiveWaiting := s.exclusiveWaiting - 1 }, .failed .sharedNodeClosed) ∧
        s.closed = true ∨
      s.awaitExclusive =
          (closePool { s with exclusiveHeld := true, exclusiveWaiting := s.exclusiveWaiting - 1 }, .passed ()) ∧
        s.gateBlocked = false ∧ s.closed = false := by
  rw [awaitExclusive]
  split_ifs with hblocked hclosed hclosed
  · exact .inr (.inl ⟨rfl, hclosed⟩)
  · exact .inl ⟨rfl, hblocked, Bool.not_eq_true _ ▸ hclosed⟩
  · exact .inr (.inl ⟨rfl, hclosed⟩)
  · exact .inr (.inr ⟨rfl, Bool.not_eq_true _ ▸ hblocked, Bool.not_eq_true _ ▸ hclosed⟩)

/-- What keeps a thread from a slot. -/
def slotBlocked : Bool :=
  s.exclusiveHeld || s.exclusiveWaiting != 0 || s.pool.all fun slot => slot.inUse

variable {s}

theorem freeSlot_eq_some {i : ℕ} (h : s.freeSlot = some i) :
    ∃ slot, s.pool[i]? = some slot ∧ slot.inUse = false := by
  rw [freeSlot, Option.or_eq_some_iff] at h
  rcases h with h | ⟨-, h⟩
  · obtain ⟨hi, hslot, -⟩ := List.findIdx?_eq_some_iff_getElem.1 h
    rw [Bool.and_eq_true, Bool.not_eq_true'] at hslot
    exact ⟨_, List.getElem?_eq_getElem hi, hslot.1⟩
  · obtain ⟨hi, hslot, -⟩ := List.findIdx?_eq_some_iff_getElem.1 h
    exact ⟨_, List.getElem?_eq_getElem hi, by rwa [Bool.not_eq_true'] at hslot⟩

theorem freeSlot_eq_none : s.freeSlot = none ↔ (s.pool.all fun slot => slot.inUse) = true := by
  rw [freeSlot, Option.or_eq_none_iff, List.findIdx?_eq_none_iff, List.findIdx?_eq_none_iff, List.all_eq_true]
  constructor
  · exact fun h slot hslot => by simpa using h.2 slot hslot
  · exact fun h => ⟨fun slot hslot => by simp [h slot hslot], fun slot hslot => by simp [h slot hslot]⟩

variable (s)

theorem acquireReadSlot_cases (expired : Bool) :
    (∃ e, s.acquireReadSlot expired = (s, .failed e)) ∨
      s.acquireReadSlot expired = (s, .asleep s.look) ∧ s.slotBlocked = true ∧ s.closed = false ∨
      ∃ i slot, s.acquireReadSlot expired =
          ({ s with
            pool := s.pool.modify i fun slot => { slot with inUse := true }
            readersActive := s.readersActive + 1 }, .passed i) ∧
        s.pool[i]? = some slot ∧ slot.inUse = false ∧ s.exclusiveHeld = false ∧ s.exclusiveWaiting = 0 ∧
        s.closed = false := by
  rw [acquireReadSlot]
  split
  · exact .inl ⟨_, rfl⟩
  next hclosed =>
  rw [Bool.not_eq_true] at hclosed
  cases hfree : (if !s.exclusiveHeld && s.exclusiveWaiting == 0 then s.freeSlot else none) with
  | some i =>
    split at hfree
    · next hgate =>
      rw [Bool.and_eq_true, Bool.not_eq_true', beq_iff_eq] at hgate
      obtain ⟨slot, hslot, hidle⟩ := freeSlot_eq_some hfree
      exact .inr (.inr ⟨i, slot, rfl, hslot, hidle, hgate.1, hgate.2, hclosed⟩)
    · cases hfree
  | none =>
    rw [Option.elim_none]
    split
    · exact .inl ⟨_, rfl⟩
    refine .inr (.inl ⟨rfl, ?_, hclosed⟩)
    rw [slotBlocked]
    split at hfree
    · rw [freeSlot_eq_none.1 hfree, Bool.or_true]
    · next hgate =>
      rw [Bool.and_eq_true, Bool.not_eq_true', beq_iff_eq, not_and_or, Bool.not_eq_false] at hgate
      rcases hgate with hheld | hwaiting
      · rw [hheld, Bool.true_or, Bool.true_or]
      · rw [bne_iff_ne.2 hwaiting, Bool.or_true, Bool.true_or]

theorem awaitEntrants_cases :
    s.awaitEntrants = (s, .asleep s.look) ∧ s.entrants ≠ 0 ∨
      s.awaitEntrants = (closePool s, .passed ()) ∧ s.entrants = 0 := by
  rw [awaitEntrants]
  split_ifs with h
  · exact .inl ⟨rfl, by simpa using h⟩
  · exact .inr ⟨rfl, by simpa using h⟩

end SharedNode

/-! ### What a move does -/

/-- A move with its branches told apart: from where to where a thread gets, under which condition, and what becomes of
the facade. -/
inductive Effect (s : SharedNode) : Phase → SharedNode → Phase → Prop
  | enter (c : Call) (h : s.closed = false) : Effect s .outside { s with entrants := s.entrants + 1 } (.entered c)
  | enterForAnchor (h : s.closed = false) :
    Effect s .outside { s with entrants := s.entrants + 1 } (.escalating .createStateAnchor)
  | escalate (c : Call) : Effect s (.entered c) s (.escalating (.maintainResync c))
  | goOn (c : Call) : Effect s (.entered c) s (.maintained c)
  | waitForGate (u : GateUse) (hblocked : s.gateBlocked = true) (hopen : s.closed = false) :
    Effect s (.escalating u) { s with exclusiveWaiting := s.exclusiveWaiting + 1 } (.excluding u s.look)
  | turnedAway (u : GateUse) (hclosed : s.closed = true) :
    Effect s (.escalating u) s (.leaving (some .sharedNodeClosed))
  | takeGate (u : GateUse) (hfree : s.gateBlocked = false) (hopen : s.closed = false) :
    Effect s (.escalating u) (SharedNode.closePool { s with exclusiveHeld := true }) (.exclusive u)
  | waitOnForGate (u : GateUse) (w : Sleep) (hblocked : s.gateBlocked = true) (hopen : s.closed = false) :
    Effect s (.excluding u w) s (.excluding u s.look)
  | giveUpGate (u : GateUse) (w : Sleep) (hclosed : s.closed = true) :
    Effect s (.excluding u w) { s with exclusiveWaiting := s.exclusiveWaiting - 1 } (.leaving (some .sharedNodeClosed))
  | getGate (u : GateUse) (w : Sleep) (hfree : s.gateBlocked = false) (hopen : s.closed = false) :
    Effect s (.excluding u w)
      (SharedNode.closePool { s with exclusiveHeld := true, exclusiveWaiting := s.exclusiveWaiting - 1 })
      (.exclusive u)
  | rebuild (c : Call) (fails : Bool) (hdone : (s.inner.resyncIfNeeded fails).needsResync = false) :
    Effect s (.exclusive (.maintainResync c)) { s with inner := s.inner.resyncIfNeeded fails } (.clearing c)
  | rebuildFails (c : Call) (fails : Bool) :
    Effect s (.exclusive (.maintainResync c)) { s with inner := s.inner.resyncIfNeeded fails }
      (.opening (.inr (some .inner)))
  | anchor (refused fails : Bool) (ending : Ending) :
    Effect s (.exclusive .createStateAnchor) { s with inner := s.inner.createStateAnchor refused fails }
      (.opening (.inr ending))
  | clear (c : Call) : Effect s (.clearing c) { s with resyncPending := false } (.opening (.inl c))
  | openForCall (c : Call) :
    Effect s (.opening (.inl c))
      { s with exclusiveHeld := false, stateGen := s.stateGen + 1, bumps := s.bumps + 1 } (.maintained c)
  | openAtEnd (ending : Ending) :
    Effect s (.opening (.inr ending))
      { s with exclusiveHeld := false, stateGen := s.stateGen + 1, bumps := s.bumps + 1 } (.leaving ending)
  | refuseTurn (c : Call) (e : SharedError) : Effect s (.maintained c) s (.leaving (some e))
  | waitForTurn (c : Call) (hdepth : s.writeTickets < s.options.writeQueueDepth) (hblocked : s.turnBlocked = true)
      (hopen : s.closed = false) :
    Effect s (.maintained c) { s with writeTickets := s.writeTickets + 1 } (.awaitingTurn c s.look)
  | takeTurn (c : Call) (hdepth : s.writeTickets < s.options.writeQueueDepth) (hfree : s.turnBlocked = false)
      (hopen : s.closed = false) :
    Effect s (.maintained c) { s with writeTickets := s.writeTickets + 1, nodeBusy := true } (.onNode c)
  | waitOnForTurn (c : Call) (w : Sleep) (hblocked : s.turnBlocked = true) (hopen : s.closed = false) :
    Effect s (.awaitingTurn c w) s (.awaitingTurn c s.look)
  | giveUpTurn (c : Call) (w : Sleep) (e : SharedError) :
    Effect s (.awaitingTurn c w) { s with writeTickets := s.writeTickets - 1 } (.leaving (some e))
  | getTurn (c : Call) (w : Sleep) (hfree : s.turnBlocked = false) (hopen : s.closed = false) :
    Effect s (.awaitingTurn c w) { s with nodeBusy := true } (.onNode c)
  | operate (c : Call) (refused fails raises : Bool) (ending : Ending) :
    Effect s (.onNode c) { s with inner := s.inner.operate refused fails raises } (.leavingNode ending)
  | releaseTurn (ending : Ending) :
    Effect s (.leavingNode ending)
      { s with
        nodeBusy := false, writeTickets := s.writeTickets - 1, resyncPending := s.inner.needsResync
        stateGen := s.stateGen + 1, bumps := s.bumps + 1 } (.leaving ending)
  | refuseSlot {t : Phase} (e : SharedError) (ht : t = .maintained .query ∨ ∃ w, t = .awaitingSlot w) :
    Effect s t s (.leaving (some e))
  | waitForSlot {t : Phase} (ht : t = .maintained .query ∨ ∃ w, t = .awaitingSlot w) (hblocked : s.slotBlocked = true)
      (hopen : s.closed = false) :
    Effect s t s (.awaitingSlot s.look)
  | takeSlot {t : Phase} (ht : t = .maintained .query ∨ ∃ w, t = .awaitingSlot w) {i : ℕ} {slot : ReadSlot}
      (hslot : s.pool[i]? = some slot) (hidle : slot.inUse = false) (hheld : s.exclusiveHeld = false)
      (hwaiting : s.exclusiveWaiting = 0) (hopen : s.closed = false) :
    Effect s t
      { s with
        pool := s.pool.modify i fun slot => { slot with inUse := true }
        readersActive := s.readersActive + 1 } (.holding i)
  | connect (i : ℕ) : Effect s (.holding i) (s.ensureSlotOpen i) (.reading i)
  | connectFails (i : ℕ) : Effect s (.holding i) s (.leavingSlot i (some .inner))
  | read (i : ℕ) (ending : Ending) : Effect s (.reading i) s (.leavingSlot i ending)
  | releaseSlot (i : ℕ) (ending : Ending) :
    Effect s (.leavingSlot i ending)
      { s with
        pool := s.pool.modify i fun slot => { slot with inUse := false }
        readersActive := s.readersActive - 1, stateGen := s.stateGen + 1, bumps := s.bumps + 1 } (.leaving ending)
  | exit (ending : Ending) :
    Effect s (.leaving ending)
      { s with entrants := s.entrants - 1, stateGen := s.stateGen + 1, bumps := s.bumps + 1 } .outside
  | startClose (hopen : s.closed = false) (hinside : s.entrants ≠ 0) :
    Effect s .outside { s with closed := true, stateGen := s.stateGen + 1, bumps := s.bumps + 1 }
      (.closing (.about (s.stateGen + 1) (s.bumps + 1)))
  | closeAtOnce (hopen : s.closed = false) (hdrained : s.entrants = 0) :
    Effect s .outside
      (SharedNode.closePool { s with closed := true, stateGen := s.stateGen + 1, bumps := s.bumps + 1 }) .freeing
  | waitOnForEntrants (w : Sleep) (hinside : s.entrants ≠ 0) : Effect s (.closing w) s (.closing s.look)
  | endClose (w : Sleep) (hdrained : s.entrants = 0) : Effect s (.closing w) s.closePool .freeing
  | free : Effect s .freeing { s with freed := true } .outside
  | parkForGate (u : GateUse) (looked : ℕ) :
    Effect s (.excluding u (.about s.stateGen looked)) s (.excluding u (.parked s.bumps))
  | parkForTurn (c : Call) (looked : ℕ) :
    Effect s (.awaitingTurn c (.about s.stateGen looked)) s (.awaitingTurn c (.parked s.bumps))
  | parkForSlot (looked : ℕ) :
    Effect s (.awaitingSlot (.about s.stateGen looked)) s (.awaitingSlot (.parked s.bumps))
  | parkForEntrants (looked : ℕ) :
    Effect s (.closing (.about s.stateGen looked)) s (.closing (.parked s.bumps))

theorem effect_acquireReadSlot {s : SharedNode} {t : Phase} (expired : Bool)
    (ht : t = .maintained .query ∨ ∃ w, t = .awaitingSlot w) :
    Effect s t (s.acquireReadSlot expired).1 (Phase.afterSlot (s.acquireReadSlot expired).2) := by
  rcases s.acquireReadSlot_cases expired with
    ⟨e, h⟩ | ⟨h, hblocked, hopen⟩ | ⟨i, slot, h, hslot, hidle, hheld, hwaiting, hopen⟩
  · rw [h]
    exact .refuseSlot e ht
  · rw [h]
    exact .waitForSlot ht hblocked hopen
  · rw [h]
    exact .takeSlot ht hslot hidle hheld hwaiting hopen

theorem Move.effect {s s' : SharedNode} {t t' : Phase} (hm : Move s t s' t') : Effect s t s' t' := by
  cases hm with
  | enter c h =>
    rw [SharedNode.enter] at h
    split at h
    · cases h
    · next hopen =>
      cases h
      exact .enter c (Bool.not_eq_true _ ▸ hopen)
  | enterForAnchor h =>
    rw [SharedNode.enter] at h
    split at h
    · cases h
    · next hopen =>
      cases h
      exact .enterForAnchor (Bool.not_eq_true _ ▸ hopen)
  | maintain c =>
    rw [Phase.maintainResync]
    split
    · exact .escalate c
    · exact .goOn c
  | acquireExclusive u =>
    rw [SharedNode.acquireExclusive]
    rcases SharedNode.awaitExclusive_cases { s with exclusiveWaiting := s.exclusiveWaiting + 1 } with
      ⟨h, hblocked, hopen⟩ | ⟨h, hclosed⟩ | ⟨h, hfree, hopen⟩
    · rw [h]
      exact .waitForGate u hblocked hopen
    · rw [h]
      exact .turnedAway u hclosed
    · rw [h]
      exact .takeGate u hfree hopen
  | awaitExclusive u w =>
    rcases s.awaitExclusive_cases with ⟨h, hblocked, hopen⟩ | ⟨h, hclosed⟩ | ⟨h, hfree, hopen⟩
    · rw [h]
      exact .waitOnForGate u w hblocked hopen
    · rw [h]
      exact .giveUpGate u w hclosed
    · rw [h]
      exact .getGate u w hfree hopen
  | exclusive u refused fails ending =>
    cases u with
    | maintainResync c =>
      rw [exclusiveWork]
      split
      · exact .rebuildFails c fails
      · next hdone => exact .rebuild c fails (Bool.not_eq_true _ ▸ hdone)
    | createStateAnchor => exact .anchor refused fails ending
  | clear c => exact .clear c
  | releaseExclusive next =>
    cases next with
    | inl c => exact .openForCall c
    | inr ending => exact .openAtEnd ending
  | acquireNodeTurn c expired hquery =>
    rcases s.acquireNodeTurn_cases expired with ⟨e, h⟩ | ⟨h, hdepth, -⟩
    · rw [h]
      exact .refuseTurn c e
    · rw [h]
      rcases SharedNode.awaitTurn_cases { s with writeTickets := s.writeTickets + 1 } expired with
        ⟨h, hblocked, hopen⟩ | ⟨e, h⟩ | ⟨h, hfree, hopen⟩
      · rw [h]
        exact .waitForTurn c hdepth hblocked hopen
      · rw [h]
        exact .refuseTurn c e
      · rw [h]
        exact .takeTurn c hdepth hfree hopen
  | awaitTurn c w expired =>
    rcases s.awaitTurn_cases expired with ⟨h, hblocked, hopen⟩ | ⟨e, h⟩ | ⟨h, hfree, hopen⟩
    · rw [h]
      exact .waitOnForTurn c w hblocked hopen
    · rw [h]
      exact .giveUpTurn c w e
    · rw [h]
      exact .getTurn c w hfree hopen
  | operate c refused fails raises ending h => exact .operate c refused fails raises ending
  | releaseNodeTurn ending => exact .releaseTurn ending
  | acquireReadSlot expired => exact effect_acquireReadSlot expired (.inl rfl)
  | awaitSlot w expired => exact effect_acquireReadSlot expired (.inr ⟨w, rfl⟩)
  | «open» i => exact .connect i
  | openFails i => exact .connectFails i
  | read i ending => exact .read i ending
  | releaseReadSlot i ending => exact .releaseSlot i ending
  | exit ending => exact .exit ending
  | close h =>
    rw [SharedNode.close] at h
    split at h
    · cases h
    · next hopen =>
      rw [Bool.not_eq_true] at hopen
      obtain rfl := Option.some.inj h
      rcases SharedNode.awaitEntrants_cases (SharedNode.bumpState { s with closed := true }) with
        ⟨h, hinside⟩ | ⟨h, hdrained⟩
      · rw [h]
        exact .startClose hopen hinside
      · rw [h]
        exact .closeAtOnce hopen hdrained
  | awaitEntrants w =>
    rcases s.awaitEntrants_cases with ⟨h, hinside⟩ | ⟨h, hdrained⟩
    · rw [h]
      exact .waitOnForEntrants w hinside
    · rw [h]
      exact .endClose w hdrained
  | free => exact .free
  | @park t looked h =>
    cases t with
    | excluding u w =>
      obtain rfl := Option.some.inj h
      exact .parkForGate u looked
    | awaitingTurn c w =>
      obtain rfl := Option.some.inj h
      exact .parkForTurn c looked
    | awaitingSlot w =>
      obtain rfl := Option.some.inj h
      exact .parkForSlot looked
    | closing w =>
      obtain rfl := Option.some.inj h
      exact .parkForEntrants looked
    | _ => cases h

/-! ### The accounts -/

namespace Phase

@[simp] def inside : Phase → Bool
  | .outside => false
  | .closing _ => false
  | .freeing => false
  | _ => true

@[simp] def hasTurn : Phase → Bool
  | .onNode _ => true
  | .leavingNode _ => true
  | _ => false

@[simp] def hasTicket : Phase → Bool
  | .awaitingTurn _ _ => true
  | t => t.hasTurn

@[simp] def slot : Phase → Option ℕ
  | .holding i => some i
  | .reading i => some i
  | .leavingSlot i _ => some i
  | _ => none

@[simp] def atGate : Phase → Bool
  | .excluding _ _ => true
  | _ => false

@[simp] def hasGate : Phase → Bool
  | .exclusive _ => true
  | .clearing _ => true
  | .opening _ => true
  | _ => false

/-- In `close`, past its first section. -/
@[simp] def closes : Phase → Bool
  | .closing _ => true
  | .freeing => true
  | _ => false

end Phase

/-- The numbers the facade keeps of its threads, a flag being one of them. -/
inductive Counter where
  | entrants
  | tickets
  | busy
  | readers
  | waiting
  | held
  | slot (i : ℕ)
  | closer

namespace Counter

@[simp] def count : Counter → SharedNode → ℕ
  | entrants, s => s.entrants
  | tickets, s => s.writeTickets
  | busy, s => s.nodeBusy.toNat
  | readers, s => s.readersActive
  | waiting, s => s.exclusiveWaiting
  | held, s => s.exclusiveHeld.toNat
  | slot i, s => (s.pool[i]?.any ReadSlot.inUse).toNat
  | closer, s => s.closed.toNat - s.freed.toNat

/-- What a thread counts for where it stands. -/
@[simp] def weight : Counter → Phase → ℕ
  | entrants, t => t.inside.toNat
  | tickets, t => t.hasTicket.toNat
  | busy, t => t.hasTurn.toNat
  | readers, t => t.slot.isSome.toNat
  | waiting, t => t.atGate.toNat
  | held, t => t.hasGate.toNat
  | slot i, t => (t.slot == some i).toNat
  | closer, t => t.closes.toNat

end Counter

namespace SharedNode

variable {s : SharedNode}

theorem turnBlocked_eq_false :
    s.turnBlocked = false ↔ s.nodeBusy = false ∧ s.exclusiveHeld = false ∧ s.exclusiveWaiting = 0 := by
  rw [turnBlocked, Bool.or_eq_false_iff, Bool.or_eq_false_iff, bne_eq_false_iff_eq, and_assoc]

theorem gateBlocked_eq_false :
    s.gateBlocked = false ↔ s.nodeBusy = false ∧ s.readersActive = 0 ∧ s.exclusiveHeld = false := by
  rw [gateBlocked, Bool.or_eq_false_iff, Bool.or_eq_false_iff, bne_eq_false_iff_eq, and_assoc]

end SharedNode

theorem inUse_modify (pool : List ReadSlot) (f : ReadSlot → ReadSlot) (i k : ℕ) :
    (pool.modify i f)[k]?.any ReadSlot.inUse =
      if i = k then pool[i]?.any fun slot => (f slot).inUse else pool[k]?.any ReadSlot.inUse := by
  rw [List.getElem?_modify, Option.map_eq_map, Option.any_map]
  split
  · next h =>
    subst h
    simp
  · simp

theorem inUse_closePool (s : SharedNode) (k : ℕ) :
    s.closePool.pool[k]?.any ReadSlot.inUse = s.pool[k]?.any ReadSlot.inUse := by
  rw [SharedNode.closePool, List.getElem?_map, Option.any_map]

open Counter

section Balance

variable {s s' : SharedNode} {t t' : Phase}

theorem count_closePool (k : Counter) : count k s.closePool = count k s := by
  cases k with
  | slot i => rw [count, count, inUse_closePool]
  | _ => rfl

theorem Effect.balance (h : Effect s t s' t') (hfreed : s.freed = true → s.closed = true)
    (hc : Covers count weight s t) (k : Counter) : count k s' + weight k t = count k s + weight k t' := by
  have hk := hc k
  have hbusy := Bool.toNat_le s.nodeBusy
  have hheld := Bool.toNat_le s.exclusiveHeld
  have hopen_freed : s.closed = false → s.freed = false := fun hopen =>
    Bool.eq_false_of_not_eq_true fun h => Bool.false_ne_true (hopen.symm.trans (hfreed h))
  cases h with
  | takeGate u hfree hopen =>
    rw [SharedNode.gateBlocked_eq_false] at hfree
    rw [count_closePool]
    cases k <;> simp [hfree]
  | getGate u w hfree hopen =>
    rw [SharedNode.gateBlocked_eq_false] at hfree
    rw [count_closePool]
    cases k <;> simp [hfree] at hk ⊢
    omega
  | takeTurn c hdepth hfree hopen =>
    rw [SharedNode.turnBlocked_eq_false] at hfree
    cases k <;> simp [hfree]
  | getTurn c w hfree hopen =>
    rw [SharedNode.turnBlocked_eq_false] at hfree
    cases k <;> simp [hfree]
  | @takeSlot t ht i slot hslot hidle hheld hwaiting hopen =>
    cases k with
    | slot k =>
      have ht : Counter.weight (.slot k) t = 0 := by rcases ht with rfl | ⟨w, rfl⟩ <;> rfl
      rw [ht, count, count, weight, inUse_modify]
      by_cases hik : i = k
      · subst hik
        simp [hslot, hidle]
      · simp [hik]
    | _ => rcases ht with rfl | ⟨w, rfl⟩ <;> simp
  | connect i =>
    cases k with
    | slot k =>
      have hkept (slot : ReadSlot) : (if slot.isOpen then slot else
          { slot with isOpen := true, image := s.inner.image }).inUse = slot.inUse := by
        split <;> rfl
      rw [count, count, SharedNode.ensureSlotOpen, inUse_modify]
      by_cases hik : i = k
      · subst hik
        simp [hkept]
      · simp [hik]
    | _ => simp [SharedNode.ensureSlotOpen]
  | releaseSlot i ending =>
    cases k with
    | slot k =>
      by_cases hik : i = k
      · subst hik
        have hle := Bool.toNat_le (s.pool[i]?.any ReadSlot.inUse)
        have hused : (s.pool[i]?.any ReadSlot.inUse).toNat = 1 := by
          simp at hk
          omega
        rw [count, count, weight, weight, inUse_modify, if_pos rfl, hused]
        simp
      · simp [hik]
    | _ =>
      simp at hk ⊢
      try omega
  | refuseSlot e ht => rcases ht with rfl | ⟨w, rfl⟩ <;> cases k <;> simp
  | waitForSlot ht hblocked hopen => rcases ht with rfl | ⟨w, rfl⟩ <;> cases k <;> simp
  | startClose hopen hinside => cases k <;> simp [hopen, hopen_freed hopen]
  | closeAtOnce hopen hdrained =>
    rw [count_closePool]
    cases k <;> simp [hopen, hopen_freed hopen]
  | endClose w hdrained =>
    rw [count_closePool]
    cases k <;> simp
  | free =>
    have hclosed := Bool.toNat_le s.closed
    cases k <;> simp at hk ⊢
    omega
  | _ => cases k <;> simp at hk ⊢ <;> omega

end Balance

/-! ### What every move keeps -/

/-- No thread is inside and no connection is open. -/
structure Drained (s : SharedNode) : Prop where
  entrants : s.entrants = 0
  pool : ∀ slot ∈ s.pool, slot.isOpen = false

structure Sound (s : SharedNode) : Prop where
  /-- Behind the gate is nobody else. -/
  gate : s.exclusiveHeld = true → s.nodeBusy = false ∧ s.readersActive = 0 ∧ ∀ slot ∈ s.pool, slot.isOpen = false
  depth : s.writeTickets ≤ s.options.writeQueueDepth
  pool : s.pool ≠ []
  asserted : s.asserted = true
  closed : s.freed = true → s.closed = true
  drained : s.freed = true → Drained s

/-- What a thread relies on between two sections. -/
def Stands (s : SharedNode) : Phase → Prop
  | .clearing _ => s.inner.needsResync = false
  | .reading i => s.pool[i]?.any ReadSlot.isOpen = true
  | .freeing => Drained s
  | _ => True

/-- A slot in use has a reader, and the reader is inside. -/
structure Used (s : SharedNode) : Prop where
  readers (i : ℕ) : count (.slot i) s ≤ s.readersActive
  entrants (i : ℕ) : count (.slot i) s ≤ s.entrants

section Kept

variable {s s' : SharedNode} {t t' : Phase}

theorem mem_closePool {slot : ReadSlot} (h : slot ∈ s.closePool.pool) : slot.isOpen = false := by
  obtain ⟨_, -, rfl⟩ := List.mem_map.1 h
  rfl

theorem closePool_ne_nil (h : s.pool ≠ []) : s.closePool.pool ≠ [] :=
  fun hnil => h (List.map_eq_nil_iff.1 hnil)

theorem asserted_closePool (hasserted : s.asserted = true) (hidle : ∀ i, count (.slot i) s = 0) :
    s.closePool.asserted = true := by
  rw [SharedNode.closePool, hasserted, Bool.true_and, List.all_eq_true]
  intro slot hslot
  obtain ⟨i, hi, rfl⟩ := List.getElem_of_mem hslot
  have h := hidle i
  rw [count, List.getElem?_eq_getElem hi, Option.any_some, Bool.toNat_eq_zero] at h
  rw [h]
  rfl

theorem modify_ne_nil {pool : List ReadSlot} {i : ℕ} {f : ReadSlot → ReadSlot} (h : pool ≠ []) :
    pool.modify i f ≠ [] := by
  intro hnil
  have hlength := congrArg List.length hnil
  rw [List.length_modify] at hlength
  exact h (List.length_eq_zero_iff.1 hlength)

theorem mem_modify_inUse {pool : List ReadSlot} {i : ℕ} {b : Bool} {slot : ReadSlot}
    (h : slot ∈ pool.modify i fun slot => { slot with inUse := b }) :
    ∃ slot₀ ∈ pool, slot.isOpen = slot₀.isOpen ∧ slot.image = slot₀.image := by
  obtain ⟨k, hk, rfl⟩ := List.getElem_of_mem h
  rw [List.length_modify] at hk
  refine ⟨pool[k], List.getElem_mem hk, ?_⟩
  rw [List.getElem_modify]
  split <;> exact ⟨rfl, rfl⟩

theorem Effect.gate (h : Effect s t s' t') (hI : Sound s) (hc : Covers count weight s t)
    (hheld' : s'.exclusiveHeld = true) :
    s'.nodeBusy = false ∧ s'.readersActive = 0 ∧ ∀ slot ∈ s'.pool, slot.isOpen = false := by
  have hreaders : t.slot.isSome.toNat ≤ s.readersActive := hc .readers
  cases h with
  | takeGate u hfree hopen =>
    rw [SharedNode.gateBlocked_eq_false] at hfree
    exact ⟨hfree.1, hfree.2.1, fun _ => mem_closePool⟩
  | getGate u w hfree hopen =>
    rw [SharedNode.gateBlocked_eq_false] at hfree
    exact ⟨hfree.1, hfree.2.1, fun _ => mem_closePool⟩
  | openForCall c => cases hheld'
  | openAtEnd ending => cases hheld'
  | takeTurn c hdepth hfree hopen =>
    exact absurd ((SharedNode.turnBlocked_eq_false.1 hfree).2.1.symm.trans hheld') Bool.false_ne_true
  | getTurn c w hfree hopen =>
    exact absurd ((SharedNode.turnBlocked_eq_false.1 hfree).2.1.symm.trans hheld') Bool.false_ne_true
  | releaseTurn ending => exact ⟨rfl, (hI.gate hheld').2⟩
  | takeSlot ht hslot hidle hheld hwaiting hopen => exact absurd (hheld.symm.trans hheld') Bool.false_ne_true
  | connect i =>
    rw [(hI.gate hheld').2.1] at hreaders
    exact absurd hreaders (by simp)
  | releaseSlot i ending =>
    rw [(hI.gate hheld').2.1] at hreaders
    exact absurd hreaders (by simp)
  | closeAtOnce hopen hdrained => exact ⟨(hI.gate hheld').1, (hI.gate hheld').2.1, fun _ => mem_closePool⟩
  | endClose w hdrained => exact ⟨(hI.gate hheld').1, (hI.gate hheld').2.1, fun _ => mem_closePool⟩
  | _ => exact hI.gate hheld'

theorem Effect.keeps_drained (h : Effect s t s' t') (hc : Covers count weight s t) (hclosed : s.closed = true)
    (hd : Drained s) : Drained s' := by
  have hinside : t.inside.toNat ≤ s.entrants := hc .entrants
  rw [hd.entrants] at hinside
  cases h with
  | enter c hopen => exact absurd (hopen.symm.trans hclosed) Bool.false_ne_true
  | enterForAnchor hopen => exact absurd (hopen.symm.trans hclosed) Bool.false_ne_true
  | refuseSlot e ht => exact hd
  | waitForSlot ht hblocked hopen => exact hd
  | takeSlot ht hslot hidle hheld hwaiting hopen => exact absurd (hopen.symm.trans hclosed) Bool.false_ne_true
  | startClose hopen hentrants => exact absurd (hopen.symm.trans hclosed) Bool.false_ne_true
  | closeAtOnce hopen hdrained => exact absurd (hopen.symm.trans hclosed) Bool.false_ne_true
  | waitOnForEntrants w hentrants => exact hd
  | endClose w hdrained => exact ⟨hd.entrants, fun _ => mem_closePool⟩
  | free => exact ⟨hd.entrants, hd.pool⟩
  | parkForEntrants looked => exact hd
  | _ => exact absurd hinside (by simp)

theorem Effect.sound (h : Effect s t s' t') (hI : Sound s) (hu : Used s) (hc : Covers count weight s t)
    (hst : Stands s t) : Sound s' where
  gate := h.gate hI hc
  depth := by
    have hdepth := hI.depth
    cases h with
    | waitForTurn c hlt hblocked hopen => exact hlt
    | takeTurn c hlt hfree hopen => exact hlt
    | giveUpTurn c w e => exact (Nat.sub_le _ _).trans hdepth
    | releaseTurn ending => exact (Nat.sub_le _ _).trans hdepth
    | _ => exact hdepth
  pool := by
    have hpool := hI.pool
    cases h with
    | takeGate u hfree hopen => exact closePool_ne_nil hpool
    | getGate u w hfree hopen => exact closePool_ne_nil hpool
    | takeSlot ht hslot hidle hheld hwaiting hopen => exact modify_ne_nil hpool
    | connect i => exact modify_ne_nil hpool
    | releaseSlot i ending => exact modify_ne_nil hpool
    | closeAtOnce hopen hdrained => exact closePool_ne_nil hpool
    | endClose w hdrained => exact closePool_ne_nil hpool
    | _ => exact hpool
  asserted := by
    have hasserted := hI.asserted
    cases h with
    | takeGate u hfree hopen =>
      rw [SharedNode.gateBlocked_eq_false] at hfree
      exact asserted_closePool hasserted fun i => Nat.le_zero.1 (hfree.2.1 ▸ hu.readers i)
    | getGate u w hfree hopen =>
      rw [SharedNode.gateBlocked_eq_false] at hfree
      exact asserted_closePool hasserted fun i => Nat.le_zero.1 (hfree.2.1 ▸ hu.readers i)
    | closeAtOnce hopen hdrained => exact asserted_closePool hasserted fun i => Nat.le_zero.1 (hdrained ▸ hu.entrants i)
    | endClose w hdrained => exact asserted_closePool hasserted fun i => Nat.le_zero.1 (hdrained ▸ hu.entrants i)
    | _ => exact hasserted
  closed := by
    have hclosed := hI.closed
    cases h with
    | startClose hopen hinside => exact fun _ => rfl
    | closeAtOnce hopen hdrained => exact fun _ => rfl
    | free =>
      intro _
      have hcloser : 1 ≤ s.closed.toNat - s.freed.toNat := hc .closer
      cases hs : s.closed
      · rw [hs] at hcloser
        exact absurd hcloser (by simp)
      · rfl
    | _ => exact hclosed
  drained := by
    have hkeeps (hfreed : s.freed = true) : Drained s' := h.keeps_drained hc (hI.closed hfreed) (hI.drained hfreed)
    cases h with
    | free => exact fun _ => ⟨hst.entrants, hst.pool⟩
    | _ => exact hkeeps

theorem isOpen_modify {pool : List ReadSlot} {f : ReadSlot → ReadSlot} {i k : ℕ}
    (hf : ∀ slot, slot.isOpen = true → (f slot).isOpen = true) (h : pool[k]?.any ReadSlot.isOpen = true) :
    (pool.modify i f)[k]?.any ReadSlot.isOpen = true := by
  rw [List.getElem?_modify]
  cases hslot : pool[k]? with
  | none =>
    rw [hslot] at h
    cases h
  | some slot =>
    rw [hslot] at h
    split
    · exact hf slot h
    · exact h

theorem isOpen_ensureSlotOpen {i : ℕ} (hi : i < s.pool.length) :
    (s.ensureSlotOpen i).pool[i]?.any ReadSlot.isOpen = true := by
  rw [SharedNode.ensureSlotOpen, List.getElem?_modify, List.getElem?_eq_getElem hi, Option.map_eq_map,
    Option.map_some, Option.any_some, if_pos rfl]
  split
  · next h => exact h
  · rfl

theorem lt_length_of_used {i : ℕ} (h : 1 ≤ count (.slot i) s) : i < s.pool.length := by
  by_contra hout
  rw [count, List.getElem?_eq_none (Nat.le_of_not_lt hout)] at h
  exact absurd h (by simp)

theorem Effect.stands (h : Effect s t s' t') (hc : Covers count weight s t) : Stands s' t' := by
  cases h with
  | rebuild c fails hdone => exact hdone
  | connect i =>
    have hused : (some i == some i).toNat ≤ count (.slot i) s := hc (.slot i)
    exact isOpen_ensureSlotOpen (lt_length_of_used (by simpa using hused))
  | closeAtOnce hopen hdrained => exact ⟨hdrained, fun _ => mem_closePool⟩
  | endClose w hdrained => exact ⟨hdrained, fun _ => mem_closePool⟩
  | _ => trivial

theorem Effect.stands_other {u : Phase} (h : Effect s t s' t') (hI : Sound s) (hc : CoversBoth count weight s t u)
    (hst : Stands s u) : Stands s' u := by
  have hcloser : t.closes.toNat + u.closes.toNat ≤ s.closed.toNat - s.freed.toNat := hc .closer
  cases u with
  | clearing c =>
    have hgate : t.hasGate.toNat + 1 ≤ s.exclusiveHeld.toNat := hc .held
    have hle := Bool.toNat_le s.exclusiveHeld
    have hheld : s.exclusiveHeld = true := by
      cases hs : s.exclusiveHeld
      · rw [hs] at hgate
        exact absurd hgate (by simp)
      · rfl
    have hbusy : t.hasTurn.toNat ≤ s.nodeBusy.toNat := (Nat.le_add_right _ _).trans (hc .busy)
    rw [(hI.gate hheld).1] at hbusy
    cases h with
    | rebuild c fails hdone => exact hdone
    | rebuildFails c fails => exact absurd hgate (by simp; omega)
    | anchor refused fails ending => exact absurd hgate (by simp; omega)
    | operate c refused fails raises ending => exact absurd hbusy (by simp)
    | _ => exact hst
  | reading i =>
    have hreaders : t.slot.isSome.toNat + 1 ≤ s.readersActive := hc .readers
    have hentrants : t.inside.toNat + 1 ≤ s.entrants := hc .entrants
    cases h with
    | takeGate u hfree hopen =>
      rw [(SharedNode.gateBlocked_eq_false.1 hfree).2.1] at hreaders
      exact absurd hreaders (by simp)
    | getGate u w hfree hopen =>
      rw [(SharedNode.gateBlocked_eq_false.1 hfree).2.1] at hreaders
      exact absurd hreaders (by simp)
    | takeSlot ht hslot hidle hheld hwaiting hopen => exact isOpen_modify (fun _ h => h) hst
    | connect j =>
      refine isOpen_modify (fun slot hopen => ?_) hst
      rw [if_pos hopen]
      exact hopen
    | releaseSlot j ending => exact isOpen_modify (fun _ h => h) hst
    | closeAtOnce hopen hdrained =>
      rw [hdrained] at hentrants
      exact absurd hentrants (by simp)
    | endClose w hdrained =>
      rw [hdrained] at hentrants
      exact absurd hentrants (by simp)
    | _ => exact hst
  | freeing =>
    refine h.keeps_drained (fun i => (Nat.le_add_right _ _).trans (hc i)) ?_ hst
    cases hs : s.closed
    · rw [hs] at hcloser
      exact absurd hcloser (by simp)
    · rfl
  | _ => trivial

end Kept

/-! ### Every interleaving -/

/-- What holds of a facade and its threads at any moment. -/
structure Kept (x : Threads SharedNode Phase) : Prop where
  accounted : Accounted count weight x
  sound : Sound x.shared
  stands : ∀ t ∈ x.locals, Stands x.shared t

section Interleaved

variable {x y : Threads SharedNode Phase}

theorem weight_slot_le (i : ℕ) (t : Phase) : weight (.slot i) t ≤ weight .readers t := by
  cases t <;> simp [Bool.toNat_le]

theorem weight_readers_le (t : Phase) : weight .readers t ≤ weight .entrants t := by
  cases t <;> simp

theorem Kept.used (h : Kept x) : Used x.shared where
  readers i := h.accounted.mono (weight_slot_le i)
  entrants i := h.accounted.mono fun t => (weight_slot_le i t).trans (weight_readers_le t)

theorem Kept.step (h : Kept x) (hstep : Step Move x y) : Kept y where
  accounted := hstep.accounted (I := Sound) (fun _ _ _ _ hI hc hm => hm.effect.balance hI.closed hc) h.sound h.accounted
  sound := hstep.shared (J := Sound) (P := Stands)
    (fun _ _ _ _ hu hc hst hm hI => hm.effect.sound hI hu hc hst) h.used h.accounted h.stands h.sound
  stands := hstep.forall (I := Sound) (fun _ _ _ _ _ hc hm _ => hm.effect.stands hc)
    (fun _ _ _ _ _ hI hc hm _ hst => hm.effect.stands_other hI hc hst) h.sound h.accounted h.stands

theorem Adopted.kept (h : Adopted x) : Kept x := by
  obtain ⟨⟨inner, options, hadopt⟩, houtside⟩ := h
  rw [SharedNode.adopt] at hadopt
  split at hadopt
  · cases hadopt
  next hconnections =>
  split at hadopt
  · cases hadopt
  have hshared := Except.ok.inj hadopt
  refine ⟨fun k => ?_, ?_, fun t ht => ?_⟩
  · have hcount : count k x.shared = 0 := by
      rw [← hshared]
      cases k with
      | slot i =>
        rw [count, List.getElem?_replicate]
        split <;> rfl
      | _ => rfl
    rw [hcount]
    refine (Nat.eq_zero_of_not_pos fun hpos => ?_).symm
    obtain ⟨t, ht, hweight⟩ := exists_of_total_pos hpos
    rw [houtside t ht] at hweight
    cases k <;> exact absurd hweight (by simp)
  · rw [← hshared]
    have hno {P : Prop} (h : false = true) : P := absurd h Bool.false_ne_true
    refine ⟨hno, Nat.zero_le _, fun hnil => hconnections (.inl ?_), rfl, hno, hno⟩
    exact (List.length_replicate ..).symm.trans (congrArg List.length hnil)
  · rw [houtside t ht]
    trivial

theorem Interleaved.kept (h : Interleaved x) : Kept x :=
  h.invariant (fun _ => Adopted.kept) fun _ _ hx hstep => hx.step hstep

/-- Turns, slots and the gate exclude each other, and admission is bounded. -/
structure Exclusive (x : Threads SharedNode Phase) : Prop where
  oneTurn : x.locals.countP Phase.hasTurn ≤ 1
  oneGate : x.locals.countP Phase.hasGate ≤ 1
  /-- Whoever has the gate has the node and its image alone. -/
  gateAlone : ∀ t ∈ x.locals, t.hasGate = true →
    (∀ u ∈ x.locals, u.hasTurn = false ∧ u.slot = none) ∧ ∀ slot ∈ x.shared.pool, slot.isOpen = false
  ownSlot : ∀ i, x.locals.countP (fun t => t.slot == some i) ≤ 1
  inPool : ∀ t ∈ x.locals, ∀ i, t.slot = some i → i < x.shared.pool.length
  admitted : x.locals.countP Phase.hasTicket ≤ x.shared.options.writeQueueDepth
  /-- No connection is closed under its reader. -/
  asserted : x.shared.asserted = true

theorem Kept.countP_le (h : Kept x) (k : Counter) (p : Phase → Bool) (hp : ∀ t, weight k t = (p t).toNat) :
    x.locals.countP p = count k x.shared := by
  rw [h.accounted k, ← total_toNat]
  exact congrArg (total · _) (funext fun t => (hp t).symm)

/-- Whatever the threads do, turns, slots and the gate exclude each other. -/
theorem exclusive_of_interleaved (h : Interleaved x) : Exclusive x := by
  have hk := h.kept
  refine ⟨?_, ?_, fun t ht hgate => ?_, fun i => ?_, fun t ht i hi => ?_, ?_, hk.sound.asserted⟩
  · rw [hk.countP_le .busy _ fun _ => rfl]
    exact Bool.toNat_le _
  · rw [hk.countP_le .held _ fun _ => rfl]
    exact Bool.toNat_le _
  · have hcovers : t.hasGate.toNat ≤ x.shared.exclusiveHeld.toNat := hk.accounted.covers ht .held
    have hheld : x.shared.exclusiveHeld = true := by
      cases hs : x.shared.exclusiveHeld
      · rw [hgate, hs] at hcovers
        exact absurd hcovers (by simp)
      · rfl
    obtain ⟨hbusy, hreaders, hpool⟩ := hk.sound.gate hheld
    refine ⟨fun u hu => ⟨?_, ?_⟩, hpool⟩
    · have hturn : u.hasTurn.toNat ≤ x.shared.nodeBusy.toNat := hk.accounted.covers hu .busy
      rw [hbusy] at hturn
      exact Bool.toNat_eq_zero.1 (Nat.le_zero.1 hturn)
    · have hslot : u.slot.isSome.toNat ≤ x.shared.readersActive := hk.accounted.covers hu .readers
      rw [hreaders] at hslot
      exact Option.isNone_iff_eq_none.1 (Option.isSome_eq_false_iff.1 (Bool.toNat_eq_zero.1 (Nat.le_zero.1 hslot)))
  · rw [hk.countP_le (.slot i) _ fun _ => rfl]
    exact Bool.toNat_le _
  · have hslot : (t.slot == some i).toNat ≤ (x.shared.pool[i]?.any ReadSlot.inUse).toNat :=
      hk.accounted.covers ht (.slot i)
    rw [hi, beq_self_eq_true] at hslot
    by_contra hout
    rw [List.getElem?_eq_none (Nat.le_of_not_lt hout)] at hslot
    exact absurd hslot (by simp)
  · rw [hk.countP_le .tickets _ fun _ => rfl]
    exact hk.sound.depth

/-- A facade with one pooled connection, just adopted. -/
def adoptedSample : SharedNode :=
  { inner := ⟨false, 0⟩, options := ⟨1, 32⟩, stateGen := 0, bumps := 0, closed := false, entrants := 0,
    writeTickets := 0, nodeBusy := false, readersActive := 0, exclusiveWaiting := 0, exclusiveHeld := false,
    resyncPending := false, pool := [⟨false, false, 0⟩], asserted := true, freed := false }

/-- A query has the slot, a write has the turn, a third thread is outside. -/
def busySample : Threads SharedNode Phase :=
  ⟨{ adoptedSample with
      entrants := 2, writeTickets := 1, nodeBusy := true, readersActive := 1, pool := [⟨false, true, 0⟩] },
    [.holding 0, .onNode .delegated, .outside]⟩

theorem Interleaved.move {s s' : SharedNode} {t t' : Phase} (before after : List Phase)
    (h : Interleaved ⟨s, before ++ t :: after⟩) (hm : Move s t s' t') : Interleaved ⟨s', before ++ t' :: after⟩ :=
  Run.Reachable.step h (.moves before after hm)

theorem interleaved_busySample : Interleaved busySample := by
  have h₀ : Interleaved ⟨adoptedSample, [.outside, .outside, .outside]⟩ :=
    .start ⟨⟨⟨false, 0⟩, ⟨1, 32⟩, rfl⟩, by simp⟩
  have h₁ := h₀.move [] [.outside, .outside] (.enter .query rfl)
  have h₂ := h₁.move [] [.outside, .outside] (.maintain _ .query)
  have h₃ := h₂.move [] [.outside, .outside] (.acquireReadSlot _ false)
  have h₄ := h₃.move [.holding 0] [.outside] (.enter .delegated rfl)
  have h₅ := h₄.move [.holding 0] [.outside] (.maintain _ .delegated)
  exact h₅.move [.holding 0] [.outside] (.acquireNodeTurn _ .delegated false (by decide))

/-- A thread has the gate, a query waits for a slot and a write for its turn. -/
def gatedSample : Threads SharedNode Phase :=
  ⟨{ adoptedSample with entrants := 3, writeTickets := 1, exclusiveHeld := true },
    [.exclusive .createStateAnchor, .awaitingSlot (.about 0 0), .awaitingTurn .delegated (.about 0 0)]⟩

theorem interleaved_gatedSample : Interleaved gatedSample := by
  have h₀ : Interleaved ⟨adoptedSample, [.outside, .outside, .outside]⟩ :=
    .start ⟨⟨⟨false, 0⟩, ⟨1, 32⟩, rfl⟩, by simp⟩
  have h₁ := h₀.move [] [.outside, .outside] (.enterForAnchor rfl)
  have h₂ := h₁.move [] [.outside, .outside] (.acquireExclusive _ .createStateAnchor)
  have h₃ := h₂.move [.exclusive .createStateAnchor] [.outside] (.enter .query rfl)
  have h₄ := h₃.move [.exclusive .createStateAnchor] [.outside] (.maintain _ .query)
  have h₅ := h₄.move [.exclusive .createStateAnchor] [.outside] (.acquireReadSlot _ false)
  have h₆ := h₅.move [.exclusive .createStateAnchor, .awaitingSlot (.about 0 0)] [] (.enter .delegated rfl)
  have h₇ := h₆.move [.exclusive .createStateAnchor, .awaitingSlot (.about 0 0)] [] (.maintain _ .delegated)
  exact h₇.move [.exclusive .createStateAnchor, .awaitingSlot (.about 0 0)] []
    (.acquireNodeTurn _ .delegated false (by decide))

theorem exclusive_busySample : Exclusive busySample ∧ Exclusive gatedSample :=
  ⟨exclusive_of_interleaved interleaved_busySample, exclusive_of_interleaved interleaved_gatedSample⟩

/-! ### The end of the facade -/

/-- What a thread inside a closed facade may still hold only gets less. -/
theorem Effect.weight_le_of_closed {s s' : SharedNode} {t t' : Phase} (h : Effect s t s' t') (hclosed : s.closed = true)
    {k : Counter} (hk : k = .entrants ∨ k = .busy ∨ k = .readers ∨ k = .held) :
    s'.closed = true ∧ weight k t' ≤ weight k t := by
  have hnever {P : Prop} (hopen : s.closed = false) : P := absurd (hopen.symm.trans hclosed) Bool.false_ne_true
  cases h with
  | enter c hopen => exact hnever hopen
  | enterForAnchor hopen => exact hnever hopen
  | takeGate u hfree hopen => exact hnever hopen
  | getGate u w hfree hopen => exact hnever hopen
  | takeTurn c hdepth hfree hopen => exact hnever hopen
  | getTurn c w hfree hopen => exact hnever hopen
  | takeSlot ht hslot hidle hheld hwaiting hopen => exact hnever hopen
  | waitForSlot ht hblocked hopen => exact hnever hopen
  | refuseSlot e ht =>
    refine ⟨hclosed, ?_⟩
    rcases ht with rfl | ⟨w, rfl⟩ <;> rcases hk with rfl | rfl | rfl | rfl <;> simp
  | startClose hopen hinside => exact hnever hopen
  | closeAtOnce hopen hdrained => exact hnever hopen
  | _ =>
    refine ⟨hclosed, ?_⟩
    rcases hk with rfl | rfl | rfl | rfl <;> simp

theorem Kept.closed_step (h : Kept x) (hstep : Step Move x y) (hclosed : x.shared.closed = true) :
    y.shared.closed = true ∧
      ∀ k, k = .entrants ∨ k = .busy ∨ k = .readers ∨ k = .held → count k y.shared ≤ count k x.shared := by
  cases hstep with
  | @moves s s' t t' before after hm =>
    have hc : Covers count weight s t := h.accounted.covers (List.mem_append_right _ List.mem_cons_self)
    refine ⟨(hm.effect.weight_le_of_closed hclosed (.inl rfl)).1, fun k hk => ?_⟩
    have hbalance : count k s' + weight k t = count k s + weight k t' := hm.effect.balance h.sound.closed hc k
    have hle := (hm.effect.weight_le_of_closed hclosed hk).2
    change count k s' ≤ count k s
    omega

/-- How a closed facade goes on: nobody enters any more, and neither turn, slot nor gate is granted. -/
structure Winding (x y : Threads SharedNode Phase) : Prop where
  closed : y.shared.closed = true
  inside : y.locals.countP Phase.inside ≤ x.locals.countP Phase.inside
  turn : y.locals.countP Phase.hasTurn ≤ x.locals.countP Phase.hasTurn
  readers : y.locals.countP (fun t => t.slot.isSome) ≤ x.locals.countP fun t => t.slot.isSome
  gate : y.locals.countP Phase.hasGate ≤ x.locals.countP Phase.hasGate

/-- What the thread that closed the facade finds when it frees it. -/
structure Released (y : Threads SharedNode Phase) : Prop where
  inside : ∀ t ∈ y.locals, t.inside = false
  pool : ∀ slot ∈ y.shared.pool, slot.isOpen = false
  /-- It is the only one in `close`, and gone once the facade is freed. -/
  closer : y.locals.countP Phase.closes + y.shared.freed.toNat ≤ 1

theorem Kept.released (h : Kept y) (hclose : y.shared.freed = true ∨ Phase.freeing ∈ y.locals) : Released y := by
  have hdrained : Drained y.shared := hclose.elim h.sound.drained (h.stands .freeing)
  refine ⟨fun t ht => ?_, hdrained.pool, ?_⟩
  · have hinside : t.inside.toNat ≤ y.shared.entrants := h.accounted.covers ht .entrants
    rw [hdrained.entrants] at hinside
    exact Bool.toNat_eq_zero.1 (Nat.le_zero.1 hinside)
  · rw [h.countP_le .closer _ fun _ => rfl, count]
    have hclosed := Bool.toNat_le y.shared.closed
    cases hfreed : y.shared.freed
    · simpa using hclosed
    · rw [h.sound.closed hfreed]
      exact le_rfl

/-- From its close on the facade only winds down, and when it is freed nobody is in it. -/
theorem winds_down_of_closed (h : Interleaved x) (hclosed : x.shared.closed = true)
    (hrun : Run.Reachable (fun z => z = x) (Step Move) y) :
    Winding x y ∧ (y.shared.freed = true ∨ Phase.freeing ∈ y.locals → Released y) := by
  have hall : Kept y ∧ y.shared.closed = true ∧
      ∀ k, k = .entrants ∨ k = .busy ∨ k = .readers ∨ k = .held → count k y.shared ≤ count k x.shared := by
    refine hrun.invariant (I := fun y => Kept y ∧ y.shared.closed = true ∧
      ∀ k, k = .entrants ∨ k = .busy ∨ k = .readers ∨ k = .held → count k y.shared ≤ count k x.shared) ?_ ?_
    · rintro y rfl
      exact ⟨h.kept, hclosed, fun _ _ => le_rfl⟩
    · rintro y z ⟨hk, hclosed, hle⟩ hstep
      obtain ⟨hclosed', hle'⟩ := hk.closed_step hstep hclosed
      exact ⟨hk.step hstep, hclosed', fun k hk => (hle' k hk).trans (hle k hk)⟩
  obtain ⟨hk, hclosed', hle⟩ := hall
  have hcount (k : Counter) (p : Phase → Bool) (hp : ∀ t, weight k t = (p t).toNat)
      (hk' : k = .entrants ∨ k = .busy ∨ k = .readers ∨ k = .held) : y.locals.countP p ≤ x.locals.countP p := by
    rw [hk.countP_le k p hp, h.kept.countP_le k p hp]
    exact hle k hk'
  refine ⟨⟨hclosed', hcount .entrants _ (fun _ => rfl) ?_, hcount .busy _ (fun _ => rfl) ?_,
    hcount .readers _ (fun _ => rfl) ?_, hcount .held _ (fun _ => rfl) ?_⟩, hk.released⟩
  all_goals simp

/-- The third thread closes the facade and waits for the others. -/
def closedSample : Threads SharedNode Phase :=
  ⟨{ busySample.shared with closed := true, stateGen := 1, bumps := 1 },
    [.holding 0, .onNode .delegated, .closing (.about 1 1)]⟩

theorem interleaved_closedSample : Interleaved closedSample :=
  interleaved_busySample.move [.holding 0, .onNode .delegated] []
    (Move.close (r := (closedSample.shared, .asleep (.about 1 1))) rfl)

/-- The others have left, and the facade is about to be freed. -/
def drainedSample : Threads SharedNode Phase :=
  ⟨{ adoptedSample with closed := true, stateGen := 5, bumps := 5 }, [.outside, .outside, .freeing]⟩

theorem winds_down_closedSample : Winding closedSample drainedSample ∧ Released drainedSample := by
  have hmove {s s' : SharedNode} {t t' : Phase} (before after : List Phase)
      (h : Run.Reachable (fun z => z = closedSample) (Step Move) ⟨s, before ++ t :: after⟩)
      (hm : Move s t s' t') : Run.Reachable (fun z => z = closedSample) (Step Move) ⟨s', before ++ t' :: after⟩ :=
    h.step (.moves before after hm)
  have h₀ : Run.Reachable (fun z => z = closedSample) (Step Move) closedSample := .start rfl
  have h₁ := hmove [] [.onNode .delegated, .closing (.about 1 1)] h₀ (.openFails _ 0)
  have h₂ := hmove [.leavingSlot 0 (some .inner), .onNode .delegated] [] h₁ (.park _ rfl)
  have h₃ := hmove [] [.onNode .delegated, .closing (.parked 1)] h₂ (.releaseReadSlot _ 0 (some .inner))
  have h₄ := hmove [] [.onNode .delegated, .closing (.parked 1)] h₃ (.exit _ (some .inner))
  have h₅ := hmove [.outside] [.closing (.parked 1)] h₄ (.operate _ .delegated true false false none fun _ => rfl)
  have h₆ := hmove [.outside] [.closing (.parked 1)] h₅ (.releaseNodeTurn _ none)
  have h₇ := hmove [.outside] [.closing (.parked 1)] h₆ (.exit _ none)
  have h₈ := hmove [.outside, .outside] [] h₇ (.awaitEntrants _ (.parked 1))
  obtain ⟨hwinding, hreleased⟩ := winds_down_of_closed interleaved_closedSample rfl h₈
  exact ⟨hwinding, hreleased (.inr (List.mem_of_getElem? (i := 2) rfl))⟩

end Interleaved

end Embedded

end Zaxonlite
