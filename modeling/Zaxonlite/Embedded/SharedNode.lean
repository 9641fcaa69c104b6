import Zaxonlite.Lib.Threads

/-!
# The facade many threads share

`SharedNode` lets many threads use one node: a turn for what writes or asks the node, a pool of read-only
connections to its image, and a gate that drains the pool before the image is touched. Every section of code that
holds the facade's mutex is one function here, and so is what a thread does between two of them. A wait loop is
the section up to the point where the thread sleeps, and the section it runs each time it wakes.

A thread sleeps on the generation it saw under the mutex: it lets go of the mutex, and the futex parks it if the
generation is still that one. The generation is a word of 32 bits and wraps. A thread may wake at any time, by a bump
of the generation, by its deadline or for no reason; whether the deadline has passed is an answer the section is
given.
-/

namespace Zaxonlite

namespace Embedded

/-! ### The node -/

/-- What the facade sees of its node: whether the image waits for a rebuild, and how often it was rebuilt. -/
structure Inner where
  needsResync : Bool
  image : ℕ
  deriving DecidableEq

namespace Inner

/-- `resyncImage`. A rebuild that fails may have touched the files and leaves the flag up. -/
def resyncImage (n : Inner) (fails : Bool) : Inner :=
  ⟨fails, n.image + 1⟩

/-- The start of every operation: `if (self.needs_resync) try self.resyncImage()`. -/
def resyncIfNeeded (n : Inner) (fails : Bool) : Inner :=
  if n.needsResync then n.resyncImage fails else n

/-- An operation of the node's turn. It may be refused before it looks at the flag, as `status` never does, and a
write that commits nothing the log has may raise it. -/
def operate (n : Inner) (refused fails raises : Bool) : Inner :=
  if refused then n
  else if (n.resyncIfNeeded fails).needsResync then n.resyncIfNeeded fails
  else ⟨raises, (n.resyncIfNeeded fails).image⟩

/-- `createStateAnchor`. It never raises the flag: it runs with no captured write and proposes no batch. -/
def createStateAnchor (n : Inner) (refused fails : Bool) : Inner :=
  if refused then n else n.resyncIfNeeded fails

end Inner

/-! ### The facade -/

/-- A slot of the pool, with the image its connection was opened on. -/
structure ReadSlot where
  isOpen : Bool
  inUse : Bool
  image : ℕ
  deriving DecidableEq

def readConnectionsMax : ℕ := 64

def writeQueueDepthMax : ℕ := 1024

structure Options where
  readConnections : ℕ := 4
  writeQueueDepth : ℕ := 32

/-- The facade, and three facts about its past: how often the generation was bumped, that every assertion of
`closePoolLocked` held, and that `close` freed the memory. -/
structure SharedNode where
  inner : Inner
  options : Options
  stateGen : UInt32
  bumps : ℕ
  closed : Bool
  entrants : ℕ
  writeTickets : ℕ
  nodeBusy : Bool
  readersActive : ℕ
  exclusiveWaiting : ℕ
  exclusiveHeld : Bool
  resyncPending : Bool
  pool : List ReadSlot
  asserted : Bool
  freed : Bool

inductive SharedError where
  | invalidReadConnections
  | invalidWriteQueueDepth
  | sharedNodeClosed
  | writeQueueFull
  | writeDeadlineExceeded
  | readPoolDeadlineExceeded
  /-- An error of the node or of a connection. -/
  | inner
  deriving DecidableEq

/-- A thread in `waitStateChange`: it has let go of the mutex and is about to sleep on the generation it observed,
which it looked at after so many bumps, or the futex has parked it, after so many bumps. -/
inductive Sleep where
  | about (observed : UInt32) (looked : ℕ)
  | parked (since : ℕ)
  deriving DecidableEq

/-- How a section that may wait ends. -/
inductive Waited (α : Type) where
  | passed (a : α)
  | failed (e : SharedError)
  | asleep (w : Sleep)

namespace SharedNode

def adopt (inner : Inner) (options : Options) : Except SharedError SharedNode :=
  if options.readConnections = 0 ∨ readConnectionsMax < options.readConnections then .error .invalidReadConnections
  else if options.writeQueueDepth = 0 ∨ writeQueueDepthMax < options.writeQueueDepth then
    .error .invalidWriteQueueDepth
  else .ok
    { inner, options, stateGen := 0, bumps := 0, closed := false, entrants := 0, writeTickets := 0, nodeBusy := false,
      readersActive := 0, exclusiveWaiting := 0, exclusiveHeld := false, resyncPending := false,
      pool := List.replicate options.readConnections ⟨false, false, 0⟩, asserted := true, freed := false }

def bumpState (s : SharedNode) : SharedNode :=
  { s with stateGen := s.stateGen + 1, bumps := s.bumps + 1 }

/-- The start of `waitStateChange`, under the mutex. -/
def look (s : SharedNode) : Sleep :=
  .about s.stateGen s.bumps

def enter (s : SharedNode) : Except SharedError SharedNode :=
  if s.closed then .error .sharedNodeClosed else .ok { s with entrants := s.entrants + 1 }

def exit (s : SharedNode) : SharedNode :=
  bumpState { s with entrants := s.entrants - 1 }

/-! #### The node's turn -/

/-- What a thread waits for before its turn. -/
def turnBlocked (s : SharedNode) : Bool :=
  s.nodeBusy || s.exclusiveHeld || s.exclusiveWaiting != 0

/-- The loop of `acquireNodeTurn` and what follows it; an error gives the ticket back. -/
def awaitTurn (s : SharedNode) (expired : Bool) : SharedNode × Waited Unit :=
  if s.turnBlocked then
    if s.closed then ({ s with writeTickets := s.writeTickets - 1 }, .failed .sharedNodeClosed)
    else if expired then ({ s with writeTickets := s.writeTickets - 1 }, .failed .writeDeadlineExceeded)
    else (s, .asleep s.look)
  else if s.closed then ({ s with writeTickets := s.writeTickets - 1 }, .failed .sharedNodeClosed)
  else ({ s with nodeBusy := true }, .passed ())

def acquireNodeTurn (s : SharedNode) (expired : Bool) : SharedNode × Waited Unit :=
  if s.closed then (s, .failed .sharedNodeClosed)
  else if s.options.writeQueueDepth ≤ s.writeTickets then (s, .failed .writeQueueFull)
  else awaitTurn { s with writeTickets := s.writeTickets + 1 } expired

def releaseNodeTurn (s : SharedNode) : SharedNode :=
  bumpState
    { s with nodeBusy := false, writeTickets := s.writeTickets - 1, resyncPending := s.inner.needsResync }

/-! #### The exclusive gate -/

/-- `closePoolLocked`, which asserts that no slot is in use. -/
def closePool (s : SharedNode) : SharedNode :=
  { s with
    pool := s.pool.map fun slot => { slot with isOpen := false }
    asserted := s.asserted && s.pool.all fun slot => !slot.inUse }

/-- What a thread waits for before the gate is its own. -/
def gateBlocked (s : SharedNode) : Bool :=
  s.nodeBusy || s.readersActive != 0 || s.exclusiveHeld

/-- The loop of `acquireExclusive` and what follows it. -/
def awaitExclusive (s : SharedNode) : SharedNode × Waited Unit :=
  if s.gateBlocked then
    if s.closed then ({ s with exclusiveWaiting := s.exclusiveWaiting - 1 }, .failed .sharedNodeClosed)
    else (s, .asleep s.look)
  else if s.closed then ({ s with exclusiveWaiting := s.exclusiveWaiting - 1 }, .failed .sharedNodeClosed)
  else
    (closePool { s with exclusiveHeld := true, exclusiveWaiting := s.exclusiveWaiting - 1 }, .passed ())

def acquireExclusive (s : SharedNode) : SharedNode × Waited Unit :=
  awaitExclusive { s with exclusiveWaiting := s.exclusiveWaiting + 1 }

def releaseExclusive (s : SharedNode) : SharedNode :=
  bumpState { s with exclusiveHeld := false }

/-! #### The pool -/

/-- `freeSlotLocked`: an open connection is preferred. -/
def freeSlot (s : SharedNode) : Option ℕ :=
  (s.pool.findIdx? fun slot => !slot.inUse && slot.isOpen).or (s.pool.findIdx? fun slot => !slot.inUse)

/-- One round of the loop of `acquireReadSlot`. -/
def acquireReadSlot (s : SharedNode) (expired : Bool) : SharedNode × Waited ℕ :=
  if s.closed then (s, .failed .sharedNodeClosed)
  else
    (if !s.exclusiveHeld && s.exclusiveWaiting == 0 then s.freeSlot else none).elim
      (if expired then (s, .failed .readPoolDeadlineExceeded) else (s, .asleep s.look))
      fun i =>
        ({ s with
          pool := s.pool.modify i fun slot => { slot with inUse := true }
          readersActive := s.readersActive + 1 }, .passed i)

def releaseReadSlot (s : SharedNode) (i : ℕ) : SharedNode :=
  bumpState
    { s with
      pool := s.pool.modify i fun slot => { slot with inUse := false }
      readersActive := s.readersActive - 1 }

/-- `ensureSlotOpen` when the open succeeds, on the image as it is. -/
def ensureSlotOpen (s : SharedNode) (i : ℕ) : SharedNode :=
  { s with
    pool := s.pool.modify i fun slot =>
      if slot.isOpen then slot else { slot with isOpen := true, image := s.inner.image } }

/-! #### The end -/

/-- The loop of `close` and what follows it under the mutex. -/
def awaitEntrants (s : SharedNode) : SharedNode × Waited Unit :=
  if s.entrants != 0 then (s, .asleep s.look) else (closePool s, .passed ())

/-- The first section of `close`; nothing when another thread has closed the facade. -/
def close (s : SharedNode) : Option (SharedNode × Waited Unit) :=
  if s.closed then none else some (awaitEntrants (bumpState { s with closed := true }))

end SharedNode

/-! ### The threads -/

/-- The calls, by how they use the facade: `query…` and `queryBatch` read on a pooled connection, `exec…`, `backup`
and `integrityCheck` are delegated to the node. -/
inductive Call where
  | query
  | delegated
  | status
  deriving DecidableEq

inductive GateUse where
  | maintainResync (c : Call)
  | createStateAnchor
  deriving DecidableEq

abbrev Ending := Option SharedError

/-- Where a thread stands between two sections. -/
inductive Phase where
  | outside
  /-- Past `enter`, before the mirror of the node's flag is read. -/
  | entered (c : Call)
  /-- Before `acquireExclusive`. -/
  | escalating (u : GateUse)
  | excluding (u : GateUse) (w : Sleep)
  | exclusive (u : GateUse)
  /-- The image is rebuilt, the mirror not cleared yet. -/
  | clearing (c : Call)
  /-- Before `releaseExclusive`, with what follows: the call goes on or ends. -/
  | opening (next : Call ⊕ Ending)
  /-- Past `maintainResync`. -/
  | maintained (c : Call)
  | awaitingTurn (c : Call) (w : Sleep)
  | onNode (c : Call)
  | leavingNode (ending : Ending)
  | awaitingSlot (w : Sleep)
  | holding (i : ℕ)
  | reading (i : ℕ)
  | leavingSlot (i : ℕ) (ending : Ending)
  | leaving (ending : Ending)
  | closing (w : Sleep)
  /-- The pool is closed and the mutex released for the last time. -/
  | freeing
  deriving DecidableEq

namespace Phase

/-- The first section of `maintainResync`, which `status` leaves out. -/
def maintainResync (s : SharedNode) (c : Call) : Phase :=
  if c ≠ .status ∧ s.resyncPending then .escalating (.maintainResync c) else .maintained c

def afterExclusive (u : GateUse) : Waited Unit → Phase
  | .passed _ => .exclusive u
  | .failed e => .leaving (some e)
  | .asleep w => .excluding u w

def afterTurn (c : Call) : Waited Unit → Phase
  | .passed _ => .onNode c
  | .failed e => .leaving (some e)
  | .asleep w => .awaitingTurn c w

def afterSlot : Waited ℕ → Phase
  | .passed i => .holding i
  | .failed e => .leaving (some e)
  | .asleep w => .awaitingSlot w

def afterOpening : Call ⊕ Ending → Phase
  | .inl c => .maintained c
  | .inr ending => .leaving ending

def afterClose : Waited Unit → Phase
  | .passed _ => .freeing
  | .failed _ => .outside
  | .asleep w => .closing w

/-- How a thread sleeps, if it does. -/
def sleep : Phase → Option Sleep
  | .excluding _ w => some w
  | .awaitingTurn _ w => some w
  | .awaitingSlot w => some w
  | .closing w => some w
  | _ => none

/-- The futex parks a thread that is about to sleep. -/
def park (since : ℕ) : Phase → Phase
  | .excluding u _ => .excluding u (.parked since)
  | .awaitingTurn c _ => .awaitingTurn c (.parked since)
  | .awaitingSlot _ => .awaitingSlot (.parked since)
  | .closing _ => .closing (.parked since)
  | t => t

end Phase

/-- The node's work under the gate, and what it leads to: a failed rebuild ends the call. -/
def exclusiveWork (s : SharedNode) (refused fails : Bool) (ending : Ending) : GateUse → SharedNode × Phase
  | .maintainResync c =>
    ({ s with inner := s.inner.resyncIfNeeded fails },
      if (s.inner.resyncIfNeeded fails).needsResync then .opening (.inr (some .inner)) else .clearing c)
  | .createStateAnchor =>
    ({ s with inner := s.inner.createStateAnchor refused fails },
      .opening (.inr ending))

/-- One thread runs its next section, or what it does between two sections. -/
inductive Move : SharedNode → Phase → SharedNode → Phase → Prop
  | enter {s s' : SharedNode} (c : Call) (h : s.enter = .ok s') : Move s .outside s' (.entered c)
  | enterForAnchor {s s' : SharedNode} (h : s.enter = .ok s') : Move s .outside s' (.escalating .createStateAnchor)
  | maintain (s : SharedNode) (c : Call) : Move s (.entered c) s (Phase.maintainResync s c)
  | acquireExclusive (s : SharedNode) (u : GateUse) :
    Move s (.escalating u) s.acquireExclusive.1 (Phase.afterExclusive u s.acquireExclusive.2)
  | awaitExclusive (s : SharedNode) (u : GateUse) (w : Sleep) :
    Move s (.excluding u w) s.awaitExclusive.1 (Phase.afterExclusive u s.awaitExclusive.2)
  | exclusive (s : SharedNode) (u : GateUse) (refused fails : Bool) (ending : Ending) :
    Move s (.exclusive u) (exclusiveWork s refused fails ending u).1 (exclusiveWork s refused fails ending u).2
  | clear (s : SharedNode) (c : Call) : Move s (.clearing c) { s with resyncPending := false } (.opening (.inl c))
  | releaseExclusive (s : SharedNode) (next : Call ⊕ Ending) :
    Move s (.opening next) s.releaseExclusive (Phase.afterOpening next)
  | acquireNodeTurn (s : SharedNode) (c : Call) (expired : Bool) (h : c ≠ .query) :
    Move s (.maintained c) (s.acquireNodeTurn expired).1 (Phase.afterTurn c (s.acquireNodeTurn expired).2)
  | awaitTurn (s : SharedNode) (c : Call) (w : Sleep) (expired : Bool) :
    Move s (.awaitingTurn c w) (s.awaitTurn expired).1 (Phase.afterTurn c (s.awaitTurn expired).2)
  | operate (s : SharedNode) (c : Call) (refused fails raises : Bool) (ending : Ending) (h : c = .status → refused) :
    Move s (.onNode c) { s with inner := s.inner.operate refused fails raises } (.leavingNode ending)
  | releaseNodeTurn (s : SharedNode) (ending : Ending) :
    Move s (.leavingNode ending) s.releaseNodeTurn (.leaving ending)
  | acquireReadSlot (s : SharedNode) (expired : Bool) :
    Move s (.maintained .query) (s.acquireReadSlot expired).1 (Phase.afterSlot (s.acquireReadSlot expired).2)
  | awaitSlot (s : SharedNode) (w : Sleep) (expired : Bool) :
    Move s (.awaitingSlot w) (s.acquireReadSlot expired).1 (Phase.afterSlot (s.acquireReadSlot expired).2)
  | open (s : SharedNode) (i : ℕ) : Move s (.holding i) (s.ensureSlotOpen i) (.reading i)
  | openFails (s : SharedNode) (i : ℕ) : Move s (.holding i) s (.leavingSlot i (some .inner))
  | read (s : SharedNode) (i : ℕ) (ending : Ending) : Move s (.reading i) s (.leavingSlot i ending)
  | releaseReadSlot (s : SharedNode) (i : ℕ) (ending : Ending) :
    Move s (.leavingSlot i ending) (s.releaseReadSlot i) (.leaving ending)
  | exit (s : SharedNode) (ending : Ending) : Move s (.leaving ending) s.exit .outside
  | close {s : SharedNode} {r : SharedNode × Waited Unit} (h : s.close = some r) :
    Move s .outside r.1 (Phase.afterClose r.2)
  | awaitEntrants (s : SharedNode) (w : Sleep) :
    Move s (.closing w) s.awaitEntrants.1 (Phase.afterClose s.awaitEntrants.2)
  | free (s : SharedNode) : Move s .freeing { s with freed := true } .outside
  /-- The futex finds the generation the thread observed. -/
  | park (s : SharedNode) {t : Phase} {looked : ℕ} (h : t.sleep = some (.about s.stateGen looked)) :
    Move s t s (t.park s.bumps)

/-- A facade just adopted, with every thread outside. -/
def Adopted (x : Threads SharedNode Phase) : Prop :=
  (∃ inner options, SharedNode.adopt inner options = .ok x.shared) ∧ ∀ t ∈ x.locals, t = .outside

/-- The states any interleaving of the threads leads to. -/
def Interleaved : Threads SharedNode Phase → Prop :=
  Run.Reachable Adopted (Threads.Step Move)

end Embedded

end Zaxonlite
