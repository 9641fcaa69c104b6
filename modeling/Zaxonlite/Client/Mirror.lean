import Zaxonlite.Client.Connection
import Zaxonlite.Node.LiveRebuild

/-!
# A connection that mirrors its node

The note of a connection agrees with the node as long as no native call fails and ends the live transaction
all the same. The first call that does leaves the note standing, or, when it is the rollback of a close, the
handle open. Which calls those are can be told from the connection they start from and from what they meet.
-/

namespace Zaxonlite

namespace DbApi

open Program

/-- The note says what the node's flag says, and the handle is open until the connection is closed. -/
structure Mirrors (c : Connection) : Prop where
  flag : c.inTx = c.node.live
  handle : c.handleOpen = !c.closed

/-- The connection after a call, whether it returned or raised. -/
def Call.apply (a : Answers) (call : Call) (c : Connection) : Connection :=
  finalState (call.run a) c

def after (c : Connection) (calls : List (Call × Answers)) : Connection :=
  calls.foldl (fun c call => call.1.apply call.2 c) c

/-- Throughout a run the connection mirrors its node, none of its commits and rollbacks fails for want of a
transaction, and a close that is let in lets go of the handle. -/
def Mirrored : Connection → List (Call × Answers) → Prop
  | c, [] => Mirrors c
  | c, (call, a) :: calls =>
    Mirrors c ∧
      (call.finishes = true → ∀ c', call.run a c ≠ .error (.native (.node .noTransaction)) c') ∧
        (call = .close → a.sameThread = true → a.admitted = true → (call.apply a c).handleOpen = false) ∧
          Mirrored (call.apply a c) calls

/-! ### The condition -/

/-- The thread and the lane let the call in on a connection that is open. -/
structure Entered (a : Answers) (c : Connection) : Prop where
  opened : c.closed = false
  sameThread : a.sameThread = true
  admitted : a.admitted = true

/-- The call is let in on a connection that notes a transaction. -/
structure Finishing (a : Answers) (c : Connection) : Prop extends Entered a c where
  transactional : c.transactional = true
  inTx : c.inTx = true

structure ServesReads (m : Machine) : Prop where
  reads : m.node.capabilities.servesReads = true
  working : m.node.fatalStorageError = false
  rebuilds : ¬ RebuildFails m

/-- The names of the parameters are found, and the parameters fit the statement. -/
def Resolved (a : Answers) : Prop :=
  (∀ lookup ∈ a.lookups, lookup.isSome = true) ∧ a.resolved = true

/-- `live_begin` begins a transaction on a node whose image is rebuilt. -/
structure Begins (a : Answers) (n : Node) : Prop where
  single : n.single = true
  writes : n.capabilities.servesWrites = true
  taking : (n.membershipChangePending || a.stopPending) = false
  free : n.captureBatchId = none
  begun : a.begun = true

/-- A statement comes to be executed in the live transaction, one that is open or one begun for it. -/
structure Reaches (a : Answers) (c : Connection) (d : Description) : Prop where
  entered : Entered a c
  described : a.description = some d
  whole : d.hasTail = false
  reads : ServesReads c.node.machine
  resolved : Resolved a
  transactional : c.transactional = true
  transaction : c.inTx = true ∨ d.readOnly = false ∧ Begins a (due c.node.machine)

/-- The first of the statements that fails rolls the whole transaction back. -/
def endsFirst : List StatementOutcome → Bool
  | [] => false
  | .done _ :: outcomes => endsFirst outcomes
  | .failed _ :: _ => false
  | .ended _ :: _ => true

/-- `live_commit` passes the checks that refuse it, and fails. -/
def CommitLost (a : Answers) (s : LiveNode) : Prop :=
  s.machine.node.fatalStorageError = false ∧ a.stopPending = false ∧
    ∃ e s', commitLiveTransaction a.stopPending a.commit a.core s = .error e s'

/-- From this connection a native call of the call fails where the engine ends the live transaction all the same: a
statement whose error rolls everything back, a commit past the checks that refuse it, a rollback that SQLite fails. -/
def Call.Severs (a : Answers) (c : Connection) : Call → Prop
  | .execute outcome => ∃ d, Reaches a c d ∧ endsFirst [outcome] = true
  | .executemany outcomes => ∃ d, Reaches a c d ∧ d.readOnly = false ∧ endsFirst outcomes = true
  | .executescript => Finishing a c ∧ CommitLost a c.node
  | .savepoint => False
  | .releaseSavepoint => False
  | .rollbackToSavepoint => False
  | .commit => Finishing a c ∧ CommitLost a c.node
  | .rollback => Finishing a c ∧ a.rolledBack = false
  | .exit raised => Finishing a c ∧ if raised then a.rolledBack = false else CommitLost a c.node
  | .close => Finishing a c ∧ a.rolledBack = false

/-- No call of the run severs the connection from its node. -/
def Unsevered : Connection → List (Call × Answers) → Prop
  | _, [] => True
  | c, (call, a) :: calls => ¬ call.Severs a c ∧ Unsevered (call.apply a c) calls

/-! ### What the native calls do to the flag -/

section Native

variable {s : LiveNode}

theorem keeps_live_readLive {α : Type} (answer : Option α) : Keeps LiveNode.live (readLive answer) := by
  refine keeps_get.bind fun s => (keeps_live_refuseLive _ _).bind fun _ => ?_
  refine (keeps_live_refuseLive _ _).bind fun _ => (keeps_live_doLive _ keeps_live_resyncLive).bind fun _ => ?_
  cases answer with
  | none => exact keeps_throw _
  | some answer => exact keeps_pure answer

theorem keeps_live_savepointControl (done : Bool) : Keeps LiveNode.live (liveSavepointControl done) := by
  refine keeps_get.bind fun s => (keeps_live_refuseLive _ _).bind fun _ => ?_
  exact (keeps_live_refuseLive _ _).bind fun _ => (keeps_pure _).ite (keeps_throw _)

/-- A read rebuilds an image that is not up to date. -/
theorem wp_readLive {α : Type} (answer : Option α) (s : LiveNode) :
    wp (readLive answer)
      (fun r s' => answer = some r ∧ ServesReads s.machine ∧ Rested s.machine s'.machine)
      (fun _ _ => answer.isSome = true → ¬ ServesReads s.machine) s := by
  simp only [readLive, wp_bind, wp_get, wp_refuseLive]
  refine ⟨fun hno _ hserves => ?_, fun hreads => ⟨fun hfailed _ hserves => ?_, fun hworks => ?_⟩⟩
  · rw [hserves.reads] at hno
    cases hno
  · exact Bool.false_ne_true (hserves.working.symm.trans hfailed)
  · refine wp_mono (wp_rebuild s) (fun _ s' h => ?_) fun _ _ h _ hserves => hserves.rebuilds h.1.2
    cases answer with
    | none => exact fun hsome => absurd hsome Bool.false_ne_true
    | some r => exact ⟨rfl, ⟨(Bool.not_eq_false' _).mp hreads, hworks, h.ends⟩, h⟩

/-- The node has just served a read. -/
structure Served (m : Machine) : Prop where
  reads : m.node.capabilities.servesReads = true
  working : m.node.fatalStorageError = false
  settled : m.node.needsResync = false

theorem served_of_rested {m m' : Machine} (h : Rested m m') (hserves : ServesReads m) : Served m' where
  reads := (congrArg (fun standing => standing.2.2.servesReads) h.standing).trans hserves.reads
  working := (congrArg Prod.fst h.standing).trans hserves.working
  settled := h.settled

theorem Served.wp_readLive {α : Type} (h : Served s.machine) (answer : Option α) :
    wp (readLive answer) (fun r s' => answer = some r ∧ s' = s) (fun _ s' => answer = none ∧ s' = s) s := by
  simp only [readLive, wp_bind, wp_get, wp_refuseLive, wp_doLive, h.reads, h.working, h.settled, Bool.not_true,
    Bool.false_eq_true, false_implies, true_and, true_implies]
  cases answer with
  | none => exact ⟨rfl, rfl⟩
  | some r => exact ⟨rfl, rfl⟩

theorem begins_iff_of_rested {a : Answers} {m m' : Machine} (h : Rested m m') :
    Begins a m'.node ↔ Begins a (due m) := by
  have hsingle : m'.node.single = (due m).single :=
    (congrArg (fun standing => standing.2.1) h.standing).trans (due_single m).symm
  have hcapabilities : m'.node.capabilities = (due m).capabilities :=
    (congrArg (fun standing => standing.2.2) h.standing).trans (due_capabilities m).symm
  constructor
  · rintro ⟨h1, h2, h3, h4, h5⟩
    exact ⟨hsingle ▸ h1, hcapabilities ▸ h2, h.checks.pending ▸ h3, h.checks.capture ▸ h4, h5⟩
  · rintro ⟨h1, h2, h3, h4, h5⟩
    exact ⟨hsingle ▸ h1, hcapabilities ▸ h2, h.checks.pending ▸ h3, h.checks.capture ▸ h4, h5⟩

/-- A transaction that is begun is noted by the node. -/
theorem wp_liveBegin (a : Answers) (s : LiveNode) :
    wp (liveBegin a.stopPending a.begun)
      (fun _ s' => Begins a (due s.machine) ∧ s'.live = true ∧ s'.machine.node.fatalStorageError = false)
      (fun _ s' => (s.live = false → Served s.machine → ¬ Begins a (due s.machine)) ∧ s'.live = s.live) s := by
  simp only [liveBegin, wp_bind, wp_get, wp_refuseLive]
  refine ⟨fun hno => ⟨fun _ _ h => ?_, trivial⟩, fun hsingle => ⟨fun hno => ⟨fun _ _ h => ?_, trivial⟩,
    fun hwrites => ⟨fun hlive => ⟨fun hidle => ?_, trivial⟩, fun _ => ⟨fun hfailed => ⟨fun _ hserved => ?_, trivial⟩,
      fun hworks => ?_⟩⟩⟩⟩
  · rw [← due_single, h.single] at hno
    cases hno
  · rw [← due_capabilities, h.writes] at hno
    cases hno
  · exact absurd (hidle.symm.trans hlive) Bool.false_ne_true
  · exact absurd (hserved.working.symm.trans hfailed) Bool.false_ne_true
  refine wp_mono (wp_rebuild s) (fun _ s₁ h₁ => ?_) fun _ s₁ h₁ =>
    ⟨fun _ hserved => absurd h₁.1.2 (not_rebuildFails_of_settled hserved.settled), h₁.2⟩
  simp only [wp_bind, wp_get, wp_refuseLive]
  refine ⟨fun hsealed => ⟨fun _ _ h => ?_, h₁.flag⟩, fun htaking => ?_⟩
  · rw [h₁.checks.pending, h.taking] at hsealed
    cases hsealed
  have hwriter : s₁.machine.node.capabilities.servesWrites = true :=
    (congrArg (fun standing => standing.2.2.servesWrites) h₁.standing).trans ((Bool.not_eq_false' _).mp hwrites)
  refine wp_mono (wp_openLive_node s₁) (fun _ s₂ h₂ => ?_) fun _ s₂ h₂ =>
    absurd (h₂.1.2.symm.trans hwriter) Bool.false_ne_true
  obtain ⟨hflag, hstanding, hcapture⟩ := h₂
  simp only [wp_bind, wp_get, wp_refuseLive]
  refine ⟨fun hfull => ⟨fun _ _ h => ?_, hflag.trans h₁.flag⟩, fun hfree => ?_⟩
  · rw [hcapture, h₁.checks.capture, h.free] at hfull
    cases hfull
  cases hbegun : a.begun with
  | false => exact ⟨fun _ _ h => Bool.false_ne_true (hbegun.symm.trans h.begun), hflag.trans h₁.flag⟩
  | true =>
    have hworks₂ : s₂.machine.node.fatalStorageError = false :=
      (congrArg Prod.fst (hstanding.trans h₁.standing)).trans hworks
    refine ⟨⟨?_, ?_, ?_, ?_, hbegun⟩, rfl, hworks₂⟩
    · exact (due_single _).trans ((Bool.not_eq_false' _).mp hsingle)
    · rw [due_capabilities]
      exact (Bool.not_eq_false' _).mp hwrites
    · rw [← h₁.checks.pending]
      exact htaking
    · rw [← h₁.checks.capture, ← hcapture]
      exact Option.isNone_iff_eq_none.1 (Option.isSome_eq_false_iff.1 hfree)

/-- A statement inside a transaction: only an error that rolls everything back lowers the flag. -/
theorem wp_liveExecute (hlive : s.live = true) (hworks : s.machine.node.fatalStorageError = false)
    (outcome : StatementOutcome) :
    wp (liveExecute outcome) (fun _ s' => (∃ stale, outcome = .done stale) ∧ s'.machine = s.machine)
      (fun _ s' => (∀ stale, outcome ≠ .done stale) ∧ s'.live = !endsFirst [outcome]) s := by
  have hopen : s.machine.node.liveTransaction = true := hlive
  cases outcome with
  | done stale =>
    simp only [liveExecute, liveExec, wp_bind, wp_get, wp_refuseLive, wp_modify, wp_doLive, hopen, hworks,
      Bool.not_true, Bool.false_eq_true, false_implies, true_and, true_implies]
    exact ⟨⟨stale, rfl⟩, rfl⟩
  | failed stale =>
    simp only [liveExecute, liveExec, wp_bind, wp_get, wp_refuseLive, wp_modify, wp_doLive, wp_throw, hopen, hworks,
      Bool.not_true, Bool.false_eq_true, false_implies, true_and, true_implies]
    exact ⟨fun _ heq => StatementOutcome.noConfusion heq, hlive⟩
  | ended stale =>
    simp only [liveExecute, liveExec, wp_bind, wp_get, wp_refuseLive, wp_modify, wp_doLive, wp_onMachine, wp_setNode,
      wp_throw, hopen, hworks, Bool.not_true, Bool.false_eq_true, false_implies, true_and, true_implies,
      Bool.true_eq_false, and_true]
    exact ⟨fun _ heq => StatementOutcome.noConfusion heq, rfl⟩

theorem wp_admitLive_idle (status : LogStatus) (s : LiveNode) :
    wp (admitLive status) (fun _ s' => s'.Idle) (fun _ _ => True) s := by
  have htrue {α : Type} {x : LiveOp α} {f : α → LiveOp Unit}
      (hf : ∀ a s, wp (f a) (fun _ s' => s'.Idle) (fun _ _ => True) s) (s : LiveNode) :
      wp (x >>= f) (fun _ s' => s'.Idle) (fun _ _ => True) s := by
    rw [wp_bind]
    exact wp_mono (wp_self x s) (fun a s' _ => hf a s') fun _ _ _ => trivial
  refine htrue (fun _ => htrue fun _ => htrue fun _ => htrue fun _ => htrue fun _ => htrue fun _ =>
    htrue fun _ => htrue fun _ s₁ => ?_) s
  simp only [wp_bind, wp_get, wp_refuseLive]
  exact ⟨fun _ => trivial, fun _ => ⟨fun _ => trivial, id⟩⟩

theorem keeps_live_writeLive (a : WriteAnswers) : Keeps LiveNode.live (writeLive a) := by
  refine keeps_get.bind fun s => (keeps_live_refuseLive _ _).bind fun _ => Keeps.bind ?_ fun _ => keeps_pure ()
  intro s
  rw [writeRequestLive, wp_bind]
  refine wp_mono (wp_and (keeps_live_admitLive a.status s) (wp_admitLive_idle a.status s)) ?_ fun _ _ h => h.1
  rintro _ s₁ ⟨heq, hidle⟩
  have hlive : false = s.live := hidle.symm.trans heq
  exact wp_mono (maintains_runStatements a.statements a.core s₁ hidle) (fun _ s₂ h₂ => h₂.trans hlive)
    fun _ s₂ h₂ => h₂.trans hlive

/-- A commit of an open transaction that is refused leaves the flag; any other one lowers it. -/
theorem wp_commitLive (stopPending : Bool) (statements : StatementRun) (core : AppendCore) (h : s.live = true) :
    wp (commitLiveTransaction stopPending statements core) (fun _ s' => s'.live = false)
      (fun e s' => e ≠ .node .noTransaction ∧
        s'.live = (s.machine.node.fatalStorageError || stopPending)) s := by
  simp only [commitLiveTransaction, wp_bind, wp_get, wp_refuseLive, wp_onMachine, wp_setNode]
  refine ⟨fun hno => ?_, fun _ => ⟨fun hfailed => ⟨fun heq => ?_, ?_⟩, fun hworks => ⟨fun hstop => ⟨fun heq => ?_, ?_⟩,
    fun hstop => ?_⟩⟩⟩
  · exact absurd ((Bool.not_eq_true' _ ▸ hno : s.live = false).symm.trans h) Bool.noConfusion
  · exact NodeError.noConfusion (LiveError.node.inj heq)
  · rw [h, hfailed, Bool.true_or]
  · exact NodeError.noConfusion (LiveError.node.inj heq)
  · rw [h, hstop, Bool.or_true]
  · rw [hworks, hstop]
    exact wp_mono (wp_and (maintains_runStatements statements core _ rfl) (raises_runStatements statements core _))
      (fun _ _ h => h.1) fun _ _ h => ⟨h.2, h.1⟩

/-- A rollback of an open transaction lowers the flag, whether SQLite rolls back or not. -/
theorem wp_rollbackLive (rolledBack : Bool) (stale : List WalFrame) (h : s.live = true) :
    wp (rollbackLiveTransaction rolledBack stale) (fun _ s' => rolledBack = true ∧ s'.live = false)
      (fun e s' => e ≠ .node .noTransaction ∧ rolledBack = false ∧ s'.live = false) s := by
  simp only [rollbackLiveTransaction, rollbackLive, wp_bind, wp_get, wp_modify, wp_onMachine, wp_refuseIf,
    wp_setNode]
  refine ⟨fun hno => ?_, fun _ => ⟨fun hfailed => ⟨fun heq => ?_, ?_, rfl⟩, fun hdone => ⟨?_, rfl⟩⟩⟩
  · exact absurd ((Bool.not_eq_true' _ ▸ hno : s.live = false).symm.trans h) Bool.noConfusion
  · exact NodeError.noConfusion (LiveError.node.inj heq)
  · exact (Bool.not_eq_true' _).mp hfailed
  · exact (Bool.not_eq_false' _).mp hdone

end Native

/-! ### Calls -/

/-- From this connection an operation raises and leaves the connection apart from its node if the condition holds, and
otherwise the two stay together, whether it returns or raises. -/
def Severing {α : Type} (P : Prop) (c : Connection) (x : PyOp α) : Prop :=
  wp x (fun _ c' => ¬ P ∧ Mirrors c') (fun _ c' => Mirrors c' ↔ ¬ P) c

section Severing

variable {α β : Type} {P Q : Prop} {c : Connection}

theorem severing_congr {x : PyOp α} (h : P ↔ Q) : Severing P c x ↔ Severing Q c x := by
  rw [propext h]

theorem severing_of_maintains {x : PyOp α} (hc : Mirrors c) (hP : ¬ P) (hx : Maintains Mirrors x) :
    Severing P c x :=
  wp_mono (hx c hc) (fun _ _ h => ⟨hP, h⟩) fun _ _ h => ⟨fun _ => hP, fun _ => h⟩

theorem Severing.bind {x : PyOp α} {f : α → PyOp β} (hx : Severing P c x) (hf : ∀ r, Maintains Mirrors (f r)) :
    Severing P c (x >>= f) := by
  rw [Severing, wp_bind]
  exact wp_mono hx (fun r c' h => severing_of_maintains h.2 h.1 (hf r)) fun _ _ h => h

theorem severing_ite {p : Prop} [Decidable p] {x y : PyOp α} (hx : p → Severing P c x) (hy : ¬ p → Severing P c y) :
    Severing P c (if p then x else y) := by
  split
  · exact hx ‹_›
  · exact hy ‹_›

theorem Mirrors.setNode (hc : Mirrors c) {s : LiveNode} (h : s.live = c.node.live) : Mirrors { c with node := s } :=
  ⟨hc.flag.trans h.symm, hc.handle⟩

theorem maintains_native {x : LiveOp α} (h : Keeps LiveNode.live x) : Maintains Mirrors (native x) := by
  intro c hc
  rw [wp_native]
  exact wp_mono (h c.node) (fun _ _ heq => hc.setNode heq) fun _ _ heq => hc.setNode heq

end Severing

section Methods

variable (a : Answers)

theorem maintains_check : Maintains Mirrors (check a) :=
  maintains_get.bind fun _ => (maintains_throw _).ite (maintains_pure ())

theorem maintains_enter : Maintains Mirrors (enter a) :=
  (maintains_pure ()).ite (maintains_throw _)

theorem maintains_beginIfNeeded : Maintains Mirrors (beginIfNeeded a) := by
  refine maintains_get.bind fun c => (maintains_pure ()).ite fun c hc => ?_
  rw [wp_bind, wp_native]
  refine wp_mono (wp_liveBegin a c.node) (fun _ s h => ?_) fun _ s h => hc.setNode h.2
  exact ⟨h.2.1.symm, hc.handle⟩

theorem maintains_savepointControl : Maintains Mirrors (savepointControl a) :=
  (maintains_check a).bind fun _ => (maintains_enter a).bind fun _ =>
    maintains_native (keeps_live_savepointControl _)

theorem maintains_savepoint : Maintains Mirrors (DbApi.savepoint a) := by
  refine (maintains_check a).bind fun _ => maintains_get.bind fun c => Maintains.ite ?_ (maintains_throw _)
  refine (maintains_enter a).bind fun _ => (maintains_beginIfNeeded a).bind fun _ => ?_
  exact maintains_native (keeps_live_savepointControl _)

variable {α : Type} {a} {c : Connection} {P : Prop}

theorem checked_iff : ¬ (c.closed || !a.sameThread) = true ↔ c.closed = false ∧ a.sameThread = true := by
  rw [Bool.not_eq_true, Bool.or_eq_false_iff, Bool.not_eq_false']

/-- What a call that is not let in leaves undone severs nothing. -/
theorem severing_entered {x : PyOp α} (hc : Mirrors c) (hP : P → Entered a c) (h : Entered a c → Severing P c x) :
    Severing P c (check a >>= fun _ => enter a >>= fun _ => x) := by
  simp only [Severing, check, enter, wp_bind, wp_get, wp_ite, wp_throw, wp_pure]
  refine ⟨fun hno => ⟨fun _ hp => ?_, fun _ => hc⟩, fun hchecked => ⟨fun hlane => h ?_, fun hlane => ⟨fun _ hp => ?_,
    fun _ => hc⟩⟩⟩
  · exact checked_iff.2 ⟨(hP hp).opened, (hP hp).sameThread⟩ hno
  · obtain ⟨hopen, hthread⟩ := checked_iff.1 hchecked
    exact ⟨hopen, hthread, hlane⟩
  · exact hlane (hP hp).admitted

/-- The description of a statement is the first thing a call reads. -/
theorem severing_described {f : Description → PyOp α} (hc : Mirrors c)
    (hP : P → ∃ d, a.description = some d ∧ ServesReads c.node.machine)
    (h : ∀ d s, a.description = some d → ServesReads c.node.machine → Rested c.node.machine s.machine →
      Mirrors { c with node := s } → Severing P { c with node := s } (f d)) :
    Severing P c (native (readLive a.description) >>= f) := by
  rw [Severing, wp_bind, wp_native]
  refine wp_mono (wp_and (wp_readLive a.description c.node) (keeps_live_readLive a.description c.node))
    (fun d s hs => h d s hs.1.1 hs.1.2.1 hs.1.2.2 (hc.setNode hs.2)) fun _ s hs =>
      ⟨fun _ hp => ?_, fun _ => hc.setNode hs.2⟩
  obtain ⟨d, hd, hserves⟩ := hP hp
  exact hs.1 (hd ▸ rfl) hserves

theorem wp_lookups (h : Served c.node.machine) (lookups : List (Option Unit)) :
    wp (lookups.forM fun lookup => native (readLive lookup))
      (fun _ c' => (∀ lookup ∈ lookups, lookup.isSome = true) ∧ c' = c)
      (fun _ c' => ¬ (∀ lookup ∈ lookups, lookup.isSome = true) ∧ c' = c) c := by
  induction lookups with
  | nil => exact ⟨List.forall_mem_nil _, rfl⟩
  | cons lookup lookups ih =>
    change wp (native (readLive lookup) >>= fun _ => lookups.forM _) _ _ _
    rw [wp_bind, wp_native]
    refine wp_mono (h.wp_readLive lookup) ?_ ?_
    · rintro r s ⟨rfl, rfl⟩
      refine wp_mono ih (fun _ c' h' => ⟨?_, h'.2⟩) fun _ c' h' => ⟨fun hall => h'.1 ?_, h'.2⟩
      · exact List.forall_mem_cons.2 ⟨rfl, h'.1⟩
      · exact (List.forall_mem_cons.1 hall).2
    · rintro e s ⟨rfl, rfl⟩
      exact ⟨fun hall => Bool.false_ne_true (List.forall_mem_cons.1 hall).1, rfl⟩

theorem severing_resolved {x : PyOp α} (hc : Mirrors c) (hserved : Served c.node.machine) (hP : P → Resolved a)
    (h : Resolved a → Severing P c x) : Severing P c (resolveParameters a >>= fun _ => x) := by
  simp only [Severing, resolveParameters, wp_bind]
  refine wp_mono (wp_lookups hserved a.lookups) ?_ ?_
  · rintro _ _ ⟨hall, rfl⟩
    rw [wp_ite]
    exact ⟨fun hfits => h ⟨hall, hfits⟩, fun hmisfits => ⟨fun _ hp => hmisfits (hP hp).2, fun _ => hc⟩⟩
  · rintro _ _ ⟨hmissing, rfl⟩
    exact ⟨fun _ hp => hmissing (hP hp).1, fun _ => hc⟩

/-- The transaction a statement is executed in: the one that is open, or one begun for it. -/
theorem severing_begun {x : PyOp α} (hc : Mirrors c) (hserved : Served c.node.machine)
    (hP : P → c.inTx = true ∨ Begins a c.node.machine.node)
    (h : (c.inTx = true ∨ Begins a c.node.machine.node) → ∀ c', Mirrors c' → c'.inTx = true →
      c'.node.machine.node.fatalStorageError = false → Severing P c' x) :
    Severing P c (beginIfNeeded a >>= fun _ => x) := by
  simp only [Severing, beginIfNeeded, wp_bind, wp_get, wp_ite, wp_pure, wp_native, wp_modify]
  refine ⟨fun htx => h (.inl htx) c hc htx hserved.working, fun hno => ?_⟩
  have hidle : c.node.live = false := hc.flag.symm.trans ((Bool.not_eq_true _).mp hno)
  refine wp_mono (wp_liveBegin a c.node) (fun _ s hs => ?_) fun _ s hs => ⟨fun _ hp => ?_, fun _ => hc.setNode hs.2⟩
  · rw [due_of_settled hserved.settled] at hs
    exact h (.inr hs.1) _ ⟨hs.2.1.symm, hc.handle⟩ rfl hs.2.2
  · rw [due_of_settled hserved.settled] at hs
    exact hs.1 hidle hserved ((hP hp).resolve_left hno)

theorem severing_liveExecute (hc : Mirrors c) (htx : c.inTx = true)
    (hworks : c.node.machine.node.fatalStorageError = false) (outcome : StatementOutcome) :
    Severing (endsFirst [outcome] = true) c (native (liveExecute outcome)) := by
  have hlive : c.node.live = true := hc.flag.symm.trans htx
  rw [Severing, wp_native]
  refine wp_mono (wp_liveExecute hlive hworks outcome) ?_ fun _ s hs => ⟨fun hm hends => ?_, fun hends => hc.setNode ?_⟩
  · rintro _ s ⟨⟨stale, rfl⟩, hs⟩
    exact ⟨Bool.false_ne_true, hc.setNode (congrArg Machine.liveFlag hs)⟩
  · rw [hends] at hs
    exact Bool.false_ne_true (hs.2.symm.trans (hm.flag.symm.trans htx))
  · rw [hs.2, hlive, (Bool.not_eq_true _).mp hends, Bool.not_false]

/-- Statements one after the other, up to the first that fails. -/
theorem severing_outcomes (hc : Mirrors c) (htx : c.inTx = true)
    (hworks : c.node.machine.node.fatalStorageError = false) (outcomes : List StatementOutcome) :
    Severing (endsFirst outcomes = true) c (outcomes.forM fun outcome => native (liveExecute outcome)) := by
  induction outcomes generalizing c with
  | nil => exact ⟨Bool.false_ne_true, hc⟩
  | cons outcome outcomes ih =>
    have hlive : c.node.live = true := hc.flag.symm.trans htx
    have hfirst := severing_liveExecute hc htx hworks outcome
    change Severing _ c (native (liveExecute outcome) >>= fun _ => outcomes.forM _)
    rw [Severing, wp_native] at hfirst
    rw [Severing, wp_bind, wp_native]
    refine wp_mono (wp_and hfirst (wp_liveExecute hlive hworks outcome)) ?_ fun _ s hs => ?_
    · rintro _ s ⟨hs, ⟨stale, rfl⟩, hmachine⟩
      exact ih hs.2 htx (hmachine ▸ hworks)
    · cases outcome with
      | done stale => exact absurd rfl (hs.2.1 stale)
      | failed stale => exact hs.1
      | ended stale => exact hs.1

theorem severing_commitNative (hc : Mirrors c) (htx : c.inTx = true) :
    Severing (CommitLost a c.node) c (commitNative a) := by
  have hlive : c.node.live = true := hc.flag.symm.trans htx
  rw [Severing, commitNative, wp_bind, wp_native]
  refine wp_mono (wp_and (wp_self _ c.node) (wp_commitLive a.stopPending a.commit a.core hlive)) (fun slot s hs => ?_)
    fun e s hs => ⟨fun hm hlost => ?_, fun hkept => hc.setNode ?_⟩
  · refine ⟨fun hlost => ?_, hs.2.symm, hc.handle⟩
    obtain ⟨-, -, e, s', hfails⟩ := hlost
    cases hfails.symm.trans hs.1
  · rw [hlost.1, hlost.2.1] at hs
    exact Bool.false_ne_true (hs.2.2.symm.trans (hm.flag.symm.trans htx))
  · rw [hs.2.2, hlive, Bool.or_eq_true_iff]
    by_contra! hpassed
    exact hkept ⟨(Bool.not_eq_true _).mp hpassed.1, (Bool.not_eq_true _).mp hpassed.2, e, s, hs.1⟩

/-- `commit` and `rollback`, for what they do of a transaction. -/
theorem severing_finishing {x : PyOp Unit} (hc : Mirrors c) (hx : c.inTx = true → Severing P c x) :
    Severing (Finishing a c ∧ P) c (do
      check a
      let c ← get
      if c.transactional && c.inTx then
        enter a
        x
      else pure ()) := by
  simp only [Severing, check, enter, wp_bind, wp_get, wp_ite, wp_throw, wp_pure, Bool.and_eq_true]
  refine ⟨fun hno => ⟨fun _ hp => ?_, fun _ => hc⟩, fun hchecked => ⟨fun htx => ⟨fun hlane => ?_, fun hlane => ?_⟩,
    fun hidle => ⟨fun hp => hidle ⟨hp.1.transactional, hp.1.inTx⟩, hc⟩⟩⟩
  · exact checked_iff.2 ⟨hp.1.opened, hp.1.sameThread⟩ hno
  · obtain ⟨hopen, hthread⟩ := checked_iff.1 hchecked
    have hfinishing : Finishing a c := ⟨⟨hopen, hthread, hlane⟩, htx.1, htx.2⟩
    exact (severing_congr (and_iff_right hfinishing)).2 (hx htx.2)
  · exact ⟨fun _ hp => hlane hp.1.admitted, fun _ => hc⟩

theorem severing_commit (hc : Mirrors c) : Severing (Finishing a c ∧ CommitLost a c.node) c (commit a) :=
  severing_finishing hc fun htx => severing_commitNative hc htx

theorem severing_rollback (hc : Mirrors c) : Severing (Finishing a c ∧ a.rolledBack = false) c (rollback a) := by
  refine severing_finishing hc fun htx => ?_
  have hlive : c.node.live = true := hc.flag.symm.trans htx
  rw [Severing, wp_bind, wp_native]
  refine wp_mono (wp_rollbackLive a.rolledBack a.stale hlive) (fun _ s hs => ?_) fun _ s hs => ?_
  · exact ⟨fun hfailed => Bool.false_ne_true (hfailed.symm.trans hs.1), hs.2.symm, hc.handle⟩
  · exact ⟨fun hm => absurd (hs.2.2.symm.trans (hm.flag.symm.trans htx)) Bool.false_ne_true, fun h => absurd hs.2.1 h⟩

theorem severing_exit (hc : Mirrors c) (raised : Bool) :
    Severing (Finishing a c ∧ if raised then a.rolledBack = false else CommitLost a c.node) c (exit a raised) := by
  rw [Severing, DbApi.exit, wp_bind, wp_get, wp_ite]
  refine ⟨fun hclosed => ⟨fun hp => ?_, hc⟩, fun _ => ?_⟩
  · exact Bool.false_ne_true (hp.1.opened.symm.trans hclosed)
  · cases raised with
    | false => exact severing_commit hc
    | true => exact severing_rollback hc

/-- A close whose rollback fails leaves the handle open. -/
theorem severing_close (hc : Mirrors c) : Severing (Finishing a c ∧ a.rolledBack = false) c (close a) := by
  simp only [Severing, close, check, enter, wp_bind, wp_get, wp_modify, wp_ite, wp_onError, wp_pure, wp_throw,
    wp_native, Bool.and_eq_true]
  refine ⟨fun hclosed => ⟨fun hp => ?_, hc⟩, fun _ => ⟨fun hno => ⟨fun _ hp => ?_, fun _ => hc⟩,
    fun hlet => ⟨fun hlane => ⟨fun htx => ?_, fun hidle => ⟨fun hp => ?_, hc.flag, rfl⟩⟩, fun hlane => ?_⟩⟩⟩
  · exact Bool.false_ne_true (hp.1.opened.symm.trans hclosed)
  · exact checked_iff.2 ⟨hp.1.opened, hp.1.sameThread⟩ hno
  · obtain ⟨hopen, hthread⟩ := checked_iff.1 hlet
    have hlive : c.node.live = true := hc.flag.symm.trans htx.2
    have hhandle : c.handleOpen = true := by
      rw [hc.handle, hopen, Bool.not_false]
    have hfinishing : Finishing a c := ⟨⟨hopen, hthread, hlane⟩, htx.1, htx.2⟩
    refine wp_mono (wp_rollbackLive a.rolledBack a.stale hlive) (fun _ s hs => ?_) fun _ s hs => ?_
    · exact ⟨fun hp => Bool.false_ne_true (hp.2.symm.trans hs.1), hs.2.symm, rfl⟩
    · exact ⟨fun hm => absurd (hhandle.symm.trans hm.handle) Bool.noConfusion, fun h => absurd ⟨hfinishing, hs.2.1⟩ h⟩
  · exact hidle ⟨hp.1.transactional, hp.1.inTx⟩
  · exact ⟨fun _ hp => hlane hp.1.admitted, fun _ => hc⟩

theorem severing_cursorExecute (hc : Mirrors c) (outcome : StatementOutcome) :
    Severing (∃ d, Reaches a c d ∧ endsFirst [outcome] = true) c (cursorExecute a outcome) := by
  refine severing_entered hc (fun ⟨_, h, _⟩ => h.entered) fun hentered => ?_
  refine severing_described hc (fun ⟨d, h, _⟩ => ⟨d, h.described, h.reads⟩) fun d s hd hserves hrested hc₁ => ?_
  have hsame {d'} (h : Reaches a c d') : d' = d := Option.some.inj (h.described.symm.trans hd)
  refine severing_ite (fun htail => ?_) fun hwhole => ?_
  · refine severing_of_maintains hc₁ ?_ (maintains_throw _)
    rintro ⟨d', h, -⟩
    exact Bool.false_ne_true (h.whole.symm.trans (hsame h ▸ htail))
  refine severing_resolved hc₁ (served_of_rested hrested hserves) (fun ⟨_, h, _⟩ => h.resolved) fun hresolved => ?_
  refine severing_ite (fun hlive => ?_) fun hdirect => ?_
  · have hbegins (h : c.inTx = true ∨ Begins a s.machine.node) : Reaches a c d := by
      rw [Bool.and_eq_true, Bool.or_eq_true, Bool.not_eq_true'] at hlive
      refine ⟨hentered, hd, (Bool.not_eq_true _).mp hwhole, hserves, hresolved, hlive.1, ?_⟩
      rw [← begins_iff_of_rested hrested]
      by_cases htx : c.inTx = true
      · exact .inl htx
      · exact .inr ⟨hlive.2.resolve_left htx, h.resolve_left htx⟩
    refine severing_begun hc₁ (served_of_rested hrested hserves) ?_ fun h c₂ hc₂ htx hworks => ?_
    · rintro ⟨d', h, -⟩
      exact h.transaction.imp_right fun h => (begins_iff_of_rested hrested).2 h.2
    · have hiff : endsFirst [outcome] = true ↔ ∃ d, Reaches a c d ∧ endsFirst [outcome] = true :=
        ⟨fun hends => ⟨d, hbegins h, hends⟩, fun ⟨_, _, hends⟩ => hends⟩
      exact (severing_congr hiff).1 (severing_liveExecute hc₂ htx hworks outcome)
  · have hnone : ¬ ∃ d, Reaches a c d ∧ endsFirst [outcome] = true := by
      rintro ⟨d', h, -⟩
      obtain rfl := hsame h
      refine hdirect (Bool.and_eq_true_iff.2 ⟨h.transactional, Bool.or_eq_true_iff.2 ?_⟩)
      exact h.transaction.imp_right fun h => by rw [h.1, Bool.not_false]
    refine severing_of_maintains hc₁ hnone ?_
    exact (maintains_native (keeps_live_readLive _)).ite (maintains_native (keeps_live_writeLive _))

theorem severing_cursorExecutemany (hc : Mirrors c) (outcomes : List StatementOutcome) :
    Severing (∃ d, Reaches a c d ∧ d.readOnly = false ∧ endsFirst outcomes = true) c
      (cursorExecutemany a outcomes) := by
  refine severing_entered hc (fun ⟨_, h, _⟩ => h.entered) fun hentered => ?_
  refine severing_described hc (fun ⟨d, h, _⟩ => ⟨d, h.described, h.reads⟩) fun d s hd hserves hrested hc₁ => ?_
  have hsame {d'} (h : Reaches a c d') : d' = d := Option.some.inj (h.described.symm.trans hd)
  refine severing_ite (fun hrefused => ?_) fun hwrites => ?_
  · refine severing_of_maintains hc₁ ?_ (maintains_throw _)
    rintro ⟨d', h, hwrites, -⟩
    obtain rfl := hsame h
    rw [h.whole, hwrites] at hrefused
    cases hrefused
  rw [Bool.not_eq_true, Bool.or_eq_false_iff] at hwrites
  refine severing_resolved hc₁ (served_of_rested hrested hserves) (fun ⟨_, h, _⟩ => h.resolved) fun hresolved => ?_
  refine severing_ite (fun hempty => ?_) fun _ => ?_
  · refine severing_of_maintains hc₁ ?_ (maintains_pure ())
    rintro ⟨d', -, -, hends⟩
    rw [List.isEmpty_iff.1 hempty] at hends
    cases hends
  refine severing_ite (fun htransactional => ?_) fun hauto => ?_
  · refine severing_begun hc₁ (served_of_rested hrested hserves) ?_ fun h c₂ hc₂ htx hworks => ?_
    · rintro ⟨d', h, -⟩
      exact h.transaction.imp_right fun h => (begins_iff_of_rested hrested).2 h.2
    · have hreaches : Reaches a c d :=
        ⟨hentered, hd, hwrites.1, hserves, hresolved, htransactional,
          h.imp_right fun h => ⟨hwrites.2, (begins_iff_of_rested hrested).1 h⟩⟩
      have hiff : endsFirst outcomes = true ↔ ∃ d, Reaches a c d ∧ d.readOnly = false ∧ endsFirst outcomes = true :=
        ⟨fun hends => ⟨d, hreaches, hwrites.2, hends⟩, fun ⟨_, _, _, hends⟩ => hends⟩
      exact (severing_congr hiff).1 (severing_outcomes hc₂ htx hworks outcomes)
  · refine severing_of_maintains hc₁ ?_ (maintains_native (keeps_live_writeLive _))
    rintro ⟨d', h, -⟩
    exact hauto h.transactional

theorem severing_cursorExecutescript (hc : Mirrors c) :
    Severing (Finishing a c ∧ CommitLost a c.node) c (cursorExecutescript a) := by
  refine severing_entered hc (fun h => h.1.toEntered) fun hentered => ?_
  have hwrite : Maintains Mirrors (native (writeLive a.write)) := maintains_native (keeps_live_writeLive _)
  refine severing_ite (fun hopen => ?_) fun hidle => severing_of_maintains hc (fun h => ?_) hwrite
  · rw [Bool.and_eq_true] at hopen
    have hfinishing : Finishing a c := ⟨hentered, hopen.1, hopen.2⟩
    exact ((severing_congr (and_iff_right hfinishing)).2 (severing_commitNative hc hopen.2)).bind fun _ => hwrite
  · exact hidle (Bool.and_eq_true_iff.2 ⟨h.1.transactional, h.1.inTx⟩)

end Methods

theorem severing_run {c : Connection} (hc : Mirrors c) (a : Answers) (call : Call) :
    Severing (call.Severs a c) c (call.run a) := by
  cases call with
  | execute outcome => exact severing_cursorExecute hc outcome
  | executemany outcomes => exact severing_cursorExecutemany hc outcomes
  | executescript => exact severing_cursorExecutescript hc
  | savepoint => exact severing_of_maintains hc id (maintains_savepoint a)
  | releaseSavepoint => exact severing_of_maintains hc id (maintains_savepointControl a)
  | rollbackToSavepoint => exact severing_of_maintains hc id (maintains_savepointControl a)
  | commit => exact severing_commit hc
  | rollback => exact severing_rollback hc
  | exit raised => exact severing_exit hc raised
  | close => exact severing_close hc

/-! ### What follows of a connection that mirrors its node -/

section Mirrors

variable (a : Answers) {c : Connection}

theorem commit_finds (hc : Mirrors c) :
    wp (commit a) (fun _ _ => True) (fun e _ => e ≠ .native (.node .noTransaction)) c := by
  simp only [commit, check, enter, commitNative, wp_bind, wp_get, wp_modify, wp_ite, wp_pure, wp_throw, wp_native]
  refine ⟨fun _ => PyError.noConfusion, fun _ => ⟨fun htx => ⟨fun _ => ?_, fun _ => PyError.noConfusion⟩,
    fun _ => trivial⟩⟩
  have hlive : c.node.live = true := hc.flag.symm.trans (Bool.and_eq_true_iff.mp htx).2
  refine wp_mono (wp_commitLive a.stopPending a.commit a.core hlive) (fun _ _ _ => trivial) fun _ _ h heq => ?_
  exact h.1 (PyError.native.inj heq)

theorem rollback_finds (hc : Mirrors c) :
    wp (rollback a) (fun _ _ => True) (fun e _ => e ≠ .native (.node .noTransaction)) c := by
  simp only [rollback, check, enter, wp_bind, wp_get, wp_modify, wp_ite, wp_pure, wp_throw, wp_native]
  refine ⟨fun _ => PyError.noConfusion, fun _ => ⟨fun htx => ⟨fun _ => ?_, fun _ => PyError.noConfusion⟩,
    fun _ => trivial⟩⟩
  have hlive : c.node.live = true := hc.flag.symm.trans (Bool.and_eq_true_iff.mp htx).2
  refine wp_mono (wp_rollbackLive a.rolledBack a.stale hlive) (fun _ _ _ => trivial) fun _ _ h heq => ?_
  exact h.1 (PyError.native.inj heq)

theorem finishes_finds (hc : Mirrors c) {call : Call} (hcall : call.finishes = true) :
    wp (call.run a) (fun _ _ => True) (fun e _ => e ≠ .native (.node .noTransaction)) c := by
  cases call with
  | commit => exact commit_finds a hc
  | rollback => exact rollback_finds a hc
  | exit raised =>
    rw [Call.run, DbApi.exit, wp_bind, wp_get, wp_ite]
    refine ⟨fun _ => trivial, fun _ => ?_⟩
    cases raised with
    | false => exact commit_finds a hc
    | true => exact rollback_finds a hc
  | execute outcome => exact Bool.noConfusion hcall
  | executemany outcomes => exact Bool.noConfusion hcall
  | executescript => exact Bool.noConfusion hcall
  | savepoint => exact Bool.noConfusion hcall
  | releaseSavepoint => exact Bool.noConfusion hcall
  | rollbackToSavepoint => exact Bool.noConfusion hcall
  | close => exact Bool.noConfusion hcall

theorem close_closed (hthread : a.sameThread = true) (hlane : a.admitted = true) :
    (Call.apply a .close c).closed = true := by
  have hclosed (c' : Connection) : wp (native (rollbackLiveTransaction a.rolledBack a.stale))
      (fun _ c => c.closed = c'.closed) (fun _ c => c.closed = c'.closed) c' := by
    rw [wp_native]
    exact wp_mono (wp_self _ _) (fun _ _ _ => rfl) fun _ _ _ => rfl
  refine finalState_of_wp (P := fun c : Connection => c.closed = true) ?_
  simp only [Call.run, close, check, enter, hlane, hthread, wp_bind, wp_get, wp_modify, wp_ite, wp_onError, wp_pure,
    wp_throw]
  refine ⟨id, fun hopen => ⟨fun hc => ?_, fun _ => ⟨fun _ => ⟨fun _ => ?_, fun _ => trivial⟩, fun h => ?_⟩⟩⟩
  · exact absurd ((Bool.or_false _).symm.trans hc) hopen
  · exact wp_mono (hclosed _) (fun _ _ heq => heq) fun _ _ heq => heq
  · exact absurd trivial h

/-- A call keeps the connection with its node exactly when it does not sever them. -/
theorem mirrors_apply_iff (hc : Mirrors c) (call : Call) : Mirrors (call.apply a c) ↔ ¬ call.Severs a c := by
  refine finalState_of_wp (P := fun c' => Mirrors c' ↔ ¬ call.Severs a c) ?_
  exact wp_mono (severing_run hc a call) (fun _ _ h => iff_of_true h.2 h.1) fun _ _ h => h

end Mirrors

/-! ### Runs -/

theorem Mirrored.mirrors {c : Connection} {calls : List (Call × Answers)} (h : Mirrored c calls) : Mirrors c := by
  cases calls with
  | nil => exact h
  | cons call calls => exact h.1

theorem mirrored_iff_of_mirrors {c : Connection} (hc : Mirrors c) (calls : List (Call × Answers)) :
    Mirrored c calls ↔ Unsevered c calls := by
  induction calls generalizing c with
  | nil => exact iff_of_true hc trivial
  | cons call calls ih =>
    obtain ⟨call, a⟩ := call
    have hnext := mirrors_apply_iff a hc call
    constructor
    · rintro ⟨-, -, -, hrest⟩
      exact ⟨hnext.1 hrest.mirrors, (ih hrest.mirrors).1 hrest⟩
    · rintro ⟨hkept, hrest⟩
      have hc' := hnext.2 hkept
      refine ⟨hc, fun hcall c' heq => ?_, ?_, (ih hc').2 hrest⟩
      · have hfinds := finishes_finds a hc hcall
        rw [wp, heq] at hfinds
        exact hfinds rfl
      · rintro rfl hthread hlane
        rw [hc'.handle, close_closed a hthread hlane, Bool.not_true]

/-- **The connection mirrors its node throughout a run exactly when no native call of the run fails where it
ends the live transaction all the same: a statement whose error rolls everything back, a commit past the checks
that refuse it, a rollback that SQLite fails.** -/
theorem mirrored_iff_unsevered (s : LiveNode) (transactional : Bool) (calls : List (Call × Answers)) :
    Mirrored (opened s transactional) calls ↔ Unsevered (opened s transactional) calls :=
  mirrored_iff_of_mirrors ⟨rfl, rfl⟩ calls

/-! ### A session that loses its transaction -/

/-- A node of one member that has just started. -/
def loneNode : LiveNode :=
  .start (Machine.fresh { sampleConfig with single := true } 8)

/-- Calls whose native calls all succeed on a write statement. -/
def served : Answers where
  sameThread := true
  admitted := true
  description := some ⟨false, false⟩
  resolved := true
  lookups := []
  stopPending := false
  begun := true
  commit := .rolledBack []
  core := fun _ _ => .refused
  rolledBack := true
  stale := []
  served := true
  write := ⟨⟨false, true, false, 1⟩, .rolledBack [], fun _ _ => .refused⟩

/-- An insert whose conflict rolls the whole transaction back. -/
def conflicting : List (Call × Answers) :=
  [(.execute (.ended []), served)]

/-- After an insert that rolls the whole transaction back the connection still notes one: a rollback fails
because there is none, and a close leaves the handle open. -/
theorem conflict_outlives_transaction :
    ¬ Mirrored (opened loneNode true) conflicting ∧
      (after (opened loneNode true) conflicting).inTx = true ∧
      (after (opened loneNode true) conflicting).node.live = false ∧
      (∃ c, rollback served (after (opened loneNode true) conflicting) =
        .error (.native (.node .noTransaction)) c) ∧
      (after (opened loneNode true) (conflicting ++ [(.close, served)])).closed = true ∧
      (after (opened loneNode true) (conflicting ++ [(.close, served)])).handleOpen = true := by
  refine ⟨fun h => ?_, rfl, rfl, ⟨_, rfl⟩, rfl, rfl⟩
  exact Bool.noConfusion (Mirrored.mirrors h.2.2.2).flag

end DbApi

end Zaxonlite
