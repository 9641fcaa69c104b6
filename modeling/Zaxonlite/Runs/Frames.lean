import Zaxonlite.Node.LiveWriter
import Zaxonlite.Runs.Speculative

/-!
# Captured frames

What a leader replicates for a transaction is what it reads back from SQLite's WAL, between two frame
counters. Over runs that mix requests, live transactions, anchors that fail at any step, chosen entries
and resyncs, the live image is the fold of the chosen batches and then the captured one, and the frames
read back are the transaction's own, as long as no transaction starts the WAL over under counters that
still count the frames before. A checkpoint that reports an error after it copied every frame leaves the
counters behind, and the next transaction loses its first frames without any check noticing.
-/

namespace Zaxonlite

open Program Contiguous Run

namespace LiveAction

variable {databaseId : ℕ}

/-- What SQLite, the core and the host see to. Batch identities are drawn at random, the core hands over
chosen entries in order, and statements of a live transaction run on an open connection. -/
def Allowed (L : ChosenLog databaseId) (a : LiveAction) (s : LiveNode) : Prop :=
  match a with
  | .effects round => s.machine.node.fatalStorageError = false ∧ CoreEffects L s.machine round
  | .payload _ => True
  | .reclaim => s.machine.node.fatalStorageError = false
  | .openWriter =>
    s.machine.node.fatalStorageError = false ∧ s.machine.node.needsResync = false
  | .anchor run _ => ∀ changes complete, run = .failed changes complete → s.Copies changes complete
  | .write _ statements core => (∀ t run, statements = .committed t run → Drawn L t.captured) ∧
      ∀ m batch, AppendOk L m batch (core m batch)
  | .beginLive _ => True
  | .liveExec _ _ => s.machine.node.dbOpen = true
  | .commitLive _ statements core => s.machine.node.dbOpen = true ∧
      (∀ t run, statements = .committed t run → Drawn L t.captured) ∧
        ∀ m batch, AppendOk L m batch (core m batch)
  | .rollbackLive _ _ => s.machine.node.dbOpen = true
  | .resync => s.machine.node.fatalStorageError = false

/-- The condition: a resync closes cleanly, and no transaction starts the WAL over while the counters
count frames of the one before. -/
def Spared (L : ChosenLog databaseId) (a : LiveAction) (s : LiveNode) : Prop :=
  match a with
  | .anchor _ _ => s.machine.node.needsResync = true → CleanClose L s.machine.disk
  | .beginLive _ => s.machine.node.needsResync = true → CleanClose L s.machine.disk
  | .write _ statements _ => (s.machine.node.needsResync = true → CleanClose L s.machine.disk) ∧
      ∀ t run, statements = .committed t run →
        ¬ (s.machine.node.needsResync = false ∧ s.StaleRestart t run)
  | .commitLive _ statements _ => ∀ t run, statements = .committed t run → ¬ s.StaleRestart t run
  | .resync => CleanClose L s.machine.disk
  | _ => True

end LiveAction

/-- The states a node may open its connection in. -/
def LiveStart (config : Config) (L : ChosenLog config.identity.databaseId) (s : LiveNode) : Prop :=
  ∃ m, LeaderSafe config L m ∧ m.node.dbOpen = false ∧ s = .start m

/-- A step of a data voter with its live connection. -/
def LiveStep (config : Config) (L : ChosenLog config.identity.databaseId) (s s' : LiveNode) : Prop :=
  ∃ a : LiveAction, a.Allowed L s ∧ s' = a.apply s

/-- A step that meets the condition. -/
def SparedStep (config : Config) (L : ChosenLog config.identity.databaseId) (s s' : LiveNode) :
    Prop :=
  ∃ a : LiveAction, a.Allowed L s ∧ a.Spared L s ∧ s' = a.apply s

/-- The node is safe and the files of its connection are in step with it. -/
structure LiveSafe (config : Config) (L : ChosenLog config.identity.databaseId) (s : LiveNode) :
    Prop where
  safe : LeaderSafe config L s.machine
  aligned : Aligned s

section Steps

variable {config : Config} {L : ChosenLog config.identity.databaseId} {s s' : LiveNode}

theorem liveSafe_start (h : LiveStart config L s) : LiveSafe config L s := by
  obtain ⟨m, hsafe, hclosed, rfl⟩ := h
  exact ⟨hsafe, aligned_start hclosed⟩

theorem LiveOutcome.liveSafe
    (h : LiveOutcome L config.role.capabilities config.identity.configurationId s) :
    LiveSafe config L s.atRest :=
  ⟨h.1.safe, h.2.atRest⟩

/-- A failed node that leaves its disk alone. -/
def HaltedLive (s s' : LiveNode) : Prop :=
  Halted s.machine s'.machine ∧ Aligned s'

theorem LiveSafe.halted (h : LiveSafe config L s) (hhalted : HaltedLive s s') :
    LiveSafe config L s'.atRest :=
  ⟨h.safe.halted hhalted.1, hhalted.2.atRest⟩

theorem LiveSafe.inStep (h : LiveSafe config L s) (hlive : s.machine.node.fatalStorageError = false) :
    ∃ lo n, Coupled L config.role.capabilities config.identity.configurationId lo n s := by
  obtain ⟨lo, -, hserves⟩ := h.safe.state
  obtain ⟨n, hserving⟩ := hserves hlive
  exact ⟨lo, n, hserving, h.aligned⟩

/-- An operation keeps a node safe if it does so for one that serves, and leaves a failed one alone. -/
theorem LiveSafe.run {α : Type} {x : LiveOp α} (h : LiveSafe config L s)
    (hfatal : s.machine.node.fatalStorageError = true →
      wp x (fun _ => HaltedLive s) (fun _ => HaltedLive s) s)
    (hx : ∀ lo n, Coupled L config.role.capabilities config.identity.configurationId lo n s →
      wp x (fun _ => LiveOutcome L config.role.capabilities config.identity.configurationId)
        (fun _ => LiveOutcome L config.role.capabilities config.identity.configurationId) s) :
    LiveSafe config L (finalState x s).atRest := by
  cases hcase : s.machine.node.fatalStorageError with
  | false =>
    obtain ⟨lo, n, hstep⟩ := h.inStep hcase
    exact (finalState_of_wp (hx lo n hstep)).liveSafe
  | true => exact h.halted (finalState_of_wp (hfatal hcase))

theorem LiveSafe.runMachine {α : Type} {x : Op α} (h : LiveSafe config L s)
    (hfollows : Follows Retains x) (hsafe : LeaderSafe config L (finalState x s.machine).atRest) :
    LiveSafe config L (finalState (onMachine x) s).atRest := by
  have haligned := finalState_of_wp (h.aligned.wp_onMachine hfollows)
  have hmachine : (finalState (onMachine x) s).machine = finalState x s.machine := by
    simp only [finalState, onMachine]
    cases x s.machine <;> rfl
  refine ⟨?_, haligned.atRest⟩
  rw [← hmachine] at hsafe
  exact hsafe

theorem LiveSafe.step (hrole : config.role = .dataVoter) (h : LiveSafe config L s)
    (hstep : SparedStep config L s s') : LiveSafe config L s' := by
  obtain ⟨a, hallowed, hspared, rfl⟩ := hstep
  have hstill : HaltedLive s s ↔ s.machine.node.fatalStorageError = true :=
    ⟨fun hhalted => hhalted.1.2, fun hfatal => ⟨⟨rfl, hfatal⟩, h.aligned⟩⟩
  have hno : ∀ p : Prop, s.machine.node.fatalStorageError = false →
      s.machine.node.fatalStorageError = true → p := fun p hlive hfatal => by
    rw [hlive] at hfatal
    cases hfatal
  cases a with
  | effects round =>
    exact h.runMachine (follows_consumeRound round)
      (h.safe.step hrole (.effects hallowed.1 hallowed.2))
  | payload bytes =>
    exact h.runMachine (follows_installPayload bytes) (h.safe.step hrole (.payload bytes))
  | reclaim => exact h.runMachine follows_reclaim (h.safe.step hrole (.reclaim hallowed))
  | openWriter =>
    refine h.run (hno _ hallowed.1) fun lo n hin => ?_
    exact wp_mono hin.wp_openLive (fun _ _ h' => h'.1.outcome) (fun _ _ h' => h'.outcome)
  | anchor run failure =>
    refine h.run (fun hfatal => ?_) fun lo n hin =>
      hin.wp_createStateAnchorLive failure hspared hallowed
    simp only [createStateAnchorLive, wp_bind, wp_get, wp_refuseLive, hfatal, hstill, Bool.true_eq_false,
      false_implies, and_self, implies_true]
  | write status statements core =>
    refine h.run (fun hfatal => ?_) fun lo n hin =>
      hin.wp_writeRequestLive status hspared.1 hspared.2 hallowed.1 hallowed.2
    simp only [writeRequestLive, admitLive, wp_bind, wp_get, wp_refuseLive, hfatal, hstill,
      Bool.true_eq_false, false_implies, and_self, implies_true]
  | beginLive stopPending =>
    refine h.run (fun hfatal => ?_) fun lo n hin => hin.wp_beginLiveTransaction stopPending hspared
    simp only [beginLiveTransaction, wp_bind, wp_get, wp_refuseLive, hfatal, hstill, Bool.true_eq_false,
      false_implies, and_self, implies_true]
  | liveExec ended stale =>
    refine h.run (fun hfatal => ?_) fun lo n hin => hin.wp_liveExec hallowed ended stale
    simp only [liveExec, wp_bind, wp_get, wp_refuseLive, hfatal, hstill, Bool.true_eq_false,
      false_implies, and_self, implies_true]
  | commitLive stopPending statements core =>
    refine h.run (fun hfatal => ?_) fun lo n hin =>
      hin.wp_commitLiveTransaction stopPending hallowed.1 hspared hallowed.2.1 hallowed.2.2
    simp only [commitLiveTransaction, wp_bind, wp_get, wp_refuseLive, hfatal, hstill,
      Bool.true_eq_false, false_implies, and_self, implies_true]
  | rollbackLive rolledBack stale =>
    refine h.run (fun hfatal => ?_) fun lo n hin =>
      hin.wp_rollbackLiveTransaction rolledBack hallowed stale
    have hhalted : wp (rollbackLive rolledBack) (fun _ => Halted s.machine)
        (fun _ => Halted s.machine) s.machine := by
      simp only [Zaxonlite.rollbackLive, wp_bind, wp_get, wp_refuseIf, wp_setNode, hfatal, Halted,
        and_self, implies_true]
    simp only [rollbackLiveTransaction, wp_bind, wp_modify, wp_onMachine]
    refine wp_mono (wp_and hhalted (follows_rollbackLive rolledBack s.machine)) ?_ ?_
    all_goals exact fun _ m hm => ⟨hm.1, (h.aligned.rollback stale).settle hm.2⟩
  | resync =>
    refine h.run (hno _ hallowed) fun lo n hin => ?_
    refine wp_mono (hin.wp_resyncLive hspared) (fun _ s' h' => ?_) (fun _ _ hno => hno.elim)
    obtain ⟨-, -, n', h'⟩ := h'
    exact h'.outcome

theorem liveSafe_of_reachable (hrole : config.role = .dataVoter)
    (hrun : Reachable (LiveStart config L) (SparedStep config L) s) : LiveSafe config L s :=
  hrun.invariant (fun _ hs => liveSafe_start hs) (fun _ _ h hstep => h.step hrole hstep)

end Steps

/-! ### The live image -/

/-- The connection sees the fold of the chosen batches, then the batch in flight. -/
structure LiveImage {databaseId : ℕ} (L : ChosenLog databaseId) (s : LiveNode) : Prop where
  settled : s.machine.node.captureBatchId = none →
    overlay s.main s.frames = (L.state s.machine.node.appliedSlot).image
  captured : ∀ b, s.machine.node.captureBatchId = some b → ∃ r ∈ s.readings.getLast?,
    r.transaction.batchId = b ∧ overlay s.main s.frames =
      (L.state s.machine.node.appliedSlot).image.execAll (r.transaction.view databaseId).applyPayload

theorem Leading.liveImage {databaseId : ℕ} {L : ChosenLog databaseId} {configuration lo n : ℕ}
    {s : LiveNode} (h : Leading L configuration lo n n s.machine) (haligned : Aligned s)
    (hresync : s.machine.node.needsResync = false) : LiveImage L s := by
  obtain ⟨j, hwal⟩ := h.wal
  have hoverlay := haligned.overlaid h.dbOpen
  refine ⟨fun hnone => ?_, fun b hb => ?_⟩
  · rw [hoverlay, h.appliedSlot]
    exact hwal.clean hresync hnone
  · obtain ⟨pre, w, hsplit, -, -, hpre⟩ := hwal.captured hresync b hb
    obtain ⟨r, hr, hid, w', hw', hops⟩ := haligned.inFlight h.dbOpen hresync b hb
    obtain rfl : w = w' := by
      rw [hsplit, List.getLast?_concat] at hw'
      exact Option.some.inj hw'
    refine ⟨r, hr, hid, ?_⟩
    rw [hoverlay, h.appliedSlot, applyPayload_view, ← hops, ← hpre, Disk.live, Disk.walOps, hsplit,
      List.flatMap_append, File.execAll_append, List.flatMap_singleton]

open ChosenLog

/-- A frame of the default size, filled with one byte. -/
def pageFrame (page size : ℕ) (fill : UInt8) (h : page ≠ 0 ∧ page < 256 ^ 4 ∧ size < 256 ^ 4) : WalFrame where
  info := ⟨page, size⟩
  page := List.replicate defaultPageSize fill
  page_length := List.length_replicate
  pageNumber_ne := h.1
  info_lt := h.2

def firstWrite : WriterTransaction where
  batchId := 5
  sessionId := 0
  sequence := 0
  changes := 1
  committed :=
    { frames := [pageFrame 1 1 1 (by decide)]
      nonempty := by decide
      count_lt := by
        rw [List.length_singleton]
        decide
      committed := by
        intro f hf
        rw [← Option.some.inj hf]
        decide
      marked := by
        intro f hf
        exact absurd hf List.not_mem_nil }

/-- The first page again, and a second one. -/
def secondWrite : WriterTransaction where
  batchId := 6
  sessionId := 0
  sequence := 0
  changes := 1
  committed :=
    { frames := [pageFrame 1 0 2 (by decide), pageFrame 2 2 9 (by decide)]
      nonempty := by decide
      count_lt := by
        rw [List.length_cons, List.length_singleton]
        decide
      committed := by
        intro f hf
        rw [← Option.some.inj hf]
        decide
      marked := by
        intro f hf
        rw [List.mem_singleton.1 hf]
        rfl }

/-- What is left of the second transaction without its first frame. -/
def tornFrames : CommittedFrames where
  frames := [pageFrame 2 2 9 (by decide)]
  nonempty := by decide
  count_lt := by
    rw [List.length_singleton]
    decide
  committed := by
    intro f hf
    rw [← Option.some.inj hf]
    decide
  marked := by
    intro f hf
    exact absurd hf List.not_mem_nil

/-- The log whose first entry is the first transaction's batch. -/
def frameLog : ChosenLog 7 := ofPayload (carried_captured firstWrite.captured (by decide) rfl) 5

/-- Nothing else reads, and nothing fails. -/
def quietRun : CommitRun := ⟨false, [], false, false⟩

/-- A core that has nothing undecided below the slot. -/
def settledBelow (slot : ℕ) : LogStatus := ⟨false, true, false, slot⟩

/-- The first transaction is committed and proposed at slot one. -/
def proposedWrite : LiveNode :=
  (LiveAction.write (settledBelow 1) (.committed firstWrite quietRun) (proposes 1)).apply
    (.start (Machine.fresh sampleConfig 8))

def decidedWrite : LiveNode :=
  (LiveAction.effects (commitOne frameLog 1)).apply proposedWrite

/-- While another connection reads, a checkpoint copies every frame and then reports an error. -/
def blockedAnchor : LiveNode :=
  (LiveAction.anchor (.failed (frameOps decidedWrite.frames) true) none).apply decidedWrite

/-- The second transaction starts the WAL over. -/
def tornWrite : LiveNode :=
  (LiveAction.write (settledBelow 2) (.committed secondWrite quietRun) (proposes 2)).apply
    blockedAnchor

/-- A voter of the sample configuration with nothing but the given capture in flight. -/
structure Voting (applied : ℕ) (capture : Option ℕ) (n : Node) : Prop where
  identity : n.identity = sampleConfig.identity
  role : n.capabilities = Role.dataVoter.capabilities
  single : n.single = false
  applied : n.appliedSlot = applied
  durable : n.durableStateSlot = 0
  pending : n.membershipChangePending = false
  live : n.liveTransaction = false
  capture : n.captureBatchId = capture
  resync : n.needsResync = false
  fatal : n.fatalStorageError = false
  queue : n.effectWrites = []

/-- What the writes below leave as it was. -/
structure SameLog (m m' : Machine) : Prop where
  chain : m'.node.lastChain = m.node.lastChain
  data : m'.node.lastDataSlot = m.node.lastDataSlot
  journal : m'.disk.journal = m.disk.journal

theorem SameLog.trans {m m' m'' : Machine} (h : SameLog m m') (h' : SameLog m' m'') : SameLog m m'' :=
  ⟨h'.chain.trans h.chain, h'.data.trans h.data, h'.journal.trans h.journal⟩

variable {applied : ℕ} {s : LiveNode} {P : LiveNode → Prop}

theorem wp_admitOpen (h : Voting applied none s.machine.node) (hopen : s.machine.node.dbOpen = true)
    (hP : P s) :
    wp (admitLive (settledBelow (applied + 1))) (fun _ => P) (fun _ _ => False) s := by
  have hfrontier : s.machine.node.proposalFrontierSettled (settledBelow (applied + 1)) = true := by
    simp only [Node.proposalFrontierSettled, h.applied, settledBelow, le_refl, decide_true]
  have hcap : (settledBelow (applied + 1)).overCap = false := rfl
  have hstop : (settledBelow (applied + 1)).stopPending = false := rfl
  simp only [admitLive, openLive, ensureWriter, wp_bind, wp_get, wp_refuseLive, wp_doLive, wp_onMachine,
    wp_refuseIf, wp_doIf, h.fatal, h.resync, h.pending, h.role, Role.capabilities, h.capture, h.live,
    hfrontier, hcap, hstop, hopen, Bool.false_eq_true, false_implies, true_and, true_implies,
    Bool.or_false, Bool.not_true, Bool.and_false, Option.isSome_none]
  exact hP

theorem wp_admitClosed (h : Voting applied none s.machine.node) (hclosed : s.machine.node.dbOpen = false)
    (hP : ∀ s', Voting applied none s'.machine.node → SameLog s.machine s'.machine →
      s'.machine.node.dbOpen = true → s'.machine.disk.store = s.machine.disk.store →
      s'.frames = s.frames → s'.backfilled = s.backfilled → s'.capturedFrames = 0 → P s') :
    wp (admitLive (settledBelow (applied + 1))) (fun _ => P) (fun _ _ => False) s := by
  have hfrontier : s.machine.node.proposalFrontierSettled (settledBelow (applied + 1)) = true := by
    simp only [Node.proposalFrontierSettled, h.applied, settledBelow, le_refl, decide_true]
  have hcap : (settledBelow (applied + 1)).overCap = false := rfl
  have hstop : (settledBelow (applied + 1)).stopPending = false := rfl
  simp only [admitLive, openLive, ensureWriter, wp_bind, wp_get, wp_refuseLive, wp_doLive, wp_onMachine,
    wp_refuseIf, wp_doIf, wp_emit, wp_setNode, wp_modify, h.fatal, h.resync, h.pending, h.role,
    Role.capabilities, h.capture, h.live, hfrontier, hcap, hstop, hclosed, Bool.false_eq_true,
    false_implies, true_and, true_implies, Bool.or_false, Bool.not_true, Bool.not_false,
    Bool.and_false, Bool.true_eq_false, and_true, LiveNode.connected, Option.isSome_none]
  obtain ⟨image, hcreate⟩ := createImage_eq s.machine.disk
  rw [hcreate]
  apply hP
  · exact ⟨h.identity, rfl, h.single, h.applied, h.durable, rfl, rfl, rfl, rfl, rfl, h.queue⟩
  · exact ⟨rfl, rfl, rfl⟩
  all_goals rfl

theorem wp_runQuiet {t : WriterTransaction} {frames : CapturedFrames}
    (h : Voting applied none s.machine.node)
    (hcount : s.capturedFrames < (s.commit t.committed quietRun).committedFrames)
    (hread : readCommittedFrames (s.commit t.committed quietRun).frames s.capturedFrames
      (s.commit t.committed quietRun).committedFrames = .ok frames)
    (hsize : ((t.read frames).payload 7).length ≤ maxPayloadBytes)
    (hP : ∀ s', Voting applied (some t.batchId) s'.machine.node → SameLog s.machine s'.machine →
      s'.machine.node.dbOpen = s.machine.node.dbOpen →
      s'.machine.disk.store = s.machine.disk.store.put ((t.read frames).payload 7) →
      s'.frames = (s.commit t.committed quietRun).frames →
      s'.capturedFrames = (s.commit t.committed quietRun).committedFrames →
      ⟨t.committed, t.read frames⟩ ∈ s'.readings → P s') :
    wp (runStatements (.committed t quietRun) (proposes (applied + 1))) (fun _ => P) (fun _ _ => False)
      s := by
  have hdb : s.machine.node.identity.databaseId = 7 := by
    rw [h.identity]
    rfl
  have hfits : decide (maxPayloadBytes < ((t.read frames).payload 7).length) = false :=
    decide_eq_false (Nat.not_lt.2 hsize)
  have hstored : quietRun.unstored = false := rfl
  have hreadable : quietRun.unreadable = false := rfl
  simp only [runStatements, sealLive, wp_bind, wp_get, wp_onMachine, wp_emit, wp_modify, wp_onError]
  have hread' : readCommittedFrames
      ((s.commit t.committed quietRun).frames ++ (s.commit t.committed quietRun).stale)
      s.capturedFrames (s.commit t.committed quietRun).committedFrames = .ok frames := by
    rw [← hread]
    exact congrArg (readCommittedFrames · _ _) (List.append_nil _)
  refine wp_replicateLive (fun _ => hread') (fun hno => ?_) (fun hno => ?_) ?_
  · exact (hno.elim (fun hle => Nat.not_lt.2 hle hcount) (fun hno => Bool.noConfusion hno)).elim
  · exact Bool.noConfusion hno
  · simp only [replicateCaptured, appendCaptured, proposes, consumeEffects, List.forM_eq_forM,
      List.forM_nil, wp_bind, wp_get, wp_emit, wp_refuseIf, wp_setNode, wp_pure, LiveNode.commit, hdb, hfits,
      wp_refuseLive, LiveNode.readBack, h.single, Bool.false_and, Bool.false_eq_true, false_implies,
      true_and, true_implies]
    apply hP
    · exact ⟨h.identity, h.role, rfl, h.applied, h.durable, h.pending, h.live, rfl, h.resync, h.fatal,
        h.queue⟩
    · exact ⟨rfl, rfl, rfl⟩
    · rfl
    · rfl
    · rfl
    · rfl
    · exact List.mem_append_right _ (List.mem_singleton_self _)

/-- The first transaction is in flight. -/
structure FirstProposed (s : LiveNode) : Prop where
  voting : Voting 0 (some 5) s.machine.node
  same : SameLog (Machine.fresh sampleConfig 8) s.machine
  dbOpen : s.machine.node.dbOpen = true
  store : s.machine.disk.store = PayloadStore.empty.put (firstWrite.captured.payload 7)
  frames : s.frames = firstWrite.committed.frames
  captured : s.capturedFrames = 1

theorem FirstProposed.atRest (h : FirstProposed s) : FirstProposed s.atRest :=
  { h with same := { h.same with } }

theorem wp_proposeFirst (hs : s = .start (Machine.fresh sampleConfig 8)) :
    wp (writeRequestLive (settledBelow 1) (.committed firstWrite quietRun) (proposes 1))
      (fun _ => FirstProposed) (fun _ _ => False) s := by
  have hboot : Voting 0 none s.machine.node := by
    rw [hs]
    exact ⟨rfl, rfl, rfl, rfl, rfl, rfl, rfl, rfl, rfl, rfl, rfl⟩
  have hempty : s.machine.disk.store = PayloadStore.empty ∧ s.frames = [] ∧ s.backfilled = false := by
    rw [hs]
    exact ⟨rfl, rfl, rfl⟩
  have hstart : SameLog (Machine.fresh sampleConfig 8) s.machine := by
    rw [hs]
    exact ⟨rfl, rfl, rfl⟩
  have hclosed : s.machine.node.dbOpen = false := by
    rw [hs]
    rfl
  simp only [writeRequestLive, wp_bind]
  apply wp_admitClosed hboot hclosed
  intro s' hvoting hsame hopen hstore hframes hbackfilled hcaptured
  have hfresh : s'.restarts quietRun.pinned = false := by
    rw [LiveNode.restarts, hbackfilled, hempty.2.2]
    rfl
  have hcommit : (s'.commit firstWrite.committed quietRun).frames = firstWrite.committed.frames := by
    simp only [LiveNode.commit, hfresh, hframes, hempty.2.1, Bool.false_eq_true, if_false,
      List.nil_append]
  have hcommitted : (s'.commit firstWrite.committed quietRun).committedFrames = 1 :=
    congrArg List.length hcommit
  have hread : readCommittedFrames (s'.commit firstWrite.committed quietRun).frames s'.capturedFrames
      (s'.commit firstWrite.committed quietRun).committedFrames =
      .ok firstWrite.committed.captured := by
    have hone : firstWrite.committed.frames.length = 1 := rfl
    rw [hcommit, hcaptured, hcommitted]
    simpa [hone] using firstWrite.committed.read_eq [] []
  refine wp_runQuiet hvoting ?_ hread ?_ ?_
  · rw [hcaptured, hcommitted]
    exact Nat.zero_lt_one
  · change (firstWrite.captured.payload 7).length ≤ _
    rw [length_payload]
    decide
  · intro s'' hvoting' hsame' hopen' hstore' hframes' hcaptured' _
    refine ⟨hvoting', hstart.trans (hsame.trans hsame'), hopen'.trans hopen, ?_, hframes'.trans hcommit,
      hcaptured'.trans hcommitted⟩
    rw [hstore', hstore, hempty.1]
    rfl

theorem proposed_of_start (hs : s = .start (Machine.fresh sampleConfig 8)) : FirstProposed
    ((LiveAction.write (settledBelow 1) (.committed firstWrite quietRun) (proposes 1)).apply s) := by
  have h := finalState_of_wp (wp_mono (wp_proposeFirst hs) (fun _ _ h => h) (fun _ _ hno => hno.elim))
  exact h.atRest

/-- The first transaction's frame is in the WAL, and nothing is in flight. -/
structure FirstDecided (s : LiveNode) : Prop where
  voting : Voting 1 none s.machine.node
  dbOpen : s.machine.node.dbOpen = true
  frames : s.frames = firstWrite.committed.frames
  captured : s.capturedFrames = 1

theorem FirstDecided.atRest (h : FirstDecided s) : FirstDecided s.atRest := { h with }

theorem wp_decideFirst (h : FirstProposed s) :
    wp (onMachine (consumeRound (commitOne frameLog 1))) (fun _ => FirstDecided) (fun _ _ => False) s := by
  have hcheck : checkChainBase s.machine.node.identity.databaseId s.machine.node.lastChain
      s.machine.node.lastDataSlot (firstBatch 7 5 (firstWrite.captured.payload 7)
        (firstWrite.captured.view 7)) = true := by
    rw [h.same.chain, h.same.data, h.voting.identity]
    change checkChainBase 7 (genesisChain 7) 0 _ = true
    simp only [checkChainBase, firstBatch, chainValid_build, Bool.and_true]
    simp [TransactionBatch.build]
  have hfull : s.machine.disk.journal.full = false := by
    rw [h.same.journal]
    rfl
  rw [wp_onMachine]
  refine wp_commitOne hfull ?_
  change wp (accountEntry 1 (.command (.transactionBatch (firstBatch 7 5
    (firstWrite.captured.payload 7) (firstWrite.captured.view 7))))) _ _ _
  have hsame : (firstBatch 7 5 (firstWrite.captured.payload 7) (firstWrite.captured.view 7)).batchId =
    5 := rfl
  simp only [accountEntry, accountValue, accountBatch, settleBatch, wp_bind, wp_get, wp_refuseIf, hcheck,
    h.voting.capture, Machine.withJournal, hsame, wp_setNode, Bool.not_true, Bool.false_eq_true,
    false_implies, true_and, true_implies, ne_eq, not_true_eq_false, if_false, wp_pure]
  refine ⟨h.voting.queue, fun trail => ⟨⟨h.voting.identity, h.voting.role, h.voting.single, rfl,
    h.voting.durable, h.voting.pending, h.voting.live, rfl, h.voting.resync, h.voting.fatal, rfl⟩,
    h.dbOpen, h.frames, h.captured⟩⟩

theorem FirstProposed.decided (h : FirstProposed s) :
    FirstDecided ((LiveAction.effects (commitOne frameLog 1)).apply s) := by
  have h := finalState_of_wp (wp_mono (wp_decideFirst h) (fun _ _ h => h) (fun _ _ hno => hno.elim))
  exact h.atRest

/-- Every frame was copied into the database file, and the counters still count it. -/
structure AnchorBlocked (s : LiveNode) : Prop where
  decided : FirstDecided s
  backfilled : s.backfilled = true

theorem wp_blockAnchor (h : FirstDecided s) :
    wp (createStateAnchorLive (.failed (frameOps s.frames) true) none) (fun _ _ => False)
      (fun _ => AnchorBlocked) s := by
  simp only [createStateAnchorLive, checkpointTruncate, wp_bind, wp_get, wp_refuseLive, wp_doLive,
    wp_modify, wp_throw, h.voting.fatal, h.voting.role, Role.capabilities, h.voting.resync, h.voting.live,
    h.voting.capture, h.voting.durable, h.voting.applied, h.dbOpen, Option.isSome_none,
    Nat.zero_lt_one, decide_true, Bool.false_eq_true, Bool.true_eq_false, Bool.not_true,
    false_implies, true_implies, true_and, and_true]
  exact ⟨⟨h.voting, h.dbOpen, h.frames, h.captured⟩, rfl⟩

theorem FirstDecided.blocked (h : FirstDecided s) :
    AnchorBlocked ((LiveAction.anchor (.failed (frameOps s.frames) true) none).apply s) := by
  have h := finalState_of_wp (wp_mono (wp_blockAnchor h) (fun _ _ hno => hno.elim) (fun _ _ h => h))
  exact ⟨h.decided.atRest, h.backfilled⟩

/-- What the second transaction's second frame alone reads as. -/
theorem wp_tearSecond (h : AnchorBlocked s) :
    wp (writeRequestLive (settledBelow 2) (.committed secondWrite quietRun) (proposes 2))
      (fun _ s' => ∃ r ∈ s'.readings, r.transaction.frames ≠ r.committed.captured) (fun _ _ => False)
      s := by
  have hrestart : s.restarts quietRun.pinned = true := by
    rw [LiveNode.restarts, h.backfilled]
    rfl
  have hcommit : (s.commit secondWrite.committed quietRun).frames = secondWrite.committed.frames := by
    simp only [LiveNode.commit, hrestart, if_true]
  have hcommitted : (s.commit secondWrite.committed quietRun).committedFrames = 2 :=
    congrArg List.length hcommit
  have hread : readCommittedFrames (s.commit secondWrite.committed quietRun).frames s.capturedFrames
      (s.commit secondWrite.committed quietRun).committedFrames = .ok tornFrames.captured := by
    rw [hcommit, h.decided.captured, hcommitted]
    exact tornFrames.read_eq [pageFrame 1 0 2 (by decide)] []
  simp only [writeRequestLive, wp_bind]
  refine wp_admitOpen h.decided.voting h.decided.dbOpen ?_
  refine wp_runQuiet h.decided.voting ?_ hread ?_ ?_
  · rw [h.decided.captured, hcommitted]
    exact Nat.one_lt_two
  · rw [length_payload]
    decide
  · intro s' _ _ _ _ _ _ hmem
    refine ⟨_, hmem, fun heq => ?_⟩
    have hlength := congrArg (fun f : CapturedFrames => f.infos.length) heq
    have htorn : tornFrames.captured.infos.length = 1 := rfl
    have hall : secondWrite.committed.captured.infos.length = 2 := rfl
    simp only [WriterTransaction.read, htorn, hall] at hlength
    omega

theorem AnchorBlocked.torn (h : AnchorBlocked s) : ∃ r ∈ ((LiveAction.write (settledBelow 2)
    (.committed secondWrite quietRun) (proposes 2)).apply s).readings,
      r.transaction.frames ≠ r.committed.captured :=
  finalState_of_wp (wp_mono (wp_tearSecond h) (fun _ _ h => h) (fun _ _ hno => hno.elim))

theorem drawn_firstWrite : Drawn frameLog firstWrite.captured where
  database_lt := by decide
  pageSize := rfl
  own s batch hentry hid := by
    simp only [frameLog, ofPayload, firstEntries] at hentry
    split at hentry
    · rename_i hs
      simp only [Entry.command.injEq, Command.transactionBatch.injEq] at hentry
      rw [← hentry]
      exact ⟨by omega, load_put_empty _⟩
    · simp at hentry

theorem drawn_secondWrite : Drawn frameLog secondWrite.captured where
  database_lt := by decide
  pageSize := rfl
  own s batch hentry hid := by
    simp only [frameLog, ofPayload, firstEntries] at hentry
    split at hentry
    · simp only [Entry.command.injEq, Command.transactionBatch.injEq] at hentry
      rw [← hentry] at hid
      exact absurd hid (by decide)
    · simp at hentry

theorem LiveAction.allowed_write {t : WriterTransaction} {slot : ℕ} (h : Drawn frameLog t.captured) :
    (LiveAction.write (settledBelow slot) (.committed t quietRun) (proposes slot)).Allowed frameLog
      s := by
  refine ⟨fun t' run ht => ?_, fun _ _ => trivial⟩
  cases ht
  exact h

theorem LiveAction.allowed_anchor :
    (LiveAction.anchor (.failed (frameOps s.frames) true) none).Allowed frameLog s := by
  intro changes complete hrun
  cases hrun
  exact ⟨List.Subset.refl _, fun _ => rfl⟩

theorem FirstProposed.coreEffects (h : FirstProposed s) :
    CoreEffects frameLog s.machine (commitOne frameLog 1) := by
  refine coreEffects_commitOne ?_ ?_ ?_
  · rw [h.voting.applied]
  · rw [h.voting.identity]
    rfl
  · intro batch _
    rw [h.store]
    rfl

theorem reachable_decidedWrite :
    Reachable (LiveStart sampleConfig frameLog) (SparedStep sampleConfig frameLog) decidedWrite := by
  have hproposed : FirstProposed proposedWrite := proposed_of_start rfl
  have hstart : Reachable (LiveStart sampleConfig frameLog) (SparedStep sampleConfig frameLog)
      (.start (Machine.fresh sampleConfig 8)) := .start ⟨_, leaderSafe_fresh 8, rfl, rfl⟩
  have hfirst : Reachable (LiveStart sampleConfig frameLog) (SparedStep sampleConfig frameLog)
      proposedWrite := by
    refine hstart.step ⟨_, LiveAction.allowed_write drawn_firstWrite, ⟨fun hno => ?_, ?_⟩, rfl⟩
    · cases hno
    · intro t run _ hstale
      exact absurd hstale.2.2.1 (Nat.lt_irrefl 0)
  exact hfirst.step ⟨.effects (commitOne frameLog 1), ⟨hproposed.voting.fatal, hproposed.coreEffects⟩,
    trivial, rfl⟩

end Zaxonlite
