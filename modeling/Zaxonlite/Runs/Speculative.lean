import Zaxonlite.Crash.Process
import Zaxonlite.Node.Writer

/-!
# Speculative writes

A leader's write is visible on its live connection before it is chosen. When its slot goes to another
value, or the append fails after SQLite committed, `resyncImage` has to take it back. It closes the
connection, which copies the WAL into the image, and replays the decided suffix above the durable
anchor over the result. Over runs of a data voter whose earlier resyncs were clean, the next one ends
with the fold exactly when its close is.
-/

namespace Zaxonlite

open Program Contiguous Run

/-- What a data voter does as a leader and as a follower. Every resync on the way closes cleanly. -/
inductive LeaderStep (config : Config) (L : ChosenLog config.identity.databaseId) :
    Machine → Machine → Prop
  | effects {m : Machine} {effects : Effects} :
    m.node.fatalStorageError = false → CoreEffects L m effects →
    LeaderStep config L m (finalState (consumeRound effects) m).atRest
  | payload {m : Machine} (bytes : List UInt8) :
    LeaderStep config L m (finalState (installPayload bytes) m).atRest
  | reclaim {m : Machine} : m.node.fatalStorageError = false →
    LeaderStep config L m (finalState reclaim m).atRest
  | anchor {m : Machine} : (m.node.needsResync = true → CleanClose L m.disk) →
    LeaderStep config L m (finalState createStateAnchor m).atRest
  | write {m : Machine} {status : LogStatus} {statements : Option CapturedTransaction}
    {core : AppendCore} : (∀ t ∈ statements, Drawn L t) →
    (∀ m batch, AppendOk L m batch (core m batch)) →
    (m.node.needsResync = true → CleanClose L m.disk) →
    LeaderStep config L m (finalState (writeRequest status statements core) m).atRest
  | beginLive {m : Machine} (stopPending : Bool) :
    (m.node.needsResync = true → CleanClose L m.disk) →
    LeaderStep config L m (finalState (beginLive stopPending) m).atRest
  | commitLive {m : Machine} (stopPending : Bool) {t : CapturedTransaction} {core : AppendCore} :
    m.node.dbOpen = true → Drawn L t → (∀ m batch, AppendOk L m batch (core m batch)) →
    LeaderStep config L m (finalState (commitLive stopPending t core) m).atRest
  | rollbackLive {m : Machine} (rolledBack : Bool) : m.node.dbOpen = true →
    LeaderStep config L m (finalState (rollbackLive rolledBack) m).atRest
  | resync {m : Machine} : m.node.fatalStorageError = false → CleanClose L m.disk →
    LeaderStep config L m (finalState resyncImage m).atRest
  | restart {m m' : Machine} : materializeFromJournal (Machine.booted config m.disk) = .ok () m' →
    LeaderStep config L m m'.atRest

/-- The disk is one recovery can start from, and a voter that has not failed serves. -/
structure LeaderSafe (config : Config) (L : ChosenLog config.identity.databaseId) (m : Machine) :
    Prop where
  rest : m.trail = []
  state : ∃ lo, DiskSound L config.identity.configurationId lo m.disk ∧
    (m.node.fatalStorageError = false →
      ∃ n, Serving L config.role.capabilities config.identity.configurationId lo n m)

section Steps

variable {config : Config} {L : ChosenLog config.identity.databaseId} {m m' : Machine}

theorem ServesOrFails.safe
    (h : ServesOrFails L config.role.capabilities config.identity.configurationId m) :
    LeaderSafe config L m.atRest := by
  obtain ⟨lo, ⟨n, hserving⟩ | ⟨hdisk, hfatal⟩⟩ := h
  · exact ⟨rfl, lo, hserving.disk, fun _ => ⟨n, hserving.withTrail []⟩⟩
  · refine ⟨rfl, lo, hdisk, fun hno => ?_⟩
    exact absurd (hfatal.symm.trans hno) (by decide)

/-- An operation that leaves a serving voter serving, or failed, keeps it safe. -/
theorem LeaderSafe.run {α : Type} {x : Op α} (h : LeaderSafe config L m)
    (hlive : m.node.fatalStorageError = false)
    (hx : ∀ lo n, Serving L config.role.capabilities config.identity.configurationId lo n m →
      wp x (fun _ => ServesOrFails L config.role.capabilities config.identity.configurationId)
        (fun _ => ServesOrFails L config.role.capabilities config.identity.configurationId) m) :
    LeaderSafe config L (finalState x m).atRest := by
  obtain ⟨lo, -, hserves⟩ := h.state
  obtain ⟨n, hserving⟩ := hserves hlive
  exact (finalState_of_wp (hx lo n hserving)).safe

/-- A failed voter that leaves its disk alone. -/
def Halted (m m' : Machine) : Prop :=
  m'.disk = m.disk ∧ m'.node.fatalStorageError = true

theorem LeaderSafe.halted (h : LeaderSafe config L m) (hhalted : Halted m m') :
    LeaderSafe config L m'.atRest := by
  obtain ⟨hdisk, hfatal⟩ := hhalted
  obtain ⟨lo, hsound, -⟩ := h.state
  refine ⟨rfl, lo, hdisk.symm ▸ hsound, fun hlive => ?_⟩
  exact absurd (hfatal.symm.trans hlive) (by decide)

theorem leaderSafe_fresh (rotationRecords : ℕ) :
    LeaderSafe config L (Machine.fresh config rotationRecords) := by
  have hfollow := followerSafe_fresh (L := L) rotationRecords
  obtain ⟨n, htrack⟩ := hfollow.tracking rfl
  exact ⟨rfl, 0, hfollow.safe.disk, fun _ => ⟨n, rfl, Or.inl rfl, Or.inl htrack⟩⟩

theorem LeaderSafe.restarted (h : LeaderSafe config L m)
    (hok : materializeFromJournal (Machine.booted config m.disk) = .ok () m') :
    LeaderSafe config L m'.atRest := by
  obtain ⟨lo, hdisk, -⟩ := h.state
  have hbase : lo ≤ recoveryBaseSlot config.identity.databaseId
      (Machine.booted config m.disk).disk := by
    by_contra hlt
    have hretained : (Machine.booted config m.disk).disk.journal.retainedFirstSlot = lo + 1 :=
      hdisk.reopen.log.retained
    have hunreached : recoveryBaseSlot config.identity.databaseId
        (Machine.booted config m.disk).disk + 1 <
        (Machine.booted config m.disk).disk.journal.retainedFirstSlot := by omega
    have hfail := wp_materializeFromJournal_unretained (m := Machine.booted config m.disk) hunreached
    simp only [wp, hok] at hfail
  obtain ⟨m₁, hok₁, hrec, hcan⟩ := materialize_sound hdisk hbase
  obtain rfl : m₁ = m' := by
    rw [hok] at hok₁
    cases hok₁
    rfl
  have htrack := hrec.restarted hdisk hbase hcan
  obtain ⟨hdurable, hcaps⟩ := hrec.durableHeld
  refine ⟨rfl, lo, htrack.safe.disk, fun _ => ⟨_, hcaps, ?_, Or.inl htrack⟩⟩
  rwa [Node.resynced_eq hrec.needsResync] at hdurable

theorem LeaderSafe.step (hrole : config.role = .dataVoter) (h : LeaderSafe config L m)
    (hstep : LeaderStep config L m m') : LeaderSafe config L m' := by
  -- A failed voter refuses, or changes volatile fields only.
  have hrefuse : ∀ {α : Type} {x : Op α},
      (m.node.fatalStorageError = true → wp x (fun _ => Halted m) (fun _ => Halted m) m) →
      (∀ lo n, Serving L config.role.capabilities config.identity.configurationId lo n m →
        wp x (fun _ => ServesOrFails L config.role.capabilities config.identity.configurationId)
          (fun _ => ServesOrFails L config.role.capabilities config.identity.configurationId) m) →
      LeaderSafe config L (finalState x m).atRest := by
    intro α x hfatal hx
    cases hcase : m.node.fatalStorageError with
    | false => exact h.run hcase hx
    | true => exact h.halted (finalState_of_wp (hfatal hcase))
  cases hstep with
  | effects hlive hcore =>
    exact h.run hlive fun lo n hserving => hserving.wp_consumeRound h.rest hcore
  | payload bytes =>
    obtain ⟨lo, hdisk, hserves⟩ := h.state
    refine ⟨rfl, lo, hdisk.put bytes, fun hlive => ?_⟩
    obtain ⟨n, hserving⟩ := hserves hlive
    exact ⟨n, hserving.put bytes []⟩
  | reclaim hlive =>
    exact h.run hlive fun lo n hserving => hserving.wp_reclaim (by rw [hrole]; rfl)
  | anchor hclean =>
    refine hrefuse (fun hfatal => ?_) fun lo n hserving => ?_
    · simp only [createStateAnchor, wp_bind, wp_get, wp_refuseIf, hfatal, Halted, Bool.true_eq_false,
        false_implies, and_self, implies_true]
    · have houtcome : ∀ m', (∃ n', Serving L config.role.capabilities config.identity.configurationId
          lo n' m') → ServesOrFails L config.role.capabilities config.identity.configurationId m' := by
        intro m' hserves
        obtain ⟨n', h'⟩ := hserves
        exact h'.outcome
      exact wp_mono (hserving.wp_createStateAnchor hclean) (fun _ => houtcome) (fun _ => houtcome)
  | write hdrawn hcore hclean =>
    refine hrefuse (fun hfatal => ?_) fun lo n hserving =>
      hserving.wp_writeRequest hdrawn hcore hclean
    simp only [writeRequest, admitWrite, wp_bind, wp_get, wp_refuseIf, hfatal, Halted, Bool.true_eq_false,
      false_implies, and_self, implies_true]
  | beginLive stopPending hclean =>
    refine hrefuse (fun hfatal => ?_) fun lo n hserving => hserving.wp_beginLive stopPending hclean
    simp only [beginLive, wp_bind, wp_get, wp_refuseIf, hfatal, Halted, Bool.true_eq_false, false_implies,
      and_self, implies_true]
  | commitLive stopPending hopen hdrawn hcore =>
    refine hrefuse (fun hfatal => ?_) fun lo n hserving =>
      hserving.wp_commitLive stopPending hopen hdrawn hcore
    simp only [commitLive, wp_bind, wp_get, wp_refuseIf, hfatal, Halted, Bool.true_eq_false, false_implies,
      and_self, implies_true]
  | rollbackLive rolledBack hopen =>
    refine hrefuse (fun hfatal => ?_) fun lo n hserving => hserving.wp_rollbackLive rolledBack hopen
    simp only [rollbackLive, wp_bind, wp_get, wp_refuseIf, wp_setNode, hfatal, Halted, and_self, implies_true]
  | resync hlive hclean =>
    refine h.run hlive fun lo n hserving => ?_
    refine wp_mono (hserving.wp_resyncImage hclean.retained) (fun _ _ h' => ?_)
      (fun _ _ hno => hno.elim)
    exact (h'.2.2 hclean).1.outcome
  | restart hok => exact h.restarted hok

theorem leaderSafe_of_reachable (hrole : config.role = .dataVoter) {rotationRecords : ℕ}
    (hrun : Reachable (· = Machine.fresh config rotationRecords) (LeaderStep config L) m) :
    LeaderSafe config L m :=
  hrun.invariant (fun _ hs => hs ▸ leaderSafe_fresh rotationRecords)
    (fun _ _ h hstep => h.step hrole hstep)

end Steps

/-- **What a resync leaves.** In every run of a data voter whose earlier resyncs closed cleanly,
`resyncImage` returns exactly when the journal reaches the anchor it starts from, and the image it
leaves is the fold of the chosen entries exactly when no lost transaction leaves a trace in the closed
image that the replayed batches do not overwrite. -/
theorem resyncImage_fold_iff_cleanClose (config : Config) (hrole : config.role = .dataVoter)
    (L : ChosenLog config.identity.databaseId) {rotationRecords : ℕ} {m : Machine}
    (hrun : Reachable (· = Machine.fresh config rotationRecords) (LeaderStep config L) m)
    (hlive : m.node.fatalStorageError = false) :
    ((∃ m', resyncImage m = .ok () m') ↔ Reaches config.identity.databaseId m.disk) ∧
      ∀ m', resyncImage m = .ok () m' →
        (m'.disk.content = (L.state m'.node.appliedSlot).image ↔ CleanClose L m.disk) := by
  obtain ⟨lo, -, hserves⟩ := (leaderSafe_of_reachable hrole hrun).state
  obtain ⟨n, hserving⟩ := hserves hlive
  exact hserving.resyncImage_spec

/-! ### A page that outlives its transaction -/

open ChosenLog

/-- A transaction that adds a second page. -/
def pageTwo : CapturedTransaction := ⟨6, 0, 0, 1, .onePage 2 9 (by decide) (by decide)⟩

/-- A core that has nothing undecided below slot two. -/
def readyStatus : LogStatus := ⟨false, true, false, 2⟩

def proposes (slot : ℕ) : AppendCore := fun _ _ => .appended slot []

theorem drawn_pageTwo : Drawn pageLog pageTwo where
  database_lt := by decide
  pageSize := rfl
  own s batch hentry hid := by
    simp only [pageLog, ofPayload, firstEntries] at hentry
    split at hentry
    · simp only [Entry.command.injEq, Command.transactionBatch.injEq] at hentry
      rw [← hentry] at hid
      exact absurd hid (by decide)
    · simp at hentry

/-- The voter has received the first batch's payload, applied the batch and anchored it. -/
def anchoredPage : Machine :=
  (finalState createStateAnchor
    (finalState (consumeRound (commitOne pageLog 1)) withPage.atRest).atRest).atRest

/-- It has committed the second page in its WAL and proposed it at slot two. -/
def speculated : Machine :=
  (finalState (writeRequest readyStatus (some pageTwo) (proposes 2)) anchoredPage).atRest

/-- Slot two went to a noop. -/
def overruled : Machine :=
  (finalState (consumeRound (commitOne pageLog 2)) speculated).atRest

/-- A voter of the sample configuration that has applied slot one and has nothing in flight. -/
structure AtOne (m : Machine) : Prop where
  identity : m.node.identity = sampleConfig.identity
  role : m.node.capabilities = Role.dataVoter.capabilities
  applied : m.node.appliedSlot = 1
  single : m.node.single = false
  pageSize : m.node.pageSize = 4096
  pending : m.node.membershipChangePending = false
  live : m.node.liveTransaction = false
  capture : m.node.captureBatchId = none
  resync : m.node.needsResync = false
  fatal : m.node.fatalStorageError = false
  closed : m.node.dbOpen = false
  queue : m.node.effectWrites = []
  room : m.disk.journal.full = false
  first : m.disk.journal.retainedFirstSlot = 1
  wal : m.disk.wal = []

theorem wp_commitOne {databaseId s : ℕ} {L : ChosenLog databaseId} {m : Machine} {P : Machine → Prop}
    (hfull : m.disk.journal.full = false)
    (h : wp (accountEntry s (L.entry s)) (fun _ m' => m'.node.effectWrites = [] ∧ ∀ trail,
        P ⟨{ m'.node with effectWrites := [] },
          { m'.disk with journal := m'.disk.journal.noteChosen s }, trail⟩)
      (fun _ _ => False) (m.withJournal (m.disk.journal.append (.commit s (L.entry s))))) :
    wp (consumeRound (commitOne L s)) (fun _ => P) (fun _ _ => False) m := by
  simp only [consumeRound, journalEffects, commitOne, appendWrites, List.forM_eq_forM, List.forM_cons,
    List.forM_nil, wp_bind, ne_eq, List.cons_ne_nil, not_false_eq_true, if_true, wp_onError, wp_get,
    hfull, Bool.false_eq_true, if_false, wp_emit, wp_pure, accountEffects, accountCommitted]
  refine wp_mono h ?_ (fun _ _ hno => hno)
  rintro ⟨⟩ m₁ ⟨hqueue, hP⟩
  simp only [wp_get, wp_onError, hqueue, List.forM_nil, wp_pure, wp_bind, wp_setNode, wp_emit]
  exact hP _

/-- A chosen batch accounted without a connection. -/
theorem wp_accountEntry_offline {slot : ℕ} {batch : TransactionBatch} {view : PayloadView}
    {m : Machine} {P : Machine → Prop} (hcapture : m.node.captureBatchId = none)
    (hclosed : m.node.dbOpen = false)
    (hcheck : checkChainBase m.node.identity.databaseId m.node.lastChain m.node.lastDataSlot
      batch = true)
    (hload : loadBatch m.node.identity.databaseId m.node.pageSize m.disk.store batch = .ok view)
    (h : ∀ node image trail, node = { (m.node.advanceChain slot batch).noteRecentBatch slot
        batch.batchId with historyHash := node.historyHash, appliedSlot := slot } →
      image.content = m.disk.content.execAll view.applyPayload →
      P ⟨node, { m.disk with image := some image, wal := [] }, trail⟩) :
    wp (accountEntry slot (.command (.transactionBatch batch))) (fun _ => P) (fun _ _ => False) m := by
  simp only [accountEntry, accountValue, accountBatch, settleBatch, applyBatchOffline, wp_bind, wp_get,
    wp_refuseIf, hcheck, hcapture, hclosed, hload, Bool.not_true, Bool.false_eq_true, false_implies,
    true_and, true_implies, if_false, wp_emit]
  refine wp_mono (wp_applyPayloadOps_disk _ _ _) ?_ (fun _ _ hno => hno)
  rintro ⟨⟩ ⟨node, disk, trail⟩ ⟨hnode, hdisk⟩
  simp only at hnode hdisk
  subst hnode hdisk
  obtain ⟨image, hcreate⟩ := createImage_eq m.disk.deleteWal
  have hcontent : image.content = m.disk.content := by
    have := content_createImage m.disk.deleteWal
    rw [hcreate] at this
    exact this
  simp only [wp_setNode, hcreate, Disk.withImage, Option.map_some]
  refine h _ _ _ rfl ?_
  rw [Image.content_extend, hcontent]
  simp [Function.comp_def]

theorem loadBatch_pageOne : loadBatch 7 4096 withPage.disk.store
    (firstBatch 7 5 (pageOne.payload 7) (pageOne.view 7)) = .ok (pageOne.view 7) := by
  have hdb : 7 < 256 ^ 16 := by decide
  have h := carried_captured pageOne hdb rfl
  exact loadBatch_build (load_put_empty _) h.parse h.database h.count h.pageSize 5 0 (genesisChain 7)

theorem checkChainBase_pageOne : checkChainBase 7 (genesisChain 7) 0
    (firstBatch 7 5 (pageOne.payload 7) (pageOne.view 7)) = true := by
  simp only [checkChainBase, firstBatch, chainValid_build, Bool.and_true]
  simp [TransactionBatch.build]

/-- Its image holds one page, and no anchor was published. -/
structure Unanchored (m : Machine) : Prop where
  atOne : AtOne m
  durable : m.node.durableStateSlot = 0
  files : m.disk.applied = AppliedFiles.none
  image : ∃ image, m.disk.image = some image ∧ image.content.length = 4096

theorem Unanchored.atRest {m : Machine} (h : Unanchored m) : Unanchored m.atRest :=
  { h with atOne := { h.atOne with } }

theorem wp_commitOne_withPage :
    wp (consumeRound (commitOne pageLog 1)) (fun _ => Unanchored) (fun _ _ => False)
      withPage.atRest := by
  refine wp_commitOne rfl (wp_accountEntry_offline rfl rfl checkChainBase_pageOne loadBatch_pageOne ?_)
  intro node image trail hnode hcontent
  rw [hnode]
  refine ⟨rfl, fun _ => ⟨⟨rfl, rfl, rfl, rfl, rfl, rfl, rfl, rfl, rfl, rfl, rfl, rfl, rfl, rfl, rfl⟩, rfl,
    rfl, image, rfl, ?_⟩⟩
  rw [hcontent]
  rfl

/-- The selected anchor states one page at slot one. -/
def AnchoredOne (d : Disk) : Prop :=
  d.image.isSome ∧ ∃ a, d.applied.select 7 = some a ∧ a.globalSlot = 1 ∧
    a.sqlitePageCount * a.sqlitePageSize = 4096

theorem wp_anchorOne {m : Machine} (hm : Unanchored m) :
    wp createStateAnchor (fun _ m' => AtOne m' ∧ AnchoredOne m'.disk) (fun _ _ => False) m := by
  obtain ⟨h, hdurable, hfiles, image, himage, hlength⟩ := hm
  simp only [createStateAnchor, anchorState, publishStateAnchor, wp_bind, wp_get, wp_refuseIf, wp_doIf,
    h.fatal, h.role, Role.capabilities, h.resync, h.live, h.capture, h.closed, himage, hdurable, h.applied,
    Option.isSome_none, Bool.false_eq_true, false_implies, true_and, true_implies, Bool.not_true,
    Nat.zero_lt_one, decide_true, Bool.true_eq_false, and_true, wp_emit, wp_setNode]
  refine ⟨⟨h.identity, h.role, h.applied, h.single, h.pageSize, h.pending, h.live, h.capture, h.resync,
    h.fatal, h.closed, h.queue, h.room, h.first, h.wal⟩, ?_,
    m.node.stateAnchor image.content.length, ?_, h.applied, ?_⟩
  · simp only [Disk.syncImage, himage, Option.map_some, Option.isSome_some]
  · simp only [Disk.syncImage, hfiles]
    have hdb : (m.node.stateAnchor image.content.length).databaseId = 7 := by
      simp only [Node.stateAnchor, h.identity]
      rfl
    rw [← hdb]
    refine AppliedFiles.select_publish fun a ha => ?_
    rcases ha with ha | ha <;> cases ha
  · simp only [Node.stateAnchor, h.pageSize, hlength]

theorem AtOne.atRest {m : Machine} (h : AtOne m) : AtOne m.atRest := { h with }

theorem unanchored_spec :
    Unanchored (finalState (consumeRound (commitOne pageLog 1)) withPage.atRest) :=
  finalState_of_wp (wp_mono wp_commitOne_withPage (fun _ _ h => h) (fun _ _ hno => hno.elim))

theorem anchoredPage_spec : AtOne anchoredPage ∧ AnchoredOne anchoredPage.disk := by
  obtain ⟨h', hanchored⟩ := finalState_of_wp (wp_mono (wp_anchorOne unanchored_spec.atRest)
    (fun _ _ h => h) (fun _ _ hno => hno.elim))
  rw [anchoredPage, Machine.disk_atRest]
  exact ⟨h'.atRest, hanchored⟩

/-- The second page's transaction as the WAL holds it. -/
def secondPage : WalTransaction := ⟨2, 6, pageTwo.frames.changes⟩

/-- A voter whose WAL holds the second page over the anchored first one. -/
structure Speculates (m : Machine) : Prop where
  configuration : m.node.identity.configurationId = 1
  applied : m.node.appliedSlot = 1
  fatal : m.node.fatalStorageError = false
  queue : m.node.effectWrites = []
  room : m.disk.journal.full = false
  first : m.disk.journal.retainedFirstSlot = 1
  wal : m.disk.wal = [secondPage]
  anchored : AnchoredOne m.disk

theorem Speculates.atRest {m : Machine} (h : Speculates m) : Speculates m.atRest := { h with }

theorem wp_speculate {m : Machine} (h : AtOne m) (hanchored : AnchoredOne m.disk) :
    wp (writeRequest readyStatus (some pageTwo) (proposes 2)) (fun _ => Speculates) (fun _ _ => False)
      m := by
  have hsize : decide (maxPayloadBytes < (pageTwo.payload 7).length) = false := by
    rw [length_payload]
    rfl
  obtain ⟨image, himage⟩ := Option.isSome_iff_exists.1 hanchored.1
  have hcreate : m.disk.createImage = m.disk := by
    simp only [Disk.createImage, himage]
  have hsettled : m.node.proposalFrontierSettled readyStatus = true := by
    simp only [Node.proposalFrontierSettled, h.applied]
    rfl
  have hcap : readyStatus.overCap = false := rfl
  have hstop : readyStatus.stopPending = false := rfl
  simp only [writeRequest, admitWrite, ensureWriter, wp_bind, wp_get, wp_refuseIf, wp_doIf, h.fatal,
    h.resync, h.pending, h.role, Role.capabilities, h.closed, h.capture, h.live, hsettled, hcap, hstop,
    Bool.false_eq_true, false_implies, true_and, true_implies, Bool.or_false, Bool.not_true,
    Bool.and_false, Bool.not_false, Bool.true_eq_false, and_true, wp_emit, wp_setNode, hcreate,
    Option.isSome_none]
  have hdb : m.node.identity.databaseId = 7 := by rw [h.identity]; rfl
  simp only [sealCapturedTransaction, replicateCaptured, appendCaptured, proposes, consumeEffects,
    List.forM_eq_forM, List.forM_nil, wp_bind, wp_get, wp_emit, wp_onError, wp_refuseIf, wp_setNode, wp_pure,
    hdb, hsize, h.single, Bool.false_and, Bool.false_eq_true, false_implies, true_and, true_implies]
  refine ⟨?_, h.applied, rfl, h.queue, h.room, h.first, ?_, ?_, hanchored.2⟩
  · simp only [h.identity]
    rfl
  · simp only [h.wal, List.nil_append, Machine.walTransaction, h.applied]
    rfl
  · exact hanchored.1

/-- A voter whose second page was overruled, before the resync. -/
structure Overruled (m : Machine) : Prop where
  fatal : m.node.fatalStorageError = false
  first : m.disk.journal.retainedFirstSlot = 1
  wal : m.disk.wal = [secondPage]
  anchored : AnchoredOne m.disk

theorem Overruled.atRest {m : Machine} (h : Overruled m) : Overruled m.atRest := { h with }

theorem wp_overrule {m : Machine} (h : Speculates m) :
    wp (consumeRound (commitOne pageLog 2)) (fun _ => Overruled) (fun _ _ => False) m := by
  refine wp_commitOne h.room ?_
  change wp (accountEntry 2 (.command .noop)) _ _ _
  have hfirst : (m.disk.journal.append (.commit 2 (.command .noop))).retainedFirstSlot = 1 := by
    rw [Journal.retainedFirstSlot_append, h.first]
  simp only [accountEntry, accountValue, wp_bind, wp_setNode, loseCapture]
  split <;> exact ⟨h.queue, fun _ => ⟨h.fatal, hfirst, h.wal, h.anchored⟩⟩

theorem speculated_spec : Speculates speculated := by
  obtain ⟨h, hanchored⟩ := anchoredPage_spec
  have hwritten := finalState_of_wp (wp_mono (wp_speculate h hanchored) (fun _ _ h => h)
    (fun _ _ hno => hno.elim))
  rw [speculated]
  exact hwritten.atRest

theorem overruled_spec : Overruled overruled := by
  have hdecided := finalState_of_wp (wp_mono (wp_overrule speculated_spec) (fun _ _ h => h)
    (fun _ _ hno => hno.elim))
  rw [overruled]
  exact hdecided.atRest

theorem configuration_pageLog : (pageLog.state 1).configuration = 1 := by
  rw [pageLog.configuration_succ 0]
  rfl

theorem reachable_overruled :
    Reachable (· = Machine.fresh sampleConfig 8) (LeaderStep sampleConfig pageLog) overruled := by
  have hpage : Reachable (· = Machine.fresh sampleConfig 8) (LeaderStep sampleConfig pageLog)
      withPage.atRest := .step (.start rfl) (.payload _)
  have happlied := Reachable.step hpage (LeaderStep.effects rfl coreEffects_withPage.atRest)
  have hanchored : Reachable (· = Machine.fresh sampleConfig 8) (LeaderStep sampleConfig pageLog)
      anchoredPage := by
    rw [anchoredPage]
    exact happlied.step (.anchor fun hno =>
      absurd (unanchored_spec.atRest.atOne.resync.symm.trans hno) (by decide))
  have hwritten : Reachable (· = Machine.fresh sampleConfig 8) (LeaderStep sampleConfig pageLog)
      speculated := by
    rw [speculated]
    refine hanchored.step (.write (fun t ht => ?_) (fun _ _ => trivial) fun hno => ?_)
    · obtain rfl := Option.some.inj ht
      exact drawn_pageTwo
    · exact absurd (anchoredPage_spec.1.resync.symm.trans hno) (by decide)
  have hspec := speculated_spec
  rw [overruled]
  refine hwritten.step (.effects hspec.fatal (coreEffects_commitOne ?_ ?_ fun batch hno => ?_))
  · rw [hspec.applied]
  · rw [hspec.configuration]
    exact configuration_pageLog
  · cases hno

theorem length_pageLog : (pageLog.state 1).image.length = 4096 := by
  rw [pageLog.image_succ 0, pageLog, ops_ofPayload_one, applyPayload_view]
  rfl

theorem hist_pageLog (b : ℕ) : pageLog.hist 1 b = [] := by
  refine List.eq_nil_iff_forall_not_mem.2 fun op hop => ?_
  obtain ⟨s, hlo, -, hmem⟩ := pageLog.mem_hist.1 hop
  rw [pageLog, ops_ofPayload _ _ (by omega)] at hmem
  exact absurd hmem List.not_mem_nil

/-- With the second page in the WAL the closed image is longer than the anchor's, and no chosen batch
above the anchor cuts it. -/
theorem not_cleanClose_secondPage {d : Disk} (hwal : d.wal = [secondPage]) (h : AnchoredOne d) :
    ¬ CleanClose pageLog d := by
  obtain ⟨himage, a, hselect, hslot, hpages⟩ := h
  have hlive : d.live.length = 8192 := by
    rw [Disk.live, Disk.walOps, hwal]
    rfl
  have husable : usableAnchor 7 d.closed = some a := by
    obtain ⟨image, hsome⟩ := Option.isSome_iff_exists.1 himage
    have hlength := hlive
    rw [← Disk.content_closed himage] at hlength
    simp only [usableAnchor, Option.filter_eq_some_iff]
    refine ⟨hselect, ?_⟩
    simp only [Disk.content, Disk.closed, hsome, Option.map_some] at hlength
    simp only [anchorMatchesImage, Disk.closed, hsome, Option.map_some, decide_eq_true_eq, hpages]
    omega
  intro hclean
  have hlength := hclean.length a husable (by rw [hslot]; exact hist_pageLog _)
  rw [hslot, hlive, length_pageLog] at hlength
  exact absurd hlength (by decide)

/-- The resync returns, and the second page is still in the image. -/
theorem resyncImage_keeps_lost_page :
    Reachable (· = Machine.fresh sampleConfig 8) (LeaderStep sampleConfig pageLog) overruled ∧
      ∃ m', resyncImage overruled = .ok () m' ∧
        m'.disk.content ≠ (pageLog.state m'.node.appliedSlot).image := by
  obtain ⟨lo, -, hserves⟩ :=
    (leaderSafe_of_reachable rfl reachable_overruled).state
  obtain ⟨n, hserving⟩ := hserves overruled_spec.fatal
  obtain ⟨hreturns, hfold⟩ := hserving.resyncImage_spec
  have hreach : Reaches 7 overruled.disk := by
    rw [Reaches, overruled_spec.first]
    exact Nat.le_add_left 1 _
  obtain ⟨m', hok⟩ := hreturns.2 hreach
  have hunclean := not_cleanClose_secondPage overruled_spec.wal overruled_spec.anchored
  exact ⟨reachable_overruled, m', hok, fun heq => hunclean ((hfold m' hok).1 heq)⟩

theorem resyncImage_fold_iff_cleanClose_overruled :
    ((∃ m', resyncImage overruled = .ok () m') ↔ Reaches 7 overruled.disk) ∧
      ∀ m', resyncImage overruled = .ok () m' →
        (m'.disk.content = (pageLog.state m'.node.appliedSlot).image ↔
          CleanClose pageLog overruled.disk) :=
  resyncImage_fold_iff_cleanClose sampleConfig rfl pageLog reachable_overruled overruled_spec.fatal

end Zaxonlite
