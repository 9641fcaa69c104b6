import Zaxonlite.Node.Aligned
import Zaxonlite.Node.History
import Zaxonlite.Node.Resync

/-!
# The flag of the live transaction

Only the operations on a live transaction change the flag: rebuilding the image leaves it as it was, and what
a write replicates cannot raise it.
-/

namespace Zaxonlite

open Program

/-- `live_transaction`. -/
def Machine.liveFlag (m : Machine) : Bool :=
  m.node.liveTransaction

/-- Whether the connection is open, and whether a live transaction is. -/
def Machine.flags (m : Machine) : Bool × Bool :=
  (m.node.dbOpen, m.node.liveTransaction)

/-- Whether the node has failed, whether it is the only member, and what its role lets it do. -/
def Machine.standing (m : Machine) : Bool × Bool × Capabilities :=
  (m.node.fatalStorageError, m.node.single, m.node.capabilities)

def Machine.switches (m : Machine) : (Bool × Bool) × Bool × Bool × Capabilities :=
  (m.flags, m.standing)

section Keep

theorem keeps_switches_emit (f : Disk → Disk) : Keeps Machine.switches (emit f) :=
  keeps_emit fun _ => rfl

theorem keeps_switches_setNode {f : Node → Node}
    (h : ∀ n, (((f n).dbOpen, (f n).liveTransaction), (f n).fatalStorageError, (f n).single, (f n).capabilities) =
      ((n.dbOpen, n.liveTransaction), n.fatalStorageError, n.single, n.capabilities)) :
    Keeps Machine.switches (setNode f) :=
  keeps_setNode fun m => h m.node

theorem keeps_switches_applyPayloadOps (slot : ℕ) (ops : List FileOp) :
    Keeps Machine.switches (applyPayloadOps slot ops) :=
  Keeps.forM (fun _ => keeps_switches_emit _) ops

theorem keeps_switches_checkpointWal : Keeps Machine.switches checkpointWal := by
  refine keeps_get.bind fun m => Keeps.bind (Keeps.forM (fun t => ?_) _) fun _ => ?_
  · exact keeps_switches_applyPayloadOps t.slot t.ops
  · exact (keeps_switches_emit _).bind fun _ => keeps_switches_emit _

theorem keeps_switches_applyEntryToImage (slot : ℕ) (entry : Entry) (configurationId : ℕ) :
    Keeps Machine.switches (applyEntryToImage slot entry configurationId) := by
  have hhistory : Keeps Machine.switches (setNode fun n => { n with
      historyHash := History.advance n.historyHash n.identity.databaseId configurationId slot entry }) :=
    keeps_switches_setNode fun _ => rfl
  refine keeps_get.bind fun m => ?_
  cases entry with
  | stop stop =>
    refine Keeps.bind (keeps_switches_setNode fun n => ?_) fun _ => hhistory
    split <;> rfl
  | command cmd =>
    cases cmd with
    | transactionBatch batch =>
      cases hload : loadBatch m.node.identity.databaseId m.node.pageSize m.disk.store batch with
      | error e =>
        simp only [hload]
        split
        · exact (keeps_throw _).bind fun _ => (keeps_throw _).bind fun _ => hhistory
        · exact (keeps_throw _).bind fun _ => hhistory
      | ok view =>
        have happly : Keeps Machine.switches (do
            applyPayloadOps slot view.applyPayload
            setNode fun n => n.advanceChain slot batch
            setNode fun n => { n with
              historyHash := History.advance n.historyHash n.identity.databaseId configurationId slot
                (.command (.transactionBatch batch)) }) :=
          (keeps_switches_applyPayloadOps _ _).bind fun _ =>
            (keeps_switches_setNode fun _ => rfl).bind fun _ => hhistory
        simp only [hload]
        split
        · exact (keeps_throw _).bind fun _ => happly
        · exact happly
    | noop => exact hhistory
    | readBarrier nonce => exact hhistory
    | trim record => exact hhistory
    | transferLease lease => exact hhistory
    | leaseComplete leaseId => exact hhistory

theorem keeps_switches_applyReplayCommit (slot : ℕ) (value : Entry) (configCursor : ℕ) :
    Keeps Machine.switches (applyReplayCommit slot value configCursor) := by
  refine (keeps_switches_applyEntryToImage slot value configCursor).bind fun _ => ?_
  exact Keeps.bind (keeps_switches_setNode fun _ => rfl) fun _ => keeps_pure _

theorem keeps_switches_drainParked (fuel : ℕ) (r : Replay) : Keeps Machine.switches (drainParked fuel r) := by
  induction fuel generalizing r with
  | zero => exact keeps_pure r
  | succ fuel ih =>
    refine keeps_get.bind fun m => ?_
    simp only
    split
    · exact keeps_pure r
    · exact (keeps_switches_applyReplayCommit _ _ _).bind fun cursor => ih _

theorem keeps_switches_replayRecord (r : Replay) (write : Write) :
    Keeps Machine.switches (replayRecord r write) := by
  cases write with
  | commit slot value =>
    refine keeps_get.bind fun m => ?_
    simp only
    split
    · exact keeps_pure r
    · split
      · exact (keeps_switches_applyReplayCommit _ _ _).bind fun cursor => keeps_switches_drainParked _ _
      · exact (keeps_pure _).ite (keeps_pure _)
  | promise ballot => exact keeps_pure r
  | accept ballot slot value => exact keeps_pure r
  | trimAnchor anchor => exact keeps_pure r

theorem keeps_switches_recoveryBase : Keeps Machine.switches recoveryBase := by
  intro m
  simp only [recoveryBase, wp_bind, wp_get]
  cases usableAnchor m.node.identity.databaseId m.disk with
  | none =>
    simp only [wp_pure, wp_bind, if_true, wp_ite, wp_throw, wp_emit, wp_setNode]
    exact ⟨fun _ => trivial, fun _ => rfl⟩
  | some anchor =>
    simp only [wp_pure, wp_bind, wp_ite, wp_throw, wp_emit, wp_setNode]
    exact ⟨fun _ => ⟨fun _ => rfl, fun _ => rfl⟩, fun _ => rfl⟩

theorem keeps_switches_materializeFromJournal : Keeps Machine.switches materializeFromJournal := by
  refine Keeps.bind (keeps_switches_emit _) fun _ => keeps_switches_recoveryBase.bind fun base => ?_
  refine Keeps.bind (keeps_switches_setNode fun _ => rfl) fun _ => keeps_get.bind fun m => ?_
  have hreplay : Keeps Machine.switches (do
      emit Disk.createImage
      let _ ← (m.disk.journal.iterate (base.1 + 1)).foldlM replayRecord (Replay.start base.2)
      emit Disk.syncImage) := by
    refine Keeps.bind (keeps_switches_emit _) fun _ => ?_
    exact (Keeps.foldlM keeps_switches_replayRecord _ _).bind fun _ => keeps_switches_emit _
  simp only
  split
  · exact (keeps_throw _).bind fun _ => hreplay
  · exact hreplay

theorem keeps_flags_of_switches {α : Type} {x : Op α} (h : Keeps Machine.switches x) : Keeps Machine.flags x :=
  fun m => wp_mono (h m) (fun _ _ heq => congrArg Prod.fst heq) fun _ _ heq => congrArg Prod.fst heq

theorem keeps_flags_checkpointWal : Keeps Machine.flags checkpointWal :=
  keeps_flags_of_switches keeps_switches_checkpointWal

theorem keeps_flags_materializeFromJournal : Keeps Machine.flags materializeFromJournal :=
  keeps_flags_of_switches keeps_switches_materializeFromJournal

theorem keeps_liveFlag_of_flags {α : Type} {x : Op α} (h : Keeps Machine.flags x) : Keeps Machine.liveFlag x :=
  fun m => wp_mono (h m) (fun _ _ heq => congrArg Prod.snd heq) fun _ _ heq => congrArg Prod.snd heq

theorem keeps_liveFlag_ensureWriter : Keeps Machine.liveFlag ensureWriter := by
  refine keeps_get.bind fun m => (keeps_refuseIf _ _).bind fun _ => keeps_doIf _ ?_
  exact (keeps_emit fun _ => rfl).bind fun _ => keeps_setNode fun _ => rfl

theorem keeps_liveFlag_resyncImage : Keeps Machine.liveFlag resyncImage := by
  refine keeps_get.bind fun m => ?_
  refine (keeps_doIf _ (keeps_liveFlag_of_flags keeps_flags_checkpointWal)).bind fun _ => ?_
  refine Keeps.bind (keeps_setNode fun _ => rfl) fun _ => Keeps.bind (keeps_setNode fun _ => rfl) fun _ => ?_
  refine (keeps_liveFlag_of_flags keeps_flags_materializeFromJournal).bind fun _ => ?_
  exact keeps_setNode fun _ => rfl

theorem keeps_standing_resyncImage : Keeps Machine.standing resyncImage := by
  have hstanding {α : Type} {x : Op α} (h : Keeps Machine.switches x) : Keeps Machine.standing x :=
    fun m => wp_mono (h m) (fun _ _ heq => congrArg Prod.snd heq) fun _ _ heq => congrArg Prod.snd heq
  refine keeps_get.bind fun m => (keeps_doIf _ (hstanding keeps_switches_checkpointWal)).bind fun _ => ?_
  refine Keeps.bind (keeps_setNode fun _ => rfl) fun _ => Keeps.bind (keeps_setNode fun _ => rfl) fun _ => ?_
  exact (hstanding keeps_switches_materializeFromJournal).bind fun _ => keeps_setNode fun _ => rfl

theorem resyncImage_closes (m : Machine) :
    wp resyncImage (fun _ m' => m'.node.dbOpen = false) (fun _ m' => m'.node.dbOpen = false) m := by
  have hclosed {α : Type} {x : Op α} (h : Keeps Machine.flags x) {m₁ : Machine} (hm₁ : m₁.node.dbOpen = false) :
      wp x (fun _ m' => m'.node.dbOpen = false) (fun _ m' => m'.node.dbOpen = false) m₁ :=
    wp_mono (h m₁) (fun _ _ heq => (congrArg Prod.fst heq).trans hm₁) fun _ _ heq =>
      (congrArg Prod.fst heq).trans hm₁
  have hrest (m₁ : Machine) : wp (do
      setNode fun n => { n with dbOpen := false }
      setNode fun n => { n with captureBatchId := none }
      materializeFromJournal
      setNode fun n => { n with needsResync := false })
      (fun _ m' => m'.node.dbOpen = false) (fun _ m' => m'.node.dbOpen = false) m₁ := by
    simp only [wp_bind, wp_setNode]
    exact wp_mono (hclosed keeps_flags_materializeFromJournal rfl) (fun _ _ h => h) fun _ _ h => h
  rw [resyncImage, wp_bind, wp_get, wp_bind, wp_doIf]
  exact ⟨fun _ => wp_checkpointWal fun _ => hrest _, fun _ => hrest m⟩

end Keep

/-! ### Without a live transaction -/

/-- No live transaction is open on the machine. -/
def Machine.Idle (m : Machine) : Prop :=
  m.liveFlag = false

section Idle

theorem maintains_idle {α : Type} {x : Op α} (h : Follows Retains x) : Maintains Machine.Idle x :=
  fun m hm => wp_mono (h m) (fun _ _ h' => h'.live hm) fun _ _ h' => h'.live hm

theorem maintains_idle_setNode {f : Node → Node} (h : ∀ n, (f n).liveTransaction = n.liveTransaction) :
    Maintains Machine.Idle (setNode f) :=
  fun m hm => (h m.node).trans hm

theorem maintains_idle_appendCaptured (t : CapturedTransaction) (core : AppendCore) :
    Maintains Machine.Idle (appendCaptured t core) := by
  refine maintains_get.bind fun m => ?_
  cases core m (m.node.capturedBatch t) with
  | refused => exact Maintains.bind (maintains_idle_setNode fun _ => rfl) fun _ => maintains_throw _
  | unsent rounds last =>
    refine Maintains.bind (maintains_idle_setNode fun _ => rfl) fun _ => ?_
    refine (maintains_idle (follows_consumeEffects rounds)).bind fun _ => ?_
    exact (maintains_idle (follows_journalEffects last)).bind fun _ => maintains_throw _
  | appended slot rounds =>
    refine Maintains.bind (maintains_idle_setNode fun _ => rfl) fun _ => ?_
    exact (maintains_idle (follows_consumeEffects rounds)).bind fun _ => maintains_pure slot

theorem maintains_idle_replicateCaptured (t : CapturedTransaction) (core : AppendCore) :
    Maintains Machine.Idle (replicateCaptured t core) := by
  refine maintains_get.bind fun m => (maintains_refuseIf _ _).bind fun _ => ?_
  exact Maintains.bind (maintains_modify fun _ h => h) fun _ => maintains_idle_appendCaptured t core

end Idle

/-! ### On the connection -/

namespace LiveNode

/-- `inLiveTransaction`. -/
def live (s : LiveNode) : Bool :=
  s.machine.liveFlag

/-- No live transaction is open. -/
def Idle (s : LiveNode) : Prop :=
  s.live = false

end LiveNode

section Connection

variable {α : Type}

theorem keeps_onMachine {γ : Type} {φ : Machine → γ} {x : Op α} (h : Keeps φ x) :
    Keeps (fun s => φ s.machine) (onMachine x) := by
  intro s
  rw [wp_onMachine]
  exact h s.machine

theorem keeps_live_onMachine {x : Op α} (h : Keeps Machine.liveFlag x) : Keeps LiveNode.live (onMachine x) :=
  keeps_onMachine h

theorem keeps_live_refuseLive (c : Bool) (e : NodeError) : Keeps LiveNode.live (refuseLive c e) :=
  keeps_live_onMachine (keeps_refuseIf c e)

theorem keeps_live_doLive (c : Bool) {x : LiveOp Unit} (h : Keeps LiveNode.live x) :
    Keeps LiveNode.live (doLive c x) :=
  h.ite (keeps_pure ())

theorem keeps_live_modify {f : LiveNode → LiveNode} (h : ∀ s, (f s).machine = s.machine) :
    Keeps LiveNode.live (modify f : LiveOp Unit) :=
  keeps_modify fun s => congrArg Machine.liveFlag (h s)

theorem keeps_live_resyncLive : Keeps LiveNode.live resyncLive :=
  Keeps.bind (keeps_live_modify fun _ => rfl) fun _ => keeps_live_onMachine keeps_liveFlag_resyncImage

theorem keeps_live_openLive : Keeps LiveNode.live openLive := by
  refine keeps_get.bind fun s => (keeps_live_onMachine keeps_liveFlag_ensureWriter).bind fun _ => ?_
  exact keeps_live_doLive _ (keeps_live_modify fun _ => rfl)

theorem keeps_live_admitLive (status : LogStatus) : Keeps LiveNode.live (admitLive status) := by
  refine keeps_get.bind fun s => (keeps_live_refuseLive _ _).bind fun _ => ?_
  refine (keeps_live_refuseLive _ _).bind fun _ => ?_
  refine (keeps_live_doLive _ keeps_live_resyncLive).bind fun _ => keeps_get.bind fun s => ?_
  refine (keeps_live_refuseLive _ _).bind fun _ => (keeps_live_refuseLive _ _).bind fun _ => ?_
  refine keeps_live_openLive.bind fun _ => keeps_get.bind fun s => ?_
  exact (keeps_live_refuseLive _ _).bind fun _ => keeps_live_refuseLive _ _

theorem maintains_of_keeps {x : LiveOp α} (h : Keeps LiveNode.live x) : Maintains LiveNode.Idle x :=
  fun s hs => wp_mono (h s) (fun _ _ h' => h'.trans hs) fun _ _ h' => h'.trans hs

theorem maintains_onMachine {x : Op α} (h : Maintains Machine.Idle x) :
    Maintains LiveNode.Idle (onMachine x) := by
  intro s hs
  rw [wp_onMachine]
  exact h s.machine hs

theorem maintains_replicateLive (t : WriterTransaction) (run : CommitRun) (core : AppendCore) :
    Maintains LiveNode.Idle (replicateLive t run core) := by
  intro s hs
  simp only [replicateLive, wp_bind, wp_get, wp_ite, wp_throw]
  refine ⟨fun _ => hs, fun _ => ⟨fun _ => hs, fun _ => ?_⟩⟩
  cases readCommittedFrames (s.frames ++ s.stale) s.capturedFrames s.committedFrames with
  | error e => exact hs
  | ok frames =>
    have hreplicate := maintains_onMachine (maintains_idle_replicateCaptured (t.read frames) core)
    have hfail : Maintains LiveNode.Idle (onMachine (modify markFailed)) :=
      maintains_onMachine (maintains_modify fun _ h => h)
    simp only [wp_bind, wp_modify, wp_ite]
    exact ⟨fun _ => hfail _ hs, fun _ => hreplicate _ hs⟩

theorem maintains_runStatements (statements : StatementRun) (core : AppendCore) :
    Maintains LiveNode.Idle (runStatements statements core) := by
  cases statements with
  | rolledBack stale => exact Maintains.bind (maintains_modify fun _ h => h) fun _ => maintains_throw _
  | committed t run =>
    refine maintains_get.bind fun s => ?_
    refine Maintains.bind (maintains_onMachine (maintains_modify fun _ h => h)) fun _ => ?_
    refine Maintains.bind (maintains_modify fun _ h => h) fun _ => ?_
    refine Maintains.bind ((maintains_replicateLive t run core).onError fun _ h => h) fun slot => ?_
    refine maintains_get.bind fun s => ?_
    exact (maintains_of_keeps (keeps_live_refuseLive _ _)).bind fun _ => maintains_pure slot

end Connection

/-! ### Errors -/

/-- Not the error of an operation on a live transaction that is not there. -/
def Other (e : NodeError) : Prop :=
  e ≠ .noTransaction

/-- The errors that only the admission of a write or of an operation on a live transaction raises. -/
def admissionErrors : List NodeError :=
  [.noTransaction, .transactionOpen, .recoveryRetentionExceeded, .leaderNotReady]

/-- Raised past the admission. -/
def Admitting (e : NodeError) : Prop :=
  e ∉ admissionErrors

instance (e : NodeError) : Decidable (Admitting e) :=
  inferInstanceAs (Decidable (e ∉ admissionErrors))

theorem Admitting.other {e : NodeError} (h : Admitting e) : Other e := by
  rintro rfl
  exact h List.mem_cons_self

section Errors

theorem raises_refuseIf (c : Bool) {e : NodeError} (h : Admitting e) : Raises Admitting (refuseIf c e) :=
  (raises_throw h).ite (raises_pure ())

theorem admitting_of_loadBatch {databaseId pageSize : ℕ} {store : PayloadStore} {batch : TransactionBatch}
    {e : NodeError} (h : loadBatch databaseId pageSize store batch = .error e) : Admitting e := by
  intro hmem
  simp only [admissionErrors, List.mem_cons, List.not_mem_nil, or_false] at hmem
  unfold loadBatch validateBatchPayload at h
  rcases hmem with rfl | rfl | rfl | rfl
  all_goals
    repeat' split at h
    all_goals cases h

theorem raises_applyBatchOffline (slot : ℕ) (batch : TransactionBatch) :
    Raises Admitting (applyBatchOffline slot batch) := by
  refine raises_get.bind fun m => ?_
  cases hload : loadBatch m.node.identity.databaseId m.node.pageSize m.disk.store batch with
  | error e => exact raises_throw (admitting_of_loadBatch hload)
  | ok view =>
    refine (raises_modify _).bind fun _ => (raises_modify _).bind fun _ => ?_
    exact Raises.forM (fun _ => raises_modify _) _

theorem raises_adoptChosenTrim (slot : ℕ) (record : TrimRecord) :
    Raises Admitting (adoptChosenTrim slot record) := by
  refine raises_get.bind fun m => ?_
  cases m.node.trimState.classify slot record with
  | ignoreReplay => exact raises_pure ()
  | ignoreStale => exact raises_modify _
  | ignoreDuplicate => exact raises_modify _
  | diverged => exact (raises_modify _).bind fun _ => raises_throw (by decide)
  | adopt =>
    refine (raises_modify _).bind fun _ => (raises_modify _).bind fun _ => ?_
    exact (raises_modify _).bind fun _ => raises_modify _

theorem raises_storeLeases (state : Option TrimState) : Raises Admitting (storeLeases state) := by
  cases state with
  | none => exact raises_pure ()
  | some state => exact (raises_modify _).bind fun _ => raises_modify _

theorem raises_settleBatch (slot : ℕ) (batch : TransactionBatch) : Raises Admitting (settleBatch slot batch) := by
  refine raises_get.bind fun m => ?_
  cases m.node.captureBatchId with
  | some pending => exact (raises_modify _).bind fun _ => (raises_modify _).ite (raises_pure _)
  | none => exact (raises_modify _).ite (raises_applyBatchOffline slot batch)

theorem raises_accountValue (slot : ℕ) (entry : Entry) : Raises Admitting (accountValue slot entry) := by
  cases entry with
  | stop stop => exact (raises_modify _).bind fun _ => raises_modify _
  | command cmd =>
    cases cmd with
    | noop => exact raises_modify _
    | readBarrier nonce => exact raises_modify _
    | trim record => exact (raises_modify _).bind fun _ => raises_adoptChosenTrim slot record
    | transferLease lease =>
      exact (raises_modify _).bind fun _ => raises_get.bind fun m => raises_storeLeases _
    | leaseComplete leaseId =>
      exact (raises_modify _).bind fun _ => raises_get.bind fun m => raises_storeLeases _
    | transactionBatch batch =>
      refine raises_get.bind fun m => (raises_refuseIf _ (by decide)).bind fun _ => ?_
      exact (raises_settleBatch slot batch).bind fun _ => raises_modify _

theorem raises_appendWrites (writes : List Write) : Raises Admitting (appendWrites writes) := by
  refine Raises.forM (fun write => raises_get.bind fun m => ?_) writes
  simp only
  split
  · exact (raises_modify _).bind fun _ => raises_modify _
  · exact raises_modify _

theorem raises_journalEffects (effects : Effects) : Raises Admitting (journalEffects effects) := by
  unfold journalEffects
  split
  · refine (raises_appendWrites _).onError.bind fun _ => ?_
    exact (raises_modify _).ite (raises_pure _)
  · exact raises_pure _

theorem raises_consumeEffects (rounds : List Effects) : Raises Admitting (consumeEffects rounds) := by
  refine Raises.forM (fun round => (raises_journalEffects round).bind fun _ => ?_) rounds
  refine (Raises.onError (Raises.forM (fun entry => ?_) _)).bind fun _ => raises_get.bind fun m => ?_
  · exact (raises_accountValue entry.1 entry.2).bind fun _ => raises_modify _
  · refine (raises_appendWrites _).onError.bind fun _ => ?_
    exact (raises_modify _).bind fun _ => raises_modify _

theorem raises_replicateCaptured (t : CapturedTransaction) (core : AppendCore) :
    Raises Admitting (replicateCaptured t core) := by
  refine raises_get.bind fun m => (raises_refuseIf _ (by decide)).bind fun _ => ?_
  refine (raises_modify _).bind fun _ => raises_get.bind fun m => ?_
  cases core m (m.node.capturedBatch t) with
  | refused => exact (raises_modify _).bind fun _ => raises_throw (by decide)
  | unsent rounds last =>
    refine (raises_modify _).bind fun _ => (raises_consumeEffects rounds).bind fun _ => ?_
    exact (raises_journalEffects last).bind fun _ => raises_throw (by decide)
  | appended slot rounds =>
    refine (raises_modify _).bind fun _ => (raises_consumeEffects rounds).bind fun _ => ?_
    exact raises_pure slot

/-! Rebuilding the image raises no error of the admission either. -/

theorem raises_applyEntryToImage (slot : ℕ) (entry : Entry) (configurationId : ℕ) :
    Raises Admitting (applyEntryToImage slot entry configurationId) := by
  refine raises_get.bind fun m => ?_
  cases entry with
  | stop stop => exact (raises_modify _).bind fun _ => raises_modify _
  | command cmd =>
    cases cmd with
    | transactionBatch batch =>
      cases hload : loadBatch m.node.identity.databaseId m.node.pageSize m.disk.store batch with
      | error e =>
        have hthrow : Raises Admitting (throw e : Op Unit) := raises_throw (admitting_of_loadBatch hload)
        simp only [hload]
        split
        · exact (raises_throw (by decide)).bind fun _ => hthrow.bind fun _ => raises_modify _
        · exact hthrow.bind fun _ => raises_modify _
      | ok view =>
        have happly : Raises Admitting (applyPayloadOps slot view.applyPayload) :=
          Raises.forM (fun _ => raises_modify _) _
        simp only [hload]
        split
        · exact (raises_throw (by decide)).bind fun _ => happly.bind fun _ => (raises_modify _).bind fun _ =>
            raises_modify _
        · exact happly.bind fun _ => (raises_modify _).bind fun _ => raises_modify _
    | noop => exact raises_modify _
    | readBarrier nonce => exact raises_modify _
    | trim record => exact raises_modify _
    | transferLease lease => exact raises_modify _
    | leaseComplete leaseId => exact raises_modify _

theorem raises_applyReplayCommit (slot : ℕ) (value : Entry) (configCursor : ℕ) :
    Raises Admitting (applyReplayCommit slot value configCursor) :=
  (raises_applyEntryToImage slot value configCursor).bind fun _ => (raises_modify _).bind fun _ => raises_pure _

theorem raises_drainParked (fuel : ℕ) (r : Replay) : Raises Admitting (drainParked fuel r) := by
  induction fuel generalizing r with
  | zero => exact raises_pure r
  | succ fuel ih =>
    refine raises_get.bind fun m => ?_
    simp only
    split
    · exact raises_pure r
    · exact (raises_applyReplayCommit _ _ _).bind fun cursor => ih _

theorem raises_replayRecord (r : Replay) (write : Write) : Raises Admitting (replayRecord r write) := by
  cases write with
  | commit slot value =>
    refine raises_get.bind fun m => ?_
    simp only
    split
    · exact raises_pure r
    · split
      · exact (raises_applyReplayCommit _ _ _).bind fun cursor => raises_drainParked _ _
      · exact (raises_pure _).ite (raises_pure _)
  | promise ballot => exact raises_pure r
  | accept ballot slot value => exact raises_pure r
  | trimAnchor anchor => exact raises_pure r

theorem raises_recoveryBase : Raises Admitting recoveryBase := by
  intro m
  have hstuck : Admitting .stateUnavailable := by decide
  simp only [recoveryBase, wp_bind, wp_get]
  cases usableAnchor m.node.identity.databaseId m.disk with
  | none =>
    simp only [wp_pure, wp_bind, if_true, wp_ite, wp_throw, wp_emit, wp_setNode]
    exact ⟨fun _ => hstuck, fun _ => trivial⟩
  | some anchor =>
    simp only [wp_pure, wp_bind, wp_ite, wp_throw, wp_emit, wp_setNode]
    exact ⟨fun _ => ⟨fun _ => hstuck, fun _ => trivial⟩, fun _ => trivial⟩

theorem raises_materializeFromJournal : Raises Admitting materializeFromJournal := by
  refine (raises_modify _).bind fun _ => raises_recoveryBase.bind fun base => ?_
  refine (raises_modify _).bind fun _ => raises_get.bind fun m => ?_
  have hreplay : Raises Admitting (do
      emit Disk.createImage
      let _ ← (m.disk.journal.iterate (base.1 + 1)).foldlM replayRecord (Replay.start base.2)
      emit Disk.syncImage) :=
    (raises_modify _).bind fun _ => (Raises.foldlM raises_replayRecord _ _).bind fun _ => raises_modify _
  simp only
  split
  · exact (raises_throw (by decide)).bind fun _ => hreplay
  · exact hreplay

theorem raises_resyncImage : Raises Admitting resyncImage := by
  refine raises_get.bind fun m => Raises.bind ?_ fun _ => ?_
  · refine Raises.ite (raises_get.bind fun m => ?_) (raises_pure ())
    refine (Raises.forM (fun t => Raises.forM (fun _ => raises_modify _) _) _).bind fun _ => ?_
    exact (raises_modify _).bind fun _ => raises_modify _
  · refine (raises_modify _).bind fun _ => (raises_modify _).bind fun _ => ?_
    exact raises_materializeFromJournal.bind fun _ => raises_modify _

/-- An error of the connection that an operation past the admission raises. -/
def AdmittingLive : LiveError → Prop
  | .node e => Admitting e
  | _ => True

theorem raises_onMachine {α : Type} {x : Op α} (h : Raises Admitting x) : Raises AdmittingLive (onMachine x) := by
  intro s
  rw [wp_onMachine]
  exact h s.machine

theorem raises_sealLive (t : WriterTransaction) (run : CommitRun) (core : AppendCore) :
    Raises AdmittingLive (sealLive t run core) := by
  refine raises_get.bind fun s => (raises_onMachine (raises_modify _)).bind fun _ => ?_
  refine (raises_modify _).bind fun _ => Raises.bind (Raises.onError ?_) fun slot => ?_
  · intro s
    simp only [replicateLive, wp_bind, wp_get, wp_ite, wp_throw]
    refine ⟨fun _ => trivial, fun _ => ⟨fun _ => trivial, fun _ => ?_⟩⟩
    cases hread : readCommittedFrames (s.frames ++ s.stale) s.capturedFrames s.committedFrames with
    | error e =>
      unfold readCommittedFrames at hread
      simp only at hread
      repeat' split at hread
      all_goals cases hread
      all_goals trivial
    | ok frames =>
      simp only [wp_bind, wp_modify, wp_ite]
      refine ⟨fun _ => ?_, fun _ => raises_onMachine (raises_replicateCaptured _ _) _⟩
      exact wp_mono (raises_onMachine (raises_modify markFailed) _) (fun _ _ _ => trivial) fun _ _ h => h
  · refine raises_get.bind fun s => Raises.bind ?_ fun _ => raises_pure slot
    exact raises_onMachine (raises_refuseIf _ (by decide))

theorem raises_runStatements (statements : StatementRun) (core : AppendCore) :
    Raises (fun e => e ≠ .node .noTransaction) (runStatements statements core) := by
  cases statements with
  | rolledBack stale => exact (raises_modify _).bind fun _ => raises_throw LiveError.noConfusion
  | committed t run =>
    intro s
    refine wp_mono (raises_sealLive t run core s) (fun _ _ _ => trivial) fun e _ he heq => ?_
    rw [heq] at he
    exact Admitting.other he rfl

end Errors

end Zaxonlite
