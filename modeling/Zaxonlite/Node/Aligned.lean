import Zaxonlite.Node.Live

/-!
# A connection in step with its node

Whatever the node does on its own side, the database file overlaid with the valid frames of the WAL is
what the node's disk says the connection sees, and the two counters are the number of valid frames. The
one exception is a connection that is marked for a resync and runs no transaction: the frames of its last
transaction may not have been read, and the resync discards them.
-/

namespace Zaxonlite

open Program

/-! ### What accounting leaves of a connection -/

/-- The node's fields that concern its connection. -/
def Node.connection (n : Node) : Bool × Bool × Bool × Option ℕ :=
  (n.dbOpen, n.needsResync, n.liveTransaction, n.captureBatchId)

/-- The connection stays as it was, except that it may be marked for a resync, its transaction may end
and a captured write may be settled. -/
structure Retains (m m' : Machine) : Prop where
  dbOpen : m'.node.dbOpen = m.node.dbOpen
  content : m.node.dbOpen = true → m'.disk.content = m.disk.content
  wal : m.node.dbOpen = true → m'.disk.wal = m.disk.wal
  resync : m.node.needsResync = true → m'.node.needsResync = true
  live : m.node.liveTransaction = false → m'.node.liveTransaction = false
  capture : m'.node.captureBatchId = m.node.captureBatchId ∨ m'.node.captureBatchId = none

instance : Std.Refl Retains where
  refl _ := ⟨rfl, fun _ => rfl, fun _ => rfl, id, id, Or.inl rfl⟩

instance : IsTrans Machine Retains where
  trans m₁ m₂ m₃ h h' := by
    refine ⟨h'.dbOpen.trans h.dbOpen, fun hopen => ?_, fun hopen => ?_, fun hres => ?_,
      fun hlive => h'.live (h.live hlive), ?_⟩
    · exact (h'.content (h.dbOpen.trans hopen)).trans (h.content hopen)
    · exact (h'.wal (h.dbOpen.trans hopen)).trans (h.wal hopen)
    · exact h'.resync (h.resync hres)
    · rcases h'.capture with hsame | hnone
      · rw [hsame]
        exact h.capture
      · exact Or.inr hnone

section Follow

theorem Retains.of_connection {m m' : Machine} (hnode : m'.node.connection = m.node.connection)
    (hcontent : m.node.dbOpen = true → m'.disk.content = m.disk.content)
    (hwal : m.node.dbOpen = true → m'.disk.wal = m.disk.wal) : Retains m m' := by
  simp only [Node.connection, Prod.mk.injEq] at hnode
  obtain ⟨hopen, hresync, hlive, hcapture⟩ := hnode
  exact ⟨hopen, hcontent, hwal, fun hres => hresync.trans hres, fun hno => hlive.trans hno,
    Or.inl hcapture⟩

theorem follows_emit {f : Disk → Disk} (hcontent : ∀ d, (f d).content = d.content)
    (hwal : ∀ d, (f d).wal = d.wal) : Follows Retains (emit f) :=
  fun m => .of_connection rfl (fun _ => hcontent m.disk) fun _ => hwal m.disk

theorem follows_setNode {f : Node → Node} (h : ∀ n, (f n).connection = n.connection) :
    Follows Retains (setNode f) :=
  fun m => .of_connection (h m.node) (fun _ => rfl) fun _ => rfl

theorem follows_refuseIf (c : Bool) (e : NodeError) : Follows Retains (refuseIf c e) :=
  (follows_throw e).ite (follows_pure ())

theorem follows_doIf (c : Bool) {x : Op Unit} (h : Follows Retains x) : Follows Retains (doIf c x) :=
  h.ite (follows_pure ())

theorem retains_markFailed (m : Machine) : Retains m (markFailed m) :=
  .of_connection rfl (fun _ => rfl) fun _ => rfl

theorem follows_appendWrites (writes : List Write) : Follows Retains (appendWrites writes) := by
  refine Follows.forM (fun write => follows_get.bind fun m => ?_) writes
  simp only
  split
  · exact Follows.bind (follows_emit (fun _ => rfl) fun _ => rfl) fun _ =>
      follows_emit (fun _ => rfl) fun _ => rfl
  · exact follows_emit (fun _ => rfl) fun _ => rfl

theorem follows_journalEffects (effects : Effects) : Follows Retains (journalEffects effects) := by
  unfold journalEffects
  split
  · refine Follows.bind (Follows.onError (follows_appendWrites _) retains_markFailed) fun _ => ?_
    split
    · exact follows_emit (fun _ => rfl) fun _ => rfl
    · exact follows_pure _
  · exact follows_pure _

theorem follows_loseCapture : Follows Retains (setNode loseCapture) := by
  intro m
  rw [wp_setNode, loseCapture]
  split
  · exact ⟨rfl, fun _ => rfl, fun _ => rfl, fun _ => rfl, id, Or.inr rfl⟩
  · exact Std.Refl.refl m

theorem follows_adoptChosenTrim (slot : ℕ) (record : TrimRecord) :
    Follows Retains (adoptChosenTrim slot record) := by
  refine follows_get.bind fun m => ?_
  cases m.node.trimState.classify slot record with
  | ignoreReplay => exact follows_pure ()
  | ignoreStale => exact follows_setNode fun _ => rfl
  | ignoreDuplicate => exact follows_setNode fun _ => rfl
  | diverged => exact Follows.bind (follows_setNode fun _ => rfl) fun _ => follows_throw _
  | adopt =>
    refine Follows.bind (follows_setNode fun _ => rfl) fun _ => ?_
    refine Follows.bind (follows_emit (fun _ => rfl) fun _ => rfl) fun _ => ?_
    exact Follows.bind (follows_setNode fun _ => rfl) fun _ => follows_emit (fun _ => rfl) fun _ => rfl

theorem follows_storeLeases (state : Option TrimState) : Follows Retains (storeLeases state) := by
  cases state with
  | none => exact follows_pure ()
  | some state =>
    exact Follows.bind (follows_setNode fun _ => rfl) fun _ => follows_emit (fun _ => rfl) fun _ => rfl

theorem keeps_applyBatchOffline (slot : ℕ) (batch : TransactionBatch) :
    Keeps Machine.node (applyBatchOffline slot batch) := by
  refine keeps_get.bind fun m => keeps_loadBatch fun view => ?_
  refine Keeps.bind (keeps_emit fun _ => rfl) fun _ => Keeps.bind (keeps_emit fun _ => rfl) fun _ => ?_
  exact Keeps.forM (fun op => keeps_emit fun _ => rfl) _

theorem follows_settleBatch (slot : ℕ) (batch : TransactionBatch) :
    Follows Retains (settleBatch slot batch) := by
  intro m
  simp only [settleBatch, wp_bind, wp_get]
  cases hcap : m.node.captureBatchId with
  | some pending =>
    simp only [wp_bind, wp_setNode]
    have hsettled : ∀ resync, (m.node.needsResync = true → resync = true) →
        Retains m { m with node := { m.node with captureBatchId := none, needsResync := resync } } :=
      fun resync hres => ⟨rfl, fun _ => rfl, fun _ => rfl, hres, id, Or.inr rfl⟩
    split
    · exact hsettled true fun _ => rfl
    · exact hsettled _ id
  | none =>
    by_cases hopen : m.node.dbOpen = true
    · rw [if_pos hopen]
      exact ⟨rfl, fun _ => rfl, fun _ => rfl, fun _ => rfl, id, Or.inl rfl⟩
    · rw [if_neg hopen]
      have hclosed : ∀ m' : Machine, m'.node = m.node → Retains m m' := fun m' hnode =>
        .of_connection (congrArg Node.connection hnode) (fun hno => absurd hno hopen)
          fun hno => absurd hno hopen
      exact wp_mono (keeps_applyBatchOffline slot batch m) (fun _ => hclosed) fun _ => hclosed

theorem follows_accountValue (slot : ℕ) (entry : Entry) :
    Follows Retains (accountValue slot entry) := by
  cases entry with
  | stop stop =>
    refine follows_loseCapture.bind fun _ => follows_setNode fun n => ?_
    split <;> rfl
  | command cmd =>
    cases cmd with
    | noop => exact follows_loseCapture
    | readBarrier nonce => exact follows_loseCapture
    | trim record => exact follows_loseCapture.bind fun _ => follows_adoptChosenTrim slot record
    | transferLease lease =>
      exact follows_loseCapture.bind fun _ => follows_get.bind fun m => follows_storeLeases _
    | leaseComplete leaseId =>
      exact follows_loseCapture.bind fun _ => follows_get.bind fun m => follows_storeLeases _
    | transactionBatch batch =>
      refine follows_get.bind fun m => (follows_refuseIf _ _).bind fun _ => ?_
      exact (follows_settleBatch slot batch).bind fun _ => follows_setNode fun _ => rfl

theorem follows_consumeRound (effects : Effects) : Follows Retains (consumeRound effects) := by
  refine (follows_journalEffects effects).bind fun _ => ?_
  refine Follows.bind (Follows.onError (Follows.forM (fun e => ?_) _) retains_markFailed) fun _ => ?_
  · exact (follows_accountValue e.1 e.2).bind fun _ => follows_setNode fun _ => rfl
  · refine follows_get.bind fun m => ?_
    refine Follows.bind (Follows.onError (follows_appendWrites _) retains_markFailed) fun _ => ?_
    exact Follows.bind (follows_setNode fun _ => rfl) fun _ => follows_emit (fun _ => rfl) fun _ => rfl

theorem follows_consumeEffects (rounds : List Effects) : Follows Retains (consumeEffects rounds) :=
  Follows.forM follows_consumeRound rounds

theorem follows_installPayload (bytes : List UInt8) : Follows Retains (installPayload bytes) :=
  follows_emit (fun _ => rfl) fun _ => rfl

theorem follows_reclaim : Follows Retains reclaim := by
  refine follows_get.bind fun m => follows_doIf _ ?_
  refine follows_get.bind fun m => Follows.bind (follows_emit (fun _ => rfl) fun _ => rfl) fun _ => ?_
  refine follows_doIf _ (Follows.bind (follows_emit (fun _ => rfl) fun _ => rfl) fun _ => ?_)
  exact follows_setNode fun _ => rfl

theorem content_syncImage (d : Disk) : d.syncImage.content = d.content := by
  cases himage : d.image <;> simp [Disk.syncImage, Disk.content, Image.content, himage]

theorem follows_syncImage : Follows Retains (emit Disk.syncImage) :=
  follows_emit content_syncImage fun _ => rfl

theorem follows_publishStateAnchor : Follows Retains publishStateAnchor := by
  refine follows_get.bind fun m => ?_
  cases m.disk.image with
  | none => exact follows_throw _
  | some image =>
    refine follows_syncImage.bind fun _ => ?_
    exact Follows.bind (follows_emit (fun _ => rfl) fun _ => rfl) fun _ => follows_setNode fun _ => rfl

theorem follows_publishFailing (failure : AnchorFailure) :
    Follows Retains (publishFailing failure) := by
  cases failure with
  | openFile => exact follows_pure _
  | syncFile => exact follows_pure _
  | publish replaced =>
    refine follows_get.bind fun m => ?_
    cases m.disk.image with
    | none => exact follows_throw _
    | some image =>
      refine follows_syncImage.bind fun _ => Follows.bind (follows_setNode fun _ => rfl) fun _ => ?_
      exact follows_doIf _ (follows_emit (fun _ => rfl) fun _ => rfl)

/-- Replicating a captured transaction is accounting with the write in flight. -/
theorem wp_replicateCaptured_retains {t : CapturedTransaction} {core : AppendCore} {m : Machine}
    (hnone : m.node.captureBatchId = none) :
    wp (replicateCaptured t core) (fun _ => Retains (m.capturing t.batchId))
      (fun _ => Retains (m.capturing t.batchId)) m := by
  have hstart : ∀ m' : Machine, m'.node = m.node → m'.disk.content = m.disk.content →
      m'.disk.wal = m.disk.wal → Retains (m.capturing t.batchId) m' := by
    intro m' hnode hcontent hwal
    refine ⟨by rw [hnode]; rfl, fun _ => hcontent, fun _ => hwal, fun hres => ?_, fun hlive => ?_,
      Or.inr (by rw [hnode]; exact hnone)⟩
    · rw [hnode]
      exact hres
    · rw [hnode]
      exact hlive
  simp only [replicateCaptured, appendCaptured, wp_bind, wp_get, wp_refuseIf, wp_emit]
  refine ⟨fun _ => hstart m rfl rfl rfl, fun _ => ?_⟩
  set m₁ : Machine := ⟨m.node, { m.disk with
      store := m.disk.store.put (t.payload m.node.identity.databaseId) }, _⟩ with hm₁
  have hcapturing : Retains (m.capturing t.batchId) (m₁.capturing t.batchId) :=
    .of_connection rfl (fun _ => rfl) fun _ => rfl
  cases core m₁ (m₁.node.capturedBatch t) with
  | refused =>
    simp only [wp_bind, wp_setNode, wp_throw]
    have hmark := hstart m₁ rfl rfl rfl
    exact ⟨rfl, hmark.content, hmark.wal, fun _ => rfl, id, Or.inr hnone⟩
  | unsent rounds last =>
    simp only [wp_bind, wp_setNode]
    refine wp_mono ((follows_consumeEffects rounds).wp_trans hcapturing) (fun _ m₂ h₂ => ?_)
      fun _ _ h₂ => h₂
    rw [wp_bind]
    exact (follows_journalEffects last).wp_trans h₂
  | appended slot rounds =>
    simp only [wp_bind, wp_setNode]
    exact (follows_consumeEffects rounds).wp_trans hcapturing

theorem follows_endLive : Follows Retains (setNode fun n => { n with liveTransaction := false }) :=
  fun _ => ⟨rfl, fun _ => rfl, fun _ => rfl, id, fun _ => rfl, Or.inl rfl⟩

theorem follows_rollbackLive (rolledBack : Bool) : Follows Retains (rollbackLive rolledBack) := by
  refine follows_get.bind fun m => (follows_refuseIf _ _).bind fun _ => Follows.bind ?_ fun _ =>
    follows_refuseIf _ _
  exact fun m => ⟨rfl, fun _ => rfl, fun _ => rfl, fun hres => by simp [hres], fun _ => rfl,
    Or.inl rfl⟩

end Follow

/-! ### The alignment -/

/-- The files of the connection are what the node's disk says, the counters are in step, and what was
read back for a transaction is the transaction. -/
structure Aligned (s : LiveNode) : Prop where
  closed : s.machine.node.dbOpen = false → s.frames = [] ∧ s.backfilled = false
  settled : ∀ f ∈ s.frames.getLast?, f.info.commitSize ≠ 0
  overlaid : s.machine.node.dbOpen = true → overlay s.main s.frames = s.machine.disk.live
  copied : s.machine.node.dbOpen = true → s.backfilled = true → s.main = s.machine.disk.live
  counted : s.machine.node.dbOpen = true → s.committedFrames = s.frames.length
  captured : s.machine.node.dbOpen = true → s.capturedFrames = s.frames.length ∨
    s.machine.node.needsResync = true ∧ s.machine.node.liveTransaction = false
  inFlight : s.machine.node.dbOpen = true → s.machine.node.needsResync = false →
    ∀ b, s.machine.node.captureBatchId = some b → ∃ r ∈ s.readings.getLast?,
      r.transaction.batchId = b ∧
        ∃ w ∈ s.machine.disk.wal.getLast?, w.ops = r.transaction.frames.changes
  read : ∀ r ∈ s.readings, r.transaction.frames = r.committed.captured

section Align

variable {s : LiveNode} {m : Machine}

theorem Aligned.settle (h : Aligned s) (hm : Retains s.machine m) :
    Aligned { s with machine := m } := by
  have hopen : m.node.dbOpen = s.machine.node.dbOpen := hm.dbOpen
  have hlive : s.machine.node.dbOpen = true → m.disk.live = s.machine.disk.live := by
    intro hyes
    rw [Disk.live, Disk.live, Disk.walOps, Disk.walOps, hm.content hyes, hm.wal hyes]
  refine ⟨fun hno => h.closed (hopen.symm.trans hno), h.settled, fun hyes => ?_, fun hyes hcopied => ?_,
    fun hyes => h.counted (hopen.symm.trans hyes), fun hyes => ?_, fun hyes hresync b hb => ?_, h.read⟩
  · have hyes' := hopen.symm.trans hyes
    exact (h.overlaid hyes').trans (hlive hyes').symm
  · have hyes' := hopen.symm.trans hyes
    exact (h.copied hyes' hcopied).trans (hlive hyes').symm
  · rcases h.captured (hopen.symm.trans hyes) with hstep | ⟨hres, hended⟩
    · exact Or.inl hstep
    · exact Or.inr ⟨hm.resync hres, hm.live hended⟩
  · have hyes' := hopen.symm.trans hyes
    have hresync' : s.machine.node.needsResync = false := by
      cases hcase : s.machine.node.needsResync with
      | false => rfl
      | true =>
        exact absurd ((hm.resync hcase).symm.trans hresync) (by decide)
    have hb' : s.machine.node.captureBatchId = some b := by
      rcases hm.capture with hsame | hnone
      · rw [← hsame]
        exact hb
      · cases hnone.symm.trans hb
    obtain ⟨r, hr, hid, w, hw, hops⟩ := h.inFlight hyes' hresync' b hb'
    rw [← hm.wal hyes'] at hw
    exact ⟨r, hr, hid, w, hw, hops⟩

theorem Aligned.wp_onMachine {α : Type} {x : Op α} (h : Aligned s) (hx : Follows Retains x) :
    wp (onMachine x) (fun _ => Aligned) (fun _ => Aligned) s := by
  rw [Zaxonlite.wp_onMachine]
  exact wp_mono (hx s.machine) (fun _ _ hm => h.settle hm) (fun _ _ hm => h.settle hm)

theorem Aligned.atRest (h : Aligned s) : Aligned s.atRest :=
  h.settle (.of_connection rfl (fun _ => rfl) fun _ => rfl)

theorem Aligned.disconnected (h : Aligned s) (hclosed : m.node.dbOpen = false) :
    Aligned { s.disconnected with machine := m } := by
  have hno : ∀ p : Prop, m.node.dbOpen = true → p := fun p hyes => by
    rw [hclosed] at hyes
    cases hyes
  exact ⟨fun _ => ⟨rfl, rfl⟩, fun f hf => absurd hf (by simp [LiveNode.disconnected]), hno _, hno _, hno _, hno _, hno _, h.read⟩

theorem aligned_start (hclosed : m.node.dbOpen = false) : Aligned (LiveNode.start m) := by
  have hno : ∀ p : Prop, m.node.dbOpen = true → p := fun p hyes => by
    rw [hclosed] at hyes
    cases hyes
  exact ⟨fun _ => ⟨rfl, rfl⟩, fun f hf => absurd hf (by simp [LiveNode.start]), hno _, hno _, hno _, hno _, hno _,
    fun r hr => absurd hr List.not_mem_nil⟩

theorem Aligned.rollback (h : Aligned s) (stale : List WalFrame) : Aligned (s.rollback stale) :=
  { h with }

end Align

end Zaxonlite
