import Zaxonlite.Node.Aligned

/-!
# Operations over a live connection

Each operation of a data voter keeps its connection aligned: a commit appends the transaction's frames
and reads exactly those back, a checkpoint moves the frames into the database file whether it succeeds or
fails, a resync discards them. What it takes is that no commit starts the WAL over under counters that
still count the frames before.
-/

namespace Zaxonlite

open Program Contiguous

variable {databaseId : ℕ}

/-- The transaction starts the WAL over while the counters still count frames of the one before, and it
has more frames than they count. -/
def LiveNode.StaleRestart (s : LiveNode) (t : WriterTransaction) (run : CommitRun) : Prop :=
  s.restarts run.pinned = true ∧ 0 < s.capturedFrames ∧
    s.capturedFrames < t.committed.frames.length

/-- A data voter with a connection aligned to it. -/
structure Coupled (L : ChosenLog databaseId) (caps : Capabilities) (configuration lo n : ℕ)
    (s : LiveNode) : Prop where
  serving : Serving L caps configuration lo n s.machine
  aligned : Aligned s

/-- What an operation of such a voter leaves. -/
def LiveOutcome (L : ChosenLog databaseId) (caps : Capabilities) (configuration : ℕ) (s : LiveNode) :
    Prop :=
  ServesOrFails L caps configuration s.machine ∧ Aligned s

section Commit

variable {s : LiveNode} {t : WriterTransaction} {run : CommitRun}

/-- The machine once SQLite has committed. -/
def Machine.committing (m : Machine) (t : CapturedTransaction) (trail : List Disk) : Machine :=
  ⟨m.node, { m.disk with wal := m.disk.wal ++ [m.walTransaction t] }, trail⟩

theorem live_committing (m : Machine) (t : WriterTransaction) (trail : List Disk) :
    (m.committing t.captured trail).disk.live =
      m.disk.live.execAll (frameOps t.committed.frames) := by
  have hops : (m.walTransaction t.captured).ops = frameOps t.committed.frames :=
    t.committed.changes_captured
  simp only [Machine.committing, Disk.live, Disk.walOps, List.flatMap_append, List.flatMap_singleton,
    hops, File.execAll_append]
  rfl

/-- The connection after a commit: aligned, except that the counters count what was captured before. -/
structure Committed (s s' : LiveNode) (t : WriterTransaction) : Prop where
  machine : ∃ trail, s'.machine = s.machine.committing t.captured trail
  readings : s'.readings = s.readings
  capturedFrames : s'.capturedFrames = s.capturedFrames
  settled : ∀ f ∈ s'.frames.getLast?, f.info.commitSize ≠ 0
  overlaid : overlay s'.main s'.frames = s'.machine.disk.live
  backfilled : s'.backfilled = false
  counted : s'.committedFrames = s'.frames.length

theorem Aligned.committed (h : Aligned s) (hopen : s.machine.node.dbOpen = true)
    (t : WriterTransaction) (run : CommitRun) (trail : List Disk) :
    Committed s { s.commit t.committed run with machine := s.machine.committing t.captured trail }
      t := by
  have hlast : ∀ before : List WalFrame, ∀ f ∈ (before ++ t.committed.frames).getLast?,
      f.info.commitSize ≠ 0 := by
    intro before f hf
    have hne : t.committed.frames ≠ [] := List.ne_nil_of_length_pos t.committed.nonempty
    rw [List.getLast?_append_of_ne_nil _ hne] at hf
    exact t.committed.committed f hf
  refine ⟨⟨trail, rfl⟩, rfl, rfl, ?_, ?_, rfl, rfl⟩
  · simp only [LiveNode.commit]
    split
    · exact hlast []
    · exact hlast s.frames
  · rw [live_committing]
    simp only [LiveNode.commit]
    split
    · rename_i hrestart
      rw [LiveNode.restarts, Bool.and_eq_true] at hrestart
      rw [h.copied hopen hrestart.1]
      rfl
    · rw [overlay_append, h.overlaid hopen]
      rfl

/-- A commit whose frames were not read leaves the connection marked. -/
theorem Committed.marked {s' : LiveNode} (h : Committed s s' t) (haligned : Aligned s)
    (hopen : s.machine.node.dbOpen = true) (hlive : s.machine.node.liveTransaction = false) :
    Aligned s'.committedWithoutLog := by
  obtain ⟨trail, hmachine⟩ := h.machine
  have hended : s'.committedWithoutLog.machine.node.liveTransaction = false := by
    rw [LiveNode.committedWithoutLog, hmachine]
    exact hlive
  have hyes : s'.committedWithoutLog.machine.node.dbOpen = true := by
    rw [LiveNode.committedWithoutLog, hmachine]
    exact hopen
  refine ⟨fun hno => ?_, h.settled, fun _ => h.overlaid, fun _ hno => ?_, fun _ => h.counted,
    fun _ => Or.inr ⟨rfl, hended⟩, fun _ hno => ?_, ?_⟩
  · cases hyes.symm.trans hno
  · cases h.backfilled.symm.trans hno
  · cases hno
  · rw [show s'.committedWithoutLog.readings = s.readings from h.readings]
    exact haligned.read

/-- A commit whose frames were read, with the write in flight. -/
theorem Committed.captured {s' : LiveNode} (h : Committed s s' t) (haligned : Aligned s)
    (hopen : s.machine.node.dbOpen = true) :
    Aligned { s'.readBack ⟨t.committed, t.captured⟩ with
      machine := s'.machine.capturing t.batchId } := by
  obtain ⟨trail, hmachine⟩ := h.machine
  have hyes : s'.machine.node.dbOpen = true := by
    rw [hmachine]
    exact hopen
  refine ⟨fun hno => ?_, h.settled, fun _ => h.overlaid, fun _ hno => ?_, fun _ => h.counted,
    fun _ => Or.inl h.counted, fun _ _ b hb => ?_, ?_⟩
  · cases hyes.symm.trans hno
  · cases h.backfilled.symm.trans hno
  · refine ⟨⟨t.committed, t.captured⟩, ?_, Option.some.inj hb,
      s.machine.walTransaction t.captured, ?_, rfl⟩
    · simp [LiveNode.readBack]
    · simp [Machine.capturing, hmachine, Machine.committing]
  · intro r hr
    rcases List.mem_append.1 hr with hold | hnew
    · rw [h.readings] at hold
      exact haligned.read r hold
    · rw [List.mem_singleton] at hnew
      rw [hnew]
      rfl

/-- Frames that are counted from where the last capture ended are read back exactly. -/
theorem read_commit (hstep : s.capturedFrames = s.frames.length) (h : ¬ s.StaleRestart t run)
    (hcount : s.capturedFrames < (s.commit t.committed run).committedFrames) :
    readCommittedFrames ((s.commit t.committed run).frames ++ (s.commit t.committed run).stale)
      s.capturedFrames (s.commit t.committed run).committedFrames = .ok t.committed.captured := by
  simp only [LiveNode.commit] at hcount ⊢
  split at hcount
  · rename_i hrestart
    -- The counters of an empty WAL are right for one that starts over.
    have hzero : s.capturedFrames = 0 := by
      by_contra hne
      exact h ⟨hrestart, Nat.pos_of_ne_zero hne, hcount⟩
    rw [if_pos hrestart, hzero]
    simpa using t.committed.read_eq [] run.stale
  · rename_i hrestart
    rw [if_neg hrestart, hstep, List.length_append]
    exact t.committed.read_eq s.frames run.stale

theorem length_readCommittedFrames {file : List WalFrame} {first last : ℕ} {frames : CapturedFrames}
    (h : readCommittedFrames file first last = .ok frames) : frames.infos.length = last - first := by
  unfold readCommittedFrames at h
  simp only at h
  split at h
  · cases h
  · rename_i hlength
    split at h
    · obtain rfl := Except.ok.inj h
      have hle := List.length_take_le (last - first) (file.drop first)
      simp only [captureFrames, List.length_map]
      omega
    · cases h

/-- **What a commit reads back.** Counters that count the valid frames of the WAL lead to exactly the
transaction's frames unless the commit started the WAL over. -/
theorem read_commit_iff (hstep : s.capturedFrames = s.frames.length)
    (hcount : s.capturedFrames < (s.commit t.committed run).committedFrames) :
    readCommittedFrames ((s.commit t.committed run).frames ++ (s.commit t.committed run).stale)
      s.capturedFrames (s.commit t.committed run).committedFrames = .ok t.committed.captured ↔
      ¬ s.StaleRestart t run := by
  refine ⟨fun hread hstale => ?_, fun hfresh => read_commit hstep hfresh hcount⟩
  obtain ⟨hrestart, hpos, -⟩ := hstale
  have hlength := length_readCommittedFrames hread
  have hall : t.committed.captured.infos.length = t.committed.frames.length := List.length_map _
  have hcommitted : (s.commit t.committed run).committedFrames = t.committed.frames.length := by
    simp only [LiveNode.commit]
    rw [if_pos hrestart]
  have hnonempty := t.committed.nonempty
  omega

end Commit

/-! ### Sealing -/

section Seal

variable {L : ChosenLog databaseId} {caps : Capabilities} {configuration lo n : ℕ} {s : LiveNode}
  {t : WriterTransaction} {run : CommitRun} {core : AppendCore}

/-- The failures between a commit and its append. -/
theorem Admitted.outcome_lost (h : Admitted L caps configuration lo n s.machine)
    (hdrawn : Drawn L t.captured) (trail : List Disk) :
    ServesOrFails L caps configuration
      (committedWithoutLog (s.machine.committing t.captured trail)) :=
  (h.serving.leading (h.leading.commitTransaction hdrawn h.capture h.live trail).contradicted
    rfl).outcome

theorem Admitted.outcome_failed (h : Admitted L caps configuration lo n s.machine) (trail : List Disk) :
    ServesOrFails L caps configuration
      (committedWithoutLog (markFailed (s.machine.committing t.captured trail))) :=
  ⟨lo, Or.inr ⟨h.leading.disk.withWal _, rfl⟩⟩

/-- What reading the frames back and replicating them comes to. -/
theorem wp_replicateLive {s' : LiveNode} {frames : CapturedFrames} {Q : ℕ → LiveNode → Prop}
    {E : LiveError → LiveNode → Prop}
    (hread : s'.capturedFrames < s'.committedFrames → readCommittedFrames (s'.frames ++ s'.stale)
      s'.capturedFrames s'.committedFrames = .ok frames)
    (hlost : s'.committedFrames ≤ s'.capturedFrames ∨ run.unreadable = true → ∀ e, E e s')
    (hunstored : run.unstored = true →
      E .io { s'.readBack ⟨t.committed, t.read frames⟩ with machine := markFailed s'.machine })
    (hreplicate : wp (replicateCaptured (t.read frames) core)
      (fun slot m => Q slot { s'.readBack ⟨t.committed, t.read frames⟩ with machine := m })
      (fun e m => E (.node e) { s'.readBack ⟨t.committed, t.read frames⟩ with machine := m })
      s'.machine) :
    wp (replicateLive t run core) Q E s' := by
  simp only [replicateLive, wp_bind, wp_get]
  rw [wp_ite]
  refine ⟨fun hcount => hlost (Or.inl hcount) _, fun hcount => ?_⟩
  rw [wp_ite]
  refine ⟨fun hyes => hlost (Or.inr hyes) _, fun _ => ?_⟩
  rw [hread (Nat.lt_of_not_le hcount)]
  simp only [wp_bind, wp_modify]
  rw [wp_ite]
  refine ⟨fun hyes => ?_, fun _ => ?_⟩
  · rw [Bool.and_eq_true] at hyes
    exact hunstored hyes.1
  · rw [wp_onMachine]
    exact hreplicate

theorem Admitted.wp_sealLive (h : Admitted L caps configuration lo n s.machine) (haligned : Aligned s)
    (hstep : s.capturedFrames = s.frames.length) (hfresh : ¬ s.StaleRestart t run)
    (hdrawn : Drawn L t.captured) (hcore : ∀ m batch, AppendOk L m batch (core m batch)) :
    wp (sealLive t run core) (fun _ => LiveOutcome L caps configuration)
      (fun _ => LiveOutcome L caps configuration) s := by
  have hopen := h.leading.dbOpen
  simp only [sealLive, wp_bind, wp_get, wp_onMachine, wp_emit, wp_modify, wp_onError]
  set trail := s.machine.trail ++ [{ s.machine.disk with
    wal := s.machine.disk.wal ++ [s.machine.walTransaction t.captured] }]
  set s' : LiveNode := { s.commit t.committed run with
    machine := s.machine.committing t.captured trail } with hs'
  have hcommitted : Committed s s' t := haligned.committed hopen t run trail
  have hlost : LiveOutcome L caps configuration s'.committedWithoutLog :=
    ⟨h.outcome_lost hdrawn trail, hcommitted.marked haligned hopen h.live⟩
  have hcaptured := hcommitted.captured haligned hopen
  -- Once read, the connection stays aligned whatever the core makes of the append.
  have hsettled : ∀ m, Retains (s'.machine.capturing t.batchId) m →
      Aligned { s'.readBack ⟨t.committed, t.captured⟩ with machine := m } := fun m hm =>
    hcaptured.settle hm
  have hmarked : ∀ m, Retains m (committedWithoutLog m) := fun m =>
    ⟨rfl, fun _ => rfl, fun _ => rfl, fun _ => rfl, id, Or.inr rfl⟩
  have hserve := h.wp_sealCapturedTransaction hdrawn hcore
  simp only [sealCapturedTransaction, wp_bind, wp_get, wp_emit, wp_onError] at hserve
  change wp (replicateLive t run core) _ _ s'
  refine wp_replicateLive (fun hcount => read_commit hstep hfresh hcount) (fun _ _ => hlost)
    (fun _ => ?_) ?_
  · refine ⟨h.outcome_failed trail, hsettled _ ?_⟩
    exact ⟨rfl, fun _ => rfl, fun _ => rfl, fun _ => rfl, id, Or.inr rfl⟩
  · refine wp_mono (wp_and hserve (wp_replicateCaptured_retains h.capture)) ?_ ?_
    · intro slot m hm
      obtain ⟨hdecided, hm⟩ := hm
      simp only [wp_bind, wp_get, wp_refuseIf, wp_pure] at hdecided
      obtain ⟨hcut, hdone⟩ := hdecided
      simp only [wp_bind, wp_get, wp_refuseLive, wp_pure]
      exact ⟨fun hyes => ⟨hcut hyes, hsettled m hm⟩, fun hno => ⟨hdone hno, hsettled m hm⟩⟩
    · intro e m hm
      obtain ⟨hfailed, hm⟩ := hm
      exact ⟨hfailed, hsettled _ (IsTrans.trans _ _ _ hm (hmarked m))⟩

/-- The statements of a request, committed or rolled back. -/
theorem Admitted.wp_runStatements (h : Admitted L caps configuration lo n s.machine)
    (haligned : Aligned s) (hstep : s.capturedFrames = s.frames.length) {statements : StatementRun}
    (hfresh : ∀ t run, statements = .committed t run → ¬ s.StaleRestart t run)
    (hdrawn : ∀ t run, statements = .committed t run → Drawn L t.captured)
    (hcore : ∀ m batch, AppendOk L m batch (core m batch)) :
    wp (runStatements statements core) (fun _ => LiveOutcome L caps configuration)
      (fun _ => LiveOutcome L caps configuration) s := by
  cases statements with
  | rolledBack stale => exact ⟨h.serving.outcome, haligned.rollback stale⟩
  | committed t run => exact h.wp_sealLive haligned hstep (hfresh t run rfl) (hdrawn t run rfl) hcore

end Seal

/-! ### Opening and closing -/

section Open

variable {L : ChosenLog databaseId} {caps : Capabilities} {configuration lo n : ℕ} {s : LiveNode}

theorem Coupled.outcome (h : Coupled L caps configuration lo n s) : LiveOutcome L caps configuration s :=
  ⟨h.serving.outcome, h.aligned⟩

/-- After a connection that may have been closed, there is nothing of a WAL left to start over. -/
def Continues (s s' : LiveNode) : Prop :=
  s'.backfilled = true → s.machine.node.needsResync = false ∧ s.backfilled = true ∧
    s'.capturedFrames = s.capturedFrames

theorem Continues.staleRestart {s' : LiveNode} {t : WriterTransaction} {run : CommitRun}
    (h : Continues s s') (hstale : s'.StaleRestart t run) :
    s.machine.node.needsResync = false ∧ s.StaleRestart t run := by
  obtain ⟨hrestart, hpos, hlt⟩ := hstale
  rw [LiveNode.restarts, Bool.and_eq_true] at hrestart
  obtain ⟨hneeds, hback, hcount⟩ := h hrestart.1
  rw [hcount] at hpos hlt
  refine ⟨hneeds, ?_, hpos, hlt⟩
  rw [LiveNode.restarts, Bool.and_eq_true]
  exact ⟨hback, hrestart.2⟩

/-- `resyncImage` closes the connection. -/
theorem Coupled.wp_resyncLive (h : Coupled L caps configuration lo n s)
    (hclean : CleanClose L s.machine.disk) :
    wp resyncLive (fun _ s' => s'.machine.node.needsResync = false ∧ s'.machine.node.dbOpen = false ∧
        ∃ n', Coupled L caps configuration lo n' s')
      (fun _ _ => False) s := by
  simp only [resyncLive, wp_bind, wp_modify, wp_onMachine]
  refine wp_mono (h.serving.wp_resyncImage hclean.retained) (fun _ m hm => ?_) (fun _ _ hno => hno)
  obtain ⟨-, -, hserve⟩ := hm
  obtain ⟨hserving, htrack⟩ := hserve hclean
  exact ⟨htrack.resync, htrack.dbOpen, _, hserving, h.aligned.disconnected htrack.dbOpen⟩

theorem Coupled.wp_resyncIfNeeded (h : Coupled L caps configuration lo n s)
    (hclean : s.machine.node.needsResync = true → CleanClose L s.machine.disk) :
    wp (doLive s.machine.node.needsResync resyncLive)
      (fun _ s' => s'.machine.node.needsResync = false ∧ (s' = s ∨ s'.machine.node.dbOpen = false) ∧
        ∃ n', Coupled L caps configuration lo n' s')
      (fun _ _ => False) s := by
  rw [wp_doLive]
  refine ⟨fun hneeds => ?_, fun hno => ⟨hno, Or.inl rfl, n, h⟩⟩
  refine wp_mono (h.wp_resyncLive (hclean hneeds)) (fun _ s' h' => ?_) (fun _ _ hno => hno)
  obtain ⟨hres, hclosed, hstep⟩ := h'
  exact ⟨hres, Or.inr hclosed, hstep⟩

/-- A freshly opened connection sees the image. -/
theorem Aligned.opened {m : Machine} (h : Aligned s) (hclosed : s.machine.node.dbOpen = false)
    (hwal : m.disk.wal = []) (hcapture : m.node.captureBatchId = none)
    (hopen : m.node.dbOpen = true) :
    Aligned ({ s with machine := m } : LiveNode).connected := by
  obtain ⟨hframes, hback⟩ := h.closed hclosed
  have hlive : m.disk.live = m.disk.content := by
    rw [Disk.live, Disk.walOps, hwal]
    rfl
  have hzero : 0 = s.frames.length := by rw [hframes]; rfl
  refine ⟨fun hno => ?_, h.settled, fun _ => ?_, fun _ hno => ?_, fun _ => hzero, fun _ => Or.inl hzero,
    fun _ _ b hb => ?_, h.read⟩
  · cases hopen.symm.trans hno
  · show overlay m.disk.content s.frames = m.disk.live
    rw [hframes, hlive]
    rfl
  · cases hback.symm.trans hno
  · cases hcapture.symm.trans hb

/-- `ensureWriter` leaves a connection a transaction may run on. -/
theorem Coupled.wp_openLive (h : Coupled L caps configuration lo n s) :
    wp openLive
      (fun _ s' => Coupled L caps configuration lo n s' ∧ Leading L configuration lo n n s'.machine ∧
        s'.machine.node.needsResync = s.machine.node.needsResync ∧
        (s'.backfilled = true → s.backfilled = true ∧ s'.capturedFrames = s.capturedFrames))
      (fun _ s' => Coupled L caps configuration lo n s') s := by
  have hserve := h.serving.wp_ensureWriter
  simp only [ensureWriter, wp_bind, wp_get, wp_refuseIf, wp_doIf, wp_emit, wp_setNode] at hserve
  obtain ⟨-, hserve⟩ := hserve
  simp only [openLive, ensureWriter, wp_bind, wp_get, wp_onMachine, wp_refuseIf, wp_doIf, wp_emit,
    wp_setNode, wp_doLive, wp_modify]
  refine ⟨fun _ => h, fun hserves => ⟨fun hno => ?_, fun hyes => ?_⟩⟩
  · have hclosed : s.machine.node.dbOpen = false := by simpa using hno
    obtain ⟨hserving, hleading⟩ := (hserve hserves).1 hno
    have htrack : Tracking L configuration lo n n s.machine.atRest := by
      rcases h.serving.state with htrack | hlead
      · exact htrack
      · cases hlead.dbOpen.symm.trans hclosed
    have hwal : s.machine.disk.createImage.wal = [] := by
      obtain ⟨image, hcreate⟩ := createImage_eq s.machine.disk
      rw [hcreate]
      exact htrack.wal
    refine ⟨fun _ => ⟨⟨hserving, ?_⟩, hleading, rfl, fun hback => ?_⟩, fun hopen => ?_⟩
    · exact h.aligned.opened hclosed hwal htrack.capture rfl
    · exact absurd ((h.aligned.closed hclosed).2.symm.trans hback) (by decide)
    · rw [hclosed] at hopen
      cases hopen
  · have hleading := ((hserve hserves).2 hyes).2
    refine ⟨fun hclosed => ?_, fun _ => ⟨h, hleading, trivial, fun hback => ⟨hback, trivial⟩⟩⟩
    cases hyes.symm.trans hclosed

/-- The admission checks end with an aligned connection a transaction may run on, or refuse. -/
theorem Coupled.wp_admitLive (h : Coupled L caps configuration lo n s) (status : LogStatus)
    (hclean : s.machine.node.needsResync = true → CleanClose L s.machine.disk) :
    wp (admitLive status)
      (fun _ s' => Continues s s' ∧ Aligned s' ∧ s'.capturedFrames = s'.frames.length ∧
        ∃ n', Admitted L caps configuration lo n' s'.machine)
      (fun _ => LiveOutcome L caps configuration) s := by
  simp only [admitLive, wp_bind, wp_get, wp_refuseLive]
  refine ⟨fun _ => h.outcome, fun _ => ⟨fun _ => h.outcome, fun _ => ?_⟩⟩
  refine wp_mono (h.wp_resyncIfNeeded hclean) (fun _ s₁ h₁ => ?_) (fun _ _ hno => hno.elim)
  obtain ⟨hres, hsame₁, n', h₁⟩ := h₁
  have hcont : Continues s s₁ := by
    intro hback
    rcases hsame₁ with rfl | hclosed
    · exact ⟨hres, hback, rfl⟩
    · exact absurd ((h₁.aligned.closed hclosed).2.symm.trans hback) (by decide)
  simp only [wp_bind, wp_get, wp_refuseLive]
  refine ⟨fun _ => h₁.outcome, fun _ => ⟨fun _ => h₁.outcome, fun _ => ?_⟩⟩
  refine wp_mono h₁.wp_openLive (fun _ s₂ h₂ => ?_) (fun _ _ h₂ => h₂.outcome)
  obtain ⟨h₂, hlead, hsame, hback⟩ := h₂
  simp only [wp_bind, wp_get, wp_refuseLive]
  refine ⟨fun _ => h₂.outcome, fun hcap => ⟨fun _ => h₂.outcome, fun hlive => ?_⟩⟩
  refine ⟨fun hyes => ?_, h₂.aligned, ?_, n', h₂.serving, hlead, captureBatchId_none hcap, hlive⟩
  · obtain ⟨hback₁, hcount₁⟩ := hback hyes
    obtain ⟨hneeds, hback₀, hcount₀⟩ := hcont hback₁
    exact ⟨hneeds, hback₀, hcount₁.trans hcount₀⟩
  · refine (h₂.aligned.captured hlead.dbOpen).resolve_right fun hno => ?_
    exact absurd ((hsame.trans hres).symm.trans hno.1) (by decide)

end Open

/-! ### Requests -/

section Request

variable {L : ChosenLog databaseId} {caps : Capabilities} {configuration lo n : ℕ} {s : LiveNode}
  {statements : StatementRun} {core : AppendCore}

theorem Coupled.wp_writeRequestLive (h : Coupled L caps configuration lo n s) (status : LogStatus)
    (hclean : s.machine.node.needsResync = true → CleanClose L s.machine.disk)
    (hfresh : ∀ t run, statements = .committed t run →
      ¬ (s.machine.node.needsResync = false ∧ s.StaleRestart t run))
    (hdrawn : ∀ t run, statements = .committed t run → Drawn L t.captured)
    (hcore : ∀ m batch, AppendOk L m batch (core m batch)) :
    wp (writeRequestLive status statements core) (fun _ => LiveOutcome L caps configuration)
      (fun _ => LiveOutcome L caps configuration) s := by
  simp only [writeRequestLive, wp_bind]
  refine wp_mono (h.wp_admitLive status hclean) (fun _ s₁ h₁ => ?_) (fun _ _ h' => h')
  obtain ⟨hcont, haligned, hstep, n', h₁⟩ := h₁
  exact h₁.wp_runStatements haligned hstep
    (fun t run hrun hstale => hfresh t run hrun (hcont.staleRestart hstale)) hdrawn hcore

theorem Coupled.wp_beginLiveTransaction (h : Coupled L caps configuration lo n s) (stopPending : Bool)
    (hclean : s.machine.node.needsResync = true → CleanClose L s.machine.disk) :
    wp (beginLiveTransaction stopPending) (fun _ => LiveOutcome L caps configuration)
      (fun _ => LiveOutcome L caps configuration) s := by
  simp only [beginLiveTransaction, wp_bind, wp_get, wp_refuseLive]
  refine ⟨fun _ => h.outcome, fun _ => ⟨fun _ => h.outcome, fun _ => ⟨fun _ => h.outcome, fun _ =>
    ⟨fun _ => h.outcome, fun _ => ?_⟩⟩⟩⟩
  refine wp_mono (h.wp_resyncIfNeeded hclean) (fun _ s₁ h₁ => ?_) (fun _ _ hno => hno.elim)
  obtain ⟨hres, -, n', h₁⟩ := h₁
  simp only [wp_bind, wp_get, wp_refuseLive]
  refine ⟨fun _ => h₁.outcome, fun _ => ?_⟩
  refine wp_mono h₁.wp_openLive (fun _ s₂ h₂ => ?_) (fun _ _ h₂ => h₂.outcome)
  obtain ⟨h₂, hlead, hsame, -⟩ := h₂
  simp only [wp_bind, wp_get, wp_refuseLive, wp_onMachine, wp_setNode]
  refine ⟨fun _ => h₂.outcome, fun hcap => ?_⟩
  have hnone := captureBatchId_none hcap
  have hres₂ : s₂.machine.node.needsResync = false := hsame.trans hres
  obtain ⟨j, hwal⟩ := hlead.wal
  have hbegun : Leading L configuration lo n' n'
      { s₂.machine with node := { s₂.machine.node with liveTransaction := true } } :=
    { hlead with exclusive := fun _ => hnone, wal := ⟨j, { hwal with }⟩ }
  refine ⟨(h₂.serving.leading hbegun rfl).outcome, ?_⟩
  have hstep : s₂.capturedFrames = s₂.frames.length :=
    (h₂.aligned.captured hlead.dbOpen).resolve_right fun hno =>
      absurd (hres₂.symm.trans hno.1) (by decide)
  exact { h₂.aligned with captured := fun _ => Or.inl hstep }

theorem Coupled.leading (h : Coupled L caps configuration lo n s)
    (hopen : s.machine.node.dbOpen = true) : Leading L configuration lo n n s.machine := by
  rcases h.serving.state with htrack | hlead
  · have hno : s.machine.node.dbOpen = false := htrack.dbOpen
    cases hopen.symm.trans hno
  · exact hlead

theorem Coupled.wp_liveExec (h : Coupled L caps configuration lo n s)
    (hopen : s.machine.node.dbOpen = true) (ended : Bool) (stale : List WalFrame) :
    wp (liveExec ended stale) (fun _ => LiveOutcome L caps configuration)
      (fun _ => LiveOutcome L caps configuration) s := by
  have hrolled : Coupled L caps configuration lo n (s.rollback stale) :=
    ⟨h.serving, h.aligned.rollback stale⟩
  simp only [liveExec, wp_bind, wp_get, wp_refuseLive, wp_modify, wp_doLive, wp_onMachine, wp_setNode,
    wp_throw]
  refine ⟨fun _ => h.outcome, fun _ => ⟨fun _ => h.outcome, fun _ => ⟨fun _ => ?_, fun _ =>
    hrolled.outcome⟩⟩⟩
  have hended := (h.leading hopen).endLive s.machine.node.needsResync id
  exact ⟨(h.serving.leading hended rfl).outcome, hrolled.aligned.settle (follows_endLive _)⟩

theorem Coupled.wp_commitLiveTransaction (h : Coupled L caps configuration lo n s) (stopPending : Bool)
    (hopen : s.machine.node.dbOpen = true)
    (hfresh : ∀ t run, statements = .committed t run → ¬ s.StaleRestart t run)
    (hdrawn : ∀ t run, statements = .committed t run → Drawn L t.captured)
    (hcore : ∀ m batch, AppendOk L m batch (core m batch)) :
    wp (commitLiveTransaction stopPending statements core) (fun _ => LiveOutcome L caps configuration)
      (fun _ => LiveOutcome L caps configuration) s := by
  simp only [commitLiveTransaction, wp_bind, wp_get, wp_refuseLive, wp_onMachine, wp_setNode]
  refine ⟨fun _ => h.outcome, fun hlive => ⟨fun _ => h.outcome, fun _ => ⟨fun _ => h.outcome, fun _ => ?_⟩⟩⟩
  have hyes : s.machine.node.liveTransaction = true := by simpa using hlive
  have hlead := h.leading hopen
  have hended := hlead.endLive s.machine.node.needsResync id
  have hadmitted : Admitted L caps configuration lo n
      { s.machine with node := { s.machine.node with liveTransaction := false } } :=
    ⟨h.serving.leading hended rfl, hended, hlead.exclusive hyes, rfl⟩
  have hstep : s.capturedFrames = s.frames.length :=
    (h.aligned.captured hopen).resolve_right fun hno => absurd (hyes.symm.trans hno.2) (by decide)
  exact Admitted.wp_runStatements (s := { s with machine := _ }) hadmitted
    (h.aligned.settle (follows_endLive _)) hstep hfresh hdrawn hcore

theorem Coupled.wp_rollbackLiveTransaction (h : Coupled L caps configuration lo n s) (rolledBack : Bool)
    (hopen : s.machine.node.dbOpen = true) (stale : List WalFrame) :
    wp (rollbackLiveTransaction rolledBack stale) (fun _ => LiveOutcome L caps configuration)
      (fun _ => LiveOutcome L caps configuration) s := by
  simp only [rollbackLiveTransaction, wp_bind, wp_modify]
  have haligned := (h.aligned.rollback stale).wp_onMachine (follows_rollbackLive rolledBack)
  have hserving := h.serving.wp_rollbackLive rolledBack hopen
  rw [wp_onMachine] at haligned ⊢
  refine wp_mono (wp_and hserving haligned) (fun _ _ h' => h') (fun _ _ h' => h')

end Request

/-! ### Anchors -/

section Anchor

variable {L : ChosenLog databaseId} {caps : Capabilities} {configuration lo n : ℕ} {m : Machine}

/-- What a checkpoint that fails may have copied: pages of valid frames, and when it copied all, the
database file is what connections see. -/
def LiveNode.Copies (s : LiveNode) (changes : List FileOp) (complete : Bool) : Prop :=
  changes ⊆ frameOps s.frames ∧ (complete = true → s.main.execAll changes = overlay s.main s.frames)

theorem settled_frameOps {frames : List WalFrame}
    (h : ∀ f ∈ frames.getLast?, f.info.commitSize ≠ 0) : Settled (frameOps frames) := by
  cases hlast : frames.getLast? with
  | none =>
    rw [List.getLast?_eq_none_iff.1 hlast]
    exact Or.inl rfl
  | some last =>
    have hsize := h last hlast
    have hsplit : frames = frames.dropLast ++ [last] :=
      (List.dropLast_append_getLast? last hlast).symm
    refine Or.inr ⟨frameOps frames.dropLast ++ [last.write],
      last.info.commitSize * defaultPageSize, ?_⟩
    conv_lhs => rw [hsplit]
    simp [frameOps, WalFrame.ops, hsize]

/-- A checkpoint that fails changes nothing a connection sees. -/
theorem Aligned.copies {s : LiveNode} (h : Aligned s) (hopen : s.machine.node.dbOpen = true)
    {changes : List FileOp} {complete : Bool} (hcopies : s.Copies changes complete) :
    Aligned (s.copied changes complete) := by
  obtain ⟨hsub, hall⟩ := hcopies
  have hsame : overlay (s.main.execAll changes) s.frames = overlay s.main s.frames :=
    overlay_copied (settled_frameOps h.settled) hsub
  refine { h with
    closed := fun hno => ?_
    overlaid := fun _ => hsame.trans (h.overlaid hopen)
    copied := fun _ hback => (hall hback).trans (h.overlaid hopen) }
  cases hopen.symm.trans hno

/-- A checkpoint that succeeds moves the frames into the database file. -/
theorem Aligned.checkpointed {s : LiveNode} (h : Aligned s) (hopen : s.machine.node.dbOpen = true)
    (himage : s.machine.disk.image.isSome) (hnone : s.machine.node.captureBatchId = none)
    (trail : List Disk) :
    Aligned ({ s with machine := ⟨s.machine.node, s.machine.disk.closed, trail⟩ } :
      LiveNode).truncated.resetCounters := by
  have hlive : s.machine.disk.closed.live = s.machine.disk.live := by
    rw [← Disk.content_closed himage]
    rfl
  refine ⟨fun hno => ?_, fun f hf => absurd hf (by simp [LiveNode.truncated, LiveNode.resetCounters]),
    fun _ => ?_, fun _ hno => absurd hno Bool.false_ne_true, fun _ => rfl, fun _ => Or.inl rfl, fun _ _ b hb => ?_, h.read⟩
  · cases hopen.symm.trans hno
  · exact (h.overlaid hopen).trans hlive.symm
  · cases hnone.symm.trans hb

/-- Publishing an anchor does not depend on the disks passed through. -/
theorem wp_publishStateAnchor_atRest {P : Node → Disk → Prop}
    (h : wp publishStateAnchor (fun _ m' => P m'.node m'.disk) (fun _ m' => P m'.node m'.disk)
      m.atRest) :
    wp publishStateAnchor (fun _ m' => P m'.node m'.disk) (fun _ m' => P m'.node m'.disk) m := by
  simp only [publishStateAnchor, Machine.atRest, wp_bind, wp_get] at h ⊢
  cases himage : m.disk.image with
  | none =>
    rw [himage] at h
    exact h
  | some image =>
    rw [himage] at h
    exact h

theorem Serving.wp_publishStateAnchor (h : Serving L caps configuration lo n m)
    (hcontent : m.disk.content = (L.state n).image) (hwal : m.disk.wal = [])
    (hnone : m.node.captureBatchId = none) (hpos : 0 < n) :
    wp publishStateAnchor (fun _ => Serving L caps configuration lo n)
      (fun _ => Serving L caps configuration lo n) m := by
  have hstate : wp publishStateAnchor
      (fun _ m' => Tracking L configuration lo n n m'.atRest ∨ Leading L configuration lo n n m')
      (fun _ m' => Tracking L configuration lo n n m'.atRest ∨ Leading L configuration lo n n m')
      m := by
    rcases h.state with htrack | hlead
    · refine wp_mono (wp_publishStateAnchor_atRest
        (P := fun node disk => Tracking L configuration lo n n ⟨node, disk, []⟩) ?_)
        (fun _ _ h' => Or.inl h') (fun _ _ h' => Or.inl h')
      exact wp_mono (Zaxonlite.wp_publishStateAnchor htrack hpos) (fun _ _ h' => h'.atRest)
        (fun _ _ h' => h'.atRest)
    · exact wp_mono (hlead.wp_publishStateAnchor hcontent hwal hnone hpos) (fun _ _ h' => Or.inr h')
        (fun _ _ h' => Or.inr h')
  refine wp_mono (wp_and hstate (wp_publishStateAnchor_durable h.durable)) ?_ ?_
  all_goals
    intro _ m' h'
    obtain ⟨hs, hdurable, hcaps⟩ := h'
    exact ⟨hcaps.trans h.capabilities, hdurable, hs⟩

theorem Serving.synced (h : Serving L caps configuration lo n m)
    (hcontent : m.disk.content = (L.state n).image) (himage : m.disk.image.isSome)
    (trail : List Disk) : Serving L caps configuration lo n ⟨m.node, m.disk.syncImage, trail⟩ := by
  obtain ⟨image, hsome⟩ := Option.isSome_iff_exists.1 himage
  have hfold : image.content = (L.state n).image := by
    simpa only [Disk.content, hsome] using hcontent
  have hsync := content_syncImage m.disk
  have hlive : m.disk.syncImage.live = m.disk.live := by
    rw [Disk.live, Disk.live, hsync]
    rfl
  refine h.of_view rfl (h.state.imp (fun htrack => ?_) fun hlead => ?_)
  · obtain ⟨k, hlo, hk, hanchors, -⟩ := htrack.image
    have hle : ∀ a, m.disk.applied.Holds a → a.globalSlot ≤ n := fun a ha =>
      le_trans (hanchors a ha) hk
    obtain ⟨hdisk, hsynced⟩ :=
      htrack.safe.disk.syncImage hsome hfold htrack.lo_le htrack.data_le hle
    exact
      { htrack with
        safe := ⟨hdisk, fun _ hd => absurd hd List.not_mem_nil⟩
        content := hsync.trans htrack.content
        image := ⟨n, htrack.lo_le, le_rfl, hle, hsynced _⟩ }
  · obtain ⟨j, hwal⟩ := hlead.wal
    have hle : ∀ a, m.disk.applied.Holds a → a.globalSlot ≤ n := fun a ha =>
      le_trans (hwal.anchors a ha) hwal.le
    obtain ⟨hdisk, -⟩ := hlead.disk.syncImage hsome hfold hlead.lo_le hlead.data_le hle
    exact
      { hlead with
        disk := hdisk
        image := by simp only [Disk.syncImage, hsome, Option.map_some, Option.isSome_some]
        wal := ⟨j, { hwal with
          content := hsync.trans hwal.content
          clean := fun hres hcap => hlive.trans (hwal.clean hres hcap)
          captured := fun hres b hb => by
            simp only [hsync]
            exact hwal.captured hres b hb }⟩ }

theorem Serving.withGeneration (h : Serving L caps configuration lo n m) (generation : ℕ) :
    Serving L caps configuration lo n
      { m with node := { m.node with anchorGeneration := generation } } := by
  refine ⟨h.capabilities, h.durable, h.state.imp (fun htrack => ?_) fun hlead => ?_⟩
  · exact htrack.withNode rfl rfl rfl rfl rfl rfl rfl rfl rfl rfl htrack.queued
  · exact hlead.withNode rfl rfl rfl rfl rfl rfl rfl rfl rfl rfl rfl hlead.queued

/-- An anchor that was published without the node taking note of it. -/
theorem Serving.unnoted {node : Node} {d : Disk} {trail : List Disk}
    (h : Serving L caps configuration lo n ⟨node.anchored, d, trail⟩)
    (hle : node.durableStateSlot ≤ node.appliedSlot) :
    Serving L caps configuration lo n
      ⟨{ node with anchorGeneration := node.anchorGeneration + 1 }, d, trail⟩ := by
  refine ⟨h.capabilities, ?_, h.state.imp (fun htrack => ?_) fun hlead => ?_⟩
  · rcases h.durable with hzero | ⟨a, ha, hslot⟩
    · exact Or.inl (Nat.eq_zero_of_le_zero (hzero ▸ hle))
    · exact Or.inr ⟨a, ha, le_trans hle hslot⟩
  · exact htrack.withNode rfl rfl rfl rfl rfl rfl rfl rfl rfl rfl htrack.queued
  · exact hlead.withNode rfl rfl rfl rfl rfl rfl rfl rfl rfl rfl rfl hlead.queued

theorem Serving.wp_publishFailing (h : Serving L caps configuration lo n m)
    (hcontent : m.disk.content = (L.state n).image) (hwal : m.disk.wal = [])
    (hnone : m.node.captureBatchId = none) (hpos : 0 < n)
    (hle : m.node.durableStateSlot ≤ m.node.appliedSlot) (failure : AnchorFailure) :
    wp (publishFailing failure) (fun _ => Serving L caps configuration lo n)
      (fun _ => Serving L caps configuration lo n) m := by
  cases failure with
  | openFile => exact h
  | syncFile => exact h
  | publish replaced =>
    have hpublished := h.wp_publishStateAnchor hcontent hwal hnone hpos
    simp only [publishFailing, publishStateAnchor, wp_bind, wp_get] at hpublished ⊢
    cases himage : m.disk.image with
    | none => exact h
    | some image =>
      rw [himage] at hpublished
      simp only [wp_bind, wp_emit, wp_setNode, wp_doIf] at hpublished ⊢
      refine ⟨fun _ => hpublished.unnoted hle, fun _ => ?_⟩
      exact (h.synced hcontent (by rw [himage]; rfl) _).withGeneration _

/-- The checkpoint of `createStateAnchor`. -/
theorem Coupled.wp_checkpointTruncate {s : LiveNode} (h : Coupled L caps configuration lo n s)
    (hopen : s.machine.node.dbOpen = true) (hres : s.machine.node.needsResync = false)
    (hnone : s.machine.node.captureBatchId = none) {run : CheckpointRun}
    (hcopies : ∀ changes complete, run = .failed changes complete → s.Copies changes complete) :
    wp (do checkpointTruncate run; modify LiveNode.resetCounters)
      (fun _ s' => Coupled L caps configuration lo n s' ∧ s'.machine.node = s.machine.node ∧
        s'.machine.disk.content = (L.state n).image ∧ s'.machine.disk.wal = [])
      (fun _ => Coupled L caps configuration lo n) s := by
  have hlead := h.leading hopen
  rw [wp_bind]
  cases run with
  | truncated =>
    simp only [checkpointTruncate, wp_bind, wp_onMachine, wp_modify]
    refine wp_checkpointWal fun trail => ?_
    obtain ⟨hclosed, hcontent⟩ := hlead.checkpointed hres hnone trail
    refine ⟨⟨h.serving.leading hclosed rfl, ?_⟩, rfl, hcontent, rfl⟩
    exact h.aligned.checkpointed hopen hlead.image hnone trail
  | failed changes complete =>
    exact ⟨h.serving, h.aligned.copies hopen (hcopies changes complete rfl)⟩

theorem Coupled.wp_publishLive {s : LiveNode} (h : Coupled L caps configuration lo n s)
    (hcontent : s.machine.disk.content = (L.state n).image) (hwal : s.machine.disk.wal = [])
    (hnone : s.machine.node.captureBatchId = none) (hpos : 0 < n)
    (hle : s.machine.node.durableStateSlot ≤ s.machine.node.appliedSlot)
    (failure : Option AnchorFailure) :
    wp (publishLive failure) (fun _ => Coupled L caps configuration lo n)
      (fun _ => Coupled L caps configuration lo n) s := by
  cases failure with
  | none =>
    rw [publishLive, wp_onMachine]
    refine wp_mono (wp_and (h.serving.wp_publishStateAnchor hcontent hwal hnone hpos)
      (follows_publishStateAnchor s.machine)) ?_ ?_
    all_goals exact fun _ m hm => ⟨hm.1, h.aligned.settle hm.2⟩
  | some failure =>
    simp only [publishLive, wp_bind, wp_onMachine, wp_throw]
    refine wp_mono (wp_and (h.serving.wp_publishFailing hcontent hwal hnone hpos hle failure)
      (follows_publishFailing failure s.machine)) ?_ ?_
    all_goals exact fun _ m hm => ⟨hm.1, h.aligned.settle hm.2⟩

theorem Coupled.wp_createStateAnchorLive {s : LiveNode} (h : Coupled L caps configuration lo n s)
    {run : CheckpointRun} (failure : Option AnchorFailure)
    (hclean : s.machine.node.needsResync = true → CleanClose L s.machine.disk)
    (hcopies : ∀ changes complete, run = .failed changes complete → s.Copies changes complete) :
    wp (createStateAnchorLive run failure) (fun _ => LiveOutcome L caps configuration)
      (fun _ => LiveOutcome L caps configuration) s := by
  simp only [createStateAnchorLive, wp_bind, wp_get, wp_refuseLive]
  refine ⟨fun _ => h.outcome, fun _ => ⟨fun _ => h.outcome, fun _ => ?_⟩⟩
  refine wp_mono (h.wp_resyncIfNeeded hclean) (fun _ s₁ h₁ => ?_) (fun _ _ hno => hno.elim)
  obtain ⟨hres, hsame, n', h₁⟩ := h₁
  simp only [wp_bind, wp_get, wp_refuseLive, wp_doLive]
  refine ⟨fun _ => h₁.outcome, fun hlive => ⟨fun _ => h₁.outcome, fun hcap => ⟨fun hlt => ?_, fun _ =>
    h₁.outcome⟩⟩⟩
  have hnone := captureBatchId_none hcap
  have hbelow : s₁.machine.node.durableStateSlot < s₁.machine.node.appliedSlot :=
    of_decide_eq_true hlt
  refine ⟨fun hopen => ?_, fun hclosed => ?_⟩
  · have hlead := h₁.leading hopen
    have hpos : 0 < n' := by
      have happlied := hlead.appliedSlot
      omega
    have hcopies₁ : ∀ changes complete, run = .failed changes complete →
        s₁.Copies changes complete := by
      intro changes complete hrun
      rcases hsame with rfl | hclosed
      · exact hcopies changes complete hrun
      · cases hopen.symm.trans hclosed
    have hcheckpoint := h₁.wp_checkpointTruncate hopen hres hnone hcopies₁
    rw [wp_bind] at hcheckpoint
    refine wp_mono hcheckpoint (fun _ s₂ h₂ => ?_) (fun _ _ h₂ => h₂.outcome)
    rw [wp_modify] at h₂ ⊢
    obtain ⟨h₂, hnode, hcontent, hwal⟩ := h₂
    refine wp_mono (h₂.wp_publishLive hcontent hwal (by rw [hnode]; exact hnone) hpos
      (by rw [hnode]; exact hbelow.le) failure) (fun _ _ h' => h'.outcome) (fun _ _ h' => h'.outcome)
  · rcases h₁.serving.state with htrack | hlead
    · have hpos : 0 < n' := by
        have happlied : s₁.machine.node.appliedSlot = n' := htrack.appliedSlot
        omega
      exact wp_mono (h₁.wp_publishLive htrack.content htrack.wal hnone hpos hbelow.le failure)
        (fun _ _ h' => h'.outcome) (fun _ _ h' => h'.outcome)
    · cases hlead.dbOpen.symm.trans hclosed

end Anchor

end Zaxonlite
