import Zaxonlite.Node.Leader

/-!
# A data voter between operations

Between two operations a data voter either follows, its image closed and equal to the fold, or it has a
live connection open. `Serving` is the invariant of both, with what reclaiming history relies on: the
slot the node takes for durable is one a published anchor covers, so no segment above every anchor is
ever unlinked. Opening the connection turns a follower into a leader, a resync turns a leader back into
a follower.
-/

namespace Zaxonlite

open Program Contiguous

variable {databaseId : ℕ}

/-- A machine whose past disks are of no concern. -/
def Machine.atRest (m : Machine) : Machine :=
  { m with trail := [] }

@[simp] theorem Machine.node_atRest (m : Machine) : m.atRest.node = m.node := rfl
@[simp] theorem Machine.disk_atRest (m : Machine) : m.atRest.disk = m.disk := rfl

theorem Machine.atRest_of_nil {m : Machine} (h : m.trail = []) : m.atRest = m := by
  cases m
  simp only at h
  subst h
  rfl

/-- The slot taken for durable is covered by a published anchor. -/
def DurableHeld (m : Machine) : Prop :=
  m.node.durableStateSlot = 0 ∨
    ∃ a, m.disk.applied.Holds a ∧ m.node.durableStateSlot ≤ a.globalSlot

structure Serving (L : ChosenLog databaseId) (capabilities : Capabilities) (configuration lo n : ℕ)
    (m : Machine) : Prop where
  capabilities : m.node.capabilities = capabilities
  durable : DurableHeld m
  state : Tracking L configuration lo n n m.atRest ∨ Leading L configuration lo n n m

section Keep

variable {L : ChosenLog databaseId} {caps : Capabilities} {configuration lo n : ℕ} {m : Machine}

theorem Tracking.atRest (h : Tracking L configuration lo n n m) :
    Tracking L configuration lo n n m.atRest :=
  { h with safe := ⟨h.safe.disk, fun _ hd => absurd hd List.not_mem_nil⟩ }

theorem CoreEffects.atRest {effects : Effects} (h : CoreEffects L m effects) :
    CoreEffects L m.atRest effects := { h with }

theorem Serving.disk (h : Serving L caps configuration lo n m) : DiskSound L configuration lo m.disk :=
  h.state.elim (fun htrack => htrack.safe.disk) (fun hlead => hlead.disk)

theorem Serving.database (h : Serving L caps configuration lo n m) :
    m.node.identity.databaseId = databaseId :=
  h.state.elim (fun htrack => htrack.database) (fun hlead => hlead.database)

theorem Serving.withTrail (h : Serving L caps configuration lo n m) (trail : List Disk) :
    Serving L caps configuration lo n { m with trail := trail } :=
  ⟨h.capabilities, h.durable, h.state.imp id fun hlead => hlead.withTrail trail⟩

theorem DurableHeld.of_anchorView {m' : Machine} (h : DurableHeld m)
    (hview : m'.anchorView = m.anchorView) : DurableHeld m' := by
  simp only [Machine.anchorView, Prod.mk.injEq] at hview
  obtain ⟨-, -, hdurable, -, happlied⟩ := hview
  unfold DurableHeld
  rwa [hdurable, happlied]

theorem Machine.capabilities_of_anchorView {m' : Machine} (hview : m'.anchorView = m.anchorView) :
    m'.node.capabilities = m.node.capabilities :=
  congrArg (fun v => v.2.1) hview

/-- An operation that touches no anchor keeps what `Serving` says of them. -/
theorem Serving.of_view {m' : Machine} {lo' n' : ℕ} (h : Serving L caps configuration lo n m)
    (hview : m'.anchorView = m.anchorView)
    (hstate : Tracking L configuration lo' n' n' m'.atRest ∨ Leading L configuration lo' n' n' m') :
    Serving L caps configuration lo' n' m' :=
  ⟨(Machine.capabilities_of_anchorView hview).trans h.capabilities, h.durable.of_anchorView hview,
    hstate⟩

theorem Serving.leading {m' : Machine} {lo' n' : ℕ} (h : Serving L caps configuration lo n m)
    (hlead : Leading L configuration lo' n' n' m') (hview : m'.anchorView = m.anchorView) :
    Serving L caps configuration lo' n' m' :=
  h.of_view hview (Or.inr hlead)

/-- What holds after an operation of a replica that served: it serves, or it has failed for good. -/
def ServesOrFails (L : ChosenLog databaseId) (caps : Capabilities) (configuration : ℕ) (m : Machine) :
    Prop :=
  ∃ lo, (∃ n, Serving L caps configuration lo n m) ∨ Failed L configuration lo m

theorem Serving.outcome (h : Serving L caps configuration lo n m) :
    ServesOrFails L caps configuration m :=
  ⟨lo, Or.inl ⟨n, h⟩⟩

theorem Serving.wp_consumeRound {effects : Effects} (h : Serving L caps configuration lo n m)
    (hrest : m.trail = []) (hcore : CoreEffects L m effects) :
    wp (consumeRound effects) (fun _ => ServesOrFails L caps configuration)
      (fun _ => ServesOrFails L caps configuration) m := by
  rcases h.state with htrack | hlead
  · rw [Machine.atRest_of_nil hrest] at htrack
    refine wp_mono (wp_and (Zaxonlite.wp_consumeRound htrack hcore) (keeps_consumeRound effects m))
      ?_ ?_
    · rintro _ m' ⟨h', hview⟩
      exact (h.of_view hview (Or.inl h'.atRest)).outcome
    · rintro _ m' ⟨⟨hsafe, hfatal⟩, -⟩
      exact ⟨lo, Or.inr ⟨hsafe.disk, hfatal⟩⟩
  · refine wp_mono (wp_and (hlead.wp_consumeRound hcore) (keeps_consumeRound effects m)) ?_ ?_
    · rintro _ m' ⟨h', hview⟩
      exact (h.of_view hview (Or.inr h')).outcome
    · rintro _ m' ⟨hfail, -⟩
      exact ⟨lo, Or.inr hfail⟩

theorem Serving.put (h : Serving L caps configuration lo n m) (bytes : List UInt8)
    (trail : List Disk) : Serving L caps configuration lo n
      { m with disk := { m.disk with store := m.disk.store.put bytes }, trail := trail } := by
  refine h.of_view rfl (h.state.imp (fun htrack => ?_) fun hlead => hlead.put bytes trail)
  exact { htrack with safe := ⟨htrack.safe.disk.put bytes, fun _ hd => absurd hd List.not_mem_nil⟩ }

end Keep

/-! ### Reclaiming -/

section Reclaim

variable {L : ChosenLog databaseId} {caps : Capabilities} {configuration lo lo' n : ℕ} {m : Machine}

/-- Every slot that the floor and the anchors are below. -/
def Above (lo : ℕ) (d : Disk) (k : ℕ) : Prop :=
  lo ≤ k ∧ ∀ a, d.applied.Holds a → a.globalSlot ≤ k

/-- A disk whose log was cut from below, its run and its anchors kept. -/
theorem DiskSound.withLog {d : Disk} (h : DiskSound L configuration lo d) {journal : Journal}
    {store : PayloadStore}
    (hlog : LogSound L configuration lo' { d with journal := journal, store := store })
    (hend : committedEnd lo' { d with journal := journal, store := store } = committedEnd lo d)
    (hlo : ∀ k, Above lo d k → lo' ≤ k) :
    DiskSound L configuration lo' { d with journal := journal, store := store } := by
  obtain ⟨k, hk, hkend, hanchors, himage⟩ := h.image
  refine ⟨hlog, k, hlo k ⟨hk, hanchors⟩, ?_, hanchors, ?_⟩
  · rw [hend]
    exact hkend
  · rw [hend]
    exact himage.congr rfl

theorem Serving.withLog (h : Serving L caps configuration lo n m) {journal : Journal}
    {store : PayloadStore}
    (hlog : LogSound L configuration lo' { m.disk with journal := journal, store := store })
    (hend : committedEnd lo' { m.disk with journal := journal, store := store } =
      committedEnd lo m.disk)
    (hlo : ∀ k, Above lo m.disk k → lo' ≤ k) (trail : List Disk) :
    Serving L caps configuration lo' n
      ⟨m.node, { m.disk with journal := journal, store := store }, trail⟩ := by
  refine h.of_view rfl (h.state.imp (fun htrack => ?_) fun hlead => ?_)
  · obtain ⟨k, hk, hkn, hanchors, himage⟩ := htrack.image
    exact
      { htrack with
        safe := ⟨htrack.safe.disk.withLog hlog hend hlo, fun _ hd => absurd hd List.not_mem_nil⟩
        lo_le := le_trans (hlo k ⟨hk, hanchors⟩) hkn
        data_le := hend.symm ▸ htrack.data_le
        image := ⟨k, hlo k ⟨hk, hanchors⟩, hkn, hanchors, himage.congr rfl⟩ }
  · obtain ⟨j, hwal⟩ := hlead.wal
    have habove : Above lo m.disk n :=
      ⟨hlead.lo_le, fun a ha => le_trans (hwal.anchors a ha) hwal.le⟩
    exact
      { hlead with
        disk := hlead.disk.withLog hlog hend hlo
        lo_le := hlo n habove
        data_le := hend.symm ▸ hlead.data_le
        wal := ⟨j, { hwal with }⟩ }

theorem Serving.swept (h : Serving L caps configuration lo n m) (slot : ℕ) :
    Serving L caps configuration lo n
      { m with node := { m.node with sweptTrimDecisionSlot := slot } } := by
  refine h.of_view rfl (h.state.imp (fun htrack => ?_) fun hlead => ?_)
  · exact htrack.withNode rfl rfl rfl rfl rfl rfl rfl rfl rfl rfl htrack.queued
  · exact hlead.withNode rfl rfl rfl rfl rfl rfl rfl rfl rfl rfl rfl hlead.queued

/-- `reclaim` on a node that materializes state. -/
theorem Serving.wp_reclaim (h : Serving L caps configuration lo n m)
    (hmaterializes : caps.materializes = true) :
    wp reclaim (fun _ => ServesOrFails L caps configuration)
      (fun _ => ServesOrFails L caps configuration) m := by
  have hfloor : m.node.deleteFloor ≤ m.node.durableStateSlot := by
    simp only [Node.deleteFloor, h.capabilities, hmaterializes, if_true]
    exact le_trans (deleteFloor_le _ _ _ _) (min_le_right _ _)
  have hbelow : ∀ k, Above lo m.disk k → m.node.deleteFloor ≤ k := by
    rintro k ⟨-, hanchors⟩
    rcases h.durable with hzero | ⟨a, ha, hle⟩
    · omega
    · exact le_trans hfloor (le_trans hle (hanchors a ha))
  obtain ⟨k, hk, hkend, hanchors, -⟩ := h.disk.image
  have hkfloor := hbelow k ⟨hk, hanchors⟩
  obtain ⟨lo', hle, hmax, hlog, hend⟩ :=
    h.disk.log.trimThrough (le_trans hkfloor hkend)
  have hlo : ∀ k, Above lo m.disk k → lo' ≤ k := fun k hab =>
    le_trans hmax (max_le hab.1 (hbelow k hab))
  have htrim : ∀ trail, Serving L caps configuration lo' n ⟨m.node, { m.disk with
      journal := (m.disk.journal.trimThrough m.node.deleteFloor).2 }, trail⟩ :=
    h.withLog hlog hend hlo
  simp only [reclaim, reclaimThrough, sweepPayloads, wp_bind, wp_get, wp_doIf, wp_emit, wp_setNode]
  refine ⟨fun _ => ⟨fun _ => ?_, fun _ => ?_⟩, fun _ => h.outcome⟩
  · have hswept := (htrim (m.trail ++ [{ m.disk with
      journal := (m.disk.journal.trimThrough m.node.deleteFloor).2 }])).withLog hlog.sweep rfl
      (fun k hab => hab.1)
    exact ((hswept _).swept m.node.trimState.decisionSlot).outcome
  · exact (htrim _).outcome

end Reclaim

/-! ### Resync -/

section Resync

variable {L : ChosenLog databaseId} {caps : Capabilities} {configuration lo n : ℕ} {m : Machine}

theorem usableAnchor_closed {d : Disk} (h : d.wal = []) :
    usableAnchor databaseId d.closed = usableAnchor databaseId d := by
  have hmatch : anchorMatchesImage d.closed = anchorMatchesImage d := by
    funext a
    cases himage : d.image with
    | none => simp only [anchorMatchesImage, Disk.closed, himage, Option.map_none]
    | some image =>
      simp only [anchorMatchesImage, Disk.closed, himage, Option.map_some, Disk.walOps, h,
        List.flatMap_nil, File.execAll_nil]
      rfl
  simp only [usableAnchor, hmatch]
  rfl

theorem recoveryBaseSlot_closed {d : Disk} (h : d.wal = []) :
    recoveryBaseSlot databaseId d.closed = recoveryBaseSlot databaseId d := by
  simp only [recoveryBaseSlot, usableAnchor_closed h]

theorem recoveredSlot_closed {d : Disk} (h : d.wal = []) :
    recoveredSlot databaseId d.closed = recoveredSlot databaseId d := by
  simp only [recoveredSlot, recoveryBaseSlot_closed h]
  rfl

theorem recoveredDisk_of_wal_nil {d : Disk} (h : d.wal = []) :
    recoveredDisk L d.closed = recoveredDisk L d := by
  have hcontent : (baseImage databaseId d.closed).content = (baseImage databaseId d).content := by
    simp only [baseImage, usableAnchor_closed h]
    cases usableAnchor databaseId d with
    | none => rfl
    | some a =>
      cases himage : d.image <;> simp [Disk.closed, Disk.walOps, Image.content, himage, h]
  simp only [recoveredDisk, recoveryBaseSlot_closed h, recoveredSlot_closed h, hcontent]
  rfl

/-- The node `resyncImage` runs recovery on. -/
def Node.disconnected (n : Node) : Node :=
  { n with dbOpen := false, captureBatchId := none }

/-- `resyncImage` is recovery on what the close leaves. -/
theorem wp_resyncImage_of {d : Disk}
    (hclose : m.node.dbOpen = true ∧ d = m.disk.closed ∨ m.node.dbOpen = false ∧ d = m.disk)
    {Q : Unit → Machine → Prop} {E : NodeError → Machine → Prop}
    (h : ∀ trail, wp materializeFromJournal
      (fun _ m' => Q () ⟨{ m'.node with needsResync := false }, m'.disk, m'.trail⟩) E
      ⟨m.node.disconnected, d, trail⟩) :
    wp resyncImage Q E m := by
  simp only [resyncImage, wp_bind, wp_get, wp_doIf, wp_setNode]
  rcases hclose with ⟨hopen, rfl⟩ | ⟨hopen, rfl⟩
  · refine ⟨fun _ => ?_, fun hno => by rw [hopen] at hno; cases hno⟩
    refine wp_checkpointWal fun trail => ?_
    simp only [wp_bind, wp_setNode]
    exact h trail
  · refine ⟨fun hno => ?_, fun _ => h m.trail⟩
    rw [hopen] at hno
    cases hno

theorem Recovered.durableHeld {node : Node} {d : Disk} {m₀ m : Machine}
    (h : Recovered L node d m₀ m) :
    DurableHeld ⟨{ m.node with needsResync := false }, m.disk, m.trail⟩ ∧
      m.node.capabilities = node.capabilities := by
  obtain ⟨pending, hnode⟩ := h.node
  have happlied : m.disk.applied = d.applied := by
    rw [h.disk]
    rfl
  simp only [DurableHeld, hnode, Node.atState, happlied]
  unfold Node.baseNode
  split
  · rename_i a ha
    exact ⟨Or.inr ⟨a, (AppliedFiles.select_holds (usableAnchor_select ha)).1, le_rfl⟩, rfl⟩
  · exact ⟨Or.inl rfl, rfl⟩

/-- The connection, open or not, sits on the fold at a slot no anchor is above. -/
theorem Serving.walBase (h : Serving L caps configuration lo n m) :
    ∃ j, j ≤ n ∧ (∀ a, m.disk.applied.Holds a → a.globalSlot ≤ j) ∧
      m.disk.content = (L.state j).image ∧ WalSound L j m.disk.wal := by
  rcases h.state with htrack | hlead
  · obtain ⟨k, -, hk, hanchors, -⟩ := htrack.image
    refine ⟨n, le_rfl, fun a ha => le_trans (hanchors a ha) hk, htrack.content, ?_⟩
    have hwal : m.disk.wal = [] := htrack.wal
    rw [hwal]
    exact ⟨fun w hw => absurd hw List.not_mem_nil, fun w hw => absurd hw List.not_mem_nil⟩
  · obtain ⟨j, hwal⟩ := hlead.wal
    exact ⟨j, hwal.le, hwal.anchors, hwal.content, hwal.sound⟩

theorem Serving.end_le (h : Serving L caps configuration lo n m) : n ≤ committedEnd lo m.disk :=
  h.state.elim (fun htrack => htrack.data_le) fun hlead => hlead.data_le

/-- The journal still reaches the slot recovery starts from once the connection is closed. -/
def Reaches (databaseId : ℕ) (d : Disk) : Prop :=
  d.journal.retainedFirstSlot ≤ recoveryBaseSlot databaseId d.closed + 1

theorem Serving.base_le (h : Serving L caps configuration lo n m) (hreach : Reaches databaseId m.disk) :
    lo ≤ recoveryBaseSlot databaseId m.disk.closed := by
  rw [Reaches, h.disk.log.retained] at hreach
  exact Nat.le_of_succ_le_succ hreach

theorem Serving.log_closed (h : Serving L caps configuration lo n m) :
    LogSound L configuration lo m.disk.closed :=
  h.disk.log.withFiles _ _

theorem Serving.le_recoveredSlot (h : Serving L caps configuration lo n m)
    (hreach : Reaches databaseId m.disk) : n ≤ recoveredSlot databaseId m.disk.closed := by
  rw [(h.log_closed.base_spec (h.base_le hreach)).2]
  exact h.end_le

/-- What the replay leaves is the fold exactly when the close was clean. -/
theorem Serving.recovered_iff (h : Serving L caps configuration lo n m)
    (hreach : Reaches databaseId m.disk) :
    (recoveredDisk L m.disk.closed).content =
      (L.state (recoveredSlot databaseId m.disk.closed)).image ↔ CleanClose L m.disk := by
  obtain ⟨j, hj, hanchors, hcontent, hwal⟩ := h.walBase
  exact recoveredDisk_closed_iff
    (fun a ha => hanchors a (AppliedFiles.select_holds (usableAnchor_select ha)).1)
    (le_trans hj (h.le_recoveredSlot hreach)) hcontent hwal hreach

/-- `resyncImage` ends with the run's changes made to what the close left; if that was clean, the
replica follows again. -/
theorem Serving.wp_resyncImage (h : Serving L caps configuration lo n m)
    (hreach : Reaches databaseId m.disk) :
    wp resyncImage
      (fun _ m' => m'.disk.content = (recoveredDisk L m.disk.closed).content ∧
        m'.node.appliedSlot = recoveredSlot databaseId m.disk.closed ∧
        (CleanClose L m.disk → Serving L caps configuration lo m'.node.appliedSlot m' ∧
          Tracking L configuration lo m'.node.appliedSlot m'.node.appliedSlot m'.atRest))
      (fun _ _ => False) m := by
  have hbase := h.base_le hreach
  have hlog := h.log_closed
  have hend := h.le_recoveredSlot hreach
  -- Whichever disk recovery runs on, it recovers what it would after a close.
  have hrun : ∀ d : Disk,
      m.node.dbOpen = true ∧ d = m.disk.closed ∨ m.node.dbOpen = false ∧ d = m.disk →
      LogSound L configuration lo d → recoveryBaseSlot databaseId d =
        recoveryBaseSlot databaseId m.disk.closed →
      recoveredSlot databaseId d = recoveredSlot databaseId m.disk.closed →
      recoveredDisk L d = recoveredDisk L m.disk.closed → m.node.pageSize = defaultPageSize →
      m.node.identity.configurationId = configuration →
      m.node.lastBatchId = (L.state n).lastBatchId →
      (∀ write ∈ m.node.effectWrites, write.commitSlot? = none) →
      wp resyncImage
        (fun _ m' => m'.disk.content = (recoveredDisk L m.disk.closed).content ∧
          m'.node.appliedSlot = recoveredSlot databaseId m.disk.closed ∧
          (CleanClose L m.disk → Serving L caps configuration lo m'.node.appliedSlot m' ∧
            Tracking L configuration lo m'.node.appliedSlot m'.node.appliedSlot m'.atRest))
        (fun _ _ => False) m := by
    intro d hclose hsound hslot hrecovered hdisk hpage hconf hbatch hqueued
    have hcan : CanRecover L m.node.disconnected d := by
      refine hsound.canRecover (hslot.symm ▸ hbase) h.database hpage fun _ hdata => ?_
      rw [hrecovered] at hdata
      change m.node.lastBatchId = 0
      rw [hbatch]
      exact (L.lastBatchId_of_no_data hdata hend).2
    refine wp_resyncImage_of hclose fun trail => ?_
    refine wp_mono (wp_materializeFromJournal hcan rfl rfl) ?_ (fun _ _ hno => hno)
    rintro ⟨⟩ m₁ hrec
    refine ⟨by rw [hrec.disk, hdisk], hrec.appliedSlot.trans hrecovered, fun hclean => ?_⟩
    have hcontent : (recoveredDisk L d).content = (L.state (recoveredSlot databaseId d)).image := by
      rw [hdisk, hrecovered]
      exact (h.recovered_iff hreach).2 hclean
    have htrack := hrec.tracking hsound (hslot.symm ▸ hbase) hcontent hcan hconf rfl rfl hqueued
    rw [← hrec.appliedSlot] at htrack
    obtain ⟨hdurable, hcaps⟩ := hrec.durableHeld
    exact ⟨⟨hcaps.trans h.capabilities, hdurable, Or.inl htrack⟩, htrack⟩
  rcases h.state with htrack | hlead
  · have hwal : m.disk.wal = [] := htrack.wal
    exact hrun m.disk (Or.inr ⟨htrack.dbOpen, rfl⟩) h.disk.log (recoveryBaseSlot_closed hwal).symm
      (recoveredSlot_closed hwal).symm (recoveredDisk_of_wal_nil hwal).symm htrack.pageSize
      htrack.configurationId htrack.lastBatchId htrack.queued
  · exact hrun m.disk.closed (Or.inl ⟨hlead.dbOpen, rfl⟩) hlog rfl rfl rfl hlead.pageSize
      hlead.configurationId hlead.lastBatchId hlead.queued

theorem Serving.wp_resyncImage_unreached (h : Serving L caps configuration lo n m)
    (hreach : ¬ Reaches databaseId m.disk) :
    wp resyncImage (fun _ _ => False) (fun e _ => e = .stateUnavailable) m := by
  rw [Reaches, not_le] at hreach
  rcases h.state with htrack | hlead
  · have hopen : m.node.dbOpen = false := htrack.dbOpen
    have hwal : m.disk.wal = [] := htrack.wal
    refine wp_resyncImage_of (Or.inr ⟨hopen, rfl⟩) fun trail => ?_
    rw [recoveryBaseSlot_closed hwal, ← h.database] at hreach
    exact wp_materializeFromJournal_unretained hreach
  · refine wp_resyncImage_of (Or.inl ⟨hlead.dbOpen, rfl⟩) fun trail => ?_
    rw [← h.database] at hreach
    exact wp_materializeFromJournal_unretained hreach

/-- `resyncImage` on a voter that serves: when it returns, and when what it leaves is the fold. -/
theorem Serving.resyncImage_spec (h : Serving L caps configuration lo n m) :
    ((∃ m', resyncImage m = .ok () m') ↔ Reaches databaseId m.disk) ∧
      ∀ m', resyncImage m = .ok () m' →
        (m'.disk.content = (L.state m'.node.appliedSlot).image ↔ CleanClose L m.disk) := by
  by_cases hreach : Reaches databaseId m.disk
  · obtain ⟨⟨⟩, m₁, hok, hcontent, hslot, -⟩ := eq_ok_of_wp (h.wp_resyncImage hreach)
    refine ⟨⟨fun _ => hreach, fun _ => ⟨m₁, hok⟩⟩, fun m' hok' => ?_⟩
    obtain rfl : m₁ = m' := by
      rw [hok] at hok'
      cases hok'
      rfl
    rw [hcontent, hslot]
    exact h.recovered_iff hreach
  · have hfail := h.wp_resyncImage_unreached hreach
    have hno : ∀ m', resyncImage m ≠ .ok () m' := by
      intro m' hok
      simp only [wp, hok] at hfail
    refine ⟨⟨fun hsome => ?_, fun hyes => absurd hyes hreach⟩, fun m' hok => absurd hok (hno m')⟩
    obtain ⟨m', hok⟩ := hsome
    exact absurd hok (hno m')

end Resync

end Zaxonlite
