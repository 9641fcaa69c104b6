import Zaxonlite.Lib.Run
import Zaxonlite.Node.Follower

/-!
# Process crashes

A data replica that does not lead journals commits, applies them and publishes anchors; its process may
die between any two effects, in the middle of one batch's page writes too, and start again. Appended
records and completed writes survive. Whatever the crash point, recovery ends at the end of the
journaled run with the fold of the chosen entries.
-/

namespace Zaxonlite

open Program Contiguous Run

def Machine.crashPoints (m : Machine) : List Disk :=
  m.disk :: m.trail

/-- A process started on a disk, before recovery has run. -/
def Machine.booted (config : Config) (d : Disk) : Machine where
  node := { Node.boot config with trimState := d.trim.getD TrimState.initial }
  disk := { d with journal := d.journal.reopen }
  trail := []

/-- A process started on a disk, once recovery is done. -/
def Machine.restarted (config : Config) (d : Disk) : Machine :=
  { finalState materializeFromJournal (Machine.booted config d) with trail := [] }

/-- A database opened for the first time. -/
def Machine.fresh (config : Config) (rotationRecords : ℕ) : Machine where
  node := Node.boot config
  disk := Disk.blank rotationRecords
  trail := []

/-- Install payload bytes received from a peer. -/
def installPayload (bytes : List UInt8) : Op Unit :=
  emit fun d => { d with store := d.store.put bytes }

/-- What a data replica that does not lead does, with restarts at any crash point. -/
inductive FollowerStep (config : Config) (L : ChosenLog config.identity.databaseId) :
    Machine → Machine → Prop
  | effects {m : Machine} {effects : Effects} :
    m.node.fatalStorageError = false → CoreEffects L m effects →
    FollowerStep config L m (finalState (consumeRound effects) m)
  | payload {m : Machine} (bytes : List UInt8) :
    FollowerStep config L m (finalState (installPayload bytes) m)
  | anchor {m : Machine} : FollowerStep config L m (finalState createStateAnchor m)
  | restart {m : Machine} {d : Disk} : d ∈ m.crashPoints →
    FollowerStep config L m (Machine.restarted config d)

/-- Every crash point is sound, and a replica that has not failed tracks the log. -/
structure FollowerSafe {databaseId : ℕ} (L : ChosenLog databaseId) (configuration lo : ℕ)
    (m : Machine) : Prop where
  safe : CrashSafe L configuration lo m
  tracking : m.node.fatalStorageError = false → ∃ n, Tracking L configuration lo n n m

section Steps

variable {config : Config} {L : ChosenLog config.identity.databaseId}

theorem DiskSound.reopen {configuration lo : ℕ} {d : Disk} (h : DiskSound L configuration lo d) :
    DiskSound L configuration lo { d with journal := d.journal.reopen } :=
  h.withJournal rfl rfl

theorem followerSafe_of_tracking {configuration lo n : ℕ} {m : Machine}
    (h : Tracking L configuration lo n n m) : FollowerSafe L configuration lo m :=
  ⟨h.safe, fun _ => ⟨n, h⟩⟩

theorem followerSafe_fresh (rotationRecords : ℕ) :
    FollowerSafe L config.identity.configurationId 0 (Machine.fresh config rotationRecords) := by
  have hsound : DiskSound L config.identity.configurationId 0 (Disk.blank rotationRecords) := by
    refine ⟨⟨rfl, fun s v h => absurd h List.not_mem_nil, inWindow_nil _ _,
      fun s h => absurd h List.not_mem_nil, fun s h => absurd h List.not_mem_nil, fun a ha => ?_,
      fun a ha => ?_⟩, 0, le_rfl, Nat.zero_le _, fun a ha => ?_, rfl⟩
    all_goals rcases ha with ha | ha <;> cases ha
  refine followerSafe_of_tracking (n := 0) ?_
  refine ⟨⟨hsound, fun d hd => absurd hd List.not_mem_nil⟩, rfl, rfl, rfl, rfl, rfl, rfl,
    fun w hw => absurd hw List.not_mem_nil, rfl, rfl, rfl, rfl, rfl, le_rfl, le_rfl, Nat.zero_le _,
    rfl, rfl, 0, le_rfl, le_rfl, fun a ha => ?_, rfl⟩
  rcases ha with ha | ha <;> cases ha

/-- Recovery from a sound disk whose journal reaches the recovery base. -/
theorem materialize_sound {configuration lo : ℕ} {d : Disk} (h : DiskSound L configuration lo d)
    (hbase : lo ≤ recoveryBaseSlot config.identity.databaseId (Machine.booted config d).disk) :
    ∃ m, materializeFromJournal (Machine.booted config d) = .ok () m ∧
      Recovered L (Machine.booted config d).node (Machine.booted config d).disk
        (Machine.booted config d) m ∧
      CanRecover L (Machine.booted config d).node (Machine.booted config d).disk := by
  have hcan : CanRecover L (Machine.booted config d).node (Machine.booted config d).disk :=
    h.reopen.log.canRecover hbase rfl rfl (fun _ _ => rfl)
  obtain ⟨⟨⟩, m, hok, hrec⟩ := eq_ok_of_wp (wp_materializeFromJournal hcan rfl rfl)
  exact ⟨m, hok, hrec, hcan⟩

/-- A restart from a sound disk resumes tracking. -/
theorem Recovered.restarted {lo : ℕ} {d : Disk} {m : Machine}
    (h : DiskSound L config.identity.configurationId lo d)
    (hbase : lo ≤ recoveryBaseSlot config.identity.databaseId (Machine.booted config d).disk)
    (hrec : Recovered L (Machine.booted config d).node (Machine.booted config d).disk
      (Machine.booted config d) m)
    (hcan : CanRecover L (Machine.booted config d).node (Machine.booted config d).disk) :
    Tracking L config.identity.configurationId lo
      (recoveredSlot config.identity.databaseId (Machine.booted config d).disk)
      (recoveredSlot config.identity.databaseId (Machine.booted config d).disk)
      ⟨m.node, m.disk, []⟩ := by
  have htrack := hrec.tracking h.reopen.log hbase (h.reopen.recovered_content hbase) hcan rfl rfl rfl
    fun _ hw => absurd hw List.not_mem_nil
  rwa [Node.resynced_eq hrec.needsResync] at htrack

theorem followerSafe_restarted {d : Disk}
    (h : DiskSound L config.identity.configurationId 0 d) :
    FollowerSafe L config.identity.configurationId 0 (Machine.restarted config d) := by
  obtain ⟨m, hok, hrec, hcan⟩ := materialize_sound h (Nat.zero_le _)
  have hfinal : Machine.restarted config d = ⟨m.node, m.disk, []⟩ := by
    simp only [Machine.restarted, finalState, hok]
  rw [hfinal]
  exact followerSafe_of_tracking (hrec.restarted h (Nat.zero_le _) hcan)

theorem FollowerSafe.step {m m' : Machine}
    (h : FollowerSafe L config.identity.configurationId 0 m) (hstep : FollowerStep config L m m') :
    FollowerSafe L config.identity.configurationId 0 m' := by
  cases hstep with
  | effects hfatal hcore =>
    obtain ⟨n, htrack⟩ := h.tracking hfatal
    refine finalState_of_wp (wp_mono (wp_consumeRound htrack hcore) ?_ ?_)
    · exact fun _ m' h' => followerSafe_of_tracking h'
    · rintro _ m' ⟨hsafe, hfailed⟩
      exact ⟨hsafe, fun hno => absurd (hfailed.symm.trans hno) (by decide)⟩
  | payload bytes =>
    refine finalState_of_wp (x := installPayload bytes) ?_
    rw [installPayload, wp_emit]
    refine ⟨h.safe.emit (h.safe.disk.put bytes), fun hfatal => ?_⟩
    obtain ⟨n, htrack⟩ := h.tracking hfatal
    exact ⟨n, { htrack with safe := h.safe.emit (h.safe.disk.put bytes) }⟩
  | anchor =>
    by_cases hfatal : m.node.fatalStorageError = true
    · refine finalState_of_wp ?_
      simp only [createStateAnchor, wp_bind, wp_get, wp_refuseIf, hfatal, true_implies]
      exact ⟨h, fun hno => absurd hno (by decide)⟩
    · obtain ⟨n, htrack⟩ := h.tracking (Bool.eq_false_iff.2 hfatal)
      refine finalState_of_wp (wp_mono (wp_createStateAnchor htrack) ?_ ?_)
      · exact fun _ m' h' => followerSafe_of_tracking h'
      · exact fun _ m' h' => followerSafe_of_tracking h'
  | restart hcrash =>
    refine followerSafe_restarted ?_
    rcases List.mem_cons.1 hcrash with rfl | htrail
    · exact h.safe.disk
    · exact h.safe.trail _ htrail

theorem followerSafe_of_reachable {rotationRecords : ℕ} {m : Machine}
    (hrun : Reachable (· = Machine.fresh config rotationRecords) (FollowerStep config L) m) :
    FollowerSafe L config.identity.configurationId 0 m :=
  hrun.invariant (fun _ hs => hs ▸ followerSafe_fresh rotationRecords) (fun _ _ h hstep => h.step hstep)

end Steps

/-- **Process-crash recovery.** At every crash point of every run of a following replica, recovery ends
without error at the end of the contiguous run of journaled commits, with the image and the cursors of
the fold of the chosen entries up to there. -/
theorem materializeFromJournal_after_crash (config : Config)
    (L : ChosenLog config.identity.databaseId) {rotationRecords : ℕ} {m : Machine}
    (hrun : Reachable (· = Machine.fresh config rotationRecords) (FollowerStep config L) m)
    {d : Disk} (hcrash : d ∈ m.crashPoints) :
    ∃ m' s, materializeFromJournal (Machine.booted config d) = .ok () m' ∧
      m'.node.appliedSlot = runEnd (commitSlots d.journal.records) 0 ∧
      Materialized.fold config.identity.databaseId L.payloads L.entry m'.node.appliedSlot = some s ∧
      m'.disk.content = s.image ∧ m'.node.lastChain = s.lastChain ∧
      m'.node.lastDataSlot = s.lastDataSlot ∧ m'.node.lastBatchId = s.lastBatchId ∧
      m'.node.historyHash = s.historyHash := by
  have hsafe := (followerSafe_of_reachable hrun).safe
  have hsound : DiskSound L config.identity.configurationId 0 d := by
    rcases List.mem_cons.1 hcrash with rfl | htrail
    · exact hsafe.disk
    · exact hsafe.trail d htrail
  obtain ⟨m', hok, hrec, hcan⟩ := materialize_sound hsound (Nat.zero_le _)
  have hcursors := hrec.cursorsAt hcan
  obtain ⟨-, hend⟩ := hsound.reopen.log.base_spec (Nat.zero_le _)
  have hcontent := hsound.reopen.recovered_content (Nat.zero_le _)
  refine ⟨m', L.state m'.node.appliedSlot, hok, ?_, L.fold_eq _, ?_, ?_, ?_, ?_, ?_⟩
  · exact hcursors.applied.trans hend
  all_goals rw [hcursors.applied]
  · rw [hrec.disk]
    exact hcontent
  · exact hcursors.lastChain
  · exact hcursors.lastDataSlot
  · exact hcursors.lastBatchId
  · exact hcursors.historyHash

/-! ### A run of one batch -/

open ChosenLog

/-- A data voter of a larger configuration. -/
def sampleConfig : Config where
  identity := ⟨7, 1, 1⟩
  role := .dataVoter
  single := false
  retentionSlots := 0

def pageOne : CapturedTransaction := ⟨5, 0, 0, 1, .onePage 1 1 (by decide) (by decide)⟩

/-- The log whose first entry is its batch. -/
def pageLog : ChosenLog 7 := ofPayload (carried_captured pageOne (by decide) rfl) 5

/-- The effects that journal and deliver one chosen entry. -/
def commitOne {databaseId : ℕ} (L : ChosenLog databaseId) (s : ℕ) : Effects where
  writes := [.commit s (L.entry s)]
  requiresBarrier := false
  committed := [(s, L.entry s)]
  decidedThrough := s

theorem coreEffects_commitOne {databaseId s : ℕ} {L : ChosenLog databaseId} {m : Machine}
    (hslot : s = m.node.appliedSlot + 1)
    (hconf : (L.state (s - 1)).configuration = m.node.identity.configurationId)
    (hstored : L.Stored m.disk.store s) : CoreEffects L m (commitOne L s) where
  chosen t v h := by
    simp only [commitOne, List.mem_singleton, Write.commit.injEq] at h
    rw [h.2, h.1]
  configured t h := by
    obtain rfl : t = s := by simpa [commitOne, commitSlots, Write.commitSlot?] using h
    exact hconf
  stored t h := by
    obtain rfl : t = s := by simpa [commitOne, commitSlots, Write.commitSlot?] using h
    exact hstored
  window pre t v post h := by
    have hmem : Write.commit t v ∈ (commitOne L s).writes := by
      rw [h]
      simp
    simp only [commitOne, List.mem_singleton, Write.commit.injEq] at hmem
    have hle := base_le_runEnd (commitSlots (m.disk.journal.records ++ pre)) m.node.appliedSlot
    rw [hmem.1, hslot, windowSlots]
    omega
  committed := by
    rw [hslot]
    rfl
  journaled e he := by
    obtain rfl : e = (s, L.entry s) := by simpa [commitOne] using he
    exact mem_commitSlots.2 ⟨_, List.mem_append_right _ (List.mem_singleton_self _)⟩

/-- A replica that has received the payload. -/
def withPage : Machine :=
  finalState (installPayload (pageOne.payload 7)) (Machine.fresh sampleConfig 8)

theorem coreEffects_withPage : CoreEffects pageLog withPage (commitOne pageLog 1) :=
  coreEffects_commitOne rfl rfl fun _ _ => rfl

/-- The replica once it has applied the batch. -/
def pageApplied : Machine :=
  finalState (consumeRound (commitOne pageLog 1)) withPage

theorem materializeFromJournal_after_page_crash :
    ∃ m' s, materializeFromJournal (Machine.booted sampleConfig pageApplied.disk) = .ok () m' ∧
      m'.node.appliedSlot = runEnd (commitSlots pageApplied.disk.journal.records) 0 ∧
      Materialized.fold 7 pageLog.payloads pageLog.entry m'.node.appliedSlot = some s ∧
      m'.disk.content = s.image := by
  have hrun : Reachable (· = Machine.fresh sampleConfig 8) (FollowerStep sampleConfig pageLog)
      pageApplied :=
    .step (.step (.start rfl) (.payload _)) (.effects rfl coreEffects_withPage)
  obtain ⟨m', s, hok, happlied, hfold, hcontent, -⟩ :=
    materializeFromJournal_after_crash sampleConfig pageLog hrun List.mem_cons_self
  exact ⟨m', s, hok, happlied, hfold, hcontent⟩

end Zaxonlite
