import Zaxonlite.Node.Effects
import Zaxonlite.Node.Reclaim
import Zaxonlite.Node.Resync
import Zaxonlite.Crash.Process

/-!
# The history anchor, live and replayed

Every chosen entry is folded into the history anchor under a configuration: live under the node's own,
on replay under a cursor that starts at the recovery base and moves at stop signs. `Historical` is what
keeps the two folds in step whatever else happens to the image: the anchors on disk state the history
and the configuration of their slots, the journal holds chosen entries, and the node's history is the
fold at the slot it has applied.
-/

namespace Zaxonlite

open Program Contiguous

variable {databaseId : ℕ}

theorem ChosenLog.configuration_mono (L : ChosenLog databaseId) {a b : ℕ} (h : a ≤ b) :
    (L.state a).configuration ≤ (L.state b).configuration := by
  induction b, h using Nat.le_induction with
  | base => exact le_rfl
  | succ b _ ih =>
    refine le_trans ih ?_
    rw [L.configuration_succ]
    cases L.entry (b + 1) with
    | command cmd => exact le_rfl
    | stop stop =>
      rw [nextConfiguration]
      split
      · rename_i hlt
        exact hlt.le
      · exact le_rfl

/-- A stop sign's configuration is in force after its slot. -/
theorem ChosenLog.stop_le_configuration (L : ChosenLog databaseId) {slot : ℕ} {stop : StopSign}
    (hpos : 0 < slot) (h : L.entry slot = .stop stop) :
    stop.configurationId ≤ (L.state slot).configuration := by
  obtain ⟨n, rfl⟩ := Nat.exists_eq_succ_of_ne_zero (Nat.pos_iff_ne_zero.1 hpos)
  rw [L.configuration_succ, h, nextConfiguration]
  split
  · exact le_rfl
  · omega

/-- The end of the run of journaled commits above what the journal has dropped. -/
def decidedEnd (d : Disk) : ℕ :=
  committedEnd (d.journal.retainedFirstSlot - 1) d

/-- An anchor states the history and the configuration of its slot. -/
structure AnchorTrue (L : ChosenLog databaseId) (a : AppliedAnchor) : Prop where
  slot_pos : 0 < a.globalSlot
  historyHash : a.historyHash = (L.state a.globalSlot).historyHash
  configuration : a.configurationId = (L.state a.globalSlot).configuration

/-- What the journal and the anchors keep of the history. -/
structure HistoryKept (L : ChosenLog databaseId) (d : Disk) : Prop where
  retained : 1 ≤ d.journal.retainedFirstSlot
  chosen : ∀ s v, Write.commit s v ∈ d.journal.records → v = L.entry s
  window : InWindow windowSlots (d.journal.retainedFirstSlot - 1) (commitSlots d.journal.records)
  anchors : ∀ a, d.applied.Holds a → AnchorTrue L a ∧ a.globalSlot ≤ decidedEnd d

/-- The node's history is the fold at the slot it has applied, over disks that keep it; `e` bounds from
below how far every crash point has decided. -/
structure Historical (L : ChosenLog databaseId) (identity : Identity) (e k : ℕ) (m : Machine) : Prop where
  database : identity.databaseId = databaseId
  identified : m.node.identity = identity
  applied : m.node.appliedSlot = k
  history : m.node.historyHash = (L.state k).historyHash
  queued : ∀ write ∈ m.node.effectWrites, write.commitSlot? = none
  kept : ∀ d ∈ m.crashPoints, HistoryKept L d ∧ e ≤ decidedEnd d
  applied_le : k ≤ decidedEnd m.disk
  durable_le : m.node.durableStateSlot ≤ decidedEnd m.disk

/-- The stop sign that began the node's configuration is decided at every crash point, and a node that
need not resync has applied it. -/
structure InStep (L : ChosenLog databaseId) (identity : Identity) (e k : ℕ) (m : Machine) : Prop extends
    Historical L identity e k m where
  reached : identity.configurationId ≤ (L.state e).configuration
  begun : m.node.needsResync = false → identity.configurationId ≤ (L.state k).configuration

section Frame

variable {L : ChosenLog databaseId} {identity : Identity} {e k : ℕ} {m : Machine}

theorem decidedEnd_congr {d d' : Disk} (hrecords : d'.journal.records = d.journal.records)
    (hretained : d'.journal.retainedFirstSlot = d.journal.retainedFirstSlot) :
    decidedEnd d' = decidedEnd d := by
  simp only [decidedEnd, committedEnd, hrecords, hretained]

theorem HistoryKept.congr {d d' : Disk} (h : HistoryKept L d)
    (hrecords : d'.journal.records = d.journal.records)
    (hretained : d'.journal.retainedFirstSlot = d.journal.retainedFirstSlot)
    (happlied : d'.applied = d.applied) : HistoryKept L d' where
  retained := by
    rw [hretained]
    exact h.retained
  chosen s v hmem := h.chosen s v (hrecords ▸ hmem)
  window := by
    rw [hretained, hrecords]
    exact h.window
  anchors a ha := by
    rw [decidedEnd_congr hrecords hretained]
    exact h.anchors a (happlied ▸ ha)

theorem Historical.disk (h : Historical L identity e k m) : HistoryKept L m.disk ∧ e ≤ decidedEnd m.disk :=
  h.kept m.disk List.mem_cons_self

/-- A disk change under which the decided run does not shrink. -/
theorem Historical.emit (h : Historical L identity e k m) {d : Disk} (hkept : HistoryKept L d)
    (hend : decidedEnd m.disk ≤ decidedEnd d) :
    Historical L identity e k { m with disk := d, trail := m.trail ++ [d] } where
  database := h.database
  identified := h.identified
  applied := h.applied
  history := h.history
  queued := h.queued
  kept d' hd' := by
    simp only [Machine.crashPoints, List.mem_cons, List.mem_append, List.not_mem_nil, or_false] at hd'
    rcases hd' with rfl | hin | rfl
    · exact ⟨hkept, le_trans h.disk.2 hend⟩
    · exact h.kept d' (List.mem_cons_of_mem _ hin)
    · exact ⟨hkept, le_trans h.disk.2 hend⟩
  applied_le := le_trans h.applied_le hend
  durable_le := le_trans h.durable_le hend

theorem InStep.emit (h : InStep L identity e k m) {d : Disk} (hkept : HistoryKept L d)
    (hend : decidedEnd m.disk ≤ decidedEnd d) :
    InStep L identity e k { m with disk := d, trail := m.trail ++ [d] } :=
  ⟨h.toHistorical.emit hkept hend, h.reached, h.begun⟩

/-- What a change of the disk may do without touching the history: anything but the journal's records
and the anchors. -/
structure Apart (f : Disk → Disk) : Prop where
  records : ∀ d, (f d).journal.records = d.journal.records
  retained : ∀ d, (f d).journal.retainedFirstSlot = d.journal.retainedFirstSlot
  applied : ∀ d, (f d).applied = d.applied

theorem Historical.apart (h : Historical L identity e k m) {f : Disk → Disk} (hf : Apart f) :
    Historical L identity e k { m with disk := f m.disk, trail := m.trail ++ [f m.disk] } := by
  refine h.emit (h.disk.1.congr (hf.records _) (hf.retained _) (hf.applied _)) ?_
  rw [decidedEnd_congr (hf.records _) (hf.retained _)]

/-- What a change of the volatile fields may do without touching the history. -/
structure Steady (f : Node → Node) : Prop where
  identity : ∀ n, (f n).identity = n.identity
  appliedSlot : ∀ n, (f n).appliedSlot = n.appliedSlot
  historyHash : ∀ n, (f n).historyHash = n.historyHash
  durable : ∀ n, (f n).durableStateSlot = n.durableStateSlot
  queued : ∀ n, ∀ write ∈ (f n).effectWrites, write ∈ n.effectWrites ∨ write.commitSlot? = none
  marked : ∀ n, (f n).needsResync = false → n.needsResync = false

theorem Historical.steady (h : Historical L identity e k m) {f : Node → Node} (hf : Steady f) :
    Historical L identity e k { m with node := f m.node } where
  database := h.database
  identified := (hf.identity _).trans h.identified
  applied := (hf.appliedSlot _).trans h.applied
  history := (hf.historyHash _).trans h.history
  queued write hwrite := by
    rcases hf.queued _ write hwrite with hold | hnone
    · exact h.queued write hold
    · exact hnone
  kept := h.kept
  applied_le := h.applied_le
  durable_le := by
    rw [hf.durable]
    exact h.durable_le

theorem InStep.apart (h : InStep L identity e k m) {f : Disk → Disk} (hf : Apart f) :
    InStep L identity e k { m with disk := f m.disk, trail := m.trail ++ [f m.disk] } :=
  ⟨h.toHistorical.apart hf, h.reached, h.begun⟩

theorem InStep.steady (h : InStep L identity e k m) {f : Node → Node} (hf : Steady f) :
    InStep L identity e k { m with node := f m.node } :=
  ⟨h.toHistorical.steady hf, h.reached, fun hneeds => h.begun (hf.marked _ hneeds)⟩

/-- An invariant of the history: nothing else shows. -/
structure HistoryFrame (I : Machine → Prop) : Prop where
  apart : ∀ {f : Disk → Disk}, Apart f → Maintains I (Zaxonlite.emit f)
  steady : ∀ {f : Node → Node}, Steady f → Maintains I (setNode f)

theorem historyFrame_inStep : HistoryFrame (InStep L identity e k) where
  apart hf := maintains_modify fun _ h => h.apart hf
  steady hf := maintains_modify fun _ h => h.steady hf

end Frame

/-! ### What leaves the history alone -/

theorem maintains_refuseIf {I : Machine → Prop} (c : Bool) (e : NodeError) : Maintains I (refuseIf c e) :=
  (maintains_throw e).ite (maintains_pure ())

theorem maintains_doIf {I : Machine → Prop} (c : Bool) {x : Op Unit} (h : Maintains I x) :
    Maintains I (doIf c x) :=
  h.ite (maintains_pure ())

theorem apart_createImage : Apart Disk.createImage := by
  refine ⟨fun d => ?_, fun d => ?_, fun d => ?_⟩
  all_goals
    rw [Disk.createImage]
    split <;> rfl

theorem apart_files {f : Disk → Disk} (hjournal : ∀ d, (f d).journal = d.journal)
    (happlied : ∀ d, (f d).applied = d.applied) : Apart f where
  records d := by rw [hjournal]
  retained d := by rw [hjournal]
  applied := happlied

theorem apart_noteTrimAnchor (decision through : ℕ) (hash : HashBytes) :
    Apart fun d => { d with journal := d.journal.noteTrimAnchor decision through hash } where
  records _ := Journal.records_noteTrimAnchor _ _ _ _
  retained _ := Journal.retainedFirstSlot_noteTrimAnchor _ _ _ _
  applied _ := rfl

theorem steady_flags {f : Node → Node} (hf : ∀ n, (f n).identity = n.identity ∧
    (f n).appliedSlot = n.appliedSlot ∧ (f n).historyHash = n.historyHash ∧
    (f n).durableStateSlot = n.durableStateSlot ∧ (f n).effectWrites = n.effectWrites ∧
    ((f n).needsResync = n.needsResync ∨ (f n).needsResync = true)) : Steady f where
  identity n := (hf n).1
  appliedSlot n := (hf n).2.1
  historyHash n := (hf n).2.2.1
  durable n := (hf n).2.2.2.1
  queued n write hwrite := Or.inl ((hf n).2.2.2.2.1 ▸ hwrite)
  marked n hneeds := by
    rcases (hf n).2.2.2.2.2 with heq | htrue
    · rwa [heq] at hneeds
    · rw [htrue] at hneeds
      cases hneeds

theorem steady_loseCapture : Steady loseCapture := by
  refine steady_flags fun n => ?_
  unfold loseCapture
  split
  · exact ⟨rfl, rfl, rfl, rfl, rfl, Or.inr rfl⟩
  · exact ⟨rfl, rfl, rfl, rfl, rfl, Or.inl rfl⟩

theorem steady_pending (stop : StopSign) : Steady fun n =>
    if stop.configurationId > n.identity.configurationId then { n with membershipChangePending := true }
    else n := by
  refine steady_flags fun n => ?_
  split
  · exact ⟨rfl, rfl, rfl, rfl, rfl, Or.inl rfl⟩
  · exact ⟨rfl, rfl, rfl, rfl, rfl, Or.inl rfl⟩

namespace HistoryFrame

variable {I : Machine → Prop}

theorem applyPayloadOps (h : HistoryFrame I) (slot : ℕ) (ops : List FileOp) :
    Maintains I (applyPayloadOps slot ops) := by
  apply Maintains.forM
  intro op
  exact h.apart (apart_files (fun _ => rfl) fun _ => rfl)

theorem applyBatchOffline (h : HistoryFrame I) (slot : ℕ) (batch : TransactionBatch) :
    Maintains I (applyBatchOffline slot batch) := by
  refine maintains_get.bind fun m => ?_
  cases loadBatch m.node.identity.databaseId m.node.pageSize m.disk.store batch with
  | error e => exact maintains_throw e
  | ok view =>
    refine Maintains.bind (h.apart (apart_files (fun _ => rfl) fun _ => rfl)) fun _ => ?_
    exact Maintains.bind (h.apart apart_createImage) fun _ => h.applyPayloadOps slot _

theorem adoptChosenTrim (h : HistoryFrame I) (slot : ℕ) (record : TrimRecord) :
    Maintains I (adoptChosenTrim slot record) := by
  have hcount : Maintains I (setNode fun n => { n with trimIgnoredCount := n.trimIgnoredCount + 1 }) :=
    h.steady (steady_flags fun _ => ⟨rfl, rfl, rfl, rfl, rfl, Or.inl rfl⟩)
  refine maintains_get.bind fun m => ?_
  cases m.node.trimState.classify slot record with
  | ignoreReplay => exact maintains_pure ()
  | ignoreStale => exact hcount
  | ignoreDuplicate => exact hcount
  | diverged =>
    refine Maintains.bind (h.steady ?_) fun _ => maintains_throw _
    exact steady_flags fun _ => ⟨rfl, rfl, rfl, rfl, rfl, Or.inl rfl⟩
  | adopt =>
    refine Maintains.bind (h.steady ?_) fun _ => ?_
    · exact steady_flags fun _ => ⟨rfl, rfl, rfl, rfl, rfl, Or.inl rfl⟩
    refine Maintains.bind (h.apart (apart_files (fun _ => rfl) fun _ => rfl)) fun _ => ?_
    refine Maintains.bind (h.steady ?_) fun _ => h.apart (apart_noteTrimAnchor _ _ _)
    refine ⟨fun _ => rfl, fun _ => rfl, fun _ => rfl, fun _ => rfl, fun n write hwrite => ?_, fun _ h' => h'⟩
    rcases List.mem_append.1 hwrite with hold | hnew
    · exact Or.inl hold
    · rw [List.mem_singleton.1 hnew]
      exact Or.inr rfl

theorem storeLeases (h : HistoryFrame I) (state : Option TrimState) : Maintains I (storeLeases state) := by
  cases state with
  | none => exact maintains_pure ()
  | some state =>
    refine Maintains.bind (h.steady ?_) fun _ => h.apart (apart_files (fun _ => rfl) fun _ => rfl)
    exact steady_flags fun _ => ⟨rfl, rfl, rfl, rfl, rfl, Or.inl rfl⟩

theorem settleBatch (h : HistoryFrame I) (slot : ℕ) (batch : TransactionBatch) :
    Maintains I (settleBatch slot batch) := by
  have hmark : Maintains I (setNode fun n => { n with needsResync := true }) :=
    h.steady (steady_flags fun _ => ⟨rfl, rfl, rfl, rfl, rfl, Or.inr rfl⟩)
  refine maintains_get.bind fun m => ?_
  split
  · refine Maintains.bind (h.steady ?_) fun _ => ?_
    · exact steady_flags fun _ => ⟨rfl, rfl, rfl, rfl, rfl, Or.inl rfl⟩
    split
    · exact hmark
    · exact maintains_pure _
  · split
    · exact hmark
    · exact h.applyBatchOffline slot batch

theorem accountBatch (h : HistoryFrame I) (slot : ℕ) (batch : TransactionBatch) :
    Maintains I (accountBatch slot batch) := by
  refine maintains_get.bind fun m => (maintains_refuseIf _ _).bind fun _ => ?_
  refine (h.settleBatch slot batch).bind fun _ => h.steady ?_
  exact steady_flags fun _ => ⟨rfl, rfl, rfl, rfl, rfl, Or.inl rfl⟩

theorem accountValue (h : HistoryFrame I) (slot : ℕ) (entry : Entry) :
    Maintains I (accountValue slot entry) := by
  have hlose := h.steady steady_loseCapture
  cases entry with
  | stop stop => exact hlose.bind fun _ => h.steady (steady_pending stop)
  | command cmd =>
    cases cmd with
    | noop => exact hlose
    | readBarrier nonce => exact hlose
    | trim record => exact hlose.bind fun _ => h.adoptChosenTrim slot record
    | transferLease lease => exact hlose.bind fun _ => maintains_get.bind fun m => h.storeLeases _
    | leaseComplete leaseId => exact hlose.bind fun _ => maintains_get.bind fun m => h.storeLeases _
    | transactionBatch batch => exact h.accountBatch slot batch

theorem checkpointWal (h : HistoryFrame I) : Maintains I checkpointWal := by
  refine maintains_get.bind fun m => Maintains.bind (Maintains.forM (fun t => ?_) _) fun _ => ?_
  · exact h.applyPayloadOps t.slot t.ops
  · exact Maintains.bind (h.apart (apart_files (fun _ => rfl) fun _ => rfl)) fun _ =>
      h.apart (apart_files (fun _ => rfl) fun _ => rfl)

end HistoryFrame

/-! ### Consuming effects -/

/-- What the core promises of the effects it hands over, as far as the history goes: commits are chosen
entries inside the consensus window; it delivers entries in slot order, each one journaled, and only
those of its own configuration. -/
structure CoreHistory (L : ChosenLog databaseId) (m : Machine) (effects : Effects) : Prop where
  chosen : ∀ s v, Write.commit s v ∈ effects.writes → v = L.entry s
  window : ∀ pre s v post, effects.writes = pre ++ Write.commit s v :: post →
    s ≤ runEnd (commitSlots (m.disk.journal.records ++ pre)) m.node.appliedSlot + windowSlots
  committed : effects.committed =
    (List.range' (m.node.appliedSlot + 1) effects.committed.length).map fun s => (s, L.entry s)
  configured : ∀ entry ∈ effects.committed,
    (L.state (entry.1 - 1)).configuration = m.node.identity.configurationId
  journaled : ∀ entry ∈ effects.committed,
    entry.1 ∈ commitSlots (m.disk.journal.records ++ effects.writes)

/-- The promise over successive turns. -/
def HistoryRounds (L : ChosenLog databaseId) : Machine → List Effects → Prop
  | _, [] => True
  | m, effects :: rounds =>
    CoreHistory L m effects ∧ ∀ m', consumeRound effects m = .ok () m' → HistoryRounds L m' rounds

section Effects

variable {L : ChosenLog databaseId} {identity : Identity} {e k : ℕ} {m : Machine}

theorem HistoryKept.append {d : Disk} (h : HistoryKept L d) {write : Write}
    (hok : ∀ s v, write = .commit s v → v = L.entry s ∧ s ≤ decidedEnd d + windowSlots) :
    HistoryKept L { d with journal := d.journal.append write } ∧
      decidedEnd d ≤ decidedEnd { d with journal := d.journal.append write } := by
  have hretained := d.journal.retainedFirstSlot_append write
  have hrecords := d.journal.records_append write
  have hle : decidedEnd d ≤ decidedEnd { d with journal := d.journal.append write } := by
    simp only [decidedEnd, hretained]
    exact committedEnd_append write hrecords
  refine ⟨⟨?_, fun s v hmem => ?_, ?_, fun a ha => ?_⟩, hle⟩
  · simp only [hretained]
    exact h.retained
  · simp only [hrecords, List.mem_append, List.mem_singleton] at hmem
    rcases hmem with hold | hnew
    · exact h.chosen s v hold
    · exact (hok s v hnew.symm).1
  · simp only [hretained, hrecords, commitSlots_append, commitSlots_singleton]
    cases write with
    | commit s v => exact h.window.concat (hok s v rfl).2
    | promise ballot => simpa [Write.commitSlot?] using h.window
    | accept ballot slot value => simpa [Write.commitSlot?] using h.window
    | trimAnchor anchor => simpa [Write.commitSlot?] using h.window
  · obtain ⟨htrue, hslot⟩ := h.anchors a ha
    exact ⟨htrue, le_trans hslot hle⟩

/-- The core's window, seen from what the journal retains. -/
theorem Historical.window_le (h : Historical L identity e k m) {records : List Write}
    (hsub : ∃ more, records = m.disk.journal.records ++ more) :
    runEnd (commitSlots records) k ≤
      runEnd (commitSlots records) (m.disk.journal.retainedFirstSlot - 1) := by
  obtain ⟨more, rfl⟩ := hsub
  rcases Nat.lt_or_ge k (m.disk.journal.retainedFirstSlot - 1) with hlt | hge
  · exact runEnd_mono_base _ hlt.le
  · refine le_of_eq (runEnd_eq_of_run hge fun s hs hle => ?_).symm
    rw [commitSlots_append]
    exact List.mem_append_left _ (mem_of_le_runEnd hs (le_trans hle h.applied_le))

theorem InStep.wp_appendWrites (h : InStep L identity e k m) {writes : List Write}
    (hok : ∀ pre s v post, writes = pre ++ Write.commit s v :: post → v = L.entry s ∧
      s ≤ runEnd (commitSlots (m.disk.journal.records ++ pre)) k + windowSlots) :
    wp (appendWrites writes)
      (fun _ m' => InStep L identity e k m' ∧
        m'.disk.journal.records = m.disk.journal.records ++ writes ∧
        m'.disk.journal.retainedFirstSlot = m.disk.journal.retainedFirstSlot)
      (fun _ _ => False) m := by
  refine wp_forM (fun pre m' => InStep L identity e k m' ∧
      m'.disk.journal.records = m.disk.journal.records ++ pre ∧
      m'.disk.journal.retainedFirstSlot = m.disk.journal.retainedFirstSlot) writes m
    ⟨h, (List.append_nil _).symm, rfl⟩ ?_
  rintro pre write post m₁ hsplit ⟨h₁, hrecords, hretained⟩
  have happend : ∀ m₂ : Machine, InStep L identity e k m₂ →
      m₂.disk.journal.records = m.disk.journal.records ++ pre →
      m₂.disk.journal.retainedFirstSlot = m.disk.journal.retainedFirstSlot →
      wp (Zaxonlite.emit fun d => { d with journal := d.journal.append write })
        (fun _ m' => InStep L identity e k m' ∧
          m'.disk.journal.records = m.disk.journal.records ++ (pre ++ [write]) ∧
          m'.disk.journal.retainedFirstSlot = m.disk.journal.retainedFirstSlot)
        (fun _ _ => False) m₂ := by
    intro m₂ h₂ hrecords₂ hretained₂
    have hcommit : ∀ s v, write = .commit s v → v = L.entry s ∧
        s ≤ decidedEnd m₂.disk + windowSlots := by
      intro s v hw
      obtain ⟨hv, hwin⟩ := hok pre s v post (by rw [hsplit, hw])
      have hle := h.toHistorical.window_le ⟨pre, rfl⟩
      refine ⟨hv, ?_⟩
      rw [decidedEnd, committedEnd, hrecords₂, hretained₂]
      omega
    have hnext := h₂.toHistorical.disk.1.append hcommit
    rw [wp_emit]
    refine ⟨h₂.emit hnext.1 hnext.2, ?_, ?_⟩
    · simp only [Journal.records_append, hrecords₂, List.append_assoc]
    · simp only [Journal.retainedFirstSlot_append, hretained₂]
  simp only [wp_bind, wp_get]
  rw [wp_ite]
  constructor
  · intro hfull
    have hrotate : Apart fun d => { d with journal := d.journal.rotate } :=
      ⟨fun d => Journal.records_rotate _, fun d => Journal.retainedFirstSlot_rotate _, fun _ => rfl⟩
    rw [wp_bind, wp_emit]
    refine happend _ (h₁.apart hrotate) ?_ ?_
    · simp only [Journal.records_rotate, hrecords]
    · simp only [Journal.retainedFirstSlot_rotate, hretained]
  · intro hfull
    exact happend m₁ h₁ hrecords hretained

theorem InStep.wp_journalEffects (h : InStep L identity e k m) {effects : Effects}
    (hok : ∀ pre s v post, effects.writes = pre ++ Write.commit s v :: post → v = L.entry s ∧
      s ≤ runEnd (commitSlots (m.disk.journal.records ++ pre)) k + windowSlots) :
    wp (journalEffects effects)
      (fun _ m' => InStep L identity e k m' ∧
        m'.disk.journal.records = m.disk.journal.records ++ effects.writes ∧
        m'.disk.journal.retainedFirstSlot = m.disk.journal.retainedFirstSlot)
      (fun _ _ => False) m := by
  rw [journalEffects, wp_ite]
  constructor
  · intro hne
    rw [wp_bind, wp_onError]
    refine wp_mono (h.wp_appendWrites hok) ?_ (fun _ _ hno => hno)
    rintro ⟨⟩ m₁ ⟨h₁, hrecords, hretained⟩
    rw [wp_ite]
    refine ⟨fun hbarrier => ?_, fun hbarrier => ⟨h₁, hrecords, hretained⟩⟩
    have hsync : Apart fun d => { d with journal := d.journal.sync } :=
      ⟨fun _ => rfl, fun _ => rfl, fun _ => rfl⟩
    rw [wp_emit]
    exact ⟨h₁.apart hsync, hrecords, hretained⟩
  · intro hnil
    rw [not_not] at hnil
    exact ⟨h, by rw [hnil, List.append_nil], rfl⟩

/-- Accounting the next chosen entry under the node's own configuration. -/
theorem InStep.wp_accountEntry (h : InStep L identity e k m)
    (hconf : (L.state k).configuration = identity.configurationId) (hend : k + 1 ≤ decidedEnd m.disk) :
    wp (accountEntry (k + 1) (L.entry (k + 1)))
      (fun _ m' => InStep L identity e (k + 1) m' ∧ decidedEnd m.disk ≤ decidedEnd m'.disk)
      (fun _ => InStep L identity e k) m := by
  -- Accounting never shrinks the decided run: the frame is taken over that as well.
  have hframe : HistoryFrame fun m' => InStep L identity e k m' ∧ decidedEnd m.disk ≤ decidedEnd m'.disk := by
    refine ⟨fun {f} hf => maintains_modify fun m' h' => ⟨h'.1.apart hf, ?_⟩,
      fun {f} hf => maintains_modify fun m' h' => ⟨h'.1.steady hf, h'.2⟩⟩
    rw [decidedEnd_congr (hf.records m'.disk) (hf.retained m'.disk)]
    exact h'.2
  rw [accountEntry, wp_bind]
  refine wp_mono (hframe.accountValue (k + 1) (L.entry (k + 1)) m ⟨h, le_rfl⟩) ?_ (fun _ _ h' => h'.1)
  rintro ⟨⟩ m₁ ⟨h₁, hle⟩
  rw [wp_setNode]
  refine ⟨⟨⟨h.database, h₁.identified, rfl, ?_, h₁.queued, h₁.kept, le_trans hend hle, h₁.durable_le⟩,
    h.reached, fun _ => ?_⟩, hle⟩
  · simp only [h₁.identified, h₁.history, h.database, L.historyHash_succ, hconf]
  · rw [← hconf]
    exact L.configuration_mono (Nat.le_succ k)

/-- Accounting a stretch of chosen entries. -/
theorem InStep.wp_accountCommitted (h : InStep L identity e k m) (count : ℕ)
    (hconf : ∀ s, k < s → s ≤ k + count → (L.state (s - 1)).configuration = identity.configurationId)
    (hend : k + count ≤ decidedEnd m.disk) :
    wp (accountCommitted ((List.range' (k + 1) count).map fun s => (s, L.entry s)))
      (fun _ m' => InStep L identity e (k + count) m') (fun _ m' => ∃ k', InStep L identity e k' m') m := by
  induction count generalizing k m with
  | zero => exact h
  | succ count ih =>
    simp only [List.range'_succ, List.map_cons]
    change wp (accountEntry (k + 1) (L.entry (k + 1)) >>= fun _ =>
      accountCommitted ((List.range' (k + 1 + 1) count).map fun s => (s, L.entry s))) _ _ _
    rw [wp_bind]
    have hfirst : (L.state k).configuration = identity.configurationId := by
      have := hconf (k + 1) (Nat.lt_succ_self k) (by omega)
      rwa [Nat.add_sub_cancel] at this
    refine wp_mono (h.wp_accountEntry hfirst (by omega)) ?_ (fun _ _ h' => ⟨k, h'⟩)
    rintro ⟨⟩ m₁ ⟨h₁, hle⟩
    have hrest := ih h₁ (fun s hs hs' => hconf s (by omega) (by omega)) (by omega)
    rwa [show k + 1 + count = k + (count + 1) by omega] at hrest

/-- One turn of effects. -/
theorem InStep.wp_consumeRound (h : InStep L identity e k m) {effects : Effects}
    (hcore : CoreHistory L m effects) :
    wp (consumeRound effects) (fun _ m' => ∃ k', InStep L identity e k' m')
      (fun _ m' => ∃ k', InStep L identity e k' m') m := by
  have hcommitted := hcore.committed
  rw [h.applied] at hcommitted
  have hmem : ∀ s, k < s → s ≤ k + effects.committed.length → (s, L.entry s) ∈ effects.committed := by
    intro s hs hle
    rw [hcommitted, List.mem_map]
    refine ⟨s, ?_, rfl⟩
    rw [List.mem_range'_1]
    omega
  have hfailed : ∀ m', (∃ k', InStep L identity e k' m') → ∃ k', InStep L identity e k' (markFailed m') := by
    rintro m' ⟨k', h'⟩
    exact ⟨k', h'.steady (f := fun n => { n with fatalStorageError := true })
      (steady_flags fun _ => ⟨rfl, rfl, rfl, rfl, rfl, Or.inl rfl⟩)⟩
  rw [consumeRound, wp_bind]
  refine wp_mono (h.wp_journalEffects fun pre s v post hsplit => ⟨?_, ?_⟩) ?_ (fun _ _ hno => hno.elim)
  · exact hcore.chosen s v (by rw [hsplit]; simp)
  · have hwin := hcore.window pre s v post hsplit
    rwa [h.applied] at hwin
  rintro ⟨⟩ m₁ ⟨h₁, hrecords, hretained⟩
  have hend : k + effects.committed.length ≤ decidedEnd m₁.disk := by
    refine le_runEnd fun s hs hle => ?_
    rw [hrecords]
    rw [hretained] at hs
    rcases Nat.lt_or_ge k s with hgt | hge
    · exact hcore.journaled _ (hmem s hgt hle)
    · rw [commitSlots_append]
      exact List.mem_append_left _ (mem_of_le_runEnd hs (le_trans hge h.applied_le))
  have haccount := h₁.wp_accountCommitted effects.committed.length (fun s hs hle => ?_) hend
  · rw [← hcommitted] at haccount
    rw [accountEffects, wp_bind, wp_onError]
    refine wp_mono haccount ?_ (fun _ m' h' => hfailed m' h')
    rintro ⟨⟩ m₂ h₂
    rw [wp_bind, wp_get, wp_bind, wp_onError]
    refine wp_mono (h₂.wp_appendWrites fun pre s v post hsplit => ?_) ?_ (fun _ _ hno => hno.elim)
    · have hnone := h₂.queued (.commit s v) (by rw [hsplit]; simp)
      cases hnone
    rintro ⟨⟩ m₃ ⟨h₃, -⟩
    have hnote : Apart fun d => { d with journal := d.journal.noteChosen effects.decidedThrough } :=
      ⟨fun _ => rfl, fun _ => rfl, fun _ => rfl⟩
    have hflush : Steady fun n => { n with effectWrites := [] } :=
      ⟨fun _ => rfl, fun _ => rfl, fun _ => rfl, fun _ => rfl, fun _ _ hw => absurd hw List.not_mem_nil,
        fun _ h' => h'⟩
    rw [wp_bind, wp_setNode, wp_emit]
    exact ⟨_, (h₃.steady hflush).apart hnote⟩
  · have := hcore.configured _ (hmem s hs hle)
    rwa [h.identified] at this

theorem InStep.wp_consumeEffects (h : InStep L identity e k m) {rounds : List Effects}
    (hcore : HistoryRounds L m rounds) :
    wp (consumeEffects rounds) (fun _ m' => ∃ k', InStep L identity e k' m')
      (fun _ m' => ∃ k', InStep L identity e k' m') m := by
  induction rounds generalizing k m with
  | nil => exact ⟨k, h⟩
  | cons effects rounds ih =>
    obtain ⟨hfirst, hrest⟩ := hcore
    change wp (consumeRound effects >>= fun _ => consumeEffects rounds) _ _ _
    rw [wp_bind]
    refine wp_mono (wp_and (wp_self _ m) (h.wp_consumeRound hfirst)) ?_ (fun _ _ h' => h'.2)
    rintro ⟨⟩ m₁ ⟨hok, k₁, h₁⟩
    exact ih h₁ (hrest m₁ hok)

end Effects

/-! ### Recovery -/

section Recovery

variable {L : ChosenLog databaseId} {identity : Identity} {e k : ℕ} {m : Machine}

/-- The node once its history includes an entry. -/
def Node.noted (n : Node) (configurationId slot : ℕ) (entry : Entry) : Node :=
  { n with
    historyHash := History.advance n.historyHash n.identity.databaseId configurationId slot entry }

theorem HistoryFrame.wp_applyEntryToImage {I : Machine → Prop} (h : HistoryFrame I) (hm : I m) (slot : ℕ)
    (entry : Entry) (configurationId : ℕ) {Q : Machine → Prop}
    (hQ : ∀ m', I m' → Q { m' with node := m'.node.noted configurationId slot entry }) :
    wp (applyEntryToImage slot entry configurationId) (fun _ => Q) (fun _ => I) m := by
  simp only [applyEntryToImage, wp_bind, wp_get]
  cases entry with
  | stop stop =>
    simp only [wp_bind, wp_setNode]
    exact hQ _ (h.steady (steady_pending stop) m hm)
  | command cmd =>
    cases cmd with
    | noop => exact hQ m hm
    | readBarrier nonce => exact hQ m hm
    | trim record => exact hQ m hm
    | transferLease lease => exact hQ m hm
    | leaseComplete leaseId => exact hQ m hm
    | transactionBatch batch =>
      have hchain : Steady fun n => n.advanceChain slot batch :=
        steady_flags fun _ => ⟨rfl, rfl, rfl, rfl, rfl, Or.inl rfl⟩
      simp only
      rw [wp_ite]
      refine ⟨fun _ => hm, fun _ => ?_⟩
      cases loadBatch m.node.identity.databaseId m.node.pageSize m.disk.store batch with
      | error e => exact hm
      | ok view =>
        simp only [wp_bind]
        refine wp_mono (h.applyPayloadOps slot view.applyPayload m hm) (fun _ m' hm' => ?_)
          (fun _ _ h' => h')
        exact hQ _ (h.steady hchain m' hm')

/-- What the replay pass keeps once a slot is applied. -/
def ReplayedHistory (L : ChosenLog databaseId) (identity : Identity) (e last : ℕ) (marked : Prop) (k : ℕ)
    (m : Machine) : Prop :=
  Historical L identity e k m ∧ decidedEnd m.disk = last ∧ (marked → m.node.needsResync = true)

theorem historyFrame_replayed {last : ℕ} {marked : Prop} :
    HistoryFrame (ReplayedHistory L identity e last marked k) where
  apart hf := maintains_modify fun m h =>
    ⟨h.1.apart hf, (decidedEnd_congr (hf.records m.disk) (hf.retained m.disk)).trans h.2.1, h.2.2⟩
  steady {f} hf := maintains_modify fun m h => by
    refine ⟨h.1.steady hf, h.2.1, fun hmarked => ?_⟩
    have hneeds := h.2.2 hmarked
    by_contra hnot
    rw [hf.marked m.node (Bool.eq_false_iff.2 hnot)] at hneeds
    cases hneeds

theorem replayRule_history {base last : ℕ} {marked : Prop} :
    ReplayRule L base last (ReplayedHistory L identity e last marked)
      (fun _ m' => ∃ k', ReplayedHistory L identity e last marked k' m') := by
  refine ⟨fun h => h.1.applied, fun {k m} _ hlast h => ?_⟩
  rw [applyReplayCommit, wp_bind]
  refine wp_mono (historyFrame_replayed.wp_applyEntryToImage h (k + 1) (L.entry (k + 1)) _
    (Q := fun m' => wp _ _ _ m') fun m' h' => ?_) (fun _ _ hq => hq) (fun _ m' h' => ⟨k, h'⟩)
  refine ⟨(L.configuration_succ k).symm, ⟨h'.1.database, h'.1.identified, rfl, ?_, h'.1.queued, h'.1.kept,
    h'.2.1.symm ▸ hlast, h'.1.durable_le⟩, h'.2.1, h'.2.2⟩
  simp only [Node.withApplied, Node.noted, h'.1.identified, h'.1.history, h'.1.database, L.historyHash_succ]

theorem HistoryKept.base_le {d : Disk} (h : HistoryKept L d) :
    recoveryBaseSlot databaseId d ≤ decidedEnd d := by
  cases hanchor : usableAnchor databaseId d with
  | none => simp [recoveryBaseSlot, hanchor]
  | some a =>
    simp only [recoveryBaseSlot, hanchor, Option.map_some, Option.getD_some]
    exact (h.anchors a (AppliedFiles.select_holds (usableAnchor_select hanchor)).1).2

theorem HistoryKept.recoveredSlot_eq {d : Disk} (h : HistoryKept L d)
    (hbase : d.journal.retainedFirstSlot ≤ recoveryBaseSlot databaseId d + 1) :
    recoveredSlot databaseId d = decidedEnd d := by
  refine (runEnd_eq_of_run (by omega) fun s hs hle => ?_).symm
  exact mem_of_le_runEnd hs (le_trans hle h.base_le)

/-- Choosing the recovery base: the cursors are those of the base slot, or nothing has changed. -/
theorem Historical.wp_recoveryBase (h : Historical L identity e k m) :
    wp recoveryBase
      (fun result m' => result.1 = recoveryBaseSlot databaseId m.disk ∧
        result.2 = (L.state (recoveryBaseSlot databaseId m.disk)).configuration ∧
        (result.1 = 0 → m.disk.journal.retainedFirstSlot ≤ 1) ∧
        m'.disk.journal = m.disk.journal ∧ m'.node.needsResync = m.node.needsResync ∧
        Historical L identity e (recoveryBaseSlot databaseId m.disk)
          { m' with node := m'.node.withApplied (recoveryBaseSlot databaseId m.disk) })
      (fun _ m' => m' = m) m := by
  have hdb : m.node.identity.databaseId = databaseId := by
    rw [h.identified]
    exact h.database
  simp only [recoveryBase, wp_bind, wp_get, hdb]
  cases hanchor : usableAnchor databaseId m.disk with
  | some a =>
    have hbase : recoveryBaseSlot databaseId m.disk = a.globalSlot := by simp [recoveryBaseSlot, hanchor]
    obtain ⟨htrue, hslot⟩ :=
      h.disk.1.anchors a (AppliedFiles.select_holds (usableAnchor_select hanchor)).1
    have hpos : a.globalSlot ≠ 0 := Nat.pos_iff_ne_zero.1 htrue.slot_pos
    simp only [wp_bind, wp_setNode, wp_pure, hpos, if_false, hbase]
    refine ⟨trivial, htrue.configuration, fun hzero => absurd hzero id, trivial, rfl, ?_⟩
    exact ⟨h.database, h.identified, rfl, htrue.historyHash, h.queued, h.kept, hslot, hslot⟩
  | none =>
    have hbase : recoveryBaseSlot databaseId m.disk = 0 := by simp [recoveryBaseSlot, hanchor]
    simp only [wp_pure, wp_bind, if_true, wp_ite, wp_throw, wp_emit, wp_setNode, hbase]
    refine ⟨fun _ => trivial, fun hretained => ⟨trivial, by rw [L.state_zero]; rfl,
      fun _ => Nat.le_of_not_lt hretained, rfl, rfl, ?_⟩⟩
    have hdelete : Apart Disk.deleteImage := apart_files (fun _ => rfl) fun _ => rfl
    have h' := h.apart hdelete
    refine ⟨h.database, h'.identified, rfl, ?_, h'.queued, h'.kept, Nat.zero_le _, Nat.zero_le _⟩
    rw [L.state_zero]
    simp only [Node.withApplied, Node.restoreGenesis, hdb]
    rfl

/-- **Replay recovers the history of the slot it ends at.** Recovery that returns has applied the whole
decided run; one that fails still has the history of the slot it got to. -/
theorem Historical.wp_materializeFromJournal (h : Historical L identity e k m) :
    wp materializeFromJournal
      (fun _ m' => Historical L identity e (recoveredSlot databaseId m.disk) m' ∧
        recoveredSlot databaseId m.disk = decidedEnd m'.disk)
      (fun _ m' => (∃ k', Historical L identity e k' m') ∧
        (m.node.needsResync = true → m'.node.needsResync = true)) m := by
  have hclear : Apart Disk.deleteWal := apart_files (fun _ => rfl) fun _ => rfl
  have hsync : Apart Disk.syncImage := apart_files (fun _ => rfl) fun _ => rfl
  have hcleared := h.apart hclear
  simp only [materializeFromJournal, wp_bind, wp_emit]
  refine wp_mono hcleared.wp_recoveryBase ?_ fun _ m' heq => ?_
  · rintro ⟨base, cursor⟩ m₁ ⟨hbase, hcursor, hzero, hjournal, hneeds, h₁⟩
    have hslot : recoveryBaseSlot databaseId m.disk.deleteWal = recoveryBaseSlot databaseId m.disk := rfl
    rw [hslot] at hbase hcursor h₁
    simp only at hbase hcursor hzero hneeds
    subst hbase hcursor
    replace hjournal : m₁.disk.journal = m.disk.journal := hjournal
    replace hzero : recoveryBaseSlot databaseId m.disk = 0 → m.disk.journal.retainedFirstSlot ≤ 1 := hzero
    simp only [wp_bind, wp_setNode, wp_get]
    rw [wp_ite]
    refine ⟨fun _ => ⟨⟨_, h₁⟩, fun hmarked => hneeds.trans hmarked⟩, fun hnot => ?_⟩
    have hretained : m.disk.journal.retainedFirstSlot ≤ recoveryBaseSlot databaseId m.disk + 1 := by
      rw [hjournal] at hnot
      by_contra hgt
      push Not at hgt
      refine hnot ⟨Nat.pos_of_ne_zero fun hbase => ?_, hgt⟩
      have := hzero hbase
      omega
    have hend : recoveredSlot databaseId m.disk = decidedEnd m.disk :=
      h.disk.1.recoveredSlot_eq hretained
    have hrun : runEnd (commitSlots (m.disk.journal.iterate (recoveryBaseSlot databaseId m.disk + 1)))
        (recoveryBaseSlot databaseId m.disk) = recoveredSlot databaseId m.disk :=
      runEnd_iterate m.disk.journal (recoveryBaseSlot databaseId m.disk)
    have hsame : decidedEnd m₁.disk = decidedEnd m.disk := by
      rw [decidedEnd, committedEnd, hjournal]
      rfl
    rw [hjournal]
    simp only [wp_bind, wp_emit]
    have hcreated := h₁.apart apart_createImage
    have hstart : ReplayedHistory L identity e (recoveredSlot databaseId m.disk)
        (m.node.needsResync = true) (recoveryBaseSlot databaseId m.disk)
        ⟨m₁.node.withApplied (recoveryBaseSlot databaseId m.disk), m₁.disk.createImage,
          m₁.trail ++ [m₁.disk.createImage]⟩ := by
      refine ⟨hcreated, ?_, fun hmarked => hneeds.trans hmarked⟩
      rw [decidedEnd_congr (apart_createImage.records m₁.disk) (apart_createImage.retained m₁.disk), hsame,
        hend]
    have hwindow : InWindow windowSlots (recoveryBaseSlot databaseId m.disk)
        (commitSlots m.disk.journal.records) := h.disk.1.window.mono_base (by omega)
    have hrule : ReplayRule L (recoveryBaseSlot databaseId m.disk)
        (runEnd (commitSlots (m.disk.journal.iterate (recoveryBaseSlot databaseId m.disk + 1)))
          (recoveryBaseSlot databaseId m.disk))
        (ReplayedHistory L identity e (recoveredSlot databaseId m.disk) (m.node.needsResync = true))
        (fun _ m' => ∃ k', ReplayedHistory L identity e (recoveredSlot databaseId m.disk)
          (m.node.needsResync = true) k' m') := by
      rw [hrun]
      exact replayRule_history
    refine wp_mono (wp_replayPass_of hrule (fun s v hmem => ?_) (inWindow_iterate hwindow) (fun _ => rfl)
      hstart) (fun _ m₂ h₂ => ?_) (fun _ m₂ h₂ => ?_)
    · obtain ⟨low, heq, -⟩ :=
        m.disk.journal.records_eq_append_iterate (recoveryBaseSlot databaseId m.disk + 1)
      exact h.disk.1.chosen s v (by rw [heq]; exact List.mem_append_right _ hmem)
    · rw [hrun] at h₂
      refine ⟨h₂.1.apart hsync, ?_⟩
      rw [decidedEnd_congr (hsync.records m₂.disk) (hsync.retained m₂.disk)]
      exact h₂.2.1.symm
    · obtain ⟨k', h', -, hmarked⟩ := h₂
      exact ⟨⟨k', h'⟩, hmarked⟩
  · rw [heq]
    exact ⟨⟨k, hcleared⟩, fun hmarked => hmarked⟩

end Recovery

end Zaxonlite
