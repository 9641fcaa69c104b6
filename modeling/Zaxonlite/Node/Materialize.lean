import Zaxonlite.Node.Replay

/-!
# What recovery restores

`CanRecover` collects what `materializeFromJournal` needs of a disk: the recovery base it selects is
sound, the journal still reaches it, and the commits above it are chosen, in window order, with their
payloads stored. Under it recovery ends without error with every cursor at the end of the contiguous
run of journaled commits, over an image that is the base's with exactly the run's changes made. That
the image is then the fold at that slot is a separate matter: it needs the image recovery starts from
to lie between the folds at the two ends.
-/

namespace Zaxonlite

open Program Contiguous

variable {databaseId : ℕ}

/-- The slot recovery starts from: the usable anchor's, zero without one. -/
def recoveryBaseSlot (databaseId : ℕ) (d : Disk) : ℕ :=
  ((usableAnchor databaseId d).map AppliedAnchor.globalSlot).getD 0

/-- The end of the contiguous run of journaled commits above the recovery base. -/
def recoveredSlot (databaseId : ℕ) (d : Disk) : ℕ :=
  runEnd (commitSlots d.journal.records) (recoveryBaseSlot databaseId d)

/-- The image recovery replays over: the one on disk under an anchor, an empty one without. -/
def baseImage (databaseId : ℕ) (d : Disk) : Image :=
  match usableAnchor databaseId d, d.image with
  | some _, some image => image
  | _, _ => { synced := File.empty, pending := [] }

/-- An anchor states the fold at its slot. -/
structure AnchorSound (L : ChosenLog databaseId) (anchor : AppliedAnchor) : Prop where
  slot_pos : 0 < anchor.globalSlot
  database : anchor.databaseId = databaseId
  pageSize : anchor.sqlitePageSize = defaultPageSize
  lastChain : anchor.lastChain = (L.state anchor.globalSlot).lastChain
  lastDataSlot : anchor.lastDataSlot = (L.state anchor.globalSlot).lastDataSlot
  lastBatchId : anchor.lastBatchId = (L.state anchor.globalSlot).lastBatchId
  historyHash : anchor.historyHash = (L.state anchor.globalSlot).historyHash

/-- What recovery needs of a node and its disk. -/
structure CanRecover (L : ChosenLog databaseId) (n : Node) (d : Disk) : Prop where
  database : n.identity.databaseId = databaseId
  pageSize : n.pageSize = defaultPageSize
  batchId : usableAnchor databaseId d = none →
    (L.state (recoveredSlot databaseId d)).lastDataSlot = 0 → n.lastBatchId = 0
  anchor : ∀ a, usableAnchor databaseId d = some a → AnchorSound L a
  cursor : ∀ a, usableAnchor databaseId d = some a →
    recoveryBaseSlot databaseId d < recoveredSlot databaseId d →
    a.configurationId = (L.state a.globalSlot).configuration
  retained : d.journal.retainedFirstSlot ≤ recoveryBaseSlot databaseId d + 1
  chosen : ∀ s v, Write.commit s v ∈ d.journal.records → v = L.entry s
  window : InWindow windowSlots (recoveryBaseSlot databaseId d) (commitSlots d.journal.records)
  stored : ∀ s, recoveryBaseSlot databaseId d < s → s ≤ recoveredSlot databaseId d →
    L.Stored d.store s

/-- The volatile fields recovery starts the pass with. -/
def Node.baseNode (n : Node) (databaseId : ℕ) (d : Disk) : Node :=
  match usableAnchor databaseId d with
  | some anchor => n.restoreAnchor anchor
  | none => n.restoreGenesis

/-- The disk once recovery is done. -/
def recoveredDisk (L : ChosenLog databaseId) (d : Disk) : Disk :=
  d.deleteWal.withImage
    { synced := (baseImage databaseId d).content.execAll
        (L.hist (recoveryBaseSlot databaseId d) (recoveredSlot databaseId d))
      pending := [] }

/-- A disk some point of recovery leaves. -/
inductive RecoveryPoint (L : ChosenLog databaseId) (d : Disk) : Disk → Prop
  | cleared : RecoveryPoint L d d.deleteWal
  | deleted : usableAnchor databaseId d = none → RecoveryPoint L d d.deleteWal.deleteImage
  | replaying {extra : List (ℕ × FileOp)} :
    (∀ p ∈ extra, L.Stamp (recoveryBaseSlot databaseId d) (recoveredSlot databaseId d) p) →
    RecoveryPoint L d (d.deleteWal.withImage ((baseImage databaseId d).extend extra))
  | synced : RecoveryPoint L d (recoveredDisk L d)

/-- The machine recovery ends in. -/
structure Recovered (L : ChosenLog databaseId) (n : Node) (d : Disk) (m₀ m : Machine) : Prop where
  node : ∃ pending, m.node = (n.baseNode databaseId d).atState
    (L.state (recoveredSlot databaseId d)) (recoveredSlot databaseId d) pending
  disk : m.disk = recoveredDisk L d
  grew : m₀.Grew (RecoveryPoint L d) m

section Spec

variable {L : ChosenLog databaseId} {n : Node} {d : Disk}

@[simp] theorem usableAnchor_deleteWal (d : Disk) :
    usableAnchor databaseId d.deleteWal = usableAnchor databaseId d := rfl

theorem usableAnchor_image {a : AppliedAnchor} (h : usableAnchor databaseId d = some a) :
    ∃ image, d.image = some image ∧
      a.sqlitePageCount * a.sqlitePageSize ≤ image.content.length := by
  simp only [usableAnchor, Option.filter_eq_some_iff, anchorMatchesImage] at h
  cases himage : d.image with
  | none =>
    rw [himage] at h
    exact absurd h.2 (by simp)
  | some image =>
    rw [himage] at h
    exact ⟨image, rfl, by simpa using h.2⟩

theorem usableAnchor_select {a : AppliedAnchor} (h : usableAnchor databaseId d = some a) :
    d.applied.select databaseId = some a := by
  simp only [usableAnchor, Option.filter_eq_some_iff] at h
  exact h.1

/-- The fold of nothing has the cursors a rebuild starts with. -/
theorem restoreGenesis_eq (L : ChosenLog databaseId) {n : Node}
    (hdb : n.identity.databaseId = databaseId) :
    n.restoreGenesis.withApplied 0 =
      (n.restoreGenesis.withApplied 0).atState (L.state 0) 0 n.membershipChangePending := by
  rw [L.state_zero, ← hdb]
  rfl

theorem cursorsAt_restoreAnchor {a : AppliedAnchor} (h : AnchorSound L a) (n : Node) :
    ((n.restoreAnchor a).withApplied a.globalSlot).CursorsAt L a.globalSlot :=
  ⟨rfl, h.lastChain, h.lastDataSlot, h.lastBatchId, h.historyHash⟩

@[simp] theorem baseNode_identity (n : Node) (d : Disk) :
    (n.baseNode databaseId d).identity = n.identity := by
  unfold Node.baseNode
  split <;> rfl

theorem baseNode_pageSize (h : CanRecover L n d) :
    (n.baseNode databaseId d).pageSize = defaultPageSize := by
  unfold Node.baseNode
  split
  · rename_i a ha
    exact (h.anchor a ha).pageSize
  · exact h.pageSize

/-- Whichever base recovery chose, the pass starts with the cursors of its fold. -/
theorem baseNode_eq (h : CanRecover L n d) : ∃ pending,
    (n.baseNode databaseId d).withApplied (recoveryBaseSlot databaseId d) =
      ((n.baseNode databaseId d).withApplied (recoveryBaseSlot databaseId d)).atState
        (L.state (recoveryBaseSlot databaseId d)) (recoveryBaseSlot databaseId d) pending := by
  cases hanchor : usableAnchor databaseId d with
  | some a =>
    simp only [Node.baseNode, recoveryBaseSlot, hanchor, Option.map_some, Option.getD_some]
    exact ⟨_, (cursorsAt_restoreAnchor (h.anchor a hanchor) n).atState_eq⟩
  | none =>
    simp only [Node.baseNode, recoveryBaseSlot, hanchor, Option.map_none, Option.getD_none]
    exact ⟨_, restoreGenesis_eq L h.database⟩

theorem runEnd_iterate (j : Journal) (base : ℕ) :
    runEnd (commitSlots (j.iterate (base + 1))) base = runEnd (commitSlots j.records) base := by
  obtain ⟨low, heq, hlow⟩ := j.records_eq_append_iterate (base + 1)
  refine runEnd_congr fun s hs => ?_
  rw [heq, commitSlots_append, List.mem_append]
  refine ⟨Or.inr, fun h => h.resolve_left fun hmem => ?_⟩
  obtain ⟨value, hvalue⟩ := mem_commitSlots.1 hmem
  have : s < base + 1 := hlow _ hvalue
  omega

theorem inWindow_iterate {window base : ℕ} {j : Journal}
    (h : InWindow window base (commitSlots j.records)) :
    InWindow window base (commitSlots (j.iterate (base + 1))) := by
  obtain ⟨low, heq, hlow⟩ := j.records_eq_append_iterate (base + 1)
  rw [heq, commitSlots_append] at h
  refine h.drop_low fun s hs => ?_
  obtain ⟨value, hvalue⟩ := mem_commitSlots.1 hs
  exact Nat.le_of_lt_succ (hlow _ hvalue)

/-- The base recovery chooses, with the disk and the volatile fields it leaves. -/
theorem wp_recoveryBase (h : CanRecover L n d) {m₀ : Machine} (hnode : m₀.node = n)
    (hdisk : m₀.disk = d.deleteWal) :
    wp recoveryBase
      (fun result m => result.1 = recoveryBaseSlot databaseId d ∧
        (recoveryBaseSlot databaseId d < recoveredSlot databaseId d →
          result.2 = (L.state (recoveryBaseSlot databaseId d)).configuration) ∧
        m.node = n.baseNode databaseId d ∧
        (m.disk = d.deleteWal ∧ (∃ a, usableAnchor databaseId d = some a) ∨
          m.disk = d.deleteWal.deleteImage ∧ usableAnchor databaseId d = none) ∧
        m₀.Grew (RecoveryPoint L d) m)
      (fun _ _ => False) m₀ := by
  subst hnode
  simp only [recoveryBase, wp_bind, wp_get, h.database, hdisk, usableAnchor_deleteWal]
  cases hanchor : usableAnchor databaseId d with
  | some a =>
    have hsound := h.anchor a hanchor
    have hbase : recoveryBaseSlot databaseId d = a.globalSlot := by
      simp [recoveryBaseSlot, hanchor]
    have hpos : a.globalSlot ≠ 0 := Nat.pos_iff_ne_zero.1 hsound.slot_pos
    simp only [wp_bind, wp_setNode, wp_pure, hpos, if_false, hbase]
    refine ⟨trivial, fun hlt => h.cursor a hanchor (hbase ▸ hlt), ?_, Or.inl ⟨hdisk, a, rfl⟩, ?_⟩
    · rw [Node.baseNode, hanchor]
    · exact Machine.Grew.refl _ m₀
  | none =>
    have hbase : recoveryBaseSlot databaseId d = 0 := by simp [recoveryBaseSlot, hanchor]
    have hretained : ¬ d.deleteWal.journal.retainedFirstSlot > 1 := by
      have := h.retained
      rw [hbase] at this
      exact Nat.not_lt_of_le this
    simp only [wp_pure, wp_bind, if_true, hretained, if_false, wp_emit, wp_setNode, hbase, hdisk]
    refine ⟨trivial, fun _ => by rw [L.state_zero]; rfl, ?_, Or.inr ⟨trivial, trivial⟩, ?_⟩
    · rw [Node.baseNode, hanchor]
    · exact (Machine.Grew.refl _ m₀).emit (.deleted hanchor)

/-- **Recovery ends without error at the end of the contiguous run.** -/
theorem wp_materializeFromJournal (h : CanRecover L n d) {m₀ : Machine} (hnode : m₀.node = n)
    (hdisk : m₀.disk = d) :
    wp materializeFromJournal (fun _ m => Recovered L n d m₀ m) (fun _ _ => False) m₀ := by
  simp only [materializeFromJournal, wp_bind, wp_emit]
  refine wp_mono (wp_recoveryBase h hnode (by rw [hdisk])) ?_ (fun _ _ hno => hno)
  rintro ⟨base, cursor⟩ m₁ ⟨hbase, hcursor, hnode₁, hdisk₁, hgrew₁⟩
  simp only at hbase hcursor
  subst hbase
  have hjournal : m₁.disk.journal = d.journal := by
    rcases hdisk₁ with ⟨hd, -⟩ | ⟨hd, -⟩ <;> rw [hd] <;> rfl
  have hretained : ¬ (recoveryBaseSlot databaseId d > 0 ∧
      m₁.disk.journal.retainedFirstSlot > recoveryBaseSlot databaseId d + 1) := by
    rw [hjournal]
    exact fun hcon => Nat.not_lt_of_le h.retained hcon.2
  simp only [wp_bind, wp_setNode, wp_get]
  rw [if_neg hretained, hjournal]
  simp only [wp_bind, wp_emit]
  -- The image the pass starts over, whichever way the base was chosen.
  have hcreate : m₁.disk.createImage = d.deleteWal.withImage (baseImage databaseId d) := by
    rcases hdisk₁ with ⟨hd, a, ha⟩ | ⟨hd, ha⟩
    · obtain ⟨image, himage, -⟩ := usableAnchor_image ha
      simp only [hd, Disk.createImage, Disk.deleteWal, baseImage, ha, himage, Disk.withImage]
    · simp only [hd, Disk.createImage, Disk.deleteWal, Disk.deleteImage, baseImage, ha,
        Disk.withImage]
  obtain ⟨pending₀, hcursors⟩ := baseNode_eq h
  set start : ReplayStart :=
    { node := (n.baseNode databaseId d).withApplied (recoveryBaseSlot databaseId d)
      disk := d.deleteWal
      image := baseImage databaseId d } with hstart
  have hend := runEnd_iterate d.journal (recoveryBaseSlot databaseId d)
  have hcan : Replayable L (recoveryBaseSlot databaseId d)
      (runEnd (commitSlots (d.journal.iterate (recoveryBaseSlot databaseId d + 1)))
        (recoveryBaseSlot databaseId d)) start := by
    rw [hend]
    exact ⟨by simp only [hstart, Node.withApplied, baseNode_identity, h.database], baseNode_pageSize h,
      fun s hlo hhi => h.stored s hlo hhi⟩
  rw [hcreate, hnode₁]
  refine wp_mono (wp_replayPass (L := L) hcan (fun s v hmem => ?_)
    (inWindow_iterate h.window) (fun hlt => hcursor (lt_of_lt_of_eq hlt hend)) ⟨⟨pending₀, hcursors⟩, ?_,
      Machine.Grew.refl _ _⟩) ?_ (fun _ _ hno => hno)
  · obtain ⟨low, heq, -⟩ := d.journal.records_eq_append_iterate (recoveryBaseSlot databaseId d + 1)
    exact h.chosen s v (by rw [heq]; exact List.mem_append_right _ hmem)
  · rw [L.stamped_self, Image.extend_nil]
  · rintro r m₂ ⟨⟨pending, hnode₂⟩, hdisk₂, hgrew₂⟩
    rw [hend] at hnode₂ hdisk₂ hgrew₂
    have hsync : m₂.disk.syncImage = recoveredDisk L d := by
      rw [hdisk₂]
      simp only [Disk.syncImage, Disk.withImage, Option.map_some, Image.content_extend,
        L.map_snd_stamped, recoveredDisk, recoveredSlot, hstart]
    refine ⟨⟨pending, hnode₂⟩, hsync, ?_⟩
    simp only [hsync]
    refine Machine.Grew.emit ?_ .synced
    have hfirst : Machine.Grew (RecoveryPoint L d) m₀
        ⟨m₀.node, m₀.disk.deleteWal, m₀.trail ++ [m₀.disk.deleteWal]⟩ :=
      (Machine.Grew.refl _ m₀).emit (by rw [hdisk]; exact .cleared)
    have hthird : Machine.Grew (RecoveryPoint L d) m₁
        ⟨start.node, d.deleteWal.withImage (baseImage databaseId d),
          m₁.trail ++ [d.deleteWal.withImage (baseImage databaseId d)]⟩ := by
      refine (Machine.Grew.refl _ m₁).emit ?_
      have hnil : RecoveryPoint L d (d.deleteWal.withImage ((baseImage databaseId d).extend [])) :=
        .replaying fun p hp => absurd hp List.not_mem_nil
      rwa [Image.extend_nil] at hnil
    refine (hfirst.trans hgrew₁).trans (hthird.trans (hgrew₂.mono ?_))
    rintro d' ⟨extra, hextra, rfl⟩
    exact .replaying hextra

/-- Recovery refuses a journal that does not reach its base. -/
theorem wp_materializeFromJournal_unretained {m : Machine}
    (h : recoveryBaseSlot m.node.identity.databaseId m.disk + 1 < m.disk.journal.retainedFirstSlot) :
    wp materializeFromJournal (fun _ _ => False) (fun e _ => e = .stateUnavailable) m := by
  simp only [materializeFromJournal, recoveryBase, wp_bind, wp_emit, wp_get, usableAnchor_deleteWal]
  rw [recoveryBaseSlot] at h
  cases hanchor : usableAnchor m.node.identity.databaseId m.disk with
  | none =>
    rw [hanchor] at h
    have hgt : m.disk.deleteWal.journal.retainedFirstSlot > 1 := h
    simp only [wp_bind, if_true, if_pos hgt, wp_throw]
  | some a =>
    rw [hanchor] at h
    have hgt : m.disk.deleteWal.journal.retainedFirstSlot > a.globalSlot + 1 := h
    simp only [wp_bind, wp_setNode]
    by_cases hzero : a.globalSlot = 0
    · have hgt' : m.disk.deleteWal.journal.retainedFirstSlot > 1 := by omega
      simp only [hzero, if_true, if_pos hgt', wp_bind, wp_throw]
    · have hpos : a.globalSlot > 0 ∧ m.disk.deleteWal.journal.retainedFirstSlot > a.globalSlot + 1 :=
        ⟨Nat.pos_iff_ne_zero.2 hzero, hgt⟩
      simp only [hzero, if_false, wp_pure, wp_bind, wp_setNode, wp_get, if_pos hpos, wp_throw]

theorem Recovered.appliedSlot {m₀ m : Machine} (h : Recovered L n d m₀ m) :
    m.node.appliedSlot = recoveredSlot databaseId d := by
  obtain ⟨pending, hnode⟩ := h.node
  rw [hnode]
  rfl

theorem Recovered.cursorsAt {m₀ m : Machine} (h : Recovered L n d m₀ m) (hcan : CanRecover L n d) :
    m.node.CursorsAt L (recoveredSlot databaseId d) := by
  obtain ⟨pending, hnode⟩ := h.node
  rw [hnode]
  refine ⟨rfl, rfl, rfl, ?_, rfl⟩
  simp only [Node.atState]
  split
  · rename_i hdata
    have hle := base_le_runEnd (commitSlots d.journal.records) (recoveryBaseSlot databaseId d)
    rw [(L.lastBatchId_of_no_data hdata le_rfl).2]
    cases hanchor : usableAnchor databaseId d with
    | some a =>
      have hbase : recoveryBaseSlot databaseId d = a.globalSlot := by
        simp [recoveryBaseSlot, hanchor]
      simp only [Node.baseNode, hanchor, Node.restoreAnchor, (hcan.anchor a hanchor).lastBatchId]
      exact (L.lastBatchId_of_no_data hdata (hbase ▸ hle)).2
    | none =>
      simp only [Node.baseNode, hanchor, Node.restoreGenesis]
      exact hcan.batchId hanchor hdata
  · rfl

/-- Over an image between the base and the end of the run, recovery ends with the fold. -/
theorem recoveredDisk_content
    (h : L.Between (recoveryBaseSlot databaseId d) (recoveredSlot databaseId d)
      (baseImage databaseId d).content) :
    (recoveredDisk L d).content = (L.state (recoveredSlot databaseId d)).image := by
  have hreplay := h.replay (base_le_runEnd _ _)
  simp only [recoveredDisk, Disk.content, Disk.withImage, Image.content, List.map_nil,
    File.execAll_nil]
  exact hreplay

end Spec

end Zaxonlite
