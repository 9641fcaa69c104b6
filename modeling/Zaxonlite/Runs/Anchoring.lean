import Zaxonlite.Crash.Process
import Zaxonlite.Node.Handover
import Zaxonlite.Node.Resync

/-!
# Which anchor a restart selects

A restart trusts the anchor with the greatest generation. The node counts generations in memory and
recovers the count from the anchor it starts from; a rebuild from the journal starts from none, and
unless the anchors on disk are gone too it counts anew below them. Over runs without such a rebuild the
newest anchor is the one a restart selects, the slot the node takes for durable is that anchor's, and
reclaiming deletes nothing above it.
-/

namespace Zaxonlite

open Program Run

/-- The slot of the anchor a restart selects, zero without one. -/
def selectedSlot (databaseId : ℕ) (files : AppliedFiles) : ℕ :=
  ((files.select databaseId).map AppliedAnchor.globalSlot).getD 0

/-- Recovery from this disk discards the image for a rebuild while an anchor of the database stays. -/
def RebuildsUnderAnchor (databaseId : ℕ) (d : Disk) : Prop :=
  usableAnchor databaseId d = none ∧ d.applied.select databaseId ≠ none ∧
    d.journal.retainedFirstSlot ≤ 1

/-! ### Runs of a materializing node -/

/-- What a process that died leaves: a crash point, with whatever happened to the image while it was
down and whatever starts that failed did. -/
inductive LeftOver (databaseId : ℕ) (m : Machine) : Disk → Prop
  | crash {d : Disk} : d ∈ m.crashPoints → LeftOver databaseId m d
  | image {d : Disk} (image : Option Image) : LeftOver databaseId m d →
    LeftOver databaseId m { d with image := image }
  | attempt {config : Config} {d d' : Disk} {e : NodeError} {m' : Machine} :
    config.identity.databaseId = databaseId → LeftOver databaseId m d →
    materializeFromJournal (Machine.booted config d) = .error e m' → d' ∈ m'.crashPoints →
    LeftOver databaseId m d'

/-- The registry a survivor rebuilds from the stop sign. -/
def Rebuilds (decided : Decided) (stop : Option (StopSign × ℕ)) (next : Decided) : Prop :=
  ∃ sign slot parsed, stop = some (sign, slot) ∧ parseStopMetadata sign.metadata = .ok parsed ∧
    decided.reconstructNextRegistry parsed sign.configurationId = .ok next

/-- Take over a rebuilt registry's configuration and members. -/
def takeOver (next : Decided) : Op Unit := do
  setNode fun n => n.inConfiguration next.configurationId
  adoptDecidedMembers next

/-- The first half of a handover, up to the anchor. -/
def handOverStart (next : Decided) (campaign : List Effects) : Op Unit := do
  takeOver next
  let m ← get
  doIf m.node.single (consumeEffects campaign)

/-- An operation that resyncs a marked image does so from a disk with this property. -/
def ResyncsFrom (ok : Disk → Prop) (m : Machine) : Prop :=
  m.node.needsResync = true → ok m.resyncDisk

/-- What a node that materializes state does, whatever its core hands it; every recovery starts from a
disk with the property `ok`. -/
inductive AnchorStep (databaseId : ℕ) (ok : Disk → Prop) : Machine → Machine → Prop
  | effects {m : Machine} (rounds : List Effects) :
    AnchorStep databaseId ok m (finalState (consumeEffects rounds) m)
  | journal {m : Machine} (effects : Effects) :
    AnchorStep databaseId ok m (finalState (journalEffects effects) m)
  | payload {m : Machine} (bytes : List UInt8) :
    AnchorStep databaseId ok m (finalState (installPayload bytes) m)
  | anchor {m : Machine} : ResyncsFrom ok m →
    AnchorStep databaseId ok m (finalState createStateAnchor m)
  | reclaim {m : Machine} : AnchorStep databaseId ok m (finalState reclaim m)
  | resync {m : Machine} : ok m.resyncDisk → AnchorStep databaseId ok m (finalState resyncImage m)
  | write {m : Machine} (status : LogStatus) (statements : Option CapturedTransaction)
    (core : AppendCore) : ResyncsFrom ok m →
    AnchorStep databaseId ok m (finalState (writeRequest status statements core) m)
  | beginLive {m : Machine} (stopPending : Bool) : ResyncsFrom ok m →
    AnchorStep databaseId ok m (finalState (beginLive stopPending) m)
  | commitLive {m : Machine} (stopPending : Bool) (t : CapturedTransaction) (core : AppendCore) :
    AnchorStep databaseId ok m (finalState (commitLive stopPending t core) m)
  | rollbackLive {m : Machine} (rolledBack : Bool) :
    AnchorStep databaseId ok m (finalState (rollbackLive rolledBack) m)
  | transfer {m : Machine} (received : File) (offer : SnapshotBegin) :
    AnchorStep databaseId ok m (finalState (installTransferredState received offer) m)
  | discard {m : Machine} : AnchorStep databaseId ok m (finalState discardImageAndRematerialize m)
  | handover {m : Machine} (decided : Decided) (stop : Option (StopSign × ℕ)) (joining : Bool)
    (campaign : List Effects) :
    (∀ next m', Rebuilds decided stop next → handOverStart next campaign m = .ok () m' →
      ResyncsFrom ok m') →
    AnchorStep databaseId ok m
      (finalState (completeMembershipChange decided stop joining campaign) m)
  | restart {m m' : Machine} {config : Config} {d : Disk} : config.identity.databaseId = databaseId →
    config.role.capabilities.materializes = true → LeftOver databaseId m d →
    ok (Machine.booted config d).disk → materializeFromJournal (Machine.booted config d) = .ok () m' →
    AnchorStep databaseId ok m m'

/-- The states of a node's runs whose recoveries all start from a disk with the property `ok`. -/
def AnchorReachable (databaseId : ℕ) (ok : Disk → Prop) : Machine → Prop :=
  Reachable (fun m => ∃ config rotationRecords, config.identity.databaseId = databaseId ∧
    config.role.capabilities.materializes = true ∧ m = Machine.fresh config rotationRecords)
    (AnchorStep databaseId ok)

/-! ### The invariant -/

/-- Every anchor in the files states a slot of this database. -/
def AnchorsHeld (databaseId : ℕ) (files : AppliedFiles) : Prop :=
  ∀ a, files.Holds a → a.databaseId = databaseId ∧ 0 < a.globalSlot

/-- A materializing node whose disk, and every disk a crash leaves, holds anchors of its database. -/
structure Holding (databaseId : ℕ) (m : Machine) : Prop where
  database : m.node.identity.databaseId = databaseId
  materializes : m.node.capabilities.materializes = true
  held : ∀ d ∈ m.crashPoints, AnchorsHeld databaseId d.applied

/-- The node remembers the anchors on its disk. -/
structure Anchored (databaseId : ℕ) (m : Machine) : Prop extends Holding databaseId m where
  generation : ∀ a, m.disk.applied.Holds a → a.generation ≤ m.node.anchorGeneration
  selected : m.node.durableStateSlot = selectedSlot databaseId m.disk.applied

/-- The anchors in memory and at the crash points. -/
def Machine.appliedView (m : Machine) :
    (Identity × Capabilities × ℕ × ℕ × AppliedFiles) × Set AppliedFiles :=
  (m.anchorView, { files | ∃ d ∈ m.crashPoints, d.applied = files })

theorem anchorFrame_appliedView : AnchorFrame Machine.appliedView where
  emit f m hf := by
    refine Prod.ext ?_ ?_
    · simp only [Machine.appliedView, Machine.anchorView, hf]
    · ext files
      simp only [Machine.appliedView, Machine.crashPoints, Set.mem_ofPred_eq, List.mem_cons,
        List.mem_append, List.not_mem_nil, or_false]
      constructor
      · rintro ⟨d, rfl | hd | rfl, rfl⟩
        · exact ⟨m.disk, Or.inl rfl, hf.symm⟩
        · exact ⟨d, Or.inr hd, rfl⟩
        · exact ⟨m.disk, Or.inl rfl, hf.symm⟩
      · rintro ⟨d, rfl | hd, rfl⟩
        · exact ⟨f m.disk, Or.inl rfl, hf⟩
        · exact ⟨d, Or.inr (Or.inl hd), rfl⟩
  node f m hidentity hcaps hdurable hgeneration := by
    simp only [Machine.appliedView, Machine.anchorView, Machine.crashPoints, hidentity, hcaps, hdurable,
      hgeneration]

section Invariant

variable {databaseId : ℕ} {m m' : Machine}

theorem applied_eq_of_view (hview : m'.appliedView = m.appliedView) :
    m'.disk.applied = m.disk.applied :=
  congrArg (fun view => view.1.2.2.2.2) hview

theorem Holding.of_view (h : Holding databaseId m) (hview : m'.appliedView = m.appliedView) :
    Holding databaseId m' where
  database := by
    have hidentity : m'.node.identity = m.node.identity := congrArg (fun view => view.1.1) hview
    rw [hidentity]
    exact h.database
  materializes := by
    have hcaps : m'.node.capabilities = m.node.capabilities := congrArg (fun view => view.1.2.1) hview
    rw [hcaps]
    exact h.materializes
  held d hd := by
    have hfiles : m'.appliedView.2 = m.appliedView.2 := congrArg Prod.snd hview
    have hmem : d.applied ∈ m'.appliedView.2 := ⟨d, hd, rfl⟩
    rw [hfiles] at hmem
    obtain ⟨d', hd', heq⟩ := hmem
    rw [← heq]
    exact h.held d' hd'

theorem Anchored.of_view (h : Anchored databaseId m) (hview : m'.appliedView = m.appliedView) :
    Anchored databaseId m' where
  toHolding := h.toHolding.of_view hview
  generation a ha := by
    have hgeneration : m'.node.anchorGeneration = m.node.anchorGeneration :=
      congrArg (fun view => view.1.2.2.2.1) hview
    rw [hgeneration]
    exact h.generation a (applied_eq_of_view hview ▸ ha)
  selected := by
    have hdurable : m'.node.durableStateSlot = m.node.durableStateSlot :=
      congrArg (fun view => view.1.2.2.1) hview
    rw [hdurable, applied_eq_of_view hview]
    exact h.selected

/-- An operation that leaves the anchors alone keeps the invariant. -/
theorem Anchored.wp_of_keeps {α : Type} {x : Op α} (h : Anchored databaseId m)
    (hx : Keeps Machine.appliedView x) :
    wp x (fun _ => Anchored databaseId) (fun _ => Anchored databaseId) m :=
  wp_mono (hx m) (fun _ _ hview => h.of_view hview) fun _ _ hview => h.of_view hview

theorem not_holds_of_select_none {files : AppliedFiles} (hheld : AnchorsHeld databaseId files)
    (hnone : files.select databaseId = none) (a : AppliedAnchor) : ¬ files.Holds a := by
  intro ha
  obtain ⟨file0, file1⟩ := files
  have hdb := (hheld a ha).1
  rcases ha with rfl | rfl
  · cases file1 with
    | none => simp [AppliedFiles.select, AppliedFiles.valid, Option.filter, hdb] at hnone
    | some other =>
      have hother := (hheld other (Or.inr rfl)).1
      simp only [AppliedFiles.select, AppliedFiles.valid, List.filterMap_cons, Option.filter, hdb,
        hother, beq_self_eq_true, if_true, List.filterMap_nil, List.foldl_cons, List.foldl_nil] at hnone
      split at hnone <;> cases hnone
  · cases file0 with
    | none => simp [AppliedFiles.select, AppliedFiles.valid, Option.filter, hdb] at hnone
    | some other =>
      have hother := (hheld other (Or.inl rfl)).1
      simp only [AppliedFiles.select, AppliedFiles.valid, List.filterMap_cons, Option.filter, hdb,
        hother, beq_self_eq_true, if_true, List.filterMap_nil, List.foldl_cons, List.foldl_nil] at hnone
      split at hnone <;> cases hnone

theorem selectedSlot_of_select {files : AppliedFiles} {a : AppliedAnchor}
    (h : files.select databaseId = some a) : selectedSlot databaseId files = a.globalSlot := by
  rw [selectedSlot, h]
  rfl

theorem Holding.applied (h : Holding databaseId m) : AnchorsHeld databaseId m.disk.applied :=
  h.held m.disk List.mem_cons_self

/-- An anchor of a greater generation is the one selected from then on. -/
theorem Holding.published (h : Holding databaseId m) {a : AppliedAnchor} {n : Node} {d : Disk}
    {trail : List Disk} (hgen : ∀ b, m.disk.applied.Holds b → b.generation < a.generation)
    (hdb : a.databaseId = databaseId) (hslot : 0 < a.globalSlot)
    (hid : n.identity.databaseId = databaseId) (hcaps : n.capabilities.materializes = true)
    (hn : n.anchorGeneration = a.generation) (hdurable : n.durableStateSlot = a.globalSlot)
    (hd : d.applied = m.disk.applied.publish a)
    (htrail : ∀ d' ∈ trail, AnchorsHeld databaseId d'.applied ∨ d'.applied = d.applied) :
    Anchored databaseId ⟨n, d, trail⟩ := by
  have hheld : AnchorsHeld databaseId d.applied := by
    intro b hb
    rw [hd] at hb
    rcases AppliedFiles.holds_publish hb with rfl | hold
    · exact ⟨hdb, hslot⟩
    · exact h.applied b hold
  refine ⟨⟨hid, hcaps, fun d' hd' => ?_⟩, fun b hb => ?_, ?_⟩
  · rcases List.mem_cons.1 hd' with rfl | hin
    · exact hheld
    · rcases htrail d' hin with hok | heq
      · exact hok
      · rw [heq]
        exact hheld
  · simp only [hd] at hb
    rw [hn]
    rcases AppliedFiles.holds_publish hb with rfl | hold
    · exact le_rfl
    · exact (hgen b hold).le
  · have hselect := AppliedFiles.select_publish hgen
    rw [hdb] at hselect
    simp only [hdurable, hd, selectedSlot_of_select hselect]

end Invariant

/-! ### Recovery -/

section Recovery

variable {databaseId : ℕ} {m : Machine}

/-- What recovery does after it has chosen its base. -/
theorem keeps_replayFrom {γ : Type*} {φ : Machine → γ} (h : AnchorFrame φ) (base configCursor : ℕ) :
    Keeps φ (do
      setNode fun n => n.withApplied base
      let m ← get
      if base > 0 ∧ m.disk.journal.retainedFirstSlot > base + 1 then
        throw .stateUnavailable
      emit Disk.createImage
      let _ ← (m.disk.journal.iterate (base + 1)).foldlM replayRecord (Replay.start configCursor)
      emit Disk.syncImage) := by
  have hreplay : ∀ m : Machine, Keeps φ (do
      emit Disk.createImage
      let _ ← (m.disk.journal.iterate (base + 1)).foldlM replayRecord (Replay.start configCursor)
      emit Disk.syncImage) := by
    intro m
    refine Keeps.bind (h.keeps_emit AnchorFrame.applied_createImage) fun _ => ?_
    refine Keeps.bind (Keeps.foldlM (fun r write => h.replayRecord r write) _ _) fun _ => ?_
    exact h.keeps_emit fun _ => rfl
  refine Keeps.bind (h.setNode fun n => ⟨rfl, rfl, rfl, rfl⟩) fun _ => keeps_get.bind fun m => ?_
  simp only
  split
  · exact (keeps_throw _).bind fun _ => hreplay m
  · exact hreplay m

/-- Choosing the base leaves the count of generations right. -/
theorem Holding.wp_recoveryBase (h : Holding databaseId m)
    (hclean : ¬ RebuildsUnderAnchor databaseId m.disk) :
    wp recoveryBase (fun _ => Anchored databaseId) (fun _ m' => m' = m) m := by
  have hdb := h.database
  simp only [recoveryBase, wp_bind, wp_get]
  cases husable : usableAnchor m.node.identity.databaseId m.disk with
  | some a =>
    have hselect := hdb ▸ usableAnchor_select husable
    have hholds := (AppliedFiles.select_holds hselect).1
    have hslot := (h.applied a hholds).2
    have hanchored : Anchored databaseId { m with node := m.node.restoreAnchor a } := by
      refine ⟨⟨hdb, h.materializes, h.held⟩, fun b hb => ?_, ?_⟩
      · exact AppliedFiles.generation_le_select hselect hb (h.applied b hb).1
      · exact (selectedSlot_of_select hselect).symm
    simp only [wp_bind, wp_setNode, Nat.pos_iff_ne_zero.1 hslot, if_false, wp_pure]
    exact hanchored
  | none =>
    simp only [wp_pure, if_true, wp_bind, wp_ite, wp_throw, wp_emit, wp_setNode]
    refine ⟨fun _ => trivial, fun hretained => ?_⟩
    have hnone : m.disk.applied.select databaseId = none := by
      by_contra hsome
      exact hclean ⟨hdb ▸ husable, hsome, Nat.le_of_not_lt hretained⟩
    refine ⟨⟨hdb, h.materializes, fun d hd => ?_⟩, fun a ha => ?_, ?_⟩
    · simp only [Machine.crashPoints, List.mem_cons, List.mem_append, List.not_mem_nil, or_false] at hd
      rcases hd with rfl | hin | rfl
      · exact h.applied
      · exact h.held d (List.mem_cons_of_mem _ hin)
      · exact h.applied
    · exact absurd ha (not_holds_of_select_none h.applied hnone a)
    · change 0 = selectedSlot databaseId m.disk.applied
      rw [selectedSlot, hnone]
      rfl

/-- Recovery that does not rebuild under an anchor ends with the node remembering the anchors; one that
fails has not forgotten them. -/
theorem Holding.wp_materializeFromJournal (h : Holding databaseId m)
    (hclean : ¬ RebuildsUnderAnchor databaseId m.disk) :
    wp materializeFromJournal (fun _ => Anchored databaseId)
      (fun _ m' => Anchored databaseId m → Anchored databaseId m') m := by
  have hview : Machine.appliedView
      { m with disk := m.disk.deleteWal, trail := m.trail ++ [m.disk.deleteWal] } = m.appliedView :=
    anchorFrame_appliedView.emit Disk.deleteWal m rfl
  rw [materializeFromJournal, wp_bind, wp_emit, wp_bind]
  refine wp_mono ((h.of_view hview).wp_recoveryBase hclean) (fun base m₁ hbase => ?_) ?_
  · refine wp_mono (hbase.wp_of_keeps (keeps_replayFrom anchorFrame_appliedView _ _))
      (fun _ _ h' => h') (fun _ _ h' _ => h')
  · intro e m₁ heq hanchored
    rw [heq]
    exact hanchored.of_view hview

theorem Anchored.wp_resyncImage (h : Anchored databaseId m)
    (hclean : ¬ RebuildsUnderAnchor databaseId m.resyncDisk) :
    wp resyncImage (fun _ => Anchored databaseId) (fun _ => Anchored databaseId) m := by
  have hdone : ∀ {m' : Machine}, Anchored databaseId m' → ¬ RebuildsUnderAnchor databaseId m'.disk →
      wp (do
        setNode fun n => { n with dbOpen := false }
        setNode fun n => { n with captureBatchId := none }
        materializeFromJournal
        setNode fun n => { n with needsResync := false })
      (fun _ => Anchored databaseId) (fun _ => Anchored databaseId) m' := by
    intro m' hm' hclean'
    have hready : Anchored databaseId
        { m' with node := { m'.node with dbOpen := false, captureBatchId := none } } :=
      hm'.of_view rfl
    simp only [wp_bind, wp_setNode]
    refine wp_mono (hready.toHolding.wp_materializeFromJournal hclean') ?_ (fun _ _ h' => h' hready)
    exact fun _ m'' h' => h'.of_view rfl
  rw [resyncImage, wp_bind, wp_get, wp_bind, wp_doIf]
  refine ⟨fun hopen => ?_, fun hclosed => ?_⟩
  · have hclean' : ¬ RebuildsUnderAnchor databaseId m.disk.closed := by
      rwa [Machine.resyncDisk, hopen, if_pos rfl] at hclean
    have hdisk : wp checkpointWal (fun _ m' => m'.disk = m.disk.closed) (fun _ _ => True) m :=
      wp_checkpointWal fun _ => rfl
    refine wp_mono (wp_and (anchorFrame_appliedView.checkpointWal m) hdisk) ?_
      (fun _ _ h' => h.of_view h'.1)
    rintro ⟨⟩ m' ⟨hview, heq⟩
    exact hdone (h.of_view hview) (heq ▸ hclean')
  · refine hdone h ?_
    rwa [Machine.resyncDisk, hclosed, if_neg Bool.false_ne_true] at hclean

end Recovery

/-! ### Publishing -/

/-- The files are as they were, or hold one more anchor and select it. -/
def NewestSelected (databaseId : ℕ) (files files' : AppliedFiles) : Prop :=
  files' = files ∨ ∃ a, files' = files.publish a ∧ files'.select databaseId = some a

section Publish

variable {databaseId : ℕ} {m : Machine}

/-- The anchors on disk and at the crash points. -/
def Machine.filesView (m : Machine) : AppliedFiles × Set AppliedFiles :=
  (m.disk.applied, m.appliedView.2)

theorem anchorFrame_filesView : AnchorFrame Machine.filesView where
  emit f m hf := by
    have hview := anchorFrame_appliedView.emit f m hf
    exact congrArg (fun view => (view.1.2.2.2.2, view.2)) hview
  node f m _ _ _ _ := rfl

theorem keeps_materializeFromJournal : Keeps Machine.filesView materializeFromJournal := by
  have hbase : Keeps Machine.filesView recoveryBase := by
    intro m
    have hdelete := anchorFrame_filesView.emit Disk.deleteImage m rfl
    simp only [recoveryBase, wp_bind, wp_get]
    cases usableAnchor m.node.identity.databaseId m.disk with
    | none =>
      simp only [wp_pure, if_true, wp_bind, wp_ite, wp_throw, wp_emit, wp_setNode]
      exact ⟨fun _ => trivial, fun _ => hdelete⟩
    | some a =>
      simp only [wp_pure, wp_bind, wp_ite, wp_throw, wp_emit, wp_setNode]
      exact ⟨fun _ => ⟨fun _ => rfl, fun _ => hdelete⟩, fun _ => rfl⟩
  refine Keeps.bind (anchorFrame_filesView.keeps_emit fun _ => rfl) fun _ => hbase.bind fun base => ?_
  exact keeps_replayFrom anchorFrame_filesView base.1 base.2

theorem keeps_resyncImage : Keeps Machine.filesView resyncImage := by
  refine keeps_get.bind fun m => (keeps_doIf _ anchorFrame_filesView.checkpointWal).bind fun _ => ?_
  refine Keeps.bind (keeps_setNode fun _ => rfl) fun _ => Keeps.bind (keeps_setNode fun _ => rfl) fun _ => ?_
  exact keeps_materializeFromJournal.bind fun _ => keeps_setNode fun _ => rfl

/-- The anchor published for an applied slot above the durable one is selected. -/
theorem Anchored.wp_publishStateAnchor (h : Anchored databaseId m)
    (hslot : m.node.durableStateSlot < m.node.appliedSlot) :
    wp publishStateAnchor
      (fun _ m' => Anchored databaseId m' ∧ NewestSelected databaseId m.disk.applied m'.disk.applied)
      (fun _ => Anchored databaseId) m := by
  rw [publishStateAnchor, wp_bind, wp_get]
  cases m.disk.image with
  | none => exact h
  | some image =>
    simp only [wp_bind, wp_emit, wp_setNode]
    have hgen : ∀ b, m.disk.applied.Holds b →
        b.generation < (m.node.stateAnchor image.content.length).generation :=
      fun b hb => Nat.lt_succ_of_le (h.generation b hb)
    have hselect := AppliedFiles.select_publish hgen
    have hdb : (m.node.stateAnchor image.content.length).databaseId = databaseId := h.database
    rw [hdb] at hselect
    refine ⟨h.toHolding.published hgen hdb (Nat.zero_lt_of_lt hslot) h.database h.materializes rfl rfl
      rfl ?_, Or.inr ⟨_, rfl, hselect⟩⟩
    intro d' hd'
    simp only [List.mem_append, List.mem_singleton] at hd'
    rcases hd' with (hin | rfl) | rfl
    · exact Or.inl (h.held d' (List.mem_cons_of_mem _ hin))
    · exact Or.inl h.toHolding.applied
    · exact Or.inr rfl

theorem Anchored.wp_anchorState (h : Anchored databaseId m) :
    wp anchorState
      (fun _ m' => Anchored databaseId m' ∧ NewestSelected databaseId m.disk.applied m'.disk.applied)
      (fun _ => Anchored databaseId) m := by
  simp only [anchorState, wp_bind, wp_get, wp_refuseIf, wp_doIf]
  refine ⟨fun _ => h, fun _ => ⟨fun _ => h, fun _ => ⟨fun hslot => ?_, fun _ => ⟨h, Or.inl rfl⟩⟩⟩⟩
  have hlt : m.node.durableStateSlot < m.node.appliedSlot := of_decide_eq_true hslot
  refine ⟨fun _ => ?_, fun _ => h.wp_publishStateAnchor hlt⟩
  have hnode : wp checkpointWal (fun _ m' => m'.node = m.node) (fun _ _ => True) m :=
    wp_checkpointWal fun _ => rfl
  refine wp_mono (wp_and (anchorFrame_appliedView.checkpointWal m) hnode) ?_
    (fun _ _ h' => h.of_view h'.1)
  rintro ⟨⟩ m' ⟨hview, heq⟩
  rw [← applied_eq_of_view hview]
  refine (h.of_view hview).wp_publishStateAnchor ?_
  rwa [heq]

/-- `createStateAnchor` keeps the invariant, and what it publishes is selected. -/
theorem Anchored.wp_createStateAnchor (h : Anchored databaseId m)
    (hclean : ResyncsFrom (fun d => ¬ RebuildsUnderAnchor databaseId d) m) :
    wp createStateAnchor
      (fun _ m' => Anchored databaseId m' ∧ NewestSelected databaseId m.disk.applied m'.disk.applied)
      (fun _ => Anchored databaseId) m := by
  simp only [createStateAnchor, wp_bind, wp_get, wp_refuseIf, wp_doIf]
  refine ⟨fun _ => h, fun _ => ⟨fun _ => h, fun _ => ⟨fun hneeds => ?_, fun _ => h.wp_anchorState⟩⟩⟩
  refine wp_mono (wp_and (h.wp_resyncImage (hclean hneeds)) (keeps_resyncImage m)) ?_
    (fun _ _ h' => h'.1)
  rintro ⟨⟩ m' ⟨hm', heq⟩
  have happlied : m'.disk.applied = m.disk.applied := congrArg Prod.fst heq
  rw [← happlied]
  exact hm'.wp_anchorState

theorem Anchored.wp_installTransferredState (h : Anchored databaseId m) (received : File)
    (offer : SnapshotBegin) :
    wp (installTransferredState received offer) (fun _ => Anchored databaseId)
      (fun _ => Anchored databaseId) m := by
  have hinstall : ∀ {m' : Machine}, Anchored databaseId m' → 0 < offer.anchorSlot →
      wp (installImage received offer) (fun _ => Anchored databaseId) (fun _ => Anchored databaseId) m' := by
    intro m' hm' hslot
    simp only [installImage, wp_bind, wp_emit, wp_setNode, wp_get]
    refine hm'.toHolding.published (a := (m'.node.transferred offer).transferAnchor offer)
      (fun b hb => Nat.lt_succ_of_le (hm'.generation b hb)) hm'.database hslot hm'.database
      hm'.materializes rfl rfl rfl ?_
    intro d' hd'
    simp only [List.mem_append, List.mem_singleton] at hd'
    rcases hd' with ((hin | rfl) | rfl) | rfl
    · exact Or.inl (hm'.held d' (List.mem_cons_of_mem _ hin))
    · exact Or.inl hm'.toHolding.applied
    · exact Or.inl hm'.toHolding.applied
    · exact Or.inr rfl
  simp only [installTransferredState, wp_bind, wp_get, wp_refuseIf, wp_doIf, wp_setNode]
  refine ⟨fun _ => h, fun _ => ⟨fun _ => h, fun _ => ⟨fun _ => h, fun _ => ⟨fun _ => h, fun hslot =>
    ⟨fun _ => h, fun _ => ⟨fun _ => h, fun _ => ⟨fun _ => ?_, fun _ => ?_⟩⟩⟩⟩⟩⟩⟩
  all_goals have hpos : 0 < offer.anchorSlot := Nat.zero_lt_of_lt (by simpa using hslot)
  · refine wp_mono (h.wp_of_keeps anchorFrame_appliedView.checkpointWal) (fun _ m' hm' => ?_)
      (fun _ _ h' => h')
    exact hinstall (hm'.of_view rfl) hpos
  · exact hinstall (h.of_view rfl) hpos

theorem AnchorsHeld.mono {files files' : AppliedFiles} (h : AnchorsHeld databaseId files)
    (hsub : ∀ a, files'.Holds a → files.Holds a) : AnchorsHeld databaseId files' :=
  fun a ha => h a (hsub a ha)

theorem Anchored.wp_discardImageAndRematerialize (h : Anchored databaseId m) :
    wp discardImageAndRematerialize (fun _ => Anchored databaseId) (fun _ => Anchored databaseId) m := by
  simp only [discardImageAndRematerialize, wp_bind, wp_get, wp_refuseIf, wp_emit, wp_setNode]
  refine ⟨fun _ => h, fun _ => ?_⟩
  have hholding : Anchored databaseId
      { m with
        node := { m.node with durableStateSlot := 0, durableDataSlot := 0 }
        disk := { m.disk.deleteImage with applied := AppliedFiles.none }
        trail := m.trail ++ [m.disk.deleteImage] ++
          [{ m.disk.deleteImage with applied := { m.disk.applied with applied0 := none } }] ++
          [{ m.disk.deleteImage with applied := AppliedFiles.none }] } := by
    have hnone : ∀ a, ¬ AppliedFiles.none.Holds a := by
      rintro a (ha | ha) <;> cases ha
    refine ⟨⟨h.database, h.materializes, fun d hd => ?_⟩, fun a ha => absurd ha (hnone a), rfl⟩
    simp only [Machine.crashPoints, List.mem_cons, List.mem_append, List.not_mem_nil, or_false] at hd
    rcases hd with rfl | ((hin | rfl) | rfl) | rfl
    · exact fun a ha => absurd ha (hnone a)
    · exact h.held d (List.mem_cons_of_mem _ hin)
    · exact h.toHolding.applied
    · refine h.toHolding.applied.mono ?_
      rintro a (ha | ha)
      · cases ha
      · exact Or.inr ha
    · exact fun a ha => absurd ha (hnone a)
  refine wp_mono (hholding.toHolding.wp_materializeFromJournal ?_) (fun _ _ h' => h')
    (fun _ _ h' => h' hholding)
  rintro ⟨-, hsome, -⟩
  exact hsome rfl

end Publish

/-! ### Every step -/

section Steps

variable {databaseId : ℕ} {m m' : Machine}

theorem handOver_eq (next : Decided) (joining : Bool) (campaign : List Effects) :
    handOver next joining campaign = (do
      handOverStart next campaign
      let m ← get
      doIf (!joining && m.node.capabilities.materializes &&
        decide (m.node.durableStateSlot < m.node.appliedSlot)) createStateAnchor
      setNode fun n => { n with membershipChangePending := false }) := by
  simp only [handOver, handOverStart, takeOver, bind_assoc]

theorem Anchored.wp_handOverStart (h : Anchored databaseId m) (next : Decided) (campaign : List Effects) :
    wp (handOverStart next campaign) (fun _ => Anchored databaseId) (fun _ => Anchored databaseId) m := by
  have hconfigured : Anchored databaseId
      { m with node := m.node.inConfiguration next.configurationId } :=
    ⟨⟨h.database, h.materializes, h.held⟩, h.generation, h.selected⟩
  have hadopt : Keeps Machine.appliedView (adoptDecidedMembers next) := by
    refine keeps_get.bind fun m' => (keeps_refuseIf _ _).bind fun _ => ?_
    exact anchorFrame_appliedView.setNode fun n => ⟨rfl, rfl, rfl, rfl⟩
  rw [handOverStart, wp_bind, takeOver, wp_bind, wp_setNode]
  refine wp_mono (hconfigured.wp_of_keeps hadopt) (fun _ m' h' => ?_) (fun _ _ h' => h')
  exact h'.wp_of_keeps (keeps_get.bind fun m' =>
    keeps_doIf _ (anchorFrame_appliedView.consumeEffects campaign))

theorem Anchored.wp_handOver (h : Anchored databaseId m) (next : Decided) (joining : Bool)
    (campaign : List Effects)
    (hclean : ∀ m', handOverStart next campaign m = .ok () m' →
      ResyncsFrom (fun d => ¬ RebuildsUnderAnchor databaseId d) m') :
    wp (handOver next joining campaign) (fun _ => Anchored databaseId) (fun _ => Anchored databaseId) m := by
  rw [handOver_eq, wp_bind]
  refine wp_mono (wp_and (wp_self _ m) (h.wp_handOverStart next campaign)) ?_ (fun _ _ h' => h'.2)
  rintro ⟨⟩ m' ⟨hok, hm'⟩
  simp only [wp_bind, wp_get, wp_doIf, wp_setNode]
  refine ⟨fun _ => ?_, fun _ => hm'.of_view rfl⟩
  refine wp_mono (hm'.wp_createStateAnchor (hclean m' hok)) (fun _ m'' h' => ?_) (fun _ _ h' => h')
  exact h'.1.of_view rfl

theorem Anchored.wp_completeMembershipChange (h : Anchored databaseId m) (decided : Decided)
    (stop : Option (StopSign × ℕ)) (joining : Bool) (campaign : List Effects)
    (hclean : ∀ next m', Rebuilds decided stop next → handOverStart next campaign m = .ok () m' →
      ResyncsFrom (fun d => ¬ RebuildsUnderAnchor databaseId d) m') :
    wp (completeMembershipChange decided stop joining campaign) (fun _ => Anchored databaseId)
      (fun _ => Anchored databaseId) m := by
  rw [completeMembershipChange, wp_bind, wp_get]
  cases stop with
  | none => exact h
  | some sign =>
    simp only [wp_bind, wp_refuseIf]
    refine ⟨fun _ => h, fun _ => ?_⟩
    cases hparse : parseStopMetadata sign.1.metadata with
    | error e => exact h
    | ok parsed =>
      simp only [wp_bind, wp_refuseIf]
      refine ⟨fun _ => h, fun _ => ?_⟩
      cases hnext : decided.reconstructNextRegistry parsed sign.1.configurationId with
      | error e => exact h
      | ok next =>
        have hrebuilds : Rebuilds decided (some sign) next := ⟨sign.1, sign.2, parsed, rfl, hparse, hnext⟩
        simp only [wp_bind]
        exact wp_mono (h.wp_handOver next joining campaign fun m' => hclean next m' hrebuilds)
          (fun _ _ h' => h') (fun _ _ h' => h')

/-- The resync an operation makes first, when the image is marked. -/
theorem Anchored.wp_resyncIfNeeded (h : Anchored databaseId m)
    (hclean : ResyncsFrom (fun d => ¬ RebuildsUnderAnchor databaseId d) m) :
    wp (doIf m.node.needsResync resyncImage) (fun _ => Anchored databaseId)
      (fun _ => Anchored databaseId) m := by
  rw [wp_doIf]
  exact ⟨fun hneeds => h.wp_resyncImage (hclean hneeds), fun _ => h⟩

theorem Anchored.wp_writeRequest (h : Anchored databaseId m)
    (hclean : ResyncsFrom (fun d => ¬ RebuildsUnderAnchor databaseId d) m) (status : LogStatus)
    (statements : Option CapturedTransaction) (core : AppendCore) :
    wp (writeRequest status statements core) (fun _ => Anchored databaseId)
      (fun _ => Anchored databaseId) m := by
  have hadmitted : Keeps Machine.appliedView (do
      let m ← get
      refuseIf (m.node.membershipChangePending || status.stopPending) .logSealed
      refuseIf (status.isLeader && !m.node.proposalFrontierSettled status) .leaderNotReady
      ensureWriter
      let m ← get
      refuseIf m.node.captureBatchId.isSome .writeInFlight
      refuseIf m.node.liveTransaction .transactionOpen) := by
    refine keeps_get.bind fun m => (keeps_refuseIf _ _).bind fun _ => (keeps_refuseIf _ _).bind fun _ => ?_
    refine anchorFrame_appliedView.ensureWriter.bind fun _ => keeps_get.bind fun m => ?_
    exact (keeps_refuseIf _ _).bind fun _ => keeps_refuseIf _ _
  unfold writeRequest admitWrite
  rw [wp_bind, wp_bind, wp_get, wp_bind, wp_refuseIf]
  refine ⟨fun _ => h, fun _ => ?_⟩
  rw [wp_bind, wp_refuseIf]
  refine ⟨fun _ => h, fun _ => ?_⟩
  rw [wp_bind]
  refine wp_mono (h.wp_resyncIfNeeded hclean) (fun _ m₁ h₁ => ?_) (fun _ _ h' => h')
  refine wp_mono (h₁.wp_of_keeps hadmitted) (fun _ m₂ h₂ => ?_) (fun _ _ h' => h')
  cases statements with
  | none => exact h₂
  | some t => exact h₂.wp_of_keeps (anchorFrame_appliedView.sealCapturedTransaction t core)

theorem Anchored.wp_beginLive (h : Anchored databaseId m)
    (hclean : ResyncsFrom (fun d => ¬ RebuildsUnderAnchor databaseId d) m) (stopPending : Bool) :
    wp (beginLive stopPending) (fun _ => Anchored databaseId) (fun _ => Anchored databaseId) m := by
  have hbegun : Keeps Machine.appliedView (do
      let m ← get
      refuseIf (m.node.membershipChangePending || stopPending) .logSealed
      ensureWriter
      let m ← get
      refuseIf m.node.captureBatchId.isSome .writeInFlight
      setNode fun n => { n with liveTransaction := true }) := by
    refine keeps_get.bind fun m => (keeps_refuseIf _ _).bind fun _ => ?_
    refine anchorFrame_appliedView.ensureWriter.bind fun _ => keeps_get.bind fun m => ?_
    exact (keeps_refuseIf _ _).bind fun _ =>
      anchorFrame_appliedView.setNode fun n => ⟨rfl, rfl, rfl, rfl⟩
  simp only [beginLive, wp_bind, wp_get, wp_refuseIf]
  refine ⟨fun _ => h, fun _ => ⟨fun _ => h, fun _ => ⟨fun _ => h, fun _ => ⟨fun _ => h, fun _ => ?_⟩⟩⟩⟩
  refine wp_mono (h.wp_resyncIfNeeded hclean) (fun _ m₁ h₁ => ?_) (fun _ _ h' => h')
  have hdone := h₁.wp_of_keeps hbegun
  simpa only [wp_bind, wp_get, wp_refuseIf] using hdone

theorem keeps_commitLive (stopPending : Bool) (t : CapturedTransaction) (core : AppendCore) :
    Keeps Machine.appliedView (commitLive stopPending t core) := by
  refine keeps_get.bind fun m => (keeps_refuseIf _ _).bind fun _ => (keeps_refuseIf _ _).bind fun _ => ?_
  refine (keeps_refuseIf _ _).bind fun _ => Keeps.bind ?_ fun _ =>
    anchorFrame_appliedView.sealCapturedTransaction t core
  exact anchorFrame_appliedView.setNode fun n => ⟨rfl, rfl, rfl, rfl⟩

theorem keeps_rollbackLive (rolledBack : Bool) : Keeps Machine.appliedView (rollbackLive rolledBack) := by
  refine keeps_get.bind fun m => (keeps_refuseIf _ _).bind fun _ => Keeps.bind ?_ fun _ =>
    keeps_refuseIf _ _
  exact anchorFrame_appliedView.setNode fun n => ⟨rfl, rfl, rfl, rfl⟩

theorem Holding.leftOver (h : Holding databaseId m) {d : Disk} (hd : LeftOver databaseId m d) :
    AnchorsHeld databaseId d.applied := by
  induction hd with
  | crash hcrash => exact h.held _ hcrash
  | image image hd ih => exact ih
  | @attempt config d d' e m' hdb hd herror hcrash ih =>
    have hkept := keeps_materializeFromJournal (Machine.booted config d)
    simp only [wp, herror] at hkept
    have hmem : d'.applied ∈ m'.filesView.2 := ⟨d', hcrash, rfl⟩
    rw [hkept] at hmem
    obtain ⟨d₀, hd₀, heq⟩ := hmem
    rw [← heq, List.mem_singleton.1 hd₀]
    exact ih

theorem Anchored.restarted (h : Anchored databaseId m) {config : Config} {d : Disk}
    (hdb : config.identity.databaseId = databaseId)
    (hrole : config.role.capabilities.materializes = true) (hd : LeftOver databaseId m d)
    (hclean : ¬ RebuildsUnderAnchor databaseId (Machine.booted config d).disk)
    (hok : materializeFromJournal (Machine.booted config d) = .ok () m') : Anchored databaseId m' := by
  have hholding : Holding databaseId (Machine.booted config d) := by
    refine ⟨hdb, hrole, fun d' hd' => ?_⟩
    obtain rfl := List.mem_singleton.1 hd'
    exact h.toHolding.leftOver (d := d) hd
  have hdone := hholding.wp_materializeFromJournal hclean
  simp only [wp, hok] at hdone
  exact hdone

theorem Anchored.step (h : Anchored databaseId m)
    (hstep : AnchorStep databaseId (fun d => ¬ RebuildsUnderAnchor databaseId d) m m') :
    Anchored databaseId m' := by
  have hframe := anchorFrame_appliedView
  cases hstep with
  | effects rounds => exact finalState_of_wp (h.wp_of_keeps (hframe.consumeEffects rounds))
  | journal effects => exact finalState_of_wp (h.wp_of_keeps (hframe.journalEffects effects))
  | payload bytes =>
    exact finalState_of_wp (h.wp_of_keeps (x := installPayload bytes) (hframe.keeps_emit fun _ => rfl))
  | anchor hclean =>
    exact finalState_of_wp (wp_mono (h.wp_createStateAnchor hclean) (fun _ _ h' => h'.1) fun _ _ h' => h')
  | reclaim => exact finalState_of_wp (h.wp_of_keeps hframe.reclaim)
  | resync hclean => exact finalState_of_wp (h.wp_resyncImage hclean)
  | write status statements core hclean =>
    exact finalState_of_wp (h.wp_writeRequest hclean status statements core)
  | beginLive stopPending hclean => exact finalState_of_wp (h.wp_beginLive hclean stopPending)
  | commitLive stopPending t core =>
    exact finalState_of_wp (h.wp_of_keeps (keeps_commitLive stopPending t core))
  | rollbackLive rolledBack => exact finalState_of_wp (h.wp_of_keeps (keeps_rollbackLive rolledBack))
  | transfer received offer => exact finalState_of_wp (h.wp_installTransferredState received offer)
  | discard => exact finalState_of_wp h.wp_discardImageAndRematerialize
  | handover decided stop joining campaign hclean =>
    exact finalState_of_wp (h.wp_completeMembershipChange decided stop joining campaign hclean)
  | restart hdb hrole hd hclean hok => exact h.restarted hdb hrole hd hclean hok

theorem anchored_of_reachable
    (hrun : AnchorReachable databaseId (fun d => ¬ RebuildsUnderAnchor databaseId d) m) :
    Anchored databaseId m := by
  refine hrun.invariant (fun m₀ hinit => ?_) (fun _ _ h hstep => h.step hstep)
  obtain ⟨config, rotationRecords, hdb, hrole, rfl⟩ := hinit
  have hnone : ∀ a, ¬ AppliedFiles.none.Holds a := by
    rintro a (ha | ha) <;> cases ha
  refine ⟨⟨hdb, hrole, fun d hd => ?_⟩, fun a ha => absurd ha (hnone a), rfl⟩
  rw [List.mem_singleton.1 hd]
  exact fun a ha => absurd ha (hnone a)

/-- Reclaiming unlinks nothing above the durable slot. -/
theorem wp_reclaim_retained (hcaps : m.node.capabilities.materializes = true) :
    wp reclaim
      (fun _ m' => m'.disk.journal.retainedFirstSlot ≤
        max m.disk.journal.retainedFirstSlot (m.node.durableStateSlot + 1))
      (fun _ _ => False) m := by
  have hfloor : m.node.deleteFloor ≤ m.node.durableStateSlot := by
    rw [Node.deleteFloor, hcaps, if_pos rfl]
    exact le_trans (deleteFloor_le _ _ _ _) (min_le_right _ _)
  obtain ⟨-, -, -, -, hle⟩ := m.disk.journal.records_trimThrough m.node.deleteFloor
  simp only [reclaim, reclaimThrough, sweepPayloads, wp_bind, wp_get, wp_doIf, wp_emit, wp_setNode]
  refine ⟨fun _ => ⟨fun _ => ?_, fun _ => ?_⟩, fun _ => le_max_left _ _⟩
  all_goals
    refine le_trans hle ?_
    omega

end Steps

/-- A turn of effects that journals and delivers one empty entry. -/
def noopRound (slot : ℕ) : Effects where
  writes := [.commit slot (.command .noop)]
  requiresBarrier := false
  committed := [(slot, .command .noop)]
  decidedThrough := slot

/-- The node applies one more slot and anchors it. -/
def anchoredAfter (m : Machine) (slot : ℕ) : Machine :=
  finalState createStateAnchor (finalState (consumeEffects [noopRound slot]) m)

/-- A process started on a disk whose image is gone. -/
def withoutImage (d : Disk) : Machine :=
  finalState materializeFromJournal (Machine.booted sampleConfig { d with image := none })

/-- A new node that has applied one slot and anchored it. -/
def anchoredOnce : Machine :=
  anchoredAfter (withoutImage (Disk.blank 8)) 1

theorem reachable_anchoredOnce :
    AnchorReachable 7 (fun d => ¬ RebuildsUnderAnchor 7 d) anchoredOnce := by
  have hfresh : AnchorReachable 7 (fun d => ¬ RebuildsUnderAnchor 7 d) (Machine.fresh sampleConfig 8) :=
    .start ⟨sampleConfig, 8, rfl, rfl, rfl⟩
  have hcreated : AnchorReachable 7 (fun d => ¬ RebuildsUnderAnchor 7 d) (withoutImage (Disk.blank 8)) :=
    .step hfresh (.restart rfl rfl (.image none (.crash List.mem_cons_self)) (fun h => h.2.1 rfl) rfl)
  refine .step (.step hcreated (.effects [noopRound 1])) (.anchor fun hneeds => ?_)
  have hmarked : (finalState (consumeEffects [noopRound 1]) (withoutImage (Disk.blank 8))).node.needsResync =
      false := rfl
  rw [hmarked] at hneeds
  cases hneeds

/-- Two anchors, then the image is lost and rebuilt from the journal. -/
def rebuilt : Machine :=
  withoutImage (anchoredAfter anchoredOnce 2).disk

/-- The rebuilt node has applied one slot more. -/
def rebuiltThree : Machine :=
  finalState (consumeEffects [noopRound 3]) rebuilt

theorem reachable_anchoredAfter {m : Machine} (h : AnchorReachable 7 (fun _ => True) m) (slot : ℕ) :
    AnchorReachable 7 (fun _ => True) (anchoredAfter m slot) :=
  .step (.step h (.effects [noopRound slot])) (.anchor fun _ => trivial)

theorem reachable_withoutImage {m : Machine} (h : AnchorReachable 7 (fun _ => True) m)
    (hok : materializeFromJournal (Machine.booted sampleConfig { m.disk with image := none }) =
      .ok () (withoutImage m.disk)) : AnchorReachable 7 (fun _ => True) (withoutImage m.disk) :=
  .step h (.restart rfl rfl (.image none (.crash List.mem_cons_self)) trivial hok)

theorem reachable_rebuiltThree : AnchorReachable 7 (fun _ => True) rebuiltThree := by
  have hfresh : AnchorReachable 7 (fun _ => True) (Machine.fresh sampleConfig 8) :=
    .start ⟨sampleConfig, 8, rfl, rfl, rfl⟩
  have hcreated : AnchorReachable 7 (fun _ => True) (withoutImage (Disk.blank 8)) :=
    reachable_withoutImage hfresh rfl
  have hanchored := reachable_anchoredAfter (reachable_anchoredAfter hcreated 1) 2
  have hrebuilt : AnchorReachable 7 (fun _ => True) rebuilt := reachable_withoutImage hanchored rfl
  exact .step hrebuilt (.effects [noopRound 3])

end Zaxonlite
