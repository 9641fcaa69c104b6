import Zaxonlite.Node.Serving

/-!
# What a rebuild comes to

A rebuild of the image reads the journal above the anchor it starts from and goes on from entry to entry: each
batch has to extend the chain and its payload has to be there. What it comes to is a function of the node and its
disk, whatever they hold: the entries the ring lets through, in order, and how far they link up.
-/

namespace Zaxonlite

open Program

/-! ### The entries -/

/-- The slot the replay has come to, and the commits it parked. -/
structure ParkRing where
  applied : ℕ
  parked : ℕ → Parked

/-- The parked commits that follow at once. -/
def ParkRing.drain : ℕ → ParkRing → List (ℕ × Entry) × ParkRing
  | 0, ring => ([], ring)
  | fuel + 1, ring =>
    let next := ring.applied + 1
    let cell := ring.parked (next % windowSlots)
    if cell.slot ≠ next then ([], ring)
    else
      let rest := drain fuel ⟨next, Function.update ring.parked (next % windowSlots) { cell with slot := 0 }⟩
      ((next, cell.value) :: rest.1, rest.2)

/-- The commits one record lets through. -/
def ParkRing.take (ring : ParkRing) : Write → List (ℕ × Entry) × ParkRing
  | .commit slot value =>
    if slot ≤ ring.applied then ([], ring)
    else if slot = ring.applied + 1 then
      let rest := drain windowSlots ⟨slot, ring.parked⟩
      ((slot, value) :: rest.1, rest.2)
    else if slot - ring.applied ≤ windowSlots then
      ([], ⟨ring.applied, Function.update ring.parked (slot % windowSlots) ⟨slot, value⟩⟩)
    else ([], ring)
  | _ => ([], ring)

/-- The commits a replay of the records comes by, in order. -/
def ParkRing.entries : ParkRing → List Write → List (ℕ × Entry)
  | _, [] => []
  | ring, write :: rest => (ring.take write).1 ++ entries (ring.take write).2 rest

/-! ### How far they link up -/

/-- What a rebuild reads and leaves alone. -/
structure RebuildSource where
  identity : Identity
  pageSize : ℕ
  journal : Journal
  store : PayloadStore

/-- How far a rebuild has come: the slot, the chain's tip, whether a stop sign was passed, and the image. -/
structure Progress where
  slot : ℕ
  lastChain : HashBytes
  lastDataSlot : ℕ
  pending : Bool
  image : File

/-- A stop sign that ends the configuration the node is in. -/
def RebuildSource.endedBy (source : RebuildSource) (stop : StopSign) : Bool :=
  stop.configurationId > source.identity.configurationId

namespace Progress

variable (source : RebuildSource)

/-- The next entry; a batch has to extend the chain and to have its payload. -/
def take (p : Progress) (slot : ℕ) : Entry → Option Progress
  | .command (.transactionBatch batch) =>
    if checkChainBase source.identity.databaseId p.lastChain p.lastDataSlot batch then
      (loadBatch source.identity.databaseId source.pageSize source.store batch).toOption.map fun view =>
        { p with
          slot := slot
          lastChain := batch.resultChainHash
          lastDataSlot := slot
          image := p.image.execAll view.applyPayload }
    else none
  | .command _ => some { p with slot := slot }
  | .stop stop => some { p with slot := slot, pending := p.pending || source.endedBy stop }

/-- The entries as far as they link up, and whether that is all of them. -/
def run : Progress → List (ℕ × Entry) → Progress × Bool
  | p, [] => (p, true)
  | p, (slot, entry) :: rest => (p.take source slot entry).elim (p, false) fun p' => p'.run rest

variable {source}

theorem run_cons_of_some {p p' : Progress} {slot : ℕ} {entry : Entry} {rest : List (ℕ × Entry)}
    (h : p.take source slot entry = some p') : p.run source ((slot, entry) :: rest) = p'.run source rest := by
  rw [run, h]
  rfl

theorem run_cons_of_none {p : Progress} {slot : ℕ} {entry : Entry} {rest : List (ℕ × Entry)}
    (h : p.take source slot entry = none) : p.run source ((slot, entry) :: rest) = (p, false) := by
  rw [run, h]
  rfl

theorem run_append_of_whole {p p' : Progress} {entries rest : List (ℕ × Entry)}
    (h : p.run source entries = (p', true)) : p.run source (entries ++ rest) = p'.run source rest := by
  induction entries generalizing p with
  | nil =>
    obtain rfl : p = p' := congrArg Prod.fst h
    rfl
  | cons entry entries ih =>
    obtain ⟨slot, value⟩ := entry
    rw [List.cons_append]
    cases htake : p.take source slot value with
    | none =>
      rw [run_cons_of_none htake] at h
      cases congrArg Prod.snd h
    | some next =>
      rw [run_cons_of_some htake] at h ⊢
      exact ih h

theorem run_append_of_broken {p p' : Progress} {entries rest : List (ℕ × Entry)}
    (h : p.run source entries = (p', false)) : p.run source (entries ++ rest) = (p', false) := by
  induction entries generalizing p with
  | nil => cases congrArg Prod.snd h
  | cons entry entries ih =>
    obtain ⟨slot, value⟩ := entry
    rw [List.cons_append]
    cases htake : p.take source slot value with
    | none =>
      rw [run_cons_of_none htake] at h ⊢
      exact h
    | some next =>
      rw [run_cons_of_some htake] at h ⊢
      exact ih h

theorem slot_take {p p' : Progress} {slot : ℕ} {entry : Entry} (h : p.take source slot entry = some p') :
    p'.slot = slot := by
  unfold take at h
  split at h
  · split at h
    · obtain ⟨view, -, rfl⟩ := Option.map_eq_some_iff.1 h
      rfl
    · cases h
  · cases h
    rfl
  · cases h
    rfl

end Progress

/-! ### The rebuild of a node -/

namespace Machine

variable (m : Machine)

/-- The anchor a rebuild starts from, unless it starts from an empty image. -/
def rebuildAnchor : Option AppliedAnchor :=
  (usableAnchor m.node.identity.databaseId m.resyncDisk).filter fun anchor => anchor.globalSlot != 0

def rebuildSource : RebuildSource where
  identity := m.node.identity
  pageSize := ((usableAnchor m.node.identity.databaseId m.resyncDisk).map
    AppliedAnchor.sqlitePageSize).getD m.node.pageSize
  journal := m.disk.journal
  store := m.disk.store

def rebuildStart : Progress :=
  m.rebuildAnchor.elim
    ⟨0, genesisChain m.node.identity.databaseId, 0, m.node.membershipChangePending, File.empty⟩
    fun anchor => ⟨anchor.globalSlot, anchor.lastChain, anchor.lastDataSlot, m.node.membershipChangePending,
      m.resyncDisk.content⟩

/-- What a rebuild comes to, and whether it succeeds. It gives up at once if the journal does not reach down to
the slot it starts from. -/
def rebuilt : Progress × Bool :=
  if m.rebuildStart.slot + 1 < m.disk.journal.retainedFirstSlot then
    ({ m.rebuildStart with image := m.resyncDisk.content }, false)
  else
    m.rebuildStart.run m.rebuildSource
      (ParkRing.entries ⟨m.rebuildStart.slot, fun _ => ⟨0, .command .noop⟩⟩
        (m.disk.journal.iterate (m.rebuildStart.slot + 1)))

end Machine

/-! ### The rebuild does so -/

/-- A node in the middle of a rebuild. -/
structure Stands (source : RebuildSource) (p : Progress) (m : Machine) : Prop where
  identity : m.node.identity = source.identity
  pageSize : m.node.pageSize = source.pageSize
  journal : m.disk.journal = source.journal
  store : m.disk.store = source.store
  slot : m.node.appliedSlot = p.slot
  lastChain : m.node.lastChain = p.lastChain
  lastDataSlot : m.node.lastDataSlot = p.lastDataSlot
  pending : m.node.membershipChangePending = p.pending
  capture : m.node.captureBatchId = none
  image : ∃ image, m.disk.image = some image ∧ image.content = p.image
  wal : m.disk.wal = []

section Stands

variable {source : RebuildSource} {p : Progress} {m : Machine}

theorem Stands.content (h : Stands source p m) : m.disk.content = p.image := by
  obtain ⟨image, himage, hcontent⟩ := h.image
  rw [Disk.content, himage]
  exact hcontent

theorem Stands.live (h : Stands source p m) : m.disk.live = p.image := by
  rw [Disk.live, Disk.walOps, h.wal, List.flatMap_nil, File.execAll_nil, h.content]

/-- An entry that links up is applied, and one that does not changes nothing. -/
theorem Stands.applyEntry (h : Stands source p m) (slot : ℕ) (entry : Entry) (configurationId : ℕ) :
    wp (applyEntryToImage slot entry configurationId)
      (fun _ m' => ∃ p', p.take source slot entry = some p' ∧ Stands source { p' with slot := p.slot } m')
      (fun _ m' => p.take source slot entry = none ∧ Stands source p m') m := by
  rw [applyEntryToImage, wp_bind, wp_get]
  cases entry with
  | stop stop =>
    simp only [wp_bind, wp_setNode]
    refine ⟨_, rfl, ?_⟩
    have hends : source.endedBy stop = decide (stop.configurationId > m.node.identity.configurationId) := by
      rw [RebuildSource.endedBy, h.identity]
    split
    · next hlater =>
      rw [hends, decide_eq_true hlater, Bool.or_true]
      exact { h with pending := rfl }
    · next hlater =>
      rw [hends, decide_eq_false hlater, Bool.or_false]
      exact { h with }
  | command command =>
    cases command with
    | transactionBatch batch =>
      simp only [wp_bind, wp_ite, wp_throw, h.identity, h.lastChain, h.lastDataSlot, h.store, h.pageSize]
      refine ⟨fun hbreaks => ⟨?_, h⟩, fun hextends => ?_⟩
      · rw [Progress.take, if_neg hbreaks]
      have htake : p.take source slot (.command (.transactionBatch batch)) =
          (loadBatch source.identity.databaseId source.pageSize source.store batch).toOption.map fun view =>
            { p with
              slot := slot, lastChain := batch.resultChainHash, lastDataSlot := slot
              image := p.image.execAll view.applyPayload } := if_pos (not_not.1 hextends)
      cases hload : loadBatch source.identity.databaseId source.pageSize source.store batch with
      | error e =>
        rw [hload] at htake
        exact ⟨htake, h⟩
      | ok view =>
        rw [hload] at htake
        rw [wp_bind]
        refine wp_mono (wp_applyPayloadOps_disk slot view.applyPayload m) ?_ fun _ _ hno => hno.elim
        rintro - ⟨node, disk, trail⟩ ⟨hnode, hdisk⟩
        simp only at hnode hdisk
        subst hnode hdisk
        obtain ⟨image, himage, hcontent⟩ := h.image
        refine ⟨_, htake, { h with lastChain := rfl, lastDataSlot := rfl, image := ?_ }⟩
        refine ⟨image.extend (view.applyPayload.map fun op => (slot, op)), ?_, ?_⟩
        · exact congrArg (Option.map fun image => image.extend (view.applyPayload.map fun op => (slot, op))) himage
        · rw [Image.content_extend, hcontent, List.map_map]
          exact congrArg p.image.execAll (List.map_id _)
    | _ => exact ⟨_, rfl, { h with }⟩

theorem Stands.applyReplayCommit (h : Stands source p m) (slot : ℕ) (entry : Entry) (cursor : ℕ) :
    wp (applyReplayCommit slot entry cursor)
      (fun _ m' => ∃ p', p.take source slot entry = some p' ∧ p'.slot = slot ∧ Stands source p' m')
      (fun _ m' => p.take source slot entry = none ∧ Stands source p m') m := by
  rw [Zaxonlite.applyReplayCommit, wp_bind]
  refine wp_mono (h.applyEntry slot entry cursor) ?_ fun _ _ h' => h'
  rintro - m' ⟨p', htake, hstands⟩
  have hslot := Progress.slot_take htake
  rw [wp_bind, wp_setNode, wp_pure]
  exact ⟨p', htake, hslot, { hstands with slot := hslot.symm }⟩

/-- The parked commits are applied as the ring lets them through. -/
theorem Stands.drainParked (fuel : ℕ) (h : Stands source p m) (r : Replay) :
    wp (drainParked fuel r)
      (fun r' m' => ∃ q, p.run source (ParkRing.drain fuel ⟨p.slot, r.parked⟩).1 = (q, true) ∧
        (ParkRing.drain fuel ⟨p.slot, r.parked⟩).2 = ⟨q.slot, r'.parked⟩ ∧ Stands source q m')
      (fun _ m' => ∃ q, p.run source (ParkRing.drain fuel ⟨p.slot, r.parked⟩).1 = (q, false) ∧ Stands source q m')
      m := by
  induction fuel generalizing p m r with
  | zero => exact ⟨p, rfl, rfl, h⟩
  | succ fuel ih =>
    rw [Zaxonlite.drainParked, wp_bind, wp_get, h.slot, wp_ite, ParkRing.drain]
    refine ⟨fun hgap => ?_, fun hnext => ?_⟩
    · rw [wp_pure, if_pos hgap]
      exact ⟨p, rfl, rfl, h⟩
    · rw [if_neg hnext, wp_bind]
      refine wp_mono (h.applyReplayCommit _ _ _) ?_ ?_
      · rintro cursor m' ⟨p', htake, hslot, hstands⟩
        have hrest := ih hstands ⟨cursor, Function.update r.parked ((p.slot + 1) % windowSlots)
          { r.parked ((p.slot + 1) % windowSlots) with slot := 0 }⟩
        rw [hslot] at hrest
        rw [Progress.run_cons_of_some htake]
        exact hrest
      · rintro e m' ⟨htake, hstands⟩
        exact ⟨p, Progress.run_cons_of_none htake, hstands⟩

/-- The commits a record lets through are applied. -/
theorem Stands.replayRecord (h : Stands source p m) (r : Replay) (write : Write) :
    wp (replayRecord r write)
      (fun r' m' => ∃ q, p.run source (ParkRing.take ⟨p.slot, r.parked⟩ write).1 = (q, true) ∧
        (ParkRing.take ⟨p.slot, r.parked⟩ write).2 = ⟨q.slot, r'.parked⟩ ∧ Stands source q m')
      (fun _ m' => ∃ q, p.run source (ParkRing.take ⟨p.slot, r.parked⟩ write).1 = (q, false) ∧ Stands source q m')
      m := by
  cases write with
  | commit slot value =>
    rw [Zaxonlite.replayRecord, wp_bind, wp_get, h.slot, ParkRing.take]
    dsimp only
    rw [wp_ite]
    refine ⟨fun hpast => ?_, fun hlater => ?_⟩
    · rw [if_pos hpast]
      exact ⟨p, rfl, rfl, h⟩
    rw [if_neg hlater, wp_ite]
    refine ⟨fun hnext => ?_, fun hahead => ?_⟩
    · rw [if_pos hnext, wp_bind]
      refine wp_mono (h.applyReplayCommit _ _ _) ?_ ?_
      · rintro cursor m' ⟨p', htake, hslot, hstands⟩
        have hrest := hstands.drainParked windowSlots { r with configCursor := cursor }
        rw [hslot] at hrest
        rw [Progress.run_cons_of_some htake]
        exact hrest
      · rintro e m' ⟨htake, hstands⟩
        exact ⟨p, Progress.run_cons_of_none htake, hstands⟩
    rw [if_neg hahead, wp_ite]
    refine ⟨fun hfits => ?_, fun hfar => ?_⟩
    · rw [if_pos hfits]
      exact ⟨p, rfl, rfl, h⟩
    · rw [if_neg hfar]
      exact ⟨p, rfl, rfl, h⟩
  | _ => exact ⟨p, rfl, rfl, h⟩

/-- The replay goes from entry to entry, and stops at the first that does not link up. -/
theorem Stands.replay (records : List Write) (h : Stands source p m) (r : Replay) :
    wp (records.foldlM Zaxonlite.replayRecord r)
      (fun _ m' => ∃ q, p.run source (ParkRing.entries ⟨p.slot, r.parked⟩ records) = (q, true) ∧ Stands source q m')
      (fun _ m' => ∃ q, p.run source (ParkRing.entries ⟨p.slot, r.parked⟩ records) = (q, false) ∧ Stands source q m')
      m := by
  induction records generalizing p m r with
  | nil => exact ⟨p, rfl, h⟩
  | cons write records ih =>
    rw [List.foldlM_cons, wp_bind, ParkRing.entries]
    refine wp_mono (h.replayRecord r write) ?_ ?_
    · rintro r' m' ⟨q, hrun, hring, hstands⟩
      rw [hring, Progress.run_append_of_whole hrun]
      exact ih hstands r'
    · rintro e m' ⟨q, hrun, hstands⟩
      exact ⟨q, Progress.run_append_of_broken hrun, hstands⟩

end Stands

/-! ### What the caller finds -/

/-- The image a connection then sees, over the journal and the payloads as they were. -/
structure Leaves (p : Progress) (m m' : Machine) : Prop where
  live : m'.disk.live = p.image
  journal : m'.disk.journal = m.disk.journal
  store : m'.disk.store = m.disk.store

/-- A rebuild that came to its end. -/
structure RebuiltTo (p : Progress) (m m' : Machine) : Prop extends Leaves p m m' where
  slot : m'.node.appliedSlot = p.slot
  pending : m'.node.membershipChangePending = p.pending
  capture : m'.node.captureBatchId = none
  settled : m'.node.needsResync = false

section Rebuild

variable {m : Machine}

theorem resyncDisk_journal (m : Machine) : m.resyncDisk.journal = m.disk.journal := by
  unfold Machine.resyncDisk
  split <;> rfl

theorem resyncDisk_store (m : Machine) : m.resyncDisk.store = m.disk.store := by
  unfold Machine.resyncDisk
  split <;> rfl

theorem Stands.leaves {p : Progress} {m' : Machine} (h : Stands m.rebuildSource p m') : Leaves p m m' :=
  ⟨h.live, h.journal, h.store⟩

theorem Stands.syncImage {p : Progress} {m' : Machine} {trail : List Disk} (h : Stands m.rebuildSource p m') :
    RebuiltTo p m ⟨{ m'.node with needsResync := false }, m'.disk.syncImage, trail⟩ where
  live := by
    obtain ⟨image, himage, hcontent⟩ := h.image
    rw [Disk.syncImage, himage, Disk.live, Disk.walOps, h.wal]
    exact hcontent
  journal := h.journal
  store := h.store
  slot := h.slot
  pending := h.pending
  capture := h.capture
  settled := rfl

/-- A rebuild without an anchor starts from an empty image. -/
theorem stands_genesis {node : Node} {trail : List Disk} (hanchor : m.rebuildAnchor = none)
    (hidentity : node.identity = m.node.identity) (hpage : node.pageSize = m.rebuildSource.pageSize)
    (hpending : node.membershipChangePending = m.node.membershipChangePending)
    (hcapture : node.captureBatchId = none) :
    Stands m.rebuildSource m.rebuildStart
      ⟨node.restoreGenesis.withApplied 0, m.resyncDisk.deleteWal.deleteImage.createImage, trail⟩ := by
  have hchain : genesisChain node.identity.databaseId = genesisChain m.node.identity.databaseId := by
    rw [hidentity]
  rw [Machine.rebuildStart, hanchor]
  exact ⟨hidentity, hpage, resyncDisk_journal m, resyncDisk_store m, rfl, hchain, rfl, hpending, hcapture,
    ⟨_, rfl, rfl⟩, rfl⟩

theorem rebuildStart_slot_of_none (h : m.rebuildAnchor = none) : m.rebuildStart.slot = 0 := by
  rw [Machine.rebuildStart, h]
  rfl

/-- A rebuild from an anchor goes on from the image the close leaves. -/
theorem stands_anchor {anchor : AppliedAnchor} {trail : List Disk}
    (husable : usableAnchor m.node.identity.databaseId m.resyncDisk = some anchor)
    (hanchor : m.rebuildAnchor = some anchor) :
    Stands m.rebuildSource m.rebuildStart
      ⟨(m.node.disconnected.restoreAnchor anchor).withApplied anchor.globalSlot,
        m.resyncDisk.deleteWal.createImage, trail⟩ := by
  obtain ⟨image, himage, -⟩ := usableAnchor_image husable
  have hcreate : m.resyncDisk.deleteWal.createImage = m.resyncDisk.deleteWal := by
    rw [Disk.createImage, Disk.deleteWal, himage]
  rw [Machine.rebuildStart, hanchor, hcreate]
  refine ⟨rfl, ?_, resyncDisk_journal m, resyncDisk_store m, rfl, rfl, rfl, rfl, rfl, ⟨image, himage, ?_⟩, rfl⟩
  · rw [Machine.rebuildSource, husable]
    rfl
  · rw [Option.elim_some, Disk.content, himage]

/-- Where the replay starts, unless the journal does not reach down to it. -/
theorem wp_recoveryBase_start {trail : List Disk} :
    wp recoveryBase
      (fun result m₁ => result.1 = m.rebuildStart.slot ∧ (∀ trail, Stands m.rebuildSource m.rebuildStart
          ⟨m₁.node.withApplied result.1, m₁.disk.createImage, trail⟩) ∧ m₁.disk.journal = m.disk.journal ∧
        (result.1 = 0 → ¬ m.disk.journal.retainedFirstSlot > 1) ∧
        (result.1 > 0 → m₁.disk = m.resyncDisk.deleteWal))
      (fun _ m₁ => m.rebuildStart.slot = 0 ∧ m.disk.journal.retainedFirstSlot > 1 ∧
        m₁.disk = m.resyncDisk.deleteWal)
      ⟨m.node.disconnected, m.resyncDisk.deleteWal, trail⟩ := by
  have hjournal : m.resyncDisk.deleteWal.journal = m.disk.journal := resyncDisk_journal m
  simp only [recoveryBase, wp_bind, wp_get, usableAnchor_deleteWal, Node.disconnected]
  cases husable : usableAnchor m.node.identity.databaseId m.resyncDisk with
  | none =>
    have hanchor : m.rebuildAnchor = none := by
      rw [Machine.rebuildAnchor, husable]
      rfl
    have hpage : m.node.pageSize = m.rebuildSource.pageSize := by
      rw [Machine.rebuildSource, husable]
      rfl
    simp only [wp_pure, if_true, wp_bind, wp_ite, wp_throw, wp_emit, wp_setNode, hjournal,
      rebuildStart_slot_of_none hanchor, true_and, and_true, lt_self_iff_false, false_implies, true_implies]
    exact ⟨id, fun hreach => ⟨fun _ => stands_genesis hanchor rfl hpage rfl rfl, hjournal, hreach⟩⟩
  | some anchor =>
    by_cases hzero : anchor.globalSlot = 0
    · have hanchor : m.rebuildAnchor = none := by
        rw [Machine.rebuildAnchor, husable, Option.filter_some, hzero]
        rfl
      have hpage : anchor.sqlitePageSize = m.rebuildSource.pageSize := by
        rw [Machine.rebuildSource, husable]
        rfl
      simp only [wp_pure, hzero, if_true, wp_bind, wp_ite, wp_throw, wp_emit, wp_setNode, hjournal,
        rebuildStart_slot_of_none hanchor, true_and, and_true, lt_self_iff_false, false_implies, true_implies]
      exact ⟨id, fun hreach => ⟨fun _ => stands_genesis hanchor rfl hpage rfl rfl, hjournal, hreach⟩⟩
    · have hanchor : m.rebuildAnchor = some anchor := by
        rw [Machine.rebuildAnchor, husable, Option.filter_some, bne_iff_ne.2 hzero]
        rfl
      have hslot : m.rebuildStart.slot = anchor.globalSlot := by
        rw [Machine.rebuildStart, hanchor]
        rfl
      simp only [wp_pure, hzero, if_false, wp_bind, wp_setNode, hslot, true_and, false_implies, implies_true, and_true]
      exact ⟨fun _ => stands_anchor husable hanchor, hjournal⟩

theorem leaves_of_refused {p : Progress} {m' : Machine} (hdisk : m'.disk = m.resyncDisk.deleteWal) :
    Leaves { p with image := m.resyncDisk.content } m m' := by
  refine ⟨?_, ?_, ?_⟩
  · rw [hdisk]
    rfl
  · rw [hdisk]
    exact resyncDisk_journal m
  · rw [hdisk]
    exact resyncDisk_store m

/-- **A rebuild comes to what the journal and the payloads say**, and says whether it came to its end. -/
theorem wp_resyncImage_rebuilt (m : Machine) :
    wp resyncImage (fun _ m' => m.rebuilt.2 = true ∧ RebuiltTo m.rebuilt.1 m m')
      (fun _ m' => m.rebuilt.2 = false ∧ Leaves m.rebuilt.1 m m') m := by
  have hclose : m.node.dbOpen = true ∧ m.resyncDisk = m.disk.closed ∨
      m.node.dbOpen = false ∧ m.resyncDisk = m.disk := by
    unfold Machine.resyncDisk
    cases hopen : m.node.dbOpen with
    | true => exact Or.inl ⟨rfl, rfl⟩
    | false => exact Or.inr ⟨rfl, rfl⟩
  refine wp_resyncImage_of hclose fun trail => ?_
  rw [materializeFromJournal, wp_bind, wp_emit, wp_bind]
  refine wp_mono wp_recoveryBase_start ?_ ?_
  · rintro ⟨base, cursor⟩ m₁ ⟨hbase, hstands, hjournal, hgenesis, hrefused⟩
    simp only at hbase hstands hgenesis hrefused
    subst hbase
    simp only [wp_bind, wp_setNode, wp_get, hjournal]
    rw [wp_ite]
    refine ⟨fun hshort => ?_, fun hreach => ?_⟩
    · rw [wp_bind, wp_throw, Machine.rebuilt, if_pos hshort.2]
      exact ⟨rfl, leaves_of_refused (hrefused hshort.1)⟩
    · have hnot : ¬ m.rebuildStart.slot + 1 < m.disk.journal.retainedFirstSlot := by
        intro hshort
        rcases Nat.eq_zero_or_pos m.rebuildStart.slot with hzero | hpos
        · rw [hzero] at hshort
          exact hgenesis hzero hshort
        · exact hreach ⟨hpos, hshort⟩
      simp only [wp_bind, wp_emit]
      refine wp_mono ((hstands _).replay _ _) ?_ ?_
      · rintro r m₂ ⟨q, hrun, hend⟩
        have hrebuilt : m.rebuilt = (q, true) := (if_neg hnot).trans hrun
        rw [wp_emit, hrebuilt]
        exact ⟨rfl, hend.syncImage⟩
      · rintro e m₂ ⟨q, hrun, hend⟩
        have hrebuilt : m.rebuilt = (q, false) := (if_neg hnot).trans hrun
        rw [hrebuilt]
        exact ⟨rfl, hend.leaves⟩
  · rintro e m₁ ⟨hzero, hshort, hdisk⟩
    have hunreached : m.rebuildStart.slot + 1 < m.disk.journal.retainedFirstSlot := by
      rw [hzero]
      exact hshort
    rw [Machine.rebuilt, if_pos hunreached]
    exact ⟨rfl, leaves_of_refused hdisk⟩

end Rebuild

end Zaxonlite
