import Zaxonlite.Node.Capture
import Zaxonlite.Node.Follower

/-!
# Closing a live connection

Closing the last connection of a WAL database copies every committed transaction into the database
file, the speculative one too. `resyncImage` closes the connection first and deletes the WAL only then,
so what it replays the decided suffix over is the image with the lost transaction in it. Its result is
the fold exactly when every byte the lost transaction stored is stored again by a chosen batch above the
anchor it starts from.
-/

namespace Zaxonlite

open Program Contiguous

variable {databaseId : ℕ}

namespace Disk

/-- The page changes the WAL holds, in commit order. -/
def walOps (d : Disk) : List FileOp :=
  d.wal.flatMap WalTransaction.ops

/-- What a live connection sees. -/
def live (d : Disk) : File :=
  d.content.execAll d.walOps

/-- The disk once the last connection is closed. -/
def closed (d : Disk) : Disk :=
  { d with
    image := d.image.map fun image => { synced := image.content.execAll d.walOps, pending := [] }
    wal := [] }

theorem content_closed {d : Disk} (h : d.image.isSome) : d.closed.content = d.live := by
  obtain ⟨image, himage⟩ := Option.isSome_iff_exists.1 h
  simp [closed, content, live, himage, Image.content]

end Disk

/-- The disk a resync recovers from: a live connection checkpoints when it closes. -/
def Machine.resyncDisk (m : Machine) : Disk :=
  if m.node.dbOpen then m.disk.closed else m.disk

theorem wp_applyPayloadOps_disk (slot : ℕ) (ops : List FileOp) (m : Machine) :
    wp (applyPayloadOps slot ops)
      (fun _ m' => m'.node = m.node ∧ m'.disk = { m.disk with
        image := m.disk.image.map fun image => image.extend (ops.map fun op => (slot, op)) })
      (fun _ _ => False) m := by
  refine wp_forM (fun pre m' => m'.node = m.node ∧ m'.disk = { m.disk with
    image := m.disk.image.map fun image => image.extend (pre.map fun op => (slot, op)) }) ops m ?_ ?_
  · refine ⟨rfl, ?_⟩
    simp
  · rintro pre op post m' - ⟨hnode, hdisk⟩
    rw [wp_emit]
    refine ⟨hnode, ?_⟩
    simp only [hdisk, Disk.changeImage, Option.map_map, List.map_append]
    refine congrArg (fun image => { m.disk with image := image }) (Option.map_congr fun image _ => ?_)
    simp [Image.extend]

theorem wp_checkpointWal {m : Machine} {Q : Unit → Machine → Prop} {E : NodeError → Machine → Prop}
    (h : ∀ trail, Q () ⟨m.node, m.disk.closed, trail⟩) : wp checkpointWal Q E m := by
  simp only [checkpointWal, wp_bind, wp_get]
  refine wp_mono (wp_forM (fun pre m' => m'.node = m.node ∧ m'.disk = { m.disk with
    image := m.disk.image.map fun image => image.extend
      (pre.flatMap fun t => t.ops.map fun op => (t.slot, op)) }) m.disk.wal m ?_ ?_) ?_
    (fun _ _ hno => False.elim hno)
  · refine ⟨rfl, ?_⟩
    simp
  · rintro pre t post m' - ⟨hnode, hdisk⟩
    refine wp_mono (wp_applyPayloadOps_disk t.slot t.ops m') ?_ (fun _ _ hno => hno)
    rintro ⟨⟩ m'' ⟨hnode', hdisk'⟩
    refine ⟨hnode'.trans hnode, ?_⟩
    simp only [hdisk', hdisk, Option.map_map, List.flatMap_append]
    refine congrArg (fun image => { m.disk with image := image }) (Option.map_congr fun image _ => ?_)
    simp [Image.extend]
  · rintro ⟨⟩ ⟨node, disk, trail⟩ ⟨hnode, hdisk⟩
    simp only at hnode hdisk
    subst hnode hdisk
    simp only [wp_bind, wp_emit]
    have hclosed : (Disk.syncImage { m.disk with
        image := m.disk.image.map fun image => image.extend
          (m.disk.wal.flatMap fun t => t.ops.map fun op => (t.slot, op)) }).deleteWal =
        m.disk.closed := by
      simp only [Disk.syncImage, Disk.deleteWal, Disk.closed, Option.map_map]
      refine congrArg (fun image => { m.disk with image := image, wal := [] })
        (Option.map_congr fun image _ => ?_)
      simp [Image.content_extend, Disk.walOps, List.map_flatMap, Function.comp_def]
    rw [hclosed]
    exact h _

/-! ### The trace of a lost transaction -/

/-- The transaction is the chosen batch of its slot. -/
def WalTransaction.Chosen (L : ChosenLog databaseId) (w : WalTransaction) : Prop :=
  ∃ batch, L.entry w.slot = .command (.transactionBatch batch) ∧ batch.batchId = w.batchId

/-- The transaction is no part of the log through `last`. -/
def WalTransaction.Lost (L : ChosenLog databaseId) (last : ℕ) (w : WalTransaction) : Prop :=
  ¬ (w.slot ≤ last ∧ w.Chosen L)

/-- A lost transaction stores a byte at the offset. -/
def LostAt (L : ChosenLog databaseId) (last : ℕ) (wal : List WalTransaction) (i : ℕ) : Prop :=
  ∃ w ∈ wal, w.Lost L last ∧ ∃ op ∈ w.ops, op.Touches i

/-- Closing the connection leaves no trace of a lost transaction that the replay does not erase: the
journal reaches the anchor recovery will start from, and wherever only a lost transaction stored a byte
the image holds the anchor's own. -/
structure CleanClose (L : ChosenLog databaseId) (d : Disk) : Prop where
  retained : d.journal.retainedFirstSlot ≤ recoveryBaseSlot databaseId d.closed + 1
  bytes : ∀ a, usableAnchor databaseId d.closed = some a →
    ∀ i, LostAt L (recoveredSlot databaseId d.closed) d.wal i →
      (∀ op ∈ L.hist a.globalSlot (recoveredSlot databaseId d.closed), ¬ op.Touches i) →
      d.live.byte i = (L.state a.globalSlot).image.byte i
  length : ∀ a, usableAnchor databaseId d.closed = some a →
    L.hist a.globalSlot (recoveredSlot databaseId d.closed) = [] →
    d.live.length = (L.state a.globalSlot).image.length

/-- What the WAL of a live connection holds: transactions captured above the slot the image was
opened or checkpointed at, each with the changes of its batch if that was chosen. -/
structure WalSound (L : ChosenLog databaseId) (base : ℕ) (wal : List WalTransaction) : Prop where
  above : ∀ w ∈ wal, base < w.slot
  identified : ∀ w ∈ wal, w.Chosen L → w.ops = L.ops w.slot

section Trace

variable {L : ChosenLog databaseId} {d : Disk} {j : ℕ}

theorem recoveredDisk_closed {a : AppliedAnchor} (ha : usableAnchor databaseId d.closed = some a) :
    (recoveredDisk L d.closed).content =
      d.live.execAll (L.hist a.globalSlot (recoveredSlot databaseId d.closed)) := by
  obtain ⟨image, hsome, -⟩ := usableAnchor_image ha
  have himage : d.image.isSome := by
    simpa only [Disk.closed, Option.isSome_map, Option.isSome_some] using congrArg Option.isSome hsome
  have hbase : recoveryBaseSlot databaseId d.closed = a.globalSlot := by
    simp [recoveryBaseSlot, ha]
  have hcontent : (baseImage databaseId d.closed).content = d.live := by
    rw [← Disk.content_closed himage]
    simp only [baseImage, ha, hsome, Disk.content]
  rw [← hcontent, ← hbase]
  rfl

/-- Outside the lost transactions and the replayed suffix the image holds the anchor's bytes. -/
theorem live_byte_of_untouched {a last : ℕ} (haj : a ≤ j) (hjl : j ≤ last)
    (hcontent : d.content = (L.state j).image) (hwal : WalSound L j d.wal) {i : ℕ}
    (hlost : ¬ LostAt L last d.wal i) (hhist : ∀ op ∈ L.hist a last, ¬ op.Touches i) :
    d.live.byte i = (L.state a).image.byte i := by
  have hopsWal : ∀ op ∈ d.walOps, ¬ op.Touches i := by
    intro op hop htouch
    obtain ⟨w, hw, hmem⟩ := List.mem_flatMap.1 hop
    by_cases hl : w.Lost L last
    · exact hlost ⟨w, hw, hl, op, hmem, htouch⟩
    · obtain ⟨hle, hchosen⟩ := not_not.1 hl
      rw [hwal.identified w hw hchosen] at hmem
      exact hhist op (L.mem_hist.2 ⟨w.slot, lt_of_le_of_lt haj (hwal.above w hw), hle, hmem⟩) htouch
  have hbytes : ∀ (f : File) (ops : List FileOp), (∀ op ∈ ops, ¬ op.Touches i) →
      (f.execAll ops).byte i = f.byte i := by
    intro f ops hops
    rw [File.execAll_byte]
    refine Overlay.applyAll_of_not_covers (fun hcov => ?_) f.byte
    obtain ⟨op, hop, htouch⟩ := FileOp.covers_map_patch.1 hcov
    exact hops op hop htouch
  rw [Disk.live, hbytes _ _ hopsWal, hcontent, L.image_eq haj]
  exact hbytes _ _ fun op hop => hhist op (L.hist_subset le_rfl hjl hop)

/-- **What replaying after the close gives is the fold exactly when no lost byte survives.** -/
theorem recoveredDisk_closed_iff
    (hanchors : ∀ a, usableAnchor databaseId d.closed = some a → a.globalSlot ≤ j)
    (hj : j ≤ recoveredSlot databaseId d.closed) (hcontent : d.content = (L.state j).image)
    (hwal : WalSound L j d.wal) (hretained : d.journal.retainedFirstSlot ≤
      recoveryBaseSlot databaseId d.closed + 1) :
    (recoveredDisk L d.closed).content = (L.state (recoveredSlot databaseId d.closed)).image ↔
      CleanClose L d := by
  cases hanchor : usableAnchor databaseId d.closed with
  | none =>
    have hbase : recoveryBaseSlot databaseId d.closed = 0 := by simp [recoveryBaseSlot, hanchor]
    have hgenesis : (recoveredDisk L d.closed).content =
        (L.state (recoveredSlot databaseId d.closed)).image := by
      refine recoveredDisk_content ?_
      rw [hbase]
      simp only [baseImage, hanchor]
      exact ⟨[], List.nil_subset _, rfl⟩
    refine ⟨fun _ => ⟨hretained, fun a ha => ?_, fun a ha => ?_⟩, fun _ => hgenesis⟩
    all_goals
      rw [hanchor] at ha
      cases ha
  | some a =>
    have haj := hanchors a hanchor
    rw [recoveredDisk_closed hanchor, L.image_eq (le_trans haj hj),
      File.execAll_eq_iff (L.settled_hist _ _)]
    constructor
    · rintro ⟨hbytes, hlength⟩
      refine ⟨hretained, fun a' ha' i _ hi => ?_, fun a' ha' hnil => ?_⟩
      all_goals
        obtain rfl : a = a' := Option.some.inj (hanchor.symm.trans ha')
      · exact hbytes i hi
      · exact hlength hnil
    · rintro ⟨-, hbytes, hlength⟩
      refine ⟨fun i hi => ?_, hlength a hanchor⟩
      by_cases hlost : LostAt L (recoveredSlot databaseId d.closed) d.wal i
      · exact hbytes a hanchor i hlost hi
      · exact live_byte_of_untouched haj hj hcontent hwal hlost hi

end Trace

end Zaxonlite
