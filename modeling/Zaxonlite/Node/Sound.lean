import Zaxonlite.Node.Materialize

/-!
# Disks recovery can start from

`DiskSound` is the invariant that ties the three things a crash leaves together: the journal holds
chosen commits, contiguous from a floor on and in window order, every published anchor states the fold
at its slot, and the image is the fold at some slot no anchor is above, with some changes of later
journaled slots made to it. No order between page writes and anchor publication is needed beyond that:
an anchor may name an older slot than the image holds.
-/

namespace Zaxonlite

open Program Contiguous

variable {databaseId : ℕ}

/-- The image is the fold at `k` as of its last sync, with changes of slots `k + 1..hi` since. A
missing image is the fold of nothing. -/
def ImageSound (L : ChosenLog databaseId) (k hi : ℕ) (d : Disk) : Prop :=
  match d.image with
  | none => k = 0
  | some image => image.synced = (L.state k).image ∧ ∀ p ∈ image.pending, L.Stamp k hi p

/-- The end of the contiguous run of journaled commits above `lo`. -/
def committedEnd (lo : ℕ) (d : Disk) : ℕ :=
  runEnd (commitSlots d.journal.records) lo

/-- What the journal, the payloads and the anchors keep, for a journal retained from slot `lo + 1`
on. -/
structure LogSound (L : ChosenLog databaseId) (configuration lo : ℕ) (d : Disk) : Prop where
  retained : d.journal.retainedFirstSlot = lo + 1
  chosen : ∀ s v, Write.commit s v ∈ d.journal.records → v = L.entry s
  window : InWindow windowSlots lo (commitSlots d.journal.records)
  configured : ∀ s ∈ commitSlots d.journal.records, lo < s →
    (L.state (s - 1)).configuration = configuration
  stored : ∀ s ∈ commitSlots d.journal.records, lo < s → L.Stored d.store s
  anchors : ∀ a, d.applied.Holds a → AnchorSound L a ∧ a.configurationId = configuration
  reached : ∀ a, d.applied.Holds a → a.globalSlot ≤ committedEnd lo d

/-- What every crash point keeps. -/
structure DiskSound (L : ChosenLog databaseId) (configuration lo : ℕ) (d : Disk) : Prop where
  log : LogSound L configuration lo d
  image : ∃ k, lo ≤ k ∧ k ≤ committedEnd lo d ∧ (∀ a, d.applied.Holds a → a.globalSlot ≤ k) ∧
    ImageSound L k (committedEnd lo d) d

section Image

variable {L : ChosenLog databaseId} {k hi : ℕ} {d : Disk}

theorem ImageSound.mono {hi' : ℕ} (h : ImageSound L k hi d) (hle : hi ≤ hi') :
    ImageSound L k hi' d := by
  unfold ImageSound at h ⊢
  split at h
  · exact h
  · exact ⟨h.1, fun p hp => (h.2 p hp).mono le_rfl hle⟩

theorem ImageSound.between (h : ImageSound L k hi d) : L.Between k hi d.content := by
  cases himage : d.image with
  | none =>
    simp only [ImageSound, himage] at h
    subst h
    exact ⟨[], List.nil_subset _, by simp only [Disk.content, himage]; rfl⟩
  | some image =>
    simp only [ImageSound, himage] at h
    obtain ⟨hsynced, hpending⟩ := h
    refine ⟨_, fun op hop => ?_, by simp only [Disk.content, himage, Image.content, hsynced]; rfl⟩
    obtain ⟨p, hp, rfl⟩ := List.mem_map.1 hop
    obtain ⟨hlo, hhi, hmem⟩ := hpending p hp
    exact L.mem_hist.2 ⟨p.1, hlo, hhi, hmem⟩

theorem ImageSound.extend {image : Image} {extra : List (ℕ × FileOp)}
    (h : ImageSound L k hi (d.withImage image)) (hextra : ∀ p ∈ extra, L.Stamp k hi p) :
    ImageSound L k hi (d.withImage (image.extend extra)) := by
  simp only [ImageSound, Disk.withImage, Image.extend] at h ⊢
  refine ⟨h.1, fun p hp => ?_⟩
  rcases List.mem_append.1 hp with hp | hp
  · exact h.2 p hp
  · exact hextra p hp

theorem ImageSound.congr {d' : Disk} (h : ImageSound L k hi d) (himage : d'.image = d.image) :
    ImageSound L k hi d' := by
  unfold ImageSound at h ⊢
  rwa [himage]

theorem imageSound_synced {f : File} (h : f = (L.state k).image) :
    ImageSound L k hi (d.withImage { synced := f, pending := [] }) :=
  ⟨h, fun _ hp => absurd hp List.not_mem_nil⟩

end Image

section Recover

variable {L : ChosenLog databaseId} {configuration lo : ℕ} {d : Disk}

/-- A base at or above the floor lies on the retained run. -/
theorem LogSound.base_spec (h : LogSound L configuration lo d)
    (hbase : lo ≤ recoveryBaseSlot databaseId d) :
    recoveryBaseSlot databaseId d ≤ committedEnd lo d ∧
      recoveredSlot databaseId d = committedEnd lo d := by
  have hle : recoveryBaseSlot databaseId d ≤ committedEnd lo d := by
    cases hanchor : usableAnchor databaseId d with
    | none => simp [recoveryBaseSlot, hanchor]
    | some a =>
      simp only [recoveryBaseSlot, hanchor, Option.map_some, Option.getD_some]
      exact h.reached a (AppliedFiles.select_holds (usableAnchor_select hanchor)).1
  refine ⟨hle, (runEnd_eq_of_run hbase fun s hs hs' => ?_).symm⟩
  exact mem_of_le_runEnd hs (le_trans hs' hle)

/-- A sound log can be recovered by a freshly started node. -/
theorem LogSound.canRecover (h : LogSound L configuration lo d)
    (hbase : lo ≤ recoveryBaseSlot databaseId d) {n : Node}
    (hdb : n.identity.databaseId = databaseId) (hpage : n.pageSize = defaultPageSize)
    (hbatch : usableAnchor databaseId d = none →
      (L.state (recoveredSlot databaseId d)).lastDataSlot = 0 → n.lastBatchId = 0) :
    CanRecover L n d := by
  obtain ⟨hle, hend⟩ := h.base_spec hbase
  have hmem : ∀ s, recoveryBaseSlot databaseId d < s → s ≤ recoveredSlot databaseId d →
      s ∈ commitSlots d.journal.records := fun s hs hs' => mem_of_le_runEnd hs hs'
  refine ⟨hdb, hpage, hbatch, fun a ha => ?_, fun a ha hlt => ?_, ?_, h.chosen, ?_, ?_⟩
  · exact (h.anchors a (AppliedFiles.select_holds (usableAnchor_select ha)).1).1
  · have heq : recoveryBaseSlot databaseId d = a.globalSlot := by simp [recoveryBaseSlot, ha]
    have hnext := hmem (a.globalSlot + 1) (by omega) (by omega)
    have hconf := h.configured _ hnext (by omega)
    rw [(h.anchors a (AppliedFiles.select_holds (usableAnchor_select ha)).1).2, ← hconf,
      Nat.add_sub_cancel]
  · rw [h.retained]
    exact Nat.succ_le_succ hbase
  · exact h.window.mono_base hbase
  · exact fun s hs hs' => h.stored s (hmem s hs hs') (lt_of_le_of_lt hbase hs)

/-- Recovery's image lies between its base and the end of the run. -/
theorem DiskSound.between (h : DiskSound L configuration lo d)
    (hbase : lo ≤ recoveryBaseSlot databaseId d) :
    L.Between (recoveryBaseSlot databaseId d) (recoveredSlot databaseId d)
      (baseImage databaseId d).content := by
  obtain ⟨hle, hend⟩ := h.log.base_spec hbase
  obtain ⟨k, hklo, hk, hanchors, himage⟩ := h.image
  rw [hend]
  cases hanchor : usableAnchor databaseId d with
  | none =>
    have heq : recoveryBaseSlot databaseId d = 0 := by simp [recoveryBaseSlot, hanchor]
    rw [heq]
    simp only [baseImage, hanchor]
    exact ⟨[], List.nil_subset _, rfl⟩
  | some a =>
    obtain ⟨image, hsome, -⟩ := usableAnchor_image hanchor
    have heq : recoveryBaseSlot databaseId d = a.globalSlot := by
      simp [recoveryBaseSlot, hanchor]
    have hcontent : (baseImage databaseId d).content = d.content := by
      simp only [baseImage, hanchor, hsome, Disk.content]
    rw [heq, hcontent]
    have hak := hanchors a (AppliedFiles.select_holds (usableAnchor_select hanchor)).1
    exact himage.between.mono_lo hak hk

theorem LogSound.recoveredDisk (h : LogSound L configuration lo d) :
    LogSound L configuration lo (recoveredDisk L d) :=
  ⟨h.retained, h.chosen, h.window, h.configured, h.stored, h.anchors, h.reached⟩

/-- What recovery leaves is sound again when its image is the fold. -/
theorem LogSound.recovered (h : LogSound L configuration lo d)
    (hbase : lo ≤ recoveryBaseSlot databaseId d)
    (hcontent : (Zaxonlite.recoveredDisk L d).content =
      (L.state (recoveredSlot databaseId d)).image) :
    DiskSound L configuration lo (Zaxonlite.recoveredDisk L d) ∧
      ImageSound L (recoveredSlot databaseId d) (recoveredSlot databaseId d)
        (Zaxonlite.recoveredDisk L d) := by
  obtain ⟨hle, hend⟩ := h.base_spec hbase
  have himage : ImageSound L (recoveredSlot databaseId d) (recoveredSlot databaseId d)
      (Zaxonlite.recoveredDisk L d) :=
    imageSound_synced hcontent
  refine ⟨⟨h.recoveredDisk, ?_⟩, himage⟩
  rw [hend] at himage
  exact ⟨committedEnd lo d, base_le_runEnd _ _, le_rfl, h.reached, himage⟩

theorem DiskSound.recovered_content (h : DiskSound L configuration lo d)
    (hbase : lo ≤ recoveryBaseSlot databaseId d) :
    (recoveredDisk L d).content = (L.state (recoveredSlot databaseId d)).image :=
  recoveredDisk_content (h.between hbase)

end Recover

/-! ### What keeps a disk sound -/

section Keep

variable {L : ChosenLog databaseId} {configuration lo : ℕ} {d : Disk}

/-- Journal bookkeeping that keeps the records keeps the log sound. -/
theorem LogSound.withJournal (h : LogSound L configuration lo d) {j : Journal}
    (hrecords : j.records = d.journal.records)
    (hfirst : j.retainedFirstSlot = d.journal.retainedFirstSlot) :
    LogSound L configuration lo { d with journal := j } := by
  refine ⟨?_, ?_, ?_, ?_, ?_, h.anchors, ?_⟩
  · exact hfirst.trans h.retained
  · simpa only [hrecords] using h.chosen
  · simpa only [hrecords] using h.window
  · simpa only [hrecords] using h.configured
  · simpa only [hrecords] using h.stored
  · simpa only [committedEnd, hrecords] using h.reached

theorem DiskSound.withJournal (h : DiskSound L configuration lo d) {j : Journal}
    (hrecords : j.records = d.journal.records)
    (hfirst : j.retainedFirstSlot = d.journal.retainedFirstSlot) :
    DiskSound L configuration lo { d with journal := j } := by
  obtain ⟨k, hlo, hk, hanchors, himage⟩ := h.image
  refine ⟨h.log.withJournal hrecords hfirst, k, hlo, ?_, hanchors, ?_⟩
  · simpa only [committedEnd, hrecords] using hk
  · simp only [committedEnd, hrecords]
    exact himage

structure CommitOk (L : ChosenLog databaseId) (configuration lo : ℕ) (d : Disk) (s : ℕ) (v : Entry) :
    Prop where
  chosen : v = L.entry s
  configured : lo < s → (L.state (s - 1)).configuration = configuration
  stored : lo < s → L.Stored d.store s
  window : s ≤ committedEnd lo d + windowSlots

theorem committedEnd_append (write : Write) {j : Journal}
    (hrecords : j.records = d.journal.records ++ [write]) :
    committedEnd lo d ≤ committedEnd lo { d with journal := j } := by
  simp only [committedEnd, hrecords, commitSlots_append]
  exact runEnd_mono_known lo (List.subset_append_left _ _)

/-- Appending a record keeps the log sound. -/
theorem LogSound.append (h : LogSound L configuration lo d) {write : Write} {j : Journal}
    (hrecords : j.records = d.journal.records ++ [write])
    (hfirst : j.retainedFirstSlot = d.journal.retainedFirstSlot)
    (hok : ∀ s v, write = .commit s v → CommitOk L configuration lo d s v) :
    LogSound L configuration lo { d with journal := j } := by
  have hslots : commitSlots j.records =
      commitSlots d.journal.records ++ write.commitSlot?.toList := by
    rw [hrecords, commitSlots_append, commitSlots_singleton]
  have hnew : ∀ s, s ∈ write.commitSlot?.toList → ∃ v, write = .commit s v := by
    intro s hs
    cases write with
    | commit slot value =>
      simp only [Write.commitSlot?, Option.toList_some, List.mem_singleton] at hs
      exact ⟨value, by rw [hs]⟩
    | promise ballot => cases hs
    | accept ballot slot value => cases hs
    | trimAnchor anchor => cases hs
  refine ⟨?_, ?_, ?_, ?_, ?_, h.anchors, ?_⟩
  · exact hfirst.trans h.retained
  · intro s v hmem
    rw [hrecords, List.mem_append, List.mem_singleton] at hmem
    rcases hmem with hmem | hmem
    · exact h.chosen s v hmem
    · exact (hok s v hmem.symm).chosen
  · rw [hslots]
    cases hslot : write.commitSlot? with
    | none => simpa using h.window
    | some s =>
      obtain ⟨v, hv⟩ := hnew s (by rw [hslot]; exact List.mem_singleton_self s)
      exact h.window.concat (hok s v hv).window
  · intro s hs hlt
    rw [hslots, List.mem_append] at hs
    rcases hs with hs | hs
    · exact h.configured s hs hlt
    · obtain ⟨v, hv⟩ := hnew s hs
      exact (hok s v hv).configured hlt
  · intro s hs hlt
    rw [hslots, List.mem_append] at hs
    rcases hs with hs | hs
    · exact h.stored s hs hlt
    · obtain ⟨v, hv⟩ := hnew s hs
      exact (hok s v hv).stored hlt
  · exact fun a ha => le_trans (h.reached a ha) (committedEnd_append write hrecords)

theorem DiskSound.append (h : DiskSound L configuration lo d) {write : Write} {j : Journal}
    (hrecords : j.records = d.journal.records ++ [write])
    (hfirst : j.retainedFirstSlot = d.journal.retainedFirstSlot)
    (hok : ∀ s v, write = .commit s v → CommitOk L configuration lo d s v) :
    DiskSound L configuration lo { d with journal := j } := by
  obtain ⟨k, hlo, hk, hanchors, himage⟩ := h.image
  have hend : committedEnd lo d ≤ _ := committedEnd_append write hrecords
  exact ⟨h.log.append hrecords hfirst hok, k, hlo, le_trans hk hend, hanchors, himage.mono hend⟩

theorem LogSound.withTrim (h : LogSound L configuration lo d) (trim : Option TrimState) :
    LogSound L configuration lo { d with trim := trim } :=
  ⟨h.retained, h.chosen, h.window, h.configured, h.stored, h.anchors, h.reached⟩

theorem LogSound.put (h : LogSound L configuration lo d) (bytes : List UInt8) :
    LogSound L configuration lo { d with store := d.store.put bytes } :=
  ⟨h.retained, h.chosen, h.window, h.configured,
    fun s hs hlt => (h.stored s hs hlt).put (Nat.zero_lt_of_lt hlt) bytes, h.anchors, h.reached⟩

theorem LogSound.withFiles (h : LogSound L configuration lo d) (image : Option Image)
    (wal : List WalTransaction) : LogSound L configuration lo { d with image := image, wal := wal } :=
  ⟨h.retained, h.chosen, h.window, h.configured, h.stored, h.anchors, h.reached⟩

end Keep

end Zaxonlite
