import Zaxonlite.Storage.Usage

/-!
# What operations do to the bytes in use

A running journal is backed by its directory: the active file holds the writer's records, and the listed
segments begin below it in order. Every operation keeps that, and changes the summed length of the listed
files by what it adds to the counter. No file ever holds more records than the rotation threshold, which
bounds the trailer a rotation writes.
-/

namespace Zaxonlite

open Segment

/-! ### Handle and directory -/

structure JournalHandle.Backed (threshold : ℕ) (h : JournalHandle) (d : Directory) : Prop where
  threshold : h.rotationRecords = threshold
  listed : contiguous h.segments h.activeFirstSlot = true
  named : h.active.header.firstGlobalSlot = h.activeFirstSlot
  file : ∃ synced, d.files h.activeFirstSlot = some ⟨h.active.header, h.active.records, none, synced⟩
  measured : h.active.Measured

/-- The counter is the size of the listed files. -/
def CountedJournal.Counts (j : CountedJournal) (d : Directory) : Prop :=
  j.sealedBytes = d.lengthOfAll j.handle.segments

/-- No file holds more records than the rotation threshold. -/
def Directory.Small (threshold : ℕ) (d : Directory) : Prop :=
  ∀ name file, d.files name = some file → file.records.length ≤ threshold

def FileEffect.AddsNone (threshold : ℕ) : FileEffect → Prop
  | .append _ _ => False
  | .truncate _ records => records.length ≤ threshold
  | _ => True

section Small

variable {threshold : ℕ} {d : Directory}

theorem Directory.Small.modify (h : d.Small threshold) (name : ℕ) {f : SegmentFile → SegmentFile}
    (hf : ∀ file, d.files name = some file → (f file).records.length ≤ threshold) :
    (d.modify name f).Small threshold := by
  intro other file hfile
  replace hfile : Function.update d.files name ((d.files name).map f) other = some file := hfile
  by_cases hother : other = name
  · subst hother
    rw [Function.update_self] at hfile
    obtain ⟨before, hbefore, rfl⟩ := Option.map_eq_some_iff.1 hfile
    exact hf before hbefore
  · rw [Function.update_of_ne hother] at hfile
    exact h other file hfile

theorem Directory.Small.apply (h : d.Small threshold) {effect : FileEffect}
    (hnone : effect.AddsNone threshold) : (d.apply effect).Small threshold := by
  cases effect with
  | create name header =>
    intro other file hfile
    replace hfile : Function.update d.files name (some ⟨header, [], none, 0⟩) other = some file := hfile
    by_cases hother : other = name
    · subst hother
      rw [Function.update_self] at hfile
      cases hfile
      exact Nat.zero_le _
    · rw [Function.update_of_ne hother] at hfile
      exact h other file hfile
  | append name record => exact hnone.elim
  | «seal» name trailer => exact h.modify name fun file hfile => h name file hfile
  | truncate name records => exact h.modify name fun _ _ => hnone
  | sync name => exact h.modify name fun file hfile => h name file hfile
  | publish manifest => exact h
  | delete name =>
    intro other file hfile
    replace hfile : Function.update d.files name none other = some file := hfile
    by_cases hother : other = name
    · subst hother
      rw [Function.update_self] at hfile
      cases hfile
    · rw [Function.update_of_ne hother] at hfile
      exact h other file hfile
  | sweep kept =>
    intro other file hfile
    replace hfile : (if other ∈ kept then d.files other else none) = some file := hfile
    split at hfile
    · exact h other file hfile
    · cases hfile

theorem Directory.Small.applyAll {effects : List FileEffect} (h : d.Small threshold)
    (hnone : ∀ effect ∈ effects, effect.AddsNone threshold) : (d.applyAll effects).Small threshold := by
  induction effects generalizing d with
  | nil => exact h
  | cons effect effects ih =>
    exact ih (h.apply (hnone effect List.mem_cons_self))
      fun e he => hnone e (List.mem_cons_of_mem effect he)

theorem Directory.Small.append (h : d.Small threshold) {name : ℕ} (record : SegmentRecord)
    (hroom : ∀ file, d.files name = some file → file.records.length < threshold) :
    (d.apply (.append name record)).Small threshold := by
  apply h.modify name
  intro file hfile
  have hless := hroom file hfile
  show (file.records ++ [record]).length ≤ threshold
  rw [List.length_append, List.length_singleton]
  omega

/-- A list of effects no beginning of which leaves a file with too many records. -/
def Directory.StaysSmall (threshold : ℕ) (d : Directory) (effects : List FileEffect) : Prop :=
  ∀ done, (d.applyAll (effects.take done)).Small threshold

theorem Directory.Small.stays {effects : List FileEffect} (h : d.Small threshold)
    (hnone : ∀ effect ∈ effects, effect.AddsNone threshold) : d.StaysSmall threshold effects :=
  fun _ => h.applyAll fun effect heffect => hnone effect (List.mem_of_mem_take heffect)

theorem Directory.StaysSmall.all {effects : List FileEffect} (h : d.StaysSmall threshold effects) :
    (d.applyAll effects).Small threshold := by
  have hall := h effects.length
  rwa [List.take_length] at hall

theorem Directory.StaysSmall.concat {xs ys : List FileEffect} (hxs : d.StaysSmall threshold xs)
    (hys : (d.applyAll xs).StaysSmall threshold ys) : d.StaysSmall threshold (xs ++ ys) := by
  intro done
  by_cases hdone : done ≤ xs.length
  · rw [List.take_append_of_le_length hdone]
    exact hxs done
  · rw [List.take_append, List.take_of_length_le (by omega), Refines.applyAll_append]
    exact hys _

theorem Directory.Small.stays_append (h : d.Small threshold) {name : ℕ} (record : SegmentRecord)
    (hroom : ∀ file, d.files name = some file → file.records.length < threshold) :
    d.StaysSmall threshold [.append name record] := by
  intro done
  cases done with
  | zero => exact h
  | succ done =>
    rw [List.take_succ_cons, List.take_nil]
    exact h.append record hroom

end Small

namespace JournalHandle

variable {threshold : ℕ} {h : JournalHandle} {d : Directory} {effects : List FileEffect}

/-- Appending to a segment with room. -/
theorem Backed.appendRecord (hb : h.Backed threshold d) (write : Write) :
    (h.appendRecord write).Backed threshold
        (d.apply (.append h.activeFirstSlot (recordOf h.nextSequence write))) ∧
      (d.apply (.append h.activeFirstSlot (recordOf h.nextSequence write))).lengthOfAll
        (h.appendRecord write).segments = d.lengthOfAll h.segments := by
  obtain ⟨hsegments, hfirst, hthreshold, hheader, hrecords, -, hmeasured⟩ := h.appendRecord_spec write
  obtain ⟨synced, hfile⟩ := hb.file
  have hbelow := (contiguous_below hb.listed).1
  constructor
  · refine ⟨hthreshold.trans hb.threshold, ?_, ?_, ⟨synced, ?_⟩, hmeasured hb.measured⟩
    · rw [hsegments, hfirst]
      exact hb.listed
    · rw [hheader, hfirst]
      exact hb.named
    · show Function.update d.files h.activeFirstSlot _ (h.appendRecord write).activeFirstSlot =
        some ⟨(h.appendRecord write).active.header, (h.appendRecord write).active.records, none, synced⟩
      rw [hfirst, hheader, hrecords, Function.update_self, hfile]
      rfl
  · rw [hsegments]
    apply lengthOfAll_congr
    intro entry hentry
    exact Function.update_of_ne (hbelow entry hentry).ne _ _

theorem Backed.sealedEnd_eq (hb : h.Backed threshold d) (synced : ℕ) :
    h.sealedEnd = (SegmentFile.mk h.active.header h.active.records
      (some (h.active.trailer h.chosenHint)) synced).length := by
  rw [sealedEnd, hb.measured.endOffset, SegmentFile.length, length_headerEncode]

/-- Sealing the active segment and starting the next one. -/
theorem Backed.rotate (hb : h.Backed threshold d) {rotated : JournalHandle}
    (hrotate : h.rotate = (effects, .ok rotated)) :
    rotated.Backed threshold (d.applyAll effects) ∧
      (d.applyAll effects).lengthOfAll rotated.segments = d.lengthOfAll h.segments + h.sealedEnd ∧
      rotated.active.records = [] ∧ rotated.active.endOffset = headerSize := by
  obtain ⟨hrolled, heffects⟩ := rotate_eq_ok hrotate
  obtain ⟨synced, hfile⟩ := hb.file
  have hbelow := (contiguous_below hb.listed).1
  set trailer := h.active.trailer h.chosenHint with htrailer
  have hsegments : rotated.segments = h.segments ++
      [⟨h.activeFirstSlot, max h.active.lastSlot h.activeFirstSlot, trailer.segmentDigest⟩] := by
    rw [hrolled, ← hb.named]
    rfl
  have hfirst : rotated.activeFirstSlot = max h.active.lastSlot h.activeFirstSlot + 1 := by
    rw [hrolled, ← hb.named]
    rfl
  have hnext : h.activeFirstSlot < rotated.activeFirstSlot := by
    rw [hfirst]
    omega
  have hfiles : (d.applyAll effects).files = Function.update (Function.update d.files
      h.activeFirstSlot (some ⟨h.active.header, h.active.records, some trailer,
        h.active.records.length⟩)) rotated.activeFirstSlot
          (some ⟨rotated.active.header, [], none, 0⟩) := by
    rw [heffects]
    simp only [Directory.applyAll, List.foldl_cons, List.foldl_nil, Directory.apply, Directory.modify,
      hfile, Function.update_self, Option.map_some, Function.update_idem]
  have hold : ∀ entry ∈ h.segments,
      (d.applyAll effects).files entry.firstSlot = d.files entry.firstSlot := by
    intro entry hentry
    have hless := hbelow entry hentry
    rw [hfiles, Function.update_of_ne (by omega), Function.update_of_ne (by omega)]
  refine ⟨⟨?_, ?_, ?_, ⟨0, ?_⟩, ?_⟩, ?_, ?_, ?_⟩
  · rw [hrolled]
    exact hb.threshold
  · rw [hsegments, hfirst]
    exact @contiguous_concat _ ⟨h.activeFirstSlot, _, trailer.segmentDigest⟩ hb.listed (le_max_right _ _)
  · rw [hrolled]
    rfl
  · rw [hfiles, Function.update_self, hrolled]
    rfl
  · rw [hrolled]
    exact SegmentWriter.measured_create _
  · rw [hsegments, lengthOfAll_append, lengthOfAll_congr hold]
    congr 1
    rw [Directory.lengthOfAll, List.map_singleton, List.sum_singleton, Directory.lengthOf, hfiles,
      Function.update_of_ne hnext.ne, Function.update_self]
    exact (hb.sealedEnd_eq _).symm
  · rw [hrolled]
    rfl
  · rw [hrolled]
    rfl

theorem startNext_addsNone (h : JournalHandle) (digest : HashBytes) :
    ∀ effect ∈ (h.startNext digest).1, effect.AddsNone threshold := by
  rw [startNext]
  cases h.publishManifest with
  | error e => exact fun _ heffect => absurd heffect List.not_mem_nil
  | ok published =>
    intro effect heffect
    rcases List.mem_pair.1 heffect with rfl | rfl <;> trivial

theorem rotate_addsNone (h : JournalHandle) : ∀ effect ∈ h.rotate.1, effect.AddsNone threshold := by
  intro effect heffect
  rcases List.mem_cons.1 heffect with rfl | heffect
  · trivial
  · rcases List.mem_cons.1 heffect with rfl | heffect
    · trivial
    · exact startNext_addsNone _ _ effect heffect

theorem full_eq_false {w : SegmentWriter} {threshold : ℕ} :
    w.full threshold = false ↔ w.records.length < threshold := by
  rw [SegmentWriter.full, decide_eq_false_iff_not, not_le]

end JournalHandle

namespace CountedJournal

variable {threshold : ℕ} {j j' : CountedJournal} {d : Directory} {effects : List FileEffect}

/-- Appending a write, with room or after a rotation. -/
theorem appendWrite_cases {write : Write} (h : j.appendWrite write = (effects, .ok j')) :
    (j.handle.active.full j.handle.rotationRecords = false ∧
      effects = [.append j.handle.activeFirstSlot (recordOf j.handle.nextSequence write)] ∧
      j' = { j with handle := j.handle.appendRecord write }) ∨
    (j.handle.active.full j.handle.rotationRecords = true ∧ ∃ rotation rotated,
      j.handle.rotate = (rotation, .ok rotated) ∧
      effects = rotation ++ [.append rotated.activeFirstSlot (recordOf rotated.nextSequence write)] ∧
      j' = ⟨rotated.appendRecord write, j.sealedBytes + j.handle.sealedEnd⟩) := by
  rw [appendWrite, JournalHandle.appendWrite] at h
  cases hfull : j.handle.active.full j.handle.rotationRecords with
  | false =>
    rw [hfull] at h
    left
    obtain ⟨rfl, hj⟩ := Prod.mk.inj h
    exact ⟨rfl, rfl, (Except.ok.inj hj).symm⟩
  | true =>
    rw [hfull] at h
    right
    cases hrotate : j.handle.rotate with
    | mk rotation result =>
      cases result with
      | error e =>
        rw [hrotate] at h
        cases (Prod.mk.inj h).2
      | ok rotated =>
        rw [hrotate] at h
        obtain ⟨rfl, hj⟩ := Prod.mk.inj h
        exact ⟨rfl, rotation, rotated, rfl, rfl, (Except.ok.inj hj).symm⟩

/-- One appended write keeps the directory behind the journal and the counter right. -/
theorem backed_appendWrite (hb : j.handle.Backed threshold d) {write : Write}
    (happend : j.appendWrite write = (effects, .ok j')) :
    j'.handle.Backed threshold (d.applyAll effects) ∧ (j.Counts d → j'.Counts (d.applyAll effects)) := by
  rcases appendWrite_cases happend with ⟨-, rfl, rfl⟩ | ⟨-, rotation, rotated, hrotate, rfl, rfl⟩
  · obtain ⟨hafter, hlength⟩ := hb.appendRecord write
    exact ⟨hafter, fun hcounts => hcounts.trans hlength.symm⟩
  · rw [Refines.applyAll_append]
    obtain ⟨hrotated, hgrown, -⟩ := hb.rotate hrotate
    obtain ⟨hafter, hlength⟩ := hrotated.appendRecord write
    refine ⟨hafter, ?_⟩
    intro hcounts
    show j.sealedBytes + j.handle.sealedEnd = _
    rw [show j.sealedBytes = _ from hcounts, ← hgrown]
    exact hlength.symm

theorem backed_appendWrites (hb : j.handle.Backed threshold d) {writes : List Write}
    (happend : j.appendWrites writes = (effects, .ok j')) :
    j'.handle.Backed threshold (d.applyAll effects) ∧ (j.Counts d → j'.Counts (d.applyAll effects)) := by
  induction writes generalizing j d effects with
  | nil =>
    obtain ⟨rfl, hj⟩ := Prod.mk.inj happend
    obtain rfl := Except.ok.inj hj
    exact ⟨hb, fun hcounts => hcounts⟩
  | cons write writes ih =>
    rw [CountedJournal.appendWrites] at happend
    split at happend
    · cases (Prod.mk.inj happend).2
    · rename_i first j₁ hfirst
      obtain ⟨rfl, hrest⟩ := Prod.mk.inj happend
      rw [Refines.applyAll_append]
      obtain ⟨hmiddle, hcounts⟩ := backed_appendWrite hb hfirst
      obtain ⟨hafter, hcounts'⟩ := ih hmiddle (Prod.ext rfl hrest)
      exact ⟨hafter, fun h => hcounts' (hcounts h)⟩

/-- Whatever part of an append reaches the directory, its files stay small. -/
theorem appendWrite_small (hpos : 0 < threshold) (hb : j.handle.Backed threshold d)
    (hsmall : d.Small threshold) (write : Write) :
    d.StaysSmall threshold (j.appendWrite write).1 := by
  rw [appendWrite, JournalHandle.appendWrite]
  cases hfull : j.handle.active.full j.handle.rotationRecords with
  | false =>
    obtain ⟨synced, hfile⟩ := hb.file
    apply hsmall.stays_append
    intro file hother
    obtain rfl := Option.some.inj (hfile.symm.trans hother)
    rw [JournalHandle.full_eq_false, hb.threshold] at hfull
    exact hfull
  | true =>
    have hrotation := hsmall.stays j.handle.rotate_addsNone
    cases hrotate : j.handle.rotate with
    | mk rotation result =>
      rw [hrotate] at hrotation
      cases result with
      | error e => exact hrotation
      | ok rotated =>
        obtain ⟨hrotated, -, hempty, -⟩ := hb.rotate hrotate
        obtain ⟨synced, hfile⟩ := hrotated.file
        apply hrotation.concat
        apply hrotation.all.stays_append
        intro file hother
        obtain rfl := Option.some.inj (hfile.symm.trans hother)
        show rotated.active.records.length < threshold
        rw [hempty]
        exact hpos

theorem appendWrites_small (hpos : 0 < threshold) (hb : j.handle.Backed threshold d)
    (hsmall : d.Small threshold) (writes : List Write) :
    d.StaysSmall threshold (j.appendWrites writes).1 := by
  induction writes generalizing j d with
  | nil => exact hsmall.stays fun _ h => absurd h List.not_mem_nil
  | cons write writes ih =>
    have hfirst := appendWrite_small hpos hb hsmall write
    rw [appendWrites]
    cases hresult : j.appendWrite write with
    | mk effects result =>
      rw [hresult] at hfirst
      cases result with
      | error e => exact hfirst
      | ok j' => exact hfirst.concat (ih (backed_appendWrite hb hresult).1 hfirst.all)

/-! ### What a write adds -/

/-- The most a trailer takes when the segment held no more records than the threshold. -/
def trailerBound (threshold : ℕ) : ℕ :=
  trailerFixedSize + (threshold + (sparseStride - 1)) / sparseStride * 16 + trailerTailSize

theorem length_trailer_le {w : SegmentWriter} (h : w.Measured) {threshold : ℕ}
    (hrecords : w.records.length ≤ threshold) (chosenThrough : ℕ) :
    (w.trailer chosenThrough).encode.length ≤ trailerBound threshold := by
  have hsparse := h.sparse
  have hfield : (w.trailer chosenThrough).sparse = w.sparse := rfl
  rw [length_sparse, hfield, trailerBound]
  simp only [sparseStride] at hsparse ⊢
  omega

theorem appendWrite_growth (h : j.handle.Backed threshold d) (hsmall : d.Small threshold)
    {write : Write} (happend : j.appendWrite write = (effects, .ok j')) :
    (j.handle.active.records.length < threshold ∧
      j'.handle.active.records.length = j.handle.active.records.length + 1 ∧
      j'.journalBytes = j.journalBytes + (recordHeaderSize + (encodeWrite write).length)) ∨
    (j.handle.active.records.length = threshold ∧ j'.handle.active.records.length = 1 ∧
      j'.journalBytes ≤ j.journalBytes + trailerBound threshold + headerSize +
        (recordHeaderSize + (encodeWrite write).length)) := by
  obtain ⟨synced, hfile⟩ := h.file
  have hrecords : j.handle.active.records.length ≤ threshold := hsmall _ _ hfile
  have hsize : ∀ sequence, (recordOf sequence write).encode.length =
      recordHeaderSize + (encodeWrite write).length := fun sequence => length_recordEncode _
  rcases appendWrite_cases happend with ⟨hroom, -, rfl⟩ | ⟨hfull, rotation, rotated, hrotate, -, rfl⟩
  · left
    obtain ⟨-, -, -, -, hafter, hend, -⟩ := j.handle.appendRecord_spec write
    rw [JournalHandle.full_eq_false, h.threshold] at hroom
    refine ⟨hroom, ?_, ?_⟩
    · show (j.handle.appendRecord write).active.records.length = _
      rw [hafter, List.length_append, List.length_singleton]
    · show j.sealedBytes + (j.handle.appendRecord write).active.endOffset = _
      rw [hend, hsize, journalBytes, Nat.add_assoc]
  · right
    obtain ⟨-, -, hempty, hstart⟩ := h.rotate hrotate
    obtain ⟨-, -, -, -, hafter, hend, -⟩ := rotated.appendRecord_spec write
    have hreached : ¬ j.handle.active.records.length < threshold := by
      intro hless
      rw [← h.threshold, ← JournalHandle.full_eq_false, hfull] at hless
      cases hless
    have htrailer := length_trailer_le h.measured hrecords j.handle.chosenHint
    refine ⟨by omega, ?_, ?_⟩
    · show (rotated.appendRecord write).active.records.length = 1
      rw [hafter, hempty]
      rfl
    · show j.sealedBytes + j.handle.sealedEnd + (rotated.appendRecord write).active.endOffset ≤ _
      rw [hend, hsize, hstart, JournalHandle.sealedEnd, journalBytes]
      omega

/-! ### Trimming -/

theorem lengthOf_delete {name other : ℕ} (hne : other ≠ name) (d : Directory) :
    (d.apply (.delete name)).files other = d.files other :=
  Function.update_of_ne hne _ _

/-- When every file is measured and unlinked, the counter loses what the files held. -/
theorem unlinkListed_eq {io : StorageIo} (hio : io.Succeeds) {removed kept : List SegmentEntry}
    {sealedBytes : ℕ} (hpairs : removed.Pairwise fun a b => a.firstSlot < b.firstSlot)
    (hkept : ∀ a ∈ removed, ∀ b ∈ kept, a.firstSlot < b.firstSlot)
    (hcounted : sealedBytes = d.lengthOfAll (removed ++ kept)) :
    (unlinkListed io removed sealedBytes d).1 =
      (unlinkListed io removed sealedBytes d).2.lengthOfAll kept := by
  induction removed generalizing sealedBytes d with
  | nil => exact hcounted
  | cons entry removed ih =>
    rw [List.pairwise_cons] at hpairs
    have hfirst : d.lengthOfAll (entry :: removed ++ kept) =
        d.lengthOf entry.firstSlot + d.lengthOfAll (removed ++ kept) := by
      rw [Directory.lengthOfAll, List.cons_append, List.map_cons, List.sum_cons]
      rfl
    have hrest : (d.apply (.delete entry.firstSlot)).lengthOfAll (removed ++ kept) =
        d.lengthOfAll (removed ++ kept) := by
      apply lengthOfAll_congr
      intro other hother
      apply lengthOf_delete
      rcases List.mem_append.1 hother with hother | hother
      · have hless := hpairs.1 other hother
        omega
      · have hless := hkept entry List.mem_cons_self other hother
        omega
    rw [unlinkListed]
    simp only [hio.2.1 entry.firstSlot, hio.2.2 entry.firstSlot, if_true]
    apply ih hpairs.2 fun a ha => hkept a (List.mem_cons_of_mem entry ha)
    rw [hrest, hcounted, hfirst]
    omega

/-- Unlinking some of the listed files leaves the others alone. -/
theorem unlinkListed_files (io : StorageIo) {removed : List SegmentEntry} {sealedBytes name : ℕ}
    (hname : ∀ entry ∈ removed, entry.firstSlot ≠ name) :
    (unlinkListed io removed sealedBytes d).2.files name = d.files name := by
  induction removed generalizing sealedBytes d with
  | nil => rfl
  | cons entry removed ih =>
    rw [unlinkListed]
    split
    · rw [ih fun other hother => hname other (List.mem_cons_of_mem entry hother)]
      exact lengthOf_delete (hname entry List.mem_cons_self).symm d
    · rfl

theorem unlinkListed_small (io : StorageIo) {removed : List SegmentEntry} {sealedBytes : ℕ}
    (hsmall : d.Small threshold) : (unlinkListed io removed sealedBytes d).2.Small threshold := by
  induction removed generalizing sealedBytes d with
  | nil => exact hsmall
  | cons entry removed ih =>
    rw [unlinkListed]
    split
    · exact ih (hsmall.apply trivial)
    · exact hsmall

theorem removable_append (h : JournalHandle) (floor : ℕ) :
    h.removable floor ++ h.segments.dropWhile (fun entry => decide (entry.lastSlot ≤ floor)) =
      h.segments :=
  List.takeWhile_append_dropWhile

theorem backed_trimThrough (h : j.handle.Backed threshold d) (io : StorageIo) (floor : ℕ) :
    (j.trimThrough io d floor).1.handle.Backed threshold (j.trimThrough io d floor).2 := by
  have hlisted := contiguous_dropWhile h.listed fun entry => decide (entry.lastSlot ≤ floor)
  rw [trimThrough]
  split
  · exact h
  · split
    · obtain ⟨synced, hfile⟩ := h.file
      refine ⟨h.threshold, hlisted, h.named, ⟨synced, ?_⟩, h.measured⟩
      show (unlinkListed io _ _ _).2.files j.handle.activeFirstSlot = _
      rw [unlinkListed_files]
      · exact hfile
      · intro entry hentry
        have hmem : entry ∈ j.handle.segments := by
          rw [← removable_append j.handle floor]
          exact List.mem_append_left _ hentry
        exact ((contiguous_below h.listed).1 entry hmem).ne
    · exact ⟨h.threshold, hlisted, h.named, h.file, h.measured⟩

/-- A trim none of whose file operations fails keeps the counter right. -/
theorem counts_trimThrough (h : j.handle.Backed threshold d) {io : StorageIo} (hio : io.Succeeds)
    (floor : ℕ) (hcounts : j.Counts d) :
    (j.trimThrough io d floor).1.Counts (j.trimThrough io d floor).2 := by
  rw [trimThrough]
  split
  · exact hcounts
  · rw [if_pos hio.1]
    obtain ⟨-, hpairs⟩ := contiguous_below h.listed
    rw [← removable_append j.handle floor, List.pairwise_append] at hpairs
    obtain ⟨hremoved, -, hcross⟩ := hpairs
    apply unlinkListed_eq hio hremoved hcross
    rw [removable_append]
    exact hcounts

theorem trimThrough_small (hsmall : d.Small threshold) (io : StorageIo) (floor : ℕ) :
    (j.trimThrough io d floor).2.Small threshold := by
  rw [trimThrough]
  split
  · exact hsmall
  · split
    · exact unlinkListed_small io (hsmall.apply trivial)
    · exact hsmall

/-! ### Opening -/

section Opening

variable {Durable : Type} {core : CoreLib Durable}

/-- Replay changes neither the table nor the active segment. -/
theorem replayJournal_handle {h : JournalHandle} {view : ℕ → Option SegmentView} {opened : Opened Durable}
    (hreplay : replayJournal core h view = .ok opened) :
    opened.handle.segments = h.segments ∧ opened.handle.active = h.active ∧
      opened.handle.activeFirstSlot = h.activeFirstSlot ∧
      opened.handle.rotationRecords = h.rotationRecords := by
  rw [replayJournal] at hreplay
  obtain ⟨listed, -, hreplay⟩ := Checked.bind_eq_ok.1 hreplay
  obtain ⟨all, -, hreplay⟩ := Checked.bind_eq_ok.1 hreplay
  obtain ⟨durable, -, hreplay⟩ := Checked.bind_eq_ok.1 hreplay
  obtain rfl := Except.ok.inj hreplay
  exact ⟨rfl, rfl, rfl, rfl⟩

theorem backed_started {h : JournalHandle} (hthreshold : h.rotationRecords = threshold)
    (hlisted : contiguous h.segments h.activeFirstSlot = true) (digest : HashBytes) (d : Directory) :
    (h.startSegment digest).Backed threshold
      (d.apply (.create h.activeFirstSlot (h.nextHeader digest))) where
  threshold := hthreshold
  listed := hlisted
  named := rfl
  file := ⟨0, Function.update_self _ _ _⟩
  measured := SegmentWriter.measured_create _

section Adoption

variable {h h' : JournalHandle} {view : ℕ → Option SegmentView}

/-- Taking over the active file, whatever shape it is in. -/
theorem backed_adoptActive (hthreshold : h.rotationRecords = threshold)
    (hlisted : contiguous h.segments h.activeFirstSlot = true)
    (hview : view h.activeFirstSlot = (d.files h.activeFirstSlot).map SegmentFile.view)
    (hadopt : h.adoptActive view = (effects, .ok h')) : h'.Backed threshold (d.applyAll effects) := by
  rw [JournalHandle.adoptActive, hview] at hadopt
  cases hfile : d.files h.activeFirstSlot with
  | none =>
    rw [hfile] at hadopt
    obtain ⟨rfl, hok⟩ := Prod.mk.inj hadopt
    obtain rfl := Except.ok.inj hok
    exact backed_started hthreshold hlisted _ d
  | some file =>
    rw [hfile] at hadopt
    cases htrailer : file.trailer with
    | some trailer =>
      have hfound : file.view.sealedView = .ok ⟨file.header, trailer, file.records, true⟩ := by
        rw [SegmentFile.view, htrailer]
      simp only [Option.map_some, hfound] at hadopt
      obtain ⟨rfl, rfl⟩ := JournalHandle.startNext_eq_ok hadopt
      refine ⟨hthreshold, ?_, rfl, ⟨0, Function.update_self _ _ _⟩, SegmentWriter.measured_create _⟩
      exact @contiguous_concat _ ⟨h.activeFirstSlot, _, trailer.segmentDigest⟩ hlisted
        (le_max_right _ _)
    | none =>
      have hunsealed : file.view.sealedView = .error .corruptSegment := by
        rw [SegmentFile.view, htrailer]
      have hadopted : file.view.adopted = .ok file.records := by
        rw [SegmentFile.view, htrailer]
      have hheader : file.view.header = .ok file.header := rfl
      simp only [Option.map_some, hunsealed, JournalHandle.resume, hheader] at hadopt
      split at hadopt
      · cases (Prod.mk.inj hadopt).2
      · rename_i hsame
        rw [hadopted] at hadopt
        obtain ⟨rfl, hok⟩ := Prod.mk.inj hadopt
        obtain rfl := Except.ok.inj hok
        obtain ⟨hmeasured, hrecords, hkept⟩ := SegmentWriter.measured_adopt file.header file.records
        have hfirst : file.header.firstGlobalSlot = h.activeFirstSlot := by
          by_contra hne
          exact hsame (Or.inr (Or.inl hne))
        refine ⟨hthreshold, hlisted, ?_, ⟨file.synced, ?_⟩, hmeasured⟩
        · show (SegmentWriter.adopt file.header file.records).header.firstGlobalSlot = _
          rw [hkept]
          exact hfirst
        · show Function.update d.files h.activeFirstSlot _ h.activeFirstSlot = some
            ⟨(SegmentWriter.adopt file.header file.records).header,
              (SegmentWriter.adopt file.header file.records).records, none, file.synced⟩
          rw [Function.update_self, hfile, hrecords, hkept, ← htrailer]
          rfl

theorem adoptActive_addsNone
    (hview : view h.activeFirstSlot = (d.files h.activeFirstSlot).map SegmentFile.view)
    (hsmall : d.Small threshold) : ∀ effect ∈ (h.adoptActive view).1, effect.AddsNone threshold := by
  rw [JournalHandle.adoptActive, hview]
  cases hfile : d.files h.activeFirstSlot with
  | none =>
    intro effect heffect
    rw [List.mem_singleton.1 heffect]
    trivial
  | some file =>
    simp only [Option.map_some]
    cases htrailer : file.trailer with
    | some trailer =>
      have hfound : file.view.sealedView = .ok ⟨file.header, trailer, file.records, true⟩ := by
        rw [SegmentFile.view, htrailer]
      rw [hfound]
      exact JournalHandle.startNext_addsNone _ _
    | none =>
      have hunsealed : file.view.sealedView = .error .corruptSegment := by
        rw [SegmentFile.view, htrailer]
      have hadopted : file.view.adopted = .ok file.records := by
        rw [SegmentFile.view, htrailer]
      have hheader : file.view.header = .ok file.header := rfl
      simp only [hunsealed, JournalHandle.resume, hheader, hadopted]
      split
      · exact fun _ heffect => absurd heffect List.not_mem_nil
      · intro effect heffect
        rw [List.mem_singleton.1 heffect]
        exact hsmall _ _ hfile

end Adoption

theorem sweep_files (d : Directory) {kept : List ℕ} {name : ℕ} (hname : name ∈ kept) :
    (d.apply (.sweep kept)).files name = d.files name :=
  if_pos hname

theorem tableValid_of_loadManifest {databaseId : ℕ} {m loaded : ManifestFile}
    (hload : loadManifest databaseId m = .ok loaded) : loaded.tableValid = true := by
  rw [loadManifest] at hload
  split at hload
  · rename_i hgood
    exact Except.ok.inj hload ▸ hgood.2
  · cases hload

theorem backed_openJournal {databaseId : ℕ} {opened : Opened Durable}
    (hopen : openJournal core databaseId threshold d.view = (effects, .ok opened)) :
    opened.handle.Backed threshold (d.applyAll effects) := by
  rw [openJournal] at hopen
  split at hopen
  · cases (Prod.mk.inj hopen).2
  · rename_i m hmanifest
    cases hload : loadManifest databaseId m with
    | error e =>
      rw [hload] at hopen
      cases (Prod.mk.inj hopen).2
    | ok loaded =>
      rw [hload] at hopen
      have hvalid := tableValid_of_loadManifest hload
      rw [ManifestFile.tableValid, Bool.and_eq_true] at hvalid
      simp only at hopen
      cases hadopt : (JournalHandle.ofManifest threshold loaded).adoptActive d.view.view with
      | mk adoption result =>
        rw [hadopt] at hopen
        cases result with
        | error e => cases (Prod.mk.inj hopen).2
        | ok h' =>
          obtain ⟨rfl, hreplay⟩ := Prod.mk.inj hopen
          obtain ⟨hsegments, hactive, hfirst, hthreshold⟩ := replayJournal_handle hreplay
          set kept := (JournalHandle.ofManifest threshold loaded).accounted with hkept
          have hmem : (JournalHandle.ofManifest threshold loaded).activeFirstSlot ∈ kept := by
            rw [hkept]
            exact List.mem_cons_self
          -- The sweep does not touch the active file, so taking over finds the same one behind it.
          have hview : d.view.view (JournalHandle.ofManifest threshold loaded).activeFirstSlot =
              ((d.apply (.sweep kept)).files
                (JournalHandle.ofManifest threshold loaded).activeFirstSlot).map SegmentFile.view := by
            rw [sweep_files d hmem]
            rfl
          have htaken := backed_adoptActive rfl hvalid.2 hview hadopt
          obtain ⟨synced, hfile⟩ := htaken.file
          refine ⟨hthreshold.trans htaken.threshold, ?_, ?_, ⟨synced, ?_⟩, ?_⟩
          · rw [hsegments, hfirst]
            exact htaken.listed
          · rw [hactive, hfirst]
            exact htaken.named
          · rw [hactive, hfirst]
            exact hfile
          · rw [hactive]
            exact htaken.measured

theorem openJournal_addsNone (databaseId : ℕ) (hsmall : d.Small threshold) :
    ∀ effect ∈ (openJournal core databaseId threshold d.view).1, effect.AddsNone threshold := by
  rw [openJournal]
  cases hmanifest : d.view.manifest with
  | none => exact fun _ heffect => absurd heffect List.not_mem_nil
  | some m =>
    cases hload : loadManifest databaseId m with
    | error e =>
      simp only [hload]
      exact fun _ heffect => absurd heffect List.not_mem_nil
    | ok loaded =>
      simp only [hload]
      have hnone := adoptActive_addsNone
        (rfl : d.view.view (JournalHandle.ofManifest threshold loaded).activeFirstSlot = _) hsmall
      cases hadopt : (JournalHandle.ofManifest threshold loaded).adoptActive d.view.view with
      | mk adoption result =>
        rw [hadopt] at hnone
        intro effect heffect
        cases result <;>
          rcases List.mem_cons.1 heffect with rfl | heffect <;> first | trivial | exact hnone _ heffect

theorem counts_recount {io : StorageIo} (hio : io.Succeeds) (h : JournalHandle) :
    (recount io h d).Counts d := by
  show ((h.segments.map fun entry => if io.measured entry.firstSlot then _ else 0).sum : ℕ) = _
  simp only [hio.2.1, if_true]
  rfl

end Opening

end CountedJournal

end Zaxonlite
