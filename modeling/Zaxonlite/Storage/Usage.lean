import Mathlib.Algebra.GroupWithZero.Nat
import Zaxonlite.Storage.Adoption
import Zaxonlite.Storage.Manifest
import Zaxonlite.Storage.Payload
import Zaxonlite.Storage.Retained

/-!
# Bytes in use

The journal keeps a counter of the bytes in its sealed segments beside the table of them. A rotation adds
what the sealed file holds, a trim takes off what each removed file is measured to hold, and opening adds
the files up again. The payload store keeps such a counter too. A write is admitted when both counters and
a fixed reserve stay below the cap, so the reserve has to cover whatever the write makes them grow by.
-/

namespace Zaxonlite

open Segment

/-! ### Files and their sizes -/

def SegmentFile.length (file : SegmentFile) : ℕ :=
  file.header.encode.length + (file.records.flatMap SegmentRecord.encode).length +
    match file.trailer with
    | some trailer => trailer.encode.length
    | none => 0

/-- The length of a file, zero when there is none. -/
def Directory.lengthOf (d : Directory) (name : ℕ) : ℕ :=
  match d.files name with
  | some file => file.length
  | none => 0

/-- The summed length of listed files. -/
def Directory.lengthOfAll (d : Directory) (entries : List SegmentEntry) : ℕ :=
  (entries.map fun entry => d.lengthOf entry.firstSlot).sum

theorem length_sparse (trailer : SegmentTrailer) :
    trailer.encode.length = trailerFixedSize + trailer.sparse.length * 16 + trailerTailSize := by
  have hsparse : (trailer.sparse.flatMap SparseEntry.encode).length = trailer.sparse.length * 16 :=
    Bytes.length_records (fun entry => by simp [SparseEntry.encode]) _
  simp only [SegmentTrailer.encode, SegmentTrailer.encodeHead, List.length_append, Bytes.length_encodeLe,
    length_encodeBallot, Vector.length_toList, hsparse, trailerFixedSize, trailerTailSize]
  omega

/-! ### The journal with its counter -/

/-- A running journal and `sealed_bytes`. -/
structure CountedJournal where
  handle : JournalHandle
  sealedBytes : ℕ

/-- Where the active segment ends once its trailer is written. -/
def JournalHandle.sealedEnd (h : JournalHandle) : ℕ :=
  h.active.endOffset + (h.active.trailer h.chosenHint).encode.length

namespace CountedJournal

def journalBytes (j : CountedJournal) : ℕ :=
  j.sealedBytes + j.handle.active.endOffset

/-- One turn of `appendWrites`; a rotation counts the segment it seals. -/
def appendWrite (j : CountedJournal) (write : Write) :
    List FileEffect × Except JournalError CountedJournal :=
  match j.handle.appendWrite write with
  | (effects, .error e) => (effects, .error e)
  | (effects, .ok h) =>
    (effects, .ok ⟨h, if j.handle.active.full j.handle.rotationRecords then j.sealedBytes + j.handle.sealedEnd
      else j.sealedBytes⟩)

def appendWrites : CountedJournal → List Write → List FileEffect × Except JournalError CountedJournal
  | j, [] => ([], .ok j)
  | j, write :: writes =>
    match j.appendWrite write with
    | (effects, .error e) => (effects, .error e)
    | (effects, .ok j') =>
      let (effects', result) := j'.appendWrites writes
      (effects ++ effects', result)

/-- A rotation whose manifest could not be published: the segment is sealed, counted and listed, and the
sealed writer is still the active one. -/
def rotateUnpublished (j : CountedJournal) : CountedJournal where
  handle :=
    { j.handle.listSealed j.handle.active.header.firstGlobalSlot j.handle.active.lastSlot
        (j.handle.active.trailer j.handle.chosenHint).segmentDigest with
      active := { j.handle.active with endOffset := j.handle.sealedEnd }
      generation := j.handle.generation + 1 }
  sealedBytes := j.sealedBytes + j.handle.sealedEnd

def noteChosen (j : CountedJournal) (through : ℕ) : CountedJournal :=
  { j with handle := j.handle.noteChosen through }

def noteTrimAnchor (j : CountedJournal) (decisionSlot through : ℕ) (historyHash : HashBytes) :
    CountedJournal :=
  { j with handle := j.handle.noteTrimAnchor decisionSlot through historyHash }

end CountedJournal

/-- How the file system answers: whether a manifest can be published, which files can be opened and
measured, and which can be unlinked. -/
structure StorageIo where
  published : Bool
  measured : ℕ → Bool
  unlinked : ℕ → Bool

/-- Nothing fails. -/
def StorageIo.Succeeds (io : StorageIo) : Prop :=
  io.published = true ∧ (∀ name, io.measured name = true) ∧ ∀ name, io.unlinked name = true

namespace CountedJournal

/-- The loop of `trimThrough` over the files it removes: each is measured, if it can be, and unlinked; a
file that cannot be unlinked ends the loop. -/
def unlinkListed (io : StorageIo) : List SegmentEntry → ℕ → Directory → ℕ × Directory
  | [], sealedBytes, d => (sealedBytes, d)
  | entry :: rest, sealedBytes, d =>
    let sealedBytes := if io.measured entry.firstSlot then sealedBytes - d.lengthOf entry.firstSlot
      else sealedBytes
    if io.unlinked entry.firstSlot then
      unlinkListed io rest sealedBytes (d.apply (.delete entry.firstSlot))
    else (sealedBytes, d)

/-- The journal with the shorter table of a trim. -/
def shorten (j : CountedJournal) (floor : ℕ) : CountedJournal :=
  { j with handle :=
    { j.handle with
      segments := j.handle.segments.dropWhile fun entry => decide (entry.lastSlot ≤ floor)
      generation := j.handle.generation + 1 } }

/-- `trimThrough`: the table is shortened before the manifest is published. -/
def trimThrough (io : StorageIo) (j : CountedJournal) (d : Directory) (floor : ℕ) :
    CountedJournal × Directory :=
  if j.handle.removable floor = [] then (j, d)
  else if io.published then
    let (sealedBytes, d') := unlinkListed io (j.handle.removable floor) j.sealedBytes
      (d.apply (.publish (j.shorten floor).handle.manifestFile))
    ({ j.shorten floor with sealedBytes := sealedBytes }, d')
  else (j.shorten floor, d)

/-- `Journal.open` with the count `replay` makes of the listed files. -/
def recount (io : StorageIo) (handle : JournalHandle) (d : Directory) : CountedJournal where
  handle := handle
  sealedBytes := (handle.segments.map fun entry =>
    if io.measured entry.firstSlot then d.lengthOf entry.firstSlot else 0).sum

end CountedJournal

/-! ### The payload store with its counter -/

/-- Addition of 64-bit counters that stops at their maximum. -/
def satAdd (a b : ℕ) : ℕ :=
  min (a + b) (2 ^ 64 - 1)

structure CountedStore where
  objects : PayloadStore
  retainedBytes : ℕ

namespace CountedStore

/-- `remove` of a stored object; the counter moves only if the object could be measured. -/
def remove (s : CountedStore) (digest : HashBytes) (measured : Bool) : CountedStore where
  objects := Function.update s.objects digest none
  retainedBytes :=
    match s.objects digest with
    | some bytes => if measured then s.retainedBytes - bytes.length else s.retainedBytes
    | none => s.retainedBytes

/-- A stored object that did not verify is removed first. -/
def discard (s : CountedStore) (digest : HashBytes) (measured : Bool) : CountedStore :=
  if (s.objects digest).isSome then s.remove digest measured else s

/-- The link that installs an object; the writer whose link succeeds counts the bytes. -/
def install (s : CountedStore) (bytes : List UInt8) (linked : Bool) : CountedStore where
  objects := Function.update s.objects (Sha256.hash bytes) (some bytes)
  retainedBytes := if linked then satAdd s.retainedBytes bytes.length else s.retainedBytes

/-- `putNamed` after the digest was compared: an object that verifies is left alone. -/
def put (s : CountedStore) (bytes : List UInt8) (measured linked : Bool) : CountedStore :=
  if s.objects.contains (Sha256.hash bytes) then s
  else (s.discard (Sha256.hash bytes) measured).install bytes linked

/-- `sweepUnreachable`, one object after another. -/
def sweep (s : CountedStore) (doomed : List HashBytes) (measured unlinked : HashBytes → Bool) :
    CountedStore :=
  doomed.foldl (fun s digest => if unlinked digest then s.remove digest (measured digest) else s) s

theorem retainedBytes_remove_le (s : CountedStore) (digest : HashBytes) (measured : Bool) :
    (s.remove digest measured).retainedBytes ≤ s.retainedBytes := by
  rw [remove]
  simp only
  split
  · split
    · exact Nat.sub_le _ _
    · exact le_rfl
  · exact le_rfl

theorem retainedBytes_put_le (s : CountedStore) (bytes : List UInt8) (measured linked : Bool) :
    (s.put bytes measured linked).retainedBytes ≤ s.retainedBytes + bytes.length := by
  have hdiscard : (s.discard (Sha256.hash bytes) measured).retainedBytes ≤ s.retainedBytes := by
    rw [discard]
    split
    · exact s.retainedBytes_remove_le _ _
    · exact le_rfl
  rw [put]
  split
  · exact Nat.le_add_right _ _
  · rw [install]
    simp only
    split
    · rw [satAdd]
      omega
    · omega

end CountedStore

/-! ### The table of segments -/

section Table

variable {entries : List SegmentEntry} {next : ℕ}

theorem contiguous_below (h : contiguous entries next = true) :
    (∀ entry ∈ entries, entry.firstSlot < next) ∧
      entries.Pairwise fun a b => a.firstSlot < b.firstSlot := by
  obtain ⟨hpairs, -, hbelow⟩ := List.pairwise_append.1 (contiguous_increasing h)
  constructor
  · intro entry hentry
    exact hbelow _ (List.mem_map_of_mem hentry) next List.mem_cons_self
  · exact List.pairwise_map.1 hpairs

theorem lengthOfAll_congr {d d' : Directory}
    (h : ∀ entry ∈ entries, d'.files entry.firstSlot = d.files entry.firstSlot) :
    d'.lengthOfAll entries = d.lengthOfAll entries := by
  rw [Directory.lengthOfAll, Directory.lengthOfAll]
  congr 1
  apply List.map_congr_left
  intro entry hentry
  rw [Directory.lengthOf, Directory.lengthOf, h entry hentry]

theorem lengthOfAll_append (d : Directory) (before after : List SegmentEntry) :
    d.lengthOfAll (before ++ after) = d.lengthOfAll before + d.lengthOfAll after := by
  rw [Directory.lengthOfAll, List.map_append, List.sum_append]
  rfl

end Table

/-! ### The active segment's writer -/

/-- The writer stands behind its records and indexes one in a stride of them. -/
structure SegmentWriter.Measured (w : SegmentWriter) : Prop where
  endOffset : w.endOffset = headerSize + (w.records.flatMap SegmentRecord.encode).length
  sparse : w.sparse.length * sparseStride ≤ w.records.length + (sparseStride - 1)

namespace SegmentWriter

theorem measured_create (header : SegmentHeader) : (create header).Measured :=
  ⟨rfl, Nat.zero_le _⟩

theorem Measured.append {w : SegmentWriter} (h : w.Measured) (record : SegmentRecord) :
    (w.append record).Measured where
  endOffset := by
    show w.endOffset + record.encode.length = _ + ((w.records ++ [record]).flatMap _).length
    rw [List.flatMap_append, List.length_append, List.flatMap_singleton, h.endOffset, Nat.add_assoc]
  sparse := by
    have hsparse := h.sparse
    have hrecords : (w.append record).records.length = w.records.length + 1 := by
      show (w.records ++ [record]).length = _
      rw [List.length_append, List.length_singleton]
    rw [hrecords]
    by_cases hstride : w.records.length % sparseStride = 0 ∧ record.slot ≠ 0
    · have hentry : (w.append record).sparse = w.sparse ++ [⟨record.slot, w.endOffset⟩] := if_pos hstride
      rw [hentry, List.length_append, List.length_singleton]
      simp only [sparseStride] at hsparse hstride ⊢
      omega
    · have hentry : (w.append record).sparse = w.sparse := if_neg hstride
      rw [hentry]
      omega

theorem Measured.observePromise {w : SegmentWriter} (h : w.Measured) (ballot : Ballot) :
    (w.observePromise ballot).Measured := by
  rw [SegmentWriter.observePromise]
  split
  · exact ⟨h.endOffset, h.sparse⟩
  · exact h

theorem measured_adopt (header : SegmentHeader) (records : List SegmentRecord) :
    (adopt header records).Measured ∧ (adopt header records).records = records ∧
      (adopt header records).header = header := by
  have hfold : ∀ (w : SegmentWriter), w.Measured → (records.foldl append w).Measured ∧
      (records.foldl append w).records = w.records ++ records ∧
        (records.foldl append w).header = w.header := by
    induction records with
    | nil => exact fun w h => ⟨h, (List.append_nil _).symm, rfl⟩
    | cons record records ih =>
      intro w h
      obtain ⟨hmeasured, hrecords, hheader⟩ := ih (w.append record) (h.append record)
      refine ⟨hmeasured, ?_, hheader⟩
      rw [List.foldl_cons, hrecords]
      show (w.records ++ [record]) ++ records = _
      rw [List.append_assoc]
      rfl
  exact hfold (create header) (measured_create header)

theorem records_observePromise (w : SegmentWriter) (ballot : Ballot) :
    (w.observePromise ballot).records = w.records ∧ (w.observePromise ballot).header = w.header ∧
      (w.observePromise ballot).endOffset = w.endOffset := by
  rw [SegmentWriter.observePromise]
  split <;> exact ⟨rfl, rfl, rfl⟩

end SegmentWriter

theorem JournalHandle.appendRecord_spec (h : JournalHandle) (write : Write) :
    (h.appendRecord write).segments = h.segments ∧
      (h.appendRecord write).activeFirstSlot = h.activeFirstSlot ∧
      (h.appendRecord write).rotationRecords = h.rotationRecords ∧
      (h.appendRecord write).active.header = h.active.header ∧
      (h.appendRecord write).active.records = h.active.records ++ [recordOf h.nextSequence write] ∧
      (h.appendRecord write).active.endOffset =
        h.active.endOffset + (recordOf h.nextSequence write).encode.length ∧
      (h.active.Measured → (h.appendRecord write).active.Measured) := by
  rw [appendRecord]
  cases write.ballot? with
  | none => exact ⟨rfl, rfl, rfl, rfl, rfl, rfl, fun hmeasured => hmeasured.append _⟩
  | some ballot =>
    obtain ⟨hrecords, hheader, hend⟩ := h.active.records_observePromise ballot
    refine ⟨rfl, rfl, rfl, hheader, ?_, ?_, fun hmeasured => (hmeasured.observePromise ballot).append _⟩
    · show (h.active.observePromise ballot).records ++ _ = _
      rw [hrecords]
      rfl
    · show (h.active.observePromise ballot).endOffset + _ = _
      rw [hend]
      rfl

end Zaxonlite
