import Zaxonlite.Storage.Rollup
import Zaxonlite.Storage.Usage

/-!
# Segment files as bytes

The journal model keeps a segment file as its header, its records and its trailer. Here the same file is
its bytes: what the writer wrote is what the readers find in them. A sealed file opens with its trailer
and every record, and an active one is adopted with every record.
-/

namespace Zaxonlite

open Bytes (encodeLe readLe)
open Cursor (Reads)
open Segment

/-! ### The trailer -/

def SparseEntry.Fits (entry : SparseEntry) : Prop :=
  entry.slot < 256 ^ 8 ∧ entry.offset < 256 ^ 8

/-- The fields fit their widths, and the index its bound. -/
structure SegmentTrailer.Fits (t : SegmentTrailer) : Prop where
  lastGlobalSlot : t.lastGlobalSlot < 256 ^ 8
  recordCount : t.recordCount < 256 ^ 8
  maxPromised : t.maxPromised.Fits
  chosenThrough : t.chosenThrough < 256 ^ 8
  count : t.sparse.length ≤ maxSparseEntries
  sparse : ∀ entry ∈ t.sparse, entry.Fits

section Trailer

variable {t : SegmentTrailer} {front : List UInt8}

theorem reads_trailerFields (h : t.Fits) :
    Reads readTrailerFields (t.encodeHead ++ t.segmentDigest.toList) t := by
  obtain ⟨hround, hpriority, hnode⟩ := h.maxPromised
  have hcount : t.sparse.length < 256 ^ 4 := h.count.trans_lt (by decide)
  have hentry : ∀ entry ∈ t.sparse, Reads (do
      let slot ← Cursor.int SegmentError.corruptSegment 8
      let offset ← Cursor.int .corruptSegment 8
      pure (⟨slot, offset⟩ : SparseEntry)) entry.encode entry :=
    fun entry hmem => (Reads.int _ (h.sparse entry hmem).1).bind
      ((Reads.int _ (h.sparse entry hmem).2).last (Reads.pure entry))
  rw [SegmentTrailer.encodeHead, Ballot.encode]
  simp only [List.append_assoc]
  apply (Reads.int _ (by decide)).bind
  apply Reads.require _ (by decide)
  apply (Reads.int _ h.lastGlobalSlot).bind
  apply (Reads.int _ h.recordCount).bind
  apply (Reads.int _ hround).bind
  apply (Reads.int _ hpriority).bind
  apply (Reads.int _ hnode).bind
  apply (Reads.int _ h.chosenThrough).bind
  apply (Reads.int _ hcount).bind
  apply Reads.require _ (decide_eq_true h.count)
  apply (Reads.many hentry).bind
  have hdigest : t.segmentDigest.toList.length = 32 :=
    t.segmentDigest.toArray.length_toList.trans t.segmentDigest.size_toArray
  have htake := Reads.take SegmentError.corruptSegment t.segmentDigest.toList
  rw [hdigest] at htake
  apply htake.last
  rw [dif_pos hdigest]
  exact Reads.pure t

theorem length_trailerHead (t : SegmentTrailer) :
    t.encodeHead.length = trailerFixedSize + t.sparse.length * 16 := by
  have hlen := length_sparse t
  rw [SegmentTrailer.encode, List.length_append, List.length_append, Bytes.length_encodeLe,
    Vector.length_toList, trailerTailSize] at hlen
  omega

theorem readTrailer_append (h : t.Fits) (hfront : headerSize ≤ front.length) :
    readTrailer (front ++ t.encode) = .ok (t, front.length) := by
  have hsize := length_sparse t
  have hhead := length_trailerHead t
  have hcount := h.count
  have hlen : (front ++ t.encode).length = front.length + t.encode.length := List.length_append
  have hbound : t.encodeHead.length + 32 + 4 = t.encode.length := by
    rw [hsize, hhead, trailerTailSize]
  have hlast : readLe (front ++ t.encode) ((front ++ t.encode).length - 4) 4 = t.encode.length := by
    have hwidth : t.encode.length < 256 ^ 4 := by
      rw [hsize]
      simp only [maxSparseEntries, trailerFixedSize, trailerTailSize] at hcount ⊢
      omega
    have hsplit : front ++ t.encode =
        (front ++ (t.encodeHead ++ t.segmentDigest.toList)) ++ encodeLe 4 t.encode.length := by
      rw [← hbound, SegmentTrailer.encode]
      simp only [List.append_assoc]
    rw [hsplit]
    exact Bytes.readLe_last hwidth
  have hdrop : (front ++ t.encode).drop ((front ++ t.encode).length - t.encode.length) = t.encode := by
    rw [hlen, Nat.add_sub_cancel, List.drop_left]
  have hfields : readTrailerFields t.encode = .ok (t, encodeLe 4 (t.encodeHead.length + 32 + 4)) := by
    have hread := reads_trailerFields h (encodeLe 4 (t.encodeHead.length + 32 + 4))
    rwa [List.append_assoc] at hread
  have hlong : ¬ (front ++ t.encode).length < headerSize + trailerFixedSize + trailerTailSize := by
    omega
  have hrange : ¬ (t.encode.length < trailerFixedSize + trailerTailSize ∨ trailerSizeMax < t.encode.length ∨
      (front ++ t.encode).length < headerSize + t.encode.length) := by
    rw [trailerSizeMax]
    omega
  rw [readTrailer, if_neg hlong]
  dsimp only
  rw [hlast, if_neg hrange, hdrop, hfields]
  dsimp only
  rw [if_pos hsize, hlen, Nat.add_sub_cancel]
  rfl

end Trailer

/-! ### The file -/

section File

variable {header : SegmentHeader} {records : List SegmentRecord}

theorem scanRecords_flatMap (h : ∀ record ∈ records, record.Fits) :
    scanRecords (records.flatMap SegmentRecord.encode).length (records.flatMap SegmentRecord.encode) =
      (records, []) := by
  have hfits : ∀ entry ∈ records.map fun record => (⟨record, none⟩ : AppendedRecord), entry.record.Fits := by
    intro entry hentry
    obtain ⟨record, hrecord, rfl⟩ := List.mem_map.1 hentry
    exact h record hrecord
  have hend : ∀ record rest, nextRecord [] ≠ .ok (some (record, rest)) := by
    intro record rest hno
    cases hno
  have hscan := SegmentLife.scanRecords_encode hfits hend le_rfl
  rw [recordBytes, List.flatMap_map, List.append_nil, List.map_map, Function.comp_def, List.map_id'] at hscan
  exact hscan

theorem adoptRecords_encode (hheader : header.Fits) (hrecords : ∀ record ∈ records, record.Fits) :
    adoptRecords (header.encode ++ records.flatMap SegmentRecord.encode) = .ok records := by
  have hdrop : (header.encode ++ records.flatMap SegmentRecord.encode).drop headerSize =
      records.flatMap SegmentRecord.encode := List.drop_left' (length_headerEncode header)
  rw [adoptRecords, readHeader_encode hheader]
  show (if _ then _ else _) = _
  rw [hdrop, scanRecords_flatMap hrecords]
  rfl

/-- A sealed file opens: its digest covers everything before it. -/
theorem openSealed_encode (hheader : header.Fits) (hrecords : ∀ record ∈ records, record.Fits)
    {t : SegmentTrailer} (ht : t.Fits) (hdigest : t.segmentDigest =
      Sha256.hash (header.encode ++ records.flatMap SegmentRecord.encode ++ t.encodeHead)) :
    openSealed (header.encode ++ records.flatMap SegmentRecord.encode ++ t.encode) =
      .ok ⟨header, t, records, true⟩ := by
  have hlen : (header.encode ++ records.flatMap SegmentRecord.encode).length =
      headerSize + (records.flatMap SegmentRecord.encode).length := by
    rw [List.length_append, length_headerEncode]
  have hhead := readHeader_encode hheader (records.flatMap SegmentRecord.encode ++ t.encode)
  rw [← List.append_assoc] at hhead
  have hcovered : (header.encode ++ records.flatMap SegmentRecord.encode ++ t.encode).take
      ((header.encode ++ records.flatMap SegmentRecord.encode).length + trailerFixedSize +
        t.sparse.length * 16) =
      header.encode ++ records.flatMap SegmentRecord.encode ++ t.encodeHead := by
    rw [Nat.add_assoc, ← length_trailerHead, ← List.length_append, SegmentTrailer.encode, ← List.append_assoc,
      List.take_left]
  have hregion : ((header.encode ++ records.flatMap SegmentRecord.encode ++ t.encode).take
      (header.encode ++ records.flatMap SegmentRecord.encode).length).drop headerSize =
      records.flatMap SegmentRecord.encode := by
    rw [List.take_left, List.drop_left' (length_headerEncode header)]
  rw [openSealed, hhead]
  show (readTrailer _ >>= _) = _
  rw [readTrailer_append ht (by omega)]
  show (if _ then _ else _) = _
  rw [hcovered, ← hdigest, if_neg (not_not.2 rfl), hregion, scanRecords_flatMap hrecords]
  rfl

end File

/-! ### The writer -/

/-- What the writer holds fits its fields in the file. -/
structure SegmentWriter.Encodes (w : SegmentWriter) : Prop extends w.Measured where
  header : w.header.Fits
  records : ∀ record ∈ w.records, record.Fits
  count : w.records.length ≤ capacityRecords
  lastSlot : w.lastSlot < 256 ^ 8
  maxPromised : w.maxPromised.Fits
  entries : ∀ entry ∈ w.sparse, entry.slot < 256 ^ 8 ∧ entry.offset ≤ w.endOffset

namespace SegmentWriter

variable {w : SegmentWriter}

theorem encodes_create {header : SegmentHeader} (h : header.Fits) : (create header).Encodes where
  toMeasured := measured_create header
  header := h
  records := fun _ hno => absurd hno List.not_mem_nil
  count := Nat.zero_le _
  lastSlot := Nat.pow_pos (by decide)
  maxPromised := ActiveWriter.zero_fits
  entries := fun _ hno => absurd hno List.not_mem_nil

theorem Encodes.append (h : w.Encodes) {record : SegmentRecord} (hfits : record.Fits)
    (hroom : w.records.length < capacityRecords) : (w.append record).Encodes where
  toMeasured := h.toMeasured.append record
  header := h.header
  records := by
    intro r hr
    rcases List.mem_append.1 hr with hr | hr
    · exact h.records r hr
    · rw [List.mem_singleton.1 hr]
      exact hfits
  count := by
    show (w.records ++ [record]).length ≤ _
    rw [List.length_append, List.length_singleton]
    exact hroom
  lastSlot := max_lt h.lastSlot hfits.2.1
  maxPromised := h.maxPromised
  entries := by
    intro entry hentry
    have hgrow : w.endOffset ≤ (w.append record).endOffset := Nat.le_add_right _ _
    have hcases : entry ∈ w.sparse ∨ entry = ⟨record.slot, w.endOffset⟩ := by
      replace hentry : entry ∈ if w.records.length % sparseStride = 0 ∧ record.slot ≠ 0 then
        w.sparse ++ [⟨record.slot, w.endOffset⟩] else w.sparse := hentry
      split at hentry
      · exact (List.mem_append.1 hentry).imp_right List.mem_singleton.1
      · exact Or.inl hentry
    rcases hcases with hold | rfl
    · exact ⟨(h.entries entry hold).1, (h.entries entry hold).2.trans hgrow⟩
    · exact ⟨hfits.2.1, hgrow⟩

theorem Encodes.observePromise (h : w.Encodes) {ballot : Ballot} (hfits : ballot.Fits) :
    (w.observePromise ballot).Encodes := by
  have hmeasured := h.toMeasured.observePromise ballot
  rw [SegmentWriter.observePromise] at hmeasured ⊢
  split
  · rename_i hless
    rw [if_pos hless] at hmeasured
    exact ⟨hmeasured, h.header, h.records, h.count, h.lastSlot, hfits, h.entries⟩
  · exact h

theorem Encodes.endOffset_lt (h : w.Encodes) : w.endOffset < 256 ^ 8 := by
  have hrecord : ∀ record ∈ w.records, record.encode.length ≤ recordHeaderSize + maxWriteSize := by
    intro record hmem
    rw [length_recordEncode]
    exact Nat.add_le_add_left (h.records record hmem).2.2 _
  calc w.endOffset = headerSize + (w.records.flatMap SegmentRecord.encode).length := h.endOffset
    _ ≤ headerSize + w.records.length * (recordHeaderSize + maxWriteSize) :=
        Nat.add_le_add_left (Bytes.length_records_le hrecord) _
    _ ≤ headerSize + capacityRecords * (recordHeaderSize + maxWriteSize) :=
        Nat.add_le_add_left (Nat.mul_le_mul_right _ h.count) _
    _ < 256 ^ 8 := by decide

theorem Encodes.trailer_fits (h : w.Encodes) {chosenThrough : ℕ} (hchosen : chosenThrough < 256 ^ 8) :
    (w.trailer chosenThrough).Fits where
  lastGlobalSlot := h.lastSlot
  recordCount := h.count.trans_lt (by decide)
  maxPromised := h.maxPromised
  chosenThrough := hchosen
  count := by
    have hsparse := h.sparse
    have hcount := h.count
    show w.sparse.length ≤ maxSparseEntries
    simp only [sparseStride, capacityRecords, maxSparseEntries] at hsparse hcount ⊢
    omega
  sparse := fun entry hentry =>
    ⟨(h.entries entry hentry).1, (h.entries entry hentry).2.trans_lt h.endOffset_lt⟩

end SegmentWriter

theorem fits_recordOf {createStop : StopSign → Bool} {write : Write} (h : write.Canonical createStop)
    {sequence : ℕ} (hsequence : sequence < 256 ^ 8) : (recordOf sequence write).Fits := by
  refine ⟨hsequence, ?_, length_encodeWrite_le h⟩
  cases write with
  | promise ballot => exact Nat.pow_pos (by decide)
  | accept ballot slot value => exact h.2.1
  | commit slot value => exact h.1
  | trimAnchor anchor => exact Nat.pow_pos (by decide)

/-- The running journal appends what can be read back. -/
theorem JournalHandle.encodes_appendRecord {h : JournalHandle} (henc : h.active.Encodes)
    {createStop : StopSign → Bool} {write : Write} (hcanonical : write.Canonical createStop)
    (hsequence : h.nextSequence < 256 ^ 8) (hroom : h.active.records.length < capacityRecords) :
    (h.appendRecord write).active.Encodes := by
  have hfits := fits_recordOf hcanonical hsequence
  cases write with
  | promise ballot =>
    obtain ⟨hrecords, -⟩ := h.active.records_observePromise ballot
    exact (henc.observePromise hcanonical).append hfits (by rwa [hrecords])
  | accept ballot slot value =>
    obtain ⟨hrecords, -⟩ := h.active.records_observePromise ballot
    exact (henc.observePromise hcanonical.1).append hfits (by rwa [hrecords])
  | commit slot value => exact henc.append hfits hroom
  | trimAnchor anchor => exact henc.append hfits hroom

/-! ### What the readers find -/

def SegmentFile.bytes (file : SegmentFile) : List UInt8 :=
  file.header.encode ++ file.records.flatMap SegmentRecord.encode ++
    match file.trailer with
    | some trailer => trailer.encode
    | none => []

/-- A file as a writer leaves it, sealed or not. -/
def SegmentFile.Written (file : SegmentFile) : Prop :=
  ∃ w : SegmentWriter, w.Encodes ∧ file.header = w.header ∧ file.records = w.records ∧
    ∀ trailer ∈ file.trailer, ∃ chosenThrough < 256 ^ 8, trailer = w.trailer chosenThrough

/-- **The readers find in the bytes what the journal model says they find**: in every file its header, in a
sealed one the trailer and all records, in an active one all records. -/
theorem SegmentFile.Written.view_bytes {file : SegmentFile} (h : file.Written) :
    (SegmentView.ofBytes file.bytes).header = file.view.header ∧
      (file.trailer.isSome = true → (SegmentView.ofBytes file.bytes).sealedView = file.view.sealedView) ∧
      (file.trailer = none → (SegmentView.ofBytes file.bytes).adopted = file.view.adopted) := by
  obtain ⟨w, hw, hheader, hrecords, htrailer⟩ := h
  obtain ⟨header, records, trailer, synced⟩ := file
  obtain rfl : header = w.header := hheader
  obtain rfl : records = w.records := hrecords
  refine ⟨?_, ?_, ?_⟩
  · show readHeader (_ ++ _ ++ _) = _
    rw [List.append_assoc]
    exact readHeader_encode hw.header _
  · intro hsome
    cases trailer with
    | none => cases hsome
    | some t =>
      obtain ⟨chosenThrough, hchosen, rfl⟩ := htrailer t rfl
      exact openSealed_encode hw.header hw.records (hw.trailer_fits hchosen) rfl
  · intro hnone
    obtain rfl : trailer = none := hnone
    show adoptRecords (_ ++ []) = _
    rw [List.append_nil]
    exact adoptRecords_encode hw.header hw.records

end Zaxonlite
