import Mathlib.Order.MinMax
import Zaxonlite.Storage.Segment

/-!
# The active segment's file

The writer of the active segment keeps a running digest, counters and a sparse index in step with the
bytes it has written. After a crash that state is gone and the file may end inside a record: `adopt`
rescans the file, cuts it at the last whole record and rebuilds the state by a second algorithm. Here both
act on the bytes of the file, and the rebuilt writer is compared with the one that was lost.
-/

namespace Zaxonlite

open Bytes (encodeLe readLe)
open Segment
open Cursor (Reads)

/-! ### The writer -/

/-- `writePositionalAll`; a gap before the written bytes reads as zero. -/
def writeAt (file bytes : List UInt8) (offset : ℕ) : List UInt8 :=
  file.take offset ++ (List.replicate (offset - file.length) 0 ++
    (bytes ++ file.drop (offset + bytes.length)))

/-- `File.setLength`. -/
def setFileLength (file : List UInt8) (length : ℕ) : List UInt8 :=
  file.take length ++ List.replicate (length - file.length) 0

/-- `segment.Writer` with the file it writes. The running hash is the bytes it has been given. -/
@[ext] structure ActiveWriter where
  file : List UInt8
  hasher : List UInt8
  endOffset : ℕ
  firstSlot : ℕ
  lastSlot : ℕ
  recordCount : ℕ
  maxPromised : Ballot
  sparse : List SparseEntry
  isSealed : Bool

/-- One record handed to the writer, with the ballot its caller reports for it. -/
structure AppendedRecord where
  record : SegmentRecord
  promise : Option Ballot

namespace ActiveWriter

def create (header : SegmentHeader) : ActiveWriter where
  file := writeAt [] header.encode 0
  hasher := header.encode
  endOffset := headerSize
  firstSlot := header.firstGlobalSlot
  lastSlot := 0
  recordCount := 0
  maxPromised := Ballot.zero
  sparse := []
  isSealed := false

def append (w : ActiveWriter) (record : SegmentRecord) : ActiveWriter where
  file := writeAt w.file record.encode w.endOffset
  hasher := w.hasher ++ record.encode
  endOffset := w.endOffset + (recordHeaderSize + record.payload.length)
  firstSlot := w.firstSlot
  lastSlot := if record.slot > w.lastSlot then record.slot else w.lastSlot
  recordCount := w.recordCount + 1
  maxPromised := w.maxPromised
  sparse :=
    if w.recordCount % sparseStride = 0 ∧ record.slot ≠ 0 then
      w.sparse ++ [⟨record.slot, w.endOffset⟩]
    else w.sparse
  isSealed := w.isSealed

def observePromise (w : ActiveWriter) (ballot : Ballot) : ActiveWriter :=
  if w.maxPromised.lessThan ballot then { w with maxPromised := ballot } else w

/-- One turn of `Journal.appendWrites`: the ballot is reported before the record is appended. -/
def appendObserved (w : ActiveWriter) (entry : AppendedRecord) : ActiveWriter :=
  (match entry.promise with
    | some ballot => w.observePromise ballot
    | none => w).append entry.record

def appendAll (w : ActiveWriter) (entries : List AppendedRecord) : ActiveWriter :=
  entries.foldl appendObserved w

/-- The trailer `seal` writes, but for its digest. -/
def trailerFields (w : ActiveWriter) (chosenThrough : ℕ) (digest : HashBytes) : SegmentTrailer where
  lastGlobalSlot := w.lastSlot
  recordCount := w.recordCount
  maxPromised := w.maxPromised
  chosenThrough := chosenThrough
  sparse := w.sparse
  segmentDigest := digest

/-- The digest `seal` takes: of everything written and the trailer's fields. -/
def sealedDigest (w : ActiveWriter) (chosenThrough : ℕ) : HashBytes :=
  Sha256.hash (w.hasher ++ (w.trailerFields chosenThrough Journal.zeroHash).encodeHead)

def sealedTrailer (w : ActiveWriter) (chosenThrough : ℕ) : SegmentTrailer :=
  w.trailerFields chosenThrough (w.sealedDigest chosenThrough)

/-- `Writer.seal`: the digest it returns and the writer it leaves. -/
def sealFile (w : ActiveWriter) (chosenThrough : ℕ) : HashBytes × ActiveWriter :=
  let bytes := (w.sealedTrailer chosenThrough).encode
  (w.sealedDigest chosenThrough,
    { w with
      file := writeAt w.file bytes w.endOffset
      hasher := w.hasher ++ (w.trailerFields chosenThrough Journal.zeroHash).encodeHead
      endOffset := w.endOffset + bytes.length
      isSealed := true })

/-! ### Adoption -/

/-- What the scan of `adopt` has gathered. -/
structure Scan where
  endOffset : ℕ
  count : ℕ
  last : ℕ
  sparse : List SparseEntry

def Scan.start : Scan := ⟨headerSize, 0, 0, []⟩

def Scan.step (s : Scan) (record : SegmentRecord) : Scan where
  endOffset := s.endOffset + (recordHeaderSize + record.payload.length)
  count := s.count + 1
  last := if record.slot > s.last then record.slot else s.last
  sparse :=
    if s.count % sparseStride = 0 ∧ record.slot ≠ 0 then s.sparse ++ [⟨record.slot, s.endOffset⟩]
    else s.sparse

/-- The loop of `adopt`. The reader stands at the end of the last whole record; every record takes
bytes, so the length of the file is enough fuel. -/
def scanLoop (file : List UInt8) : ℕ → Scan → Except SegmentError Scan
  | 0, s => .ok s
  | fuel + 1, s =>
    match nextRecord (file.drop s.endOffset) with
    | .ok none => .ok s
    | .ok (some (record, _)) => scanLoop file fuel (s.step record)
    | .error _ =>
      match recordTouchesEof (file.drop s.endOffset) with
      | .ok true => .ok s
      | .ok false => .error .corruptSegment
      | .error e => .error e

/-- The size of the buffer the file is rehashed through. -/
def rehashBuffer : ℕ := 64 * 1024

/-- The rehash of `adopt`, a bufferful at a time. -/
def rehash (file : List UInt8) (endOffset : ℕ) : ℕ → ℕ → List UInt8 → Except SegmentError (List UInt8)
  | 0, _, hasher => .ok hasher
  | fuel + 1, position, hasher =>
    if position < endOffset then
      let want := min rehashBuffer (endOffset - position)
      let read := (file.drop position).take want
      if read.length ≠ want then .error .corruptSegment
      else rehash file endOffset fuel (position + want) (hasher ++ read)
    else .ok hasher

def adopt (file : List UInt8) : Except SegmentError ActiveWriter :=
  match readHeader file with
  | .error e => .error e
  | .ok _ =>
    match scanLoop file file.length Scan.start with
    | .error e => .error e
    | .ok s =>
      let cut := setFileLength file s.endOffset
      match rehash cut s.endOffset s.endOffset 0 [] with
      | .error e => .error e
      | .ok hasher =>
        match readHeader cut with
        | .error e => .error e
        | .ok header => .ok
          { file := cut
            hasher := hasher
            endOffset := s.endOffset
            firstSlot := header.firstGlobalSlot
            lastSlot := s.last
            recordCount := s.count
            maxPromised := Ballot.zero
            sparse := s.sparse
            isSealed := false }

end ActiveWriter

/-! ### Records on disk -/

def SegmentHeader.Fits (header : SegmentHeader) : Prop :=
  header.databaseId < 256 ^ 16 ∧ header.firstGlobalSlot < 256 ^ 8

/-- A record `append` takes. -/
def SegmentRecord.Fits (record : SegmentRecord) : Prop :=
  record.sequence < 256 ^ 8 ∧ record.slot < 256 ^ 8 ∧ record.payload.length ≤ maxWriteSize

section Reading

variable {record : SegmentRecord} {rest : List UInt8}

theorem crc32_lt (bytes : List UInt8) : crc32 bytes < 256 ^ 4 :=
  UInt32.toNat_lt _

theorem length_headerEncode (header : SegmentHeader) : header.encode.length = headerSize := by
  simp [SegmentHeader.encode, headerSize]

theorem length_encodeHead (record : SegmentRecord) : record.encodeHead.length = 28 := by
  simp [SegmentRecord.encodeHead]

theorem length_recordEncode (record : SegmentRecord) :
    record.encode.length = recordHeaderSize + record.payload.length := by
  simp only [SegmentRecord.encode, List.length_append, length_encodeHead, Bytes.length_encodeLe,
    recordHeaderSize]
  omega

theorem maxWriteSize_lt : maxWriteSize < 256 ^ 4 := by
  decide

theorem readHeader_encode {header : SegmentHeader} (h : header.Fits) (rest : List UInt8) :
    readHeader (header.encode ++ rest) = .ok header := by
  have hlen : ¬ (header.encode ++ rest).length < headerSize := by
    rw [List.length_append, length_headerEncode]
    omega
  have hread : Reads (do
      let magic ← Cursor.int .corruptSegment 4
      Cursor.require (magic ≠ previousHeaderMagic) .unsupportedSegmentVersion
      Cursor.require (magic = headerMagic) .corruptSegment
      let version ← Cursor.byte .corruptSegment
      Cursor.require (version = formatVersion) .unsupportedSegmentVersion
      let _ ← Cursor.take .corruptSegment 3
      let databaseId ← Cursor.int .corruptSegment 16
      let firstGlobalSlot ← Cursor.int .corruptSegment 8
      let digest ← Cursor.take .corruptSegment 32
      if h : digest.length = 32 then
        pure ⟨databaseId, firstGlobalSlot, ⟨digest.toArray, h⟩⟩
      else Cursor.fail .corruptSegment : Cursor SegmentError SegmentHeader) header.encode header := by
    apply (Reads.int _ (by decide)).bind
    apply Reads.require _ (by decide)
    apply Reads.require _ (by decide)
    apply (Reads.byte _ formatVersion).bind
    apply Reads.require _ (by decide)
    apply (Reads.take _ [0, 0, 0]).bind
    apply (Reads.int _ h.1).bind
    apply (Reads.int _ h.2).bind
    have hdigest : header.previousSegmentDigest.toList.length = 32 :=
      header.previousSegmentDigest.toArray.length_toList.trans header.previousSegmentDigest.size_toArray
    have htake := Reads.take SegmentError.corruptSegment header.previousSegmentDigest.toList
    rw [hdigest] at htake
    apply htake.last
    rw [dif_pos hdigest]
    exact Reads.pure header
  rw [readHeader, if_neg hlen, hread rest]

theorem reads_recordFields (h : record.Fits) : Reads readRecordFields record.encode
    (record, crc32 (record.encodeHead ++ record.payload)) := by
  have hlen : record.payload.length < 256 ^ 4 := h.2.2.trans_lt maxWriteSize_lt
  rw [SegmentRecord.encode, SegmentRecord.encodeHead]
  simp only [List.append_assoc]
  apply (Reads.int _ (by decide)).bind
  apply Reads.require _ (by decide)
  apply (Reads.byte _ formatVersion).bind
  apply Reads.require _ (by decide)
  apply (Reads.byte _ record.kind).bind
  apply (Reads.int _ (by decide)).bind
  apply Reads.require _ (by decide)
  apply (Reads.int _ h.1).bind
  apply (Reads.int _ h.2.1).bind
  apply (Reads.int _ hlen).bind
  apply (Reads.int _ (crc32_lt _)).bind
  apply Reads.require _ (decide_eq_true h.2.2)
  exact (Reads.take _ record.payload).last (Reads.pure _)

theorem fails_recordFields (h : record.Fits) {part : List UInt8}
    (hpart : part.length < record.payload.length) : Cursor.Fails readRecordFields
      (record.encodeHead ++ (encodeLe 4 (crc32 (record.encodeHead ++ record.payload)) ++ part)) := by
  have hlen : record.payload.length < 256 ^ 4 := h.2.2.trans_lt maxWriteSize_lt
  have hcrc := crc32_lt (record.encodeHead ++ record.payload)
  generalize crc32 (record.encodeHead ++ record.payload) = crc at hcrc ⊢
  rw [SegmentRecord.encodeHead]
  simp only [List.append_assoc]
  apply (Reads.int _ (by decide)).fails
  apply Reads.require_fails _ (by decide)
  apply (Reads.byte _ formatVersion).fails
  apply Reads.require_fails _ (by decide)
  apply (Reads.byte _ record.kind).fails
  apply (Reads.int _ (by decide)).fails
  apply Reads.require_fails _ (by decide)
  apply (Reads.int _ h.1).fails
  apply (Reads.int _ h.2.1).fails
  apply (Reads.int _ hlen).fails
  apply (Reads.int _ hcrc).fails
  apply Reads.require_fails _ (decide_eq_true h.2.2)
  exact Cursor.fails_take _ hpart _

theorem nextRecord_encode (h : record.Fits) (rest : List UInt8) :
    nextRecord (record.encode ++ rest) = .ok (some (record, rest)) := by
  have hlen : (record.encode ++ rest).length = recordHeaderSize + record.payload.length + rest.length := by
    rw [List.length_append, length_recordEncode]
  have hne : record.encode ++ rest ≠ [] := by
    intro hnil
    rw [hnil] at hlen
    simp only [List.length_nil, recordHeaderSize] at hlen
    omega
  have hhead : (record.encode ++ rest).take 28 = record.encodeHead := by
    rw [SegmentRecord.encode, List.append_assoc, List.take_append_of_le_length
      (length_encodeHead record).ge, List.take_of_length_le (length_encodeHead record).le]
  rw [nextRecord, if_neg hne, if_neg (by omega), reads_recordFields h rest, hhead]
  exact if_pos rfl

/-- A record cut off anywhere is a torn tail: it cannot be read, and it could reach past the end. -/
theorem nextRecord_torn (h : record.Fits) {count : ℕ} (hpos : 0 < count)
    (hcut : count < record.encode.length) :
    (∃ e, nextRecord (record.encode.take count) = .error e) ∧
      recordTouchesEof (record.encode.take count) = .ok true := by
  rw [length_recordEncode] at hcut
  have hlen : (record.encode.take count).length = count := by
    rw [List.length_take, length_recordEncode]
    omega
  have hne : record.encode.take count ≠ [] := by
    intro hnil
    rw [hnil] at hlen
    exact hpos.ne hlen
  rw [nextRecord, if_neg hne, recordTouchesEof, hlen]
  by_cases hshort : count < recordHeaderSize
  · rw [if_pos hshort, if_pos hshort]
    exact ⟨⟨_, rfl⟩, rfl⟩
  · have hsplit : record.encode.take count = record.encodeHead ++
        (encodeLe 4 (crc32 (record.encodeHead ++ record.payload)) ++
          record.payload.take (count - recordHeaderSize)) := by
      simp only [recordHeaderSize] at hshort ⊢
      rw [SegmentRecord.encode, List.take_append, List.take_append, length_encodeHead,
        Bytes.length_encodeLe, List.take_of_length_le, List.take_of_length_le]
      · rw [Nat.sub_sub]
      · rw [Bytes.length_encodeLe]
        omega
      · rw [length_encodeHead]
        omega
    have hpart : (record.payload.take (count - recordHeaderSize)).length < record.payload.length := by
      rw [List.length_take]
      omega
    have hcount : readLe (record.encode.take count) 24 4 = record.payload.length := by
      have hpre : (encodeLe 4 recordMagic ++ ([formatVersion] ++ ([record.kind] ++ (encodeLe 2 0 ++
          (encodeLe 8 record.sequence ++ encodeLe 8 record.slot))))).length = 24 := by
        simp
      have hassoc : record.encodeHead = (encodeLe 4 recordMagic ++ ([formatVersion] ++ ([record.kind] ++
          (encodeLe 2 0 ++ (encodeLe 8 record.sequence ++ encodeLe 8 record.slot))))) ++
            encodeLe 4 record.payload.length := by
        simp only [SegmentRecord.encodeHead, List.append_assoc]
      rw [hsplit, hassoc, List.append_assoc]
      have hread : readLe ((encodeLe 4 recordMagic ++ ([formatVersion] ++ ([record.kind] ++
          (encodeLe 2 0 ++ (encodeLe 8 record.sequence ++ encodeLe 8 record.slot))))) ++
            (encodeLe 4 record.payload.length ++ (encodeLe 4 (crc32 (record.encodeHead ++ record.payload)) ++
              record.payload.take (count - recordHeaderSize)))) (24 + 0) 4 =
          readLe (encodeLe 4 record.payload.length ++ (encodeLe 4 (crc32 (record.encodeHead ++
            record.payload)) ++ record.payload.take (count - recordHeaderSize))) 0 4 :=
        Bytes.readLe_append hpre
      rw [← hassoc]
      exact hread.trans (Bytes.readLe_encodeLe (h.2.2.trans_lt maxWriteSize_lt) _)
    obtain ⟨e, he⟩ := fails_recordFields h hpart
    rw [if_neg hshort, if_neg hshort, hcount]
    constructor
    · use e
      rw [hsplit, he]
    · have hbound : maxWriteSize + 32 < 2 ^ 32 := by decide
      have hsize := h.2.2
      have hsmall : ¬ 2 ^ 32 ≤ recordHeaderSize + record.payload.length := by
        simp only [recordHeaderSize]
        omega
      rw [if_neg hsmall, decide_eq_true hcut]

end Reading

/-! ### The writer and the bytes it wrote -/

def recordBytes (entries : List AppendedRecord) : List UInt8 :=
  entries.flatMap fun entry => entry.record.encode

def reportedBallots (entries : List AppendedRecord) : List Ballot :=
  entries.filterMap AppendedRecord.promise

theorem writeAt_end (file bytes : List UInt8) : writeAt file bytes file.length = file ++ bytes := by
  rw [writeAt, List.take_length, Nat.sub_self, List.replicate_zero, List.nil_append,
    List.drop_of_length_le (by omega), List.append_nil]

theorem setFileLength_of_le {file : List UInt8} {length : ℕ} (h : length ≤ file.length) :
    setFileLength file length = file.take length := by
  rw [setFileLength, Nat.sub_eq_zero_of_le h, List.replicate_zero, List.append_nil]

namespace ActiveWriter

/-- The hash has taken the file and the writer stands at its end. -/
def InStep (w : ActiveWriter) : Prop :=
  w.hasher = w.file ∧ w.endOffset = w.file.length

/-- The state `adopt` recomputes by scanning. -/
def scan (w : ActiveWriter) : Scan :=
  ⟨w.endOffset, w.recordCount, w.lastSlot, w.sparse⟩

theorem create_file (header : SegmentHeader) : (create header).file = header.encode :=
  writeAt_end [] header.encode

theorem create_inStep (header : SegmentHeader) : (create header).InStep := by
  constructor
  · rw [create_file]
    rfl
  · rw [create_file, length_headerEncode]
    rfl

theorem appendObserved_eq (w : ActiveWriter) (entry : AppendedRecord) :
    w.appendObserved entry =
      { w.append entry.record with maxPromised := entry.promise.toList.foldl max w.maxPromised } := by
  rw [appendObserved]
  cases entry.promise with
  | none => rfl
  | some ballot =>
    show (w.observePromise ballot).append entry.record = _
    rw [observePromise, Option.toList_some, List.foldl_cons, List.foldl_nil]
    by_cases hless : w.maxPromised.lessThan ballot = true
    · rw [if_pos hless, max_eq_right (Ballot.lessThan_iff.1 hless).le]
      rfl
    · rw [if_neg hless, max_eq_left (not_lt.1 (mt Ballot.lessThan_iff.2 hless))]
      rfl

theorem appendObserved_file {w : ActiveWriter} (h : w.InStep) (entry : AppendedRecord) :
    (w.appendObserved entry).file = w.file ++ entry.record.encode := by
  rw [appendObserved_eq]
  show writeAt w.file entry.record.encode w.endOffset = _
  rw [h.2, writeAt_end]

theorem appendObserved_inStep {w : ActiveWriter} (h : w.InStep) (entry : AppendedRecord) :
    (w.appendObserved entry).InStep := by
  have hfile := appendObserved_file h entry
  constructor
  · rw [hfile, appendObserved_eq, ← h.1]
    rfl
  · rw [hfile, List.length_append, ← h.2, length_recordEncode, appendObserved_eq]
    rfl

theorem appendObserved_scan (w : ActiveWriter) (entry : AppendedRecord) :
    (w.appendObserved entry).scan = w.scan.step entry.record := by
  rw [appendObserved_eq]
  rfl

theorem appendAll_inStep {w : ActiveWriter} (h : w.InStep) (entries : List AppendedRecord) :
    (w.appendAll entries).InStep ∧ (w.appendAll entries).file = w.file ++ recordBytes entries := by
  induction entries generalizing w with
  | nil => exact ⟨h, (List.append_nil _).symm⟩
  | cons entry entries ih =>
    obtain ⟨hstep, hfile⟩ := ih (appendObserved_inStep h entry)
    rw [appendObserved_file h entry, List.append_assoc] at hfile
    exact ⟨hstep, hfile⟩

theorem appendAll_scan (w : ActiveWriter) (entries : List AppendedRecord) :
    (w.appendAll entries).scan = (entries.map AppendedRecord.record).foldl Scan.step w.scan := by
  induction entries generalizing w with
  | nil => rfl
  | cons entry entries ih =>
    rw [List.map_cons, List.foldl_cons, ← appendObserved_scan]
    exact ih (w.appendObserved entry)

theorem appendAll_maxPromised (w : ActiveWriter) (ballot : Ballot) (entries : List AppendedRecord) :
    ({ w with maxPromised := ballot }).appendAll entries =
      { w.appendAll entries with maxPromised := (reportedBallots entries).foldl max ballot } := by
  induction entries generalizing w ballot with
  | nil => rfl
  | cons entry entries ih =>
    have hstep : ({ w with maxPromised := ballot }).appendObserved entry =
        { w.appendObserved entry with maxPromised := entry.promise.toList.foldl max ballot } := by
      rw [appendObserved_eq, appendObserved_eq]
      rfl
    show (({ w with maxPromised := ballot }).appendObserved entry).appendAll entries = _
    rw [hstep, ih]
    cases hpromise : entry.promise with
    | none =>
      rw [reportedBallots, reportedBallots, List.filterMap_cons_none hpromise]
      rfl
    | some b =>
      rw [reportedBallots, reportedBallots, List.filterMap_cons_some hpromise]
      rfl

theorem maxPromised_appendAll (w : ActiveWriter) (entries : List AppendedRecord) :
    (w.appendAll entries).maxPromised = (reportedBallots entries).foldl max w.maxPromised :=
  congrArg maxPromised (appendAll_maxPromised w w.maxPromised entries)

theorem firstSlot_appendAll (w : ActiveWriter) (entries : List AppendedRecord) :
    (w.appendAll entries).firstSlot = w.firstSlot ∧ (w.appendAll entries).isSealed = w.isSealed := by
  induction entries generalizing w with
  | nil => exact ⟨rfl, rfl⟩
  | cons entry entries ih =>
    have hsame : (w.appendObserved entry).firstSlot = w.firstSlot ∧
        (w.appendObserved entry).isSealed = w.isSealed := by
      rw [appendObserved_eq]
      exact ⟨rfl, rfl⟩
    obtain ⟨hfirst, hsealed⟩ := ih (w.appendObserved entry)
    exact ⟨hfirst.trans hsame.1, hsealed.trans hsame.2⟩

/-! ### The scan of a truncated file -/

/-- The records that lie wholly within the first `count` bytes. -/
def wholeRecords : ℕ → List AppendedRecord → List AppendedRecord
  | _, [] => []
  | count, entry :: entries =>
    if entry.record.encode.length ≤ count then
      entry :: wholeRecords (count - entry.record.encode.length) entries
    else []

theorem wholeRecords_prefix (count : ℕ) (entries : List AppendedRecord) :
    wholeRecords count entries <+: entries := by
  induction entries generalizing count with
  | nil => exact List.prefix_rfl
  | cons entry entries ih =>
    rw [wholeRecords]
    split
    · exact List.cons_prefix_cons.2 ⟨rfl, ih _⟩
    · exact List.nil_prefix

theorem length_wholeRecords (count : ℕ) (entries : List AppendedRecord) :
    (recordBytes (wholeRecords count entries)).length ≤ count := by
  induction entries generalizing count with
  | nil => exact Nat.zero_le _
  | cons entry entries ih =>
    rw [wholeRecords]
    split
    · rename_i hfit
      have hrest := ih (count - entry.record.encode.length)
      rw [recordBytes, List.flatMap_cons, List.length_append]
      rw [recordBytes] at hrest
      omega
    · exact Nat.zero_le _

theorem wholeRecords_longest {count : ℕ} {entries front : List AppendedRecord} (hfront : front <+: entries)
    (hfit : (recordBytes front).length ≤ count) : front <+: wholeRecords count entries := by
  induction entries generalizing count front with
  | nil => exact hfront
  | cons entry entries ih =>
    cases front with
    | nil => exact List.nil_prefix
    | cons first front =>
      obtain ⟨rfl, hrest⟩ := List.cons_prefix_cons.1 hfront
      rw [recordBytes, List.flatMap_cons, List.length_append] at hfit
      rw [wholeRecords, if_pos (by omega)]
      apply List.cons_prefix_cons.2
      refine ⟨rfl, ih hrest ?_⟩
      rw [recordBytes]
      omega

theorem drop_scanStep {file : List UInt8} {s : Scan} {record : SegmentRecord} {rest : List UInt8}
    (h : file.drop s.endOffset = record.encode ++ rest) :
    file.drop (s.step record).endOffset = rest := by
  show file.drop (s.endOffset + (recordHeaderSize + record.payload.length)) = rest
  rw [← List.drop_drop, h, ← length_recordEncode, List.drop_left]

/-- Over a file that ends inside its records the scan stops after the last whole one. -/
theorem scanLoop_truncated {file : List UInt8} {entries : List AppendedRecord}
    (hfits : ∀ entry ∈ entries, entry.record.Fits) {fuel count : ℕ} {s : Scan}
    (hrest : file.drop s.endOffset = (recordBytes entries).take count)
    (hfuel : (file.drop s.endOffset).length < fuel) :
    scanLoop file fuel s =
      .ok (((wholeRecords count entries).map AppendedRecord.record).foldl Scan.step s) := by
  induction entries generalizing fuel count s with
  | nil =>
    obtain ⟨fuel, rfl⟩ := Nat.exists_eq_succ_of_ne_zero (Nat.ne_of_gt (Nat.zero_lt_of_lt hfuel))
    have hnone : nextRecord (file.drop s.endOffset) = .ok none := by
      rw [hrest, recordBytes, List.flatMap_nil, List.take_nil]
      rfl
    rw [scanLoop, hnone]
    rfl
  | cons entry entries ih =>
    obtain ⟨fuel, rfl⟩ := Nat.exists_eq_succ_of_ne_zero (Nat.ne_of_gt (Nat.zero_lt_of_lt hfuel))
    have hentry := hfits entry List.mem_cons_self
    have hsize : 0 < entry.record.encode.length := by
      rw [length_recordEncode, recordHeaderSize]
      omega
    rw [recordBytes, List.flatMap_cons, List.take_append] at hrest
    by_cases hfit : entry.record.encode.length ≤ count
    · -- The whole record is there: the loop goes on behind it.
      rw [List.take_of_length_le hfit] at hrest
      have hnext : nextRecord (file.drop s.endOffset) =
          .ok (some (entry.record, (recordBytes entries).take (count - entry.record.encode.length))) := by
        rw [hrest]
        exact nextRecord_encode hentry _
      have hdrop := drop_scanStep hrest
      have hless : (file.drop (s.step entry.record).endOffset).length < fuel := by
        rw [hdrop]
        rw [hrest, List.length_append] at hfuel
        omega
      have hstep := ih (fun e he => hfits e (List.mem_cons_of_mem entry he)) hdrop hless
      rw [scanLoop, hnext, wholeRecords, if_pos hfit, List.map_cons, List.foldl_cons]
      exact hstep
    · -- The file ends inside the record, or just before it.
      have hcut : count < entry.record.encode.length := by omega
      rw [Nat.sub_eq_zero_of_le hcut.le, List.take_zero, List.append_nil] at hrest
      rw [scanLoop, wholeRecords, if_neg hfit, List.map_nil, List.foldl_nil, hrest]
      rcases Nat.eq_zero_or_pos count with rfl | hpos
      · rfl
      · obtain ⟨⟨e, he⟩, htouch⟩ := nextRecord_torn hentry hpos hcut
        rw [he, htouch]

theorem rehash_eq {file : List UInt8} {endOffset fuel position : ℕ} {hasher : List UInt8}
    (hend : endOffset ≤ file.length) (hpos : position ≤ endOffset) (hfuel : endOffset ≤ position + fuel) :
    rehash file endOffset fuel position hasher =
      .ok (hasher ++ (file.drop position).take (endOffset - position)) := by
  induction fuel generalizing position hasher with
  | zero =>
    have hall : endOffset - position = 0 := by omega
    rw [rehash, hall, List.take_zero, List.append_nil]
  | succ fuel ih =>
    rw [rehash]
    by_cases hmore : position < endOffset
    · have hwant : ((file.drop position).take (min rehashBuffer (endOffset - position))).length =
          min rehashBuffer (endOffset - position) := by
        rw [List.length_take, List.length_drop]
        omega
      have hsome : 0 < min rehashBuffer (endOffset - position) := by
        rw [rehashBuffer]
        omega
      rw [if_pos hmore]
      simp only [hwant, ne_eq, not_true_eq_false, if_false]
      rw [ih (by omega) (by omega), List.append_assoc]
      congr 2
      rw [← List.drop_drop, ← List.take_add]
      congr 1
      omega
    · have hall : endOffset - position = 0 := by omega
      rw [if_neg hmore, hall, List.take_zero, List.append_nil]

/-! ### Sealing -/

theorem sealFile_file {w : ActiveWriter} (h : w.InStep) (chosenThrough : ℕ) :
    (w.sealFile chosenThrough).2.file = w.file ++ (w.sealedTrailer chosenThrough).encode := by
  show writeAt w.file (w.sealedTrailer chosenThrough).encode w.endOffset = _
  rw [h.2, writeAt_end]

/-- Writers that differ at most in the rollup seal the same file only if they agree on the rollup. -/
theorem maxPromised_eq_of_sealFile {w : ActiveWriter} {ballot : Ballot} {chosenThrough : ℕ} (h : w.InStep)
    (hfits : w.maxPromised.Fits) (hfits' : ballot.Fits)
    (heq : ({ w with maxPromised := ballot }.sealFile chosenThrough).2.file =
      (w.sealFile chosenThrough).2.file) : ballot = w.maxPromised := by
  have hstep : InStep { w with maxPromised := ballot } := h
  rw [sealFile_file hstep, sealFile_file h] at heq
  have htrailer := List.append_cancel_left heq
  simp only [sealedTrailer, trailerFields, SegmentTrailer.encode, SegmentTrailer.encodeHead,
    List.append_assoc] at htrailer
  have hballot := List.append_cancel_left (List.append_cancel_left (List.append_cancel_left htrailer))
  exact ((reads_ballot hfits').inj (reads_ballot hfits) hballot).1

/-! ### Adoption after a crash -/

/-- Once the scan has found where the records of a writer end, `adopt` gives the writer back, but for its
rollup. -/
theorem adopt_of_scan {file : List UInt8} {kept : ActiveWriter} {header : SegmentHeader} (h : kept.InStep)
    (hfront : kept.file <+: file) (hopen : ∃ opened, readHeader file = .ok opened)
    (hread : readHeader kept.file = .ok header) (hfirst : kept.firstSlot = header.firstGlobalSlot)
    (hunsealed : kept.isSealed = false)
    (hscan : scanLoop file file.length Scan.start = .ok kept.scan) :
    adopt file = .ok { kept with maxPromised := Ballot.zero } := by
  obtain ⟨opened, hopened⟩ := hopen
  have hend : kept.scan.endOffset = kept.file.length := h.2
  have hresize : setFileLength file kept.scan.endOffset = kept.file := by
    rw [setFileLength_of_le (hend.trans_le hfront.length_le), hend]
    exact (List.prefix_iff_eq_take.1 hfront).symm
  have hhash : rehash kept.file kept.scan.endOffset kept.scan.endOffset 0 [] = .ok kept.file := by
    rw [rehash_eq hend.le (Nat.zero_le _) (by omega), List.drop_zero, Nat.sub_zero, List.nil_append,
      hend, List.take_length]
  rw [adopt, hopened]
  simp only [hscan, hresize, hhash, hread]
  congr 1
  apply ActiveWriter.ext
  · rfl
  · exact h.1.symm
  · rfl
  · exact hfirst.symm
  · rfl
  · rfl
  · rfl
  · rfl
  · exact hunsealed.symm

/-- `adopt` on the bytes a crash left of an active segment: every field is that of a writer that appended
only the whole records, but for the promise rollup, which starts over. -/
theorem adopt_truncated {header : SegmentHeader} {entries : List AppendedRecord} {cut : ℕ}
    (hheader : header.Fits) (hentries : ∀ entry ∈ entries, entry.record.Fits) (hcut : headerSize ≤ cut) :
    adopt (((create header).appendAll entries).file.take cut) =
      .ok { (create header).appendAll (wholeRecords (cut - headerSize) entries) with
        maxPromised := Ballot.zero } := by
  obtain ⟨-, hfile⟩ := appendAll_inStep (create_inStep header) entries
  obtain ⟨hkept, hkeptFile⟩ :=
    appendAll_inStep (create_inStep header) (wholeRecords (cut - headerSize) entries)
  have hscan := appendAll_scan (create header) (wholeRecords (cut - headerSize) entries)
  obtain ⟨hfirst, hunsealed⟩ :=
    firstSlot_appendAll (create header) (wholeRecords (cut - headerSize) entries)
  set kept := (create header).appendAll (wholeRecords (cut - headerSize) entries) with hkeptDef
  have hheaderLen := length_headerEncode header
  have htorn : ((create header).appendAll entries).file.take cut =
      header.encode ++ (recordBytes entries).take (cut - headerSize) := by
    rw [hfile, create_file, List.take_append, hheaderLen, List.take_of_length_le (by omega)]
  rw [htorn]
  -- The scan ends where the kept records do.
  have hloop : scanLoop (header.encode ++ (recordBytes entries).take (cut - headerSize))
      (header.encode ++ (recordBytes entries).take (cut - headerSize)).length Scan.start =
        .ok kept.scan := by
    have hdrop : (header.encode ++ (recordBytes entries).take (cut - headerSize)).drop
        Scan.start.endOffset = (recordBytes entries).take (cut - headerSize) := by
      show List.drop headerSize _ = _
      rw [← hheaderLen, List.drop_left]
    rw [scanLoop_truncated hentries hdrop, hscan]
    · rfl
    · rw [hdrop, List.length_append, hheaderLen, headerSize]
      omega
  have hprefix : kept.file <+: header.encode ++ (recordBytes entries).take (cut - headerSize) := by
    rw [hkeptFile, create_file]
    apply List.prefix_append_right_inj header.encode |>.2
    obtain ⟨later, hlater⟩ := wholeRecords_prefix (cut - headerSize) entries
    have hbytes : recordBytes entries =
        recordBytes (wholeRecords (cut - headerSize) entries) ++ recordBytes later := by
      conv_lhs => rw [← hlater]
      rw [recordBytes, List.flatMap_append]
      rfl
    rw [hbytes, List.take_append, List.take_of_length_le (length_wholeRecords _ _)]
    exact List.prefix_append _ _
  have hread : readHeader kept.file = .ok header := by
    rw [hkeptFile, create_file]
    exact readHeader_encode hheader _
  exact adopt_of_scan hkept hprefix ⟨header, readHeader_encode hheader _⟩ hread hfirst hunsealed hloop

/-! ### The writer of the journal model

`SegmentWriter` keeps the records themselves; the file writer here holds their bytes. -/

structure Represents (a : ActiveWriter) (w : SegmentWriter) : Prop where
  file : a.file = w.bytes
  inStep : a.InStep
  endOffset : a.endOffset = w.endOffset
  firstSlot : a.firstSlot = w.header.firstGlobalSlot
  lastSlot : a.lastSlot = w.lastSlot
  recordCount : a.recordCount = w.records.length
  maxPromised : a.maxPromised = w.maxPromised
  sparse : a.sparse = w.sparse

section Represents

variable {a : ActiveWriter} {w : SegmentWriter}

theorem represents_create (header : SegmentHeader) :
    (create header).Represents (SegmentWriter.create header) where
  file := by
    rw [create_file, SegmentWriter.bytes, SegmentWriter.create, List.flatMap_nil, List.append_nil]
  inStep := create_inStep header
  endOffset := rfl
  firstSlot := rfl
  lastSlot := rfl
  recordCount := rfl
  maxPromised := rfl
  sparse := rfl

theorem Represents.append (h : a.Represents w) (record : SegmentRecord) :
    (a.append record).Represents (w.append record) where
  file := by
    show writeAt a.file record.encode a.endOffset = _
    rw [h.inStep.2, writeAt_end, h.file, SegmentWriter.bytes, SegmentWriter.bytes, SegmentWriter.append,
      List.flatMap_append, List.flatMap_singleton, List.append_assoc]
  inStep := by
    have happended := appendObserved_inStep h.inStep ⟨record, none⟩
    rwa [appendObserved] at happended
  endOffset := by
    show a.endOffset + (recordHeaderSize + record.payload.length) = w.endOffset + record.encode.length
    rw [h.endOffset, length_recordEncode]
  firstSlot := h.firstSlot
  lastSlot := by
    show (if record.slot > a.lastSlot then record.slot else a.lastSlot) = max w.lastSlot record.slot
    rw [h.lastSlot]
    split <;> omega
  recordCount := by
    show a.recordCount + 1 = (w.records ++ [record]).length
    rw [h.recordCount, List.length_append, List.length_singleton]
  maxPromised := h.maxPromised
  sparse := by
    show (if a.recordCount % sparseStride = 0 ∧ record.slot ≠ 0 then _ else a.sparse) = _
    rw [h.recordCount, h.sparse, h.endOffset]
    rfl

theorem Represents.observePromise (h : a.Represents w) (ballot : Ballot) :
    (a.observePromise ballot).Represents (w.observePromise ballot) := by
  rw [ActiveWriter.observePromise, SegmentWriter.observePromise, h.maxPromised]
  by_cases hless : w.maxPromised.lessThan ballot = true
  · rw [if_pos hless, if_pos hless]
    exact ⟨h.file, h.inStep, h.endOffset, h.firstSlot, h.lastSlot, h.recordCount, rfl, h.sparse⟩
  · rw [if_neg hless, if_neg hless]
    exact h

theorem Represents.sealedTrailer (h : a.Represents w) (chosenThrough : ℕ) :
    a.sealedTrailer chosenThrough = w.trailer chosenThrough := by
  have hfields : a.trailerFields chosenThrough = w.trailerFields chosenThrough := by
    funext digest
    rw [ActiveWriter.trailerFields, SegmentWriter.trailerFields, h.lastSlot, h.recordCount,
      h.maxPromised, h.sparse]
  rw [ActiveWriter.sealedTrailer, sealedDigest, hfields, h.inStep.1, h.file]
  rfl

theorem represents_appendAll {entries : List AppendedRecord}
    (h : ({ a with maxPromised := Ballot.zero } : ActiveWriter).Represents w) :
    ({ a.appendAll entries with maxPromised := Ballot.zero } : ActiveWriter).Represents
      ((entries.map AppendedRecord.record).foldl SegmentWriter.append w) := by
  induction entries generalizing a w with
  | nil => exact h
  | cons entry entries ih =>
    have hnext : ({ a.appendObserved entry with maxPromised := Ballot.zero } : ActiveWriter) =
        ({ a with maxPromised := Ballot.zero } : ActiveWriter).append entry.record := by
      rw [appendObserved_eq]
      rfl
    apply ih
    rw [hnext]
    exact h.append entry.record

end Represents

theorem represents_adopted (header : SegmentHeader) (kept : List AppendedRecord) :
    ({ (create header).appendAll kept with maxPromised := Ballot.zero } : ActiveWriter).Represents
      (SegmentWriter.adopt header (kept.map AppendedRecord.record)) :=
  represents_appendAll (represents_create header)

/-! ### The promise rollup of an adopted segment -/

section Rollup

variable {α : Type*} [LinearOrder α] {l : List α} {a b c : α}

theorem foldl_max_le_iff : l.foldl max a ≤ c ↔ a ≤ c ∧ ∀ b ∈ l, b ≤ c := by
  induction l generalizing a with
  | nil => simp
  | cons b l ih => rw [List.foldl_cons, ih, max_le_iff, List.forall_mem_cons, and_assoc]

theorem le_foldl_max_iff : c ≤ l.foldl max a ↔ c ≤ a ∨ ∃ b ∈ l, c ≤ b := by
  induction l generalizing a with
  | nil => simp
  | cons b l ih => rw [List.foldl_cons, ih, le_max_iff, List.exists_mem_cons_iff, or_assoc]

theorem foldl_max_eq_iff (h : a ≤ b) : l.foldl max a = l.foldl max b ↔ b ≤ l.foldl max a := by
  constructor
  · intro heq
    rw [heq]
    exact le_foldl_max_iff.2 (Or.inl le_rfl)
  · intro hreach
    apply le_antisymm
    · exact foldl_max_le_iff.2 ⟨h.trans (le_foldl_max_iff.2 (Or.inl le_rfl)),
        fun c hc => le_foldl_max_iff.2 (Or.inr ⟨c, hc, le_rfl⟩)⟩
    · exact foldl_max_le_iff.2 ⟨hreach, fun c hc => le_foldl_max_iff.2 (Or.inr ⟨c, hc, le_rfl⟩)⟩

end Rollup

theorem zero_le_ballot (ballot : Ballot) : Ballot.zero ≤ ballot := by
  apply not_lt.1
  intro hlt
  have hless := Ballot.lessThan_iff.2 hlt
  simp [Ballot.lessThan, Ballot.zero] at hless

theorem zero_fits : Ballot.zero.Fits :=
  ⟨by decide, by decide, by decide⟩

theorem foldl_max_fits {ballots : List Ballot} {ballot : Ballot} (h : ballot.Fits)
    (hall : ∀ b ∈ ballots, b.Fits) : (ballots.foldl max ballot).Fits := by
  induction ballots generalizing ballot with
  | nil => exact h
  | cons b ballots ih =>
    apply ih
    · rcases max_choice ballot b with hmax | hmax
      · rw [hmax]
        exact h
      · rw [hmax]
        exact hall b List.mem_cons_self
    · intro b' hb'
      exact hall b' (List.mem_cons_of_mem b hb')

/-- The longest run of records a file cut at `cut` still holds whole. -/
structure LongestWhole (cut : ℕ) (entries kept : List AppendedRecord) : Prop where
  isPrefix : kept <+: entries
  within : headerSize + (recordBytes kept).length ≤ cut
  longest : ∀ front, front <+: entries → headerSize + (recordBytes front).length ≤ cut → front <+: kept

theorem longestWhole_wholeRecords {cut : ℕ} (hcut : headerSize ≤ cut) (entries : List AppendedRecord) :
    LongestWhole cut entries (wholeRecords (cut - headerSize) entries) where
  isPrefix := wholeRecords_prefix _ _
  within := by
    have hlen := length_wholeRecords (cut - headerSize) entries
    omega
  longest := by
    intro front hfront hfit
    exact wholeRecords_longest hfront (by omega)

/-- Two runs of the writer that went on alike seal the same file and digest exactly when they agree on
the rollup. -/
theorem sealFile_eq_iff {w : ActiveWriter} {after : List AppendedRecord} {chosenThrough : ℕ} (h : w.InStep)
    (hfits : w.maxPromised.Fits) (hafter : ∀ b ∈ reportedBallots after, b.Fits) :
    ((({ w with maxPromised := Ballot.zero }.appendAll after).sealFile chosenThrough).1 =
        ((w.appendAll after).sealFile chosenThrough).1 ∧
      (({ w with maxPromised := Ballot.zero }.appendAll after).sealFile chosenThrough).2.file =
        ((w.appendAll after).sealFile chosenThrough).2.file) ↔
      w.maxPromised ≤ (reportedBallots after).foldl max Ballot.zero := by
  rw [← foldl_max_eq_iff (zero_le_ballot w.maxPromised), ← maxPromised_appendAll,
    appendAll_maxPromised]
  constructor
  · intro hsame
    apply maxPromised_eq_of_sealFile (appendAll_inStep h after).1 _ _ hsame.2
    · rw [maxPromised_appendAll]
      exact foldl_max_fits hfits hafter
    · exact foldl_max_fits zero_fits hafter
  · intro hsame
    rw [hsame]
    exact ⟨rfl, rfl⟩

/-- **Torn-tail repair.** Adopting a truncated segment keeps the longest run of whole records and gives
back the writer that appended those, but for the promise rollup. Sealing later yields the digest and the
trailer of the uninterrupted run exactly when the kept records report no ballot above the ones reported
since. -/
theorem adopt_then_seal {header : SegmentHeader} {entries after : List AppendedRecord}
    {cut chosenThrough : ℕ} (hheader : header.Fits) (hentries : ∀ entry ∈ entries, entry.record.Fits)
    (hballots : ∀ b ∈ reportedBallots (entries ++ after), b.Fits) (hcut : headerSize ≤ cut) :
    ∃ kept, LongestWhole cut entries kept ∧
      ((create header).appendAll kept).file = header.encode ++ recordBytes kept ∧
      ∃ adopted, adopt (((create header).appendAll entries).file.take cut) = .ok adopted ∧
        adopted = { (create header).appendAll kept with maxPromised := Ballot.zero } ∧
        ((((adopted.appendAll after).sealFile chosenThrough).1 =
            ((((create header).appendAll kept).appendAll after).sealFile chosenThrough).1 ∧
          ((adopted.appendAll after).sealFile chosenThrough).2.file =
            ((((create header).appendAll kept).appendAll after).sealFile chosenThrough).2.file) ↔
          ∀ b ∈ reportedBallots kept, b = Ballot.zero ∨ ∃ b' ∈ reportedBallots after, b ≤ b') := by
  have hkept := longestWhole_wholeRecords hcut entries
  set kept := wholeRecords (cut - headerSize) entries with hkeptDef
  obtain ⟨hstep, hfile⟩ := appendAll_inStep (create_inStep header) kept
  rw [create_file] at hfile
  refine ⟨kept, hkept, hfile, _, adopt_truncated hheader hentries hcut, rfl, ?_⟩
  have hmax := maxPromised_appendAll (create header) kept
  have hreported : ∀ b ∈ reportedBallots kept, b.Fits := by
    intro b hb
    apply hballots b
    rw [reportedBallots, List.filterMap_append]
    exact List.mem_append_left _ ((hkept.isPrefix.sublist.filterMap _).subset hb)
  have hlater : ∀ b ∈ reportedBallots after, b.Fits := by
    intro b hb
    apply hballots b
    rw [reportedBallots, List.filterMap_append]
    exact List.mem_append_right _ hb
  have hfits : ((create header).appendAll kept).maxPromised.Fits := by
    rw [hmax]
    exact foldl_max_fits zero_fits hreported
  rw [sealFile_eq_iff hstep hfits hlater, hmax, foldl_max_le_iff]
  constructor
  · rintro ⟨-, hall⟩ b hb
    rcases le_foldl_max_iff.1 (hall b hb) with hzero | hreach
    · exact Or.inl (le_antisymm hzero (zero_le_ballot b))
    · exact Or.inr hreach
  · intro hall
    constructor
    · exact zero_le_ballot _
    · intro b hb
      rcases hall b hb with rfl | hreach
      · exact zero_le_ballot _
      · exact le_foldl_max_iff.2 (Or.inr hreach)

/-- A promise, appended and then reopened, and nothing reported since. -/
def promisedEntry : AppendedRecord :=
  ⟨recordOf 1 (.promise ⟨1, 0, 1⟩), some ⟨1, 0, 1⟩⟩

def promisedHeader : SegmentHeader :=
  ⟨1, 1, Journal.zeroHash⟩

theorem promisedEntry_fits : ∀ entry ∈ [promisedEntry], entry.record.Fits := by
  intro entry hentry
  rw [List.mem_singleton.1 hentry]
  exact ⟨by decide, by decide, by decide⟩

theorem promisedBallot_fits : ∀ b ∈ reportedBallots ([promisedEntry] ++ []), b.Fits := by
  intro b hb
  rw [List.mem_singleton.1 hb]
  exact ⟨by decide, by decide, by decide⟩

theorem adopt_then_seal_promised : ∃ kept, LongestWhole 113 [promisedEntry] kept ∧
      ((create promisedHeader).appendAll kept).file = promisedHeader.encode ++ recordBytes kept ∧
      ∃ adopted, adopt (((create promisedHeader).appendAll [promisedEntry]).file.take 113) = .ok adopted ∧
        adopted = { (create promisedHeader).appendAll kept with maxPromised := Ballot.zero } ∧
        ((((adopted.appendAll []).sealFile 0).1 =
            ((((create promisedHeader).appendAll kept).appendAll []).sealFile 0).1 ∧
          ((adopted.appendAll []).sealFile 0).2.file =
            ((((create promisedHeader).appendAll kept).appendAll []).sealFile 0).2.file) ↔
          ∀ b ∈ reportedBallots kept, b = Ballot.zero ∨ ∃ b' ∈ reportedBallots [], b ≤ b') :=
  adopt_then_seal ⟨by decide, by decide⟩ promisedEntry_fits promisedBallot_fits (by decide)

/-- A segment that holds one promise, reopened whole and sealed: the trailer no longer carries the
promise. -/
theorem adopt_forgets_promise :
    ∃ adopted, adopt (((create promisedHeader).appendAll [promisedEntry]).file.take 113) = .ok adopted ∧
      (adopted.sealedTrailer 0).maxPromised = Ballot.zero ∧
      (((create promisedHeader).appendAll [promisedEntry]).sealedTrailer 0).maxPromised = ⟨1, 0, 1⟩ ∧
      (adopted.sealFile 0).2.file ≠
        (((create promisedHeader).appendAll [promisedEntry]).sealFile 0).2.file := by
  have hkept : wholeRecords (113 - headerSize) [promisedEntry] = [promisedEntry] := by
    have hlen : promisedEntry.record.encode.length = 49 := by
      rw [length_recordEncode]
      decide
    simp [wholeRecords, hlen, headerSize]
  have hadopt : adopt (((create promisedHeader).appendAll [promisedEntry]).file.take 113) =
      .ok { (create promisedHeader).appendAll (wholeRecords (113 - headerSize) [promisedEntry]) with
        maxPromised := Ballot.zero } :=
    adopt_truncated ⟨by decide, by decide⟩ promisedEntry_fits (by decide)
  rw [hkept] at hadopt
  refine ⟨_, hadopt, rfl, rfl, ?_⟩
  intro hsame
  have hstep := (appendAll_inStep (create_inStep promisedHeader) [promisedEntry]).1
  have hfits : ((create promisedHeader).appendAll [promisedEntry]).maxPromised.Fits :=
    ⟨by decide, by decide, by decide⟩
  have hzero := maxPromised_eq_of_sealFile hstep hfits zero_fits hsame
  exact absurd hzero (by decide)

end ActiveWriter

end Zaxonlite
