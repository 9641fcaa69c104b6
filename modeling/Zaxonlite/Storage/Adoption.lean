import Zaxonlite.Lib.Checked
import Zaxonlite.Storage.ActiveSegment

/-!
# Adopting arbitrary bytes

Whatever follows the header of the active segment's file, `adopt` reads it record by record and then has
to tell a torn tail from corruption by the bytes of a record it could not read. The scan is written here
with every run-time check of its source: the sums it takes, the record buffer it slices and the table it
indexes. One of those checks can fail. The length field of the unreadable record has passed no test, and
the size of a record is computed from it in 32 bits.
-/

namespace Zaxonlite

open Bytes (encodeLe readLe)
open Segment
open Cursor (Accepts accepts_require writes_int writes_byte writes_take)

namespace Segment

def capacityRecords : ℕ := 16384

/-- `max_record_size`, the size of the record buffer. -/
def maxRecordSize : ℕ := recordHeaderSize + maxWriteSize

end Segment

/-- What ends an adoption: the errors it declares, and the checks that stop the process. -/
inductive AdoptFault where
  | corruptSegment
  | unsupportedSegmentVersion
  | integerOverflow
  | indexOutOfBounds
  deriving DecidableEq, Repr

def SegmentError.Declared (e : SegmentError) : Prop :=
  e ≠ .overflow

namespace AdoptFault

def ofSegmentError : SegmentError → AdoptFault
  | .corruptSegment => .corruptSegment
  | .unsupportedSegmentVersion => .unsupportedSegmentVersion
  | .overflow => .integerOverflow

/-- A check failed at run time. -/
def isTrap : AdoptFault → Bool
  | .corruptSegment => false
  | .unsupportedSegmentVersion => false
  | .integerOverflow => true
  | .indexOutOfBounds => true

end AdoptFault

open AdoptFault (ofSegmentError)

/-! ### The checked scan -/

/-- `readRecordFields` with the sum and the slice that follow the bound on the length. -/
def readRecordChecked : Cursor AdoptFault (SegmentRecord × ℕ) := do
  let magic ← Cursor.int .corruptSegment 4
  Cursor.require (magic = recordMagic) .corruptSegment
  let version ← Cursor.byte .corruptSegment
  Cursor.require (version = formatVersion) .unsupportedSegmentVersion
  let kind ← Cursor.byte .corruptSegment
  let reserved ← Cursor.int .corruptSegment 2
  Cursor.require (reserved = 0) .corruptSegment
  let sequence ← Cursor.int .corruptSegment 8
  let slot ← Cursor.int .corruptSegment 8
  let payloadLen ← Cursor.int .corruptSegment 4
  let storedCrc ← Cursor.int .corruptSegment 4
  Cursor.require (payloadLen ≤ maxWriteSize) .corruptSegment
  Cursor.require (recordHeaderSize + payloadLen < 2 ^ 32) .integerOverflow
  Cursor.require (recordHeaderSize + payloadLen ≤ maxRecordSize) .indexOutOfBounds
  let payload ← Cursor.take .corruptSegment payloadLen
  pure (⟨sequence, kind, slot, payload⟩, storedCrc)

/-- `Reader.next`. -/
def nextChecked (region : List UInt8) : Except AdoptFault (Option (SegmentRecord × List UInt8)) :=
  if region = [] then .ok none
  else if region.length < recordHeaderSize then .error .corruptSegment
  else
    match readRecordChecked region with
    | .error e => .error e
    | .ok ((record, storedCrc), rest) =>
      if crc32 (region.take 28 ++ record.payload) = storedCrc then .ok (some (record, rest))
      else .error .corruptSegment

namespace ActiveWriter

/-- One record of the scan: the reader moves on, the table is indexed, and the counters go up. -/
def Scan.stepChecked (s : Scan) (record : SegmentRecord) : Except AdoptFault Scan := do
  let _ ← Checked.add .integerOverflow 64 s.endOffset (recordHeaderSize + record.payload.length)
  if s.count % sparseStride = 0 ∧ record.slot ≠ 0 then do
    let _ ← Checked.index .indexOutOfBounds maxSparseEntries s.sparse.length
    let _ ← Checked.add .integerOverflow 32 s.sparse.length 1
  let _ ← Checked.add .integerOverflow 64 s.count 1
  pure (s.step record)

/-- The loop of `adopt`. A failed check ends it; only the errors the reader declares are caught. -/
def scanChecked (file : List UInt8) : ℕ → Scan → Except AdoptFault Scan
  | 0, s => .ok s
  | fuel + 1, s =>
    match nextChecked (file.drop s.endOffset) with
    | .ok none => .ok s
    | .ok (some (record, _)) =>
      match s.stepChecked record with
      | .error e => .error e
      | .ok s => scanChecked file fuel s
    | .error e =>
      if e.isTrap then .error e
      else
        match recordTouchesEof (file.drop s.endOffset) with
        | .ok true => .ok s
        | .ok false => .error .corruptSegment
        | .error e => .error (ofSegmentError e)

/-- `Writer.adopt`. -/
def adoptChecked (file : List UInt8) : Except AdoptFault ActiveWriter :=
  match readHeader file with
  | .error e => .error (ofSegmentError e)
  | .ok _ =>
    match scanChecked file file.length Scan.start with
    | .error e => .error e
    | .ok s =>
      let cut := setFileLength file s.endOffset
      match rehash cut s.endOffset s.endOffset 0 [] with
      | .error e => .error (ofSegmentError e)
      | .ok hasher =>
        match readHeader cut with
        | .error e => .error (ofSegmentError e)
        | .ok header => .ok
          { file := cut
            hasher := hasher
            endOffset := s.endOffset
            firstSlot := header.firstGlobalSlot
            lastSlot := s.last
            recordCount := s.count
            maxPromised := Ballot.zero
            sparse := s.sparse
            isSealed := false }

end ActiveWriter

/-! ### Records read from arbitrary bytes -/

section Reading

variable {region rest : List UInt8} {record : SegmentRecord}

theorem readRecordChecked_eq : readRecordChecked = readRecordFields.mapError ofSegmentError := by
  rw [readRecordChecked, readRecordFields]
  simp only [Cursor.mapError_bind, Cursor.mapError_int, Cursor.mapError_byte, Cursor.mapError_require,
    Cursor.mapError_take, Cursor.mapError_pure]
  apply bind_congr
  intro magic
  apply bind_congr
  intro _
  apply bind_congr
  intro version
  apply bind_congr
  intro _
  apply bind_congr
  intro kind
  apply bind_congr
  intro reserved
  apply bind_congr
  intro _
  apply bind_congr
  intro sequence
  apply bind_congr
  intro slot
  apply bind_congr
  intro payloadLen
  apply bind_congr
  intro storedCrc
  apply Cursor.require_bind_congr
  intro hlen
  have hbound : payloadLen ≤ maxWriteSize := of_decide_eq_true hlen
  have hmax : recordHeaderSize + maxWriteSize < 2 ^ 32 := by decide
  rw [Cursor.require_bind (decide_eq_true (by omega)), Cursor.require_bind]
  · rfl
  · exact decide_eq_true (Nat.add_le_add_left hbound _)

theorem nextChecked_eq (region : List UInt8) :
    nextChecked region = (nextRecord region).mapError ofSegmentError := by
  rw [nextChecked, nextRecord, readRecordChecked_eq, Cursor.mapError]
  split
  · rfl
  · split
    · rfl
    · cases readRecordFields region with
      | error e => rfl
      | ok p =>
        show (if _ then _ else _) = Except.mapError ofSegmentError (if _ then _ else _)
        split <;> rfl

theorem accepts_recordFields : Accepts readRecordFields fun p used =>
    p.1.Fits ∧ used = p.1.encodeHead ++ (encodeLe 4 p.2 ++ p.1.payload) := by
  rw [readRecordFields]
  apply (writes_int _ _).bind
  intro magic _
  apply accepts_require
  intro hmagic
  apply (writes_byte _).bind
  intro version _
  apply accepts_require
  intro hversion
  apply (writes_byte _).bind
  intro kind _
  apply (writes_int _ _).bind
  intro reserved _
  apply accepts_require
  intro hreserved
  apply (writes_int _ _).bind
  intro sequence hsequence
  apply (writes_int _ _).bind
  intro slot hslot
  apply (writes_int _ _).bind
  intro payloadLen _
  apply (writes_int _ _).bind
  intro storedCrc _
  apply accepts_require
  intro hlen
  apply (writes_take _ _).bind
  intro payload hpayload
  apply Accepts.pure
  obtain rfl := of_decide_eq_true hmagic
  obtain rfl := of_decide_eq_true hversion
  obtain rfl := of_decide_eq_true hreserved
  obtain rfl := hpayload
  constructor
  · exact ⟨hsequence, hslot, of_decide_eq_true hlen⟩
  · simp only [SegmentRecord.encodeHead, List.append_assoc, List.append_nil, id]

theorem encode_of_nextRecord (h : nextRecord region = .ok (some (record, rest))) :
    record.Fits ∧ region = record.encode ++ rest := by
  rw [nextRecord] at h
  split at h
  · cases h
  · split at h
    · cases h
    · cases hread : readRecordFields region with
      | error e =>
        rw [hread] at h
        cases h
      | ok p =>
        obtain ⟨⟨found, storedCrc⟩, after⟩ := p
        rw [hread] at h
        simp only at h
        split at h
        · rename_i hcrc
          cases h
          obtain ⟨used, hregion, hfits, hused⟩ := accepts_recordFields _ _ _ hread
          have hhead : region.take 28 = record.encodeHead := by
            rw [hregion, hused, List.append_assoc, List.take_append_of_le_length
              (length_encodeHead record).ge, List.take_of_length_le (length_encodeHead record).le]
          rw [hhead] at hcrc
          rw [SegmentRecord.encode, hcrc, ← hused]
          exact ⟨hfits, hregion⟩
        · cases h

theorem eq_nil_of_nextRecord (h : nextRecord region = .ok none) : region = [] := by
  rw [nextRecord] at h
  split at h
  · assumption
  · split at h
    · cases h
    · split at h
      · cases h
      · split at h <;> cases h

theorem nextRecord_ne_overflow : nextRecord region ≠ .error .overflow := by
  have hcorrupt : SegmentError.Declared .corruptSegment := by
    intro h
    cases h
  have hversion : SegmentError.Declared .unsupportedSegmentVersion := by
    intro h
    cases h
  have hfields : Cursor.Raises readRecordFields SegmentError.Declared := by
    rw [readRecordFields]
    apply (Cursor.raises_int hcorrupt _).bind
    intro magic
    apply (Cursor.raises_require hcorrupt _).bind
    intro _
    apply (Cursor.raises_byte hcorrupt).bind
    intro version
    apply (Cursor.raises_require hversion _).bind
    intro _
    apply (Cursor.raises_byte hcorrupt).bind
    intro kind
    apply (Cursor.raises_int hcorrupt _).bind
    intro reserved
    apply (Cursor.raises_require hcorrupt _).bind
    intro _
    apply (Cursor.raises_int hcorrupt _).bind
    intro sequence
    apply (Cursor.raises_int hcorrupt _).bind
    intro slot
    apply (Cursor.raises_int hcorrupt _).bind
    intro payloadLen
    apply (Cursor.raises_int hcorrupt _).bind
    intro storedCrc
    apply (Cursor.raises_require hcorrupt _).bind
    intro _
    apply (Cursor.raises_take hcorrupt _).bind
    intro payload
    exact Cursor.raises_pure _
  intro h
  rw [nextRecord] at h
  split at h
  · cases h
  · split at h
    · cases h
    · cases hread : readRecordFields region with
      | error e =>
        rw [hread] at h
        cases h
        exact hfields region _ hread rfl
      | ok p =>
        rw [hread] at h
        simp only at h
        split at h <;> cases h

theorem length_of_nextRecord (h : nextRecord region = .ok (some (record, rest))) :
    rest.length + recordHeaderSize ≤ region.length := by
  rw [(encode_of_nextRecord h).2, List.length_append, length_recordEncode]
  omega

end Reading

/-! ### The scan and the records of the file -/

/-- The records at the front of a segment file, and the bytes from the first unreadable one on. -/
def readable (file : List UInt8) : List SegmentRecord × List UInt8 :=
  scanRecords (file.drop headerSize).length (file.drop headerSize)

/-- The records read and what is left make up the region; what is left starts with no record. -/
theorem scanRecords_spec {fuel : ℕ} {region : List UInt8} (hfuel : region.length ≤ fuel) :
    region = (scanRecords fuel region).1.flatMap SegmentRecord.encode ++ (scanRecords fuel region).2 ∧
      (∀ record ∈ (scanRecords fuel region).1, record.Fits) ∧
      ∀ record rest, nextRecord (scanRecords fuel region).2 ≠ .ok (some (record, rest)) := by
  induction fuel generalizing region with
  | zero =>
    obtain rfl := List.length_eq_zero_iff.1 (Nat.le_zero.1 hfuel)
    refine ⟨rfl, fun _ h => absurd h List.not_mem_nil, ?_⟩
    intro record rest h
    cases h
  | succ fuel ih =>
    rw [scanRecords]
    cases hnext : nextRecord region with
    | error e =>
      refine ⟨rfl, fun _ h => absurd h List.not_mem_nil, ?_⟩
      intro record rest h
      cases hnext.symm.trans h
    | ok found =>
      cases found with
      | none =>
        obtain rfl := eq_nil_of_nextRecord hnext
        refine ⟨rfl, fun _ h => absurd h List.not_mem_nil, ?_⟩
        intro record rest h
        cases h
      | some p =>
        obtain ⟨record, rest⟩ := p
        have hless := length_of_nextRecord hnext
        obtain ⟨hfits, hregion⟩ := encode_of_nextRecord hnext
        obtain ⟨hrest, hall, hstop⟩ := @ih rest (by rw [recordHeaderSize] at hless; omega)
        refine ⟨?_, ?_, hstop⟩
        · show region = (record :: (scanRecords fuel rest).1).flatMap SegmentRecord.encode ++
            (scanRecords fuel rest).2
          rw [List.flatMap_cons, List.append_assoc, ← hrest]
          exact hregion
        · exact List.forall_mem_cons.2 ⟨hfits, hall⟩

namespace ActiveWriter

variable {file : List UInt8} {s : Scan} {record : SegmentRecord}

/-- The scan steps over the readable records and then judges what is left. -/
theorem scanLoop_eq {fuel fuel' : ℕ} (hfuel : (file.drop s.endOffset).length < fuel)
    (hfuel' : (file.drop s.endOffset).length ≤ fuel') : scanLoop file fuel s =
      match recordTouchesEof (scanRecords fuel' (file.drop s.endOffset)).2 with
      | .ok true => .ok ((scanRecords fuel' (file.drop s.endOffset)).1.foldl Scan.step s)
      | .ok false => .error .corruptSegment
      | .error e => .error e := by
  induction fuel generalizing fuel' s with
  | zero => exact absurd hfuel (Nat.not_lt_zero _)
  | succ fuel ih =>
    rw [scanLoop]
    cases hnext : nextRecord (file.drop s.endOffset) with
    | error e =>
      cases fuel' with
      | zero =>
        rw [List.length_eq_zero_iff.1 (Nat.le_zero.1 hfuel')] at hnext
        cases hnext
      | succ fuel' =>
        rw [scanRecords, hnext]
        rfl
    | ok found =>
      cases found with
      | none =>
        have hnil := eq_nil_of_nextRecord hnext
        cases fuel' with
        | zero =>
          rw [hnil]
          rfl
        | succ fuel' =>
          rw [scanRecords, hnext]
          rfl
      | some p =>
        obtain ⟨record, rest⟩ := p
        have hless := length_of_nextRecord hnext
        have hdrop := drop_scanStep (encode_of_nextRecord hnext).2
        simp only [recordHeaderSize] at hless
        cases fuel' with
        | zero => omega
        | succ fuel' =>
          have hih := @ih (s.step record) fuel' (by rw [hdrop]; omega) (by rw [hdrop]; omega)
          rw [hdrop] at hih
          rw [scanRecords, hnext]
          exact hih

/-- The table holds one entry for every stride of records, at most. -/
def Scan.Sparse (s : Scan) : Prop :=
  s.sparse.length * sparseStride ≤ s.count + (sparseStride - 1)

theorem Scan.Sparse.step (h : s.Sparse) (record : SegmentRecord) : (s.step record).Sparse := by
  have hcount : (s.step record).count = s.count + 1 := rfl
  rw [Scan.Sparse] at h
  rw [Scan.Sparse, hcount]
  by_cases hstride : s.count % sparseStride = 0 ∧ record.slot ≠ 0
  · have hsparse : (s.step record).sparse = s.sparse ++ [⟨record.slot, s.endOffset⟩] := if_pos hstride
    rw [hsparse, List.length_append, List.length_singleton]
    simp only [sparseStride] at h hstride ⊢
    omega
  · have hsparse : (s.step record).sparse = s.sparse := if_neg hstride
    rw [hsparse]
    omega

/-- No check of a scan step fails on a record of the file below the capacity. -/
theorem Scan.stepChecked_eq (h : s.Sparse) (hcount : s.count < capacityRecords)
    (hend : s.endOffset + (recordHeaderSize + record.payload.length) < 2 ^ 64) :
    s.stepChecked record = .ok (s.step record) := by
  rw [Scan.Sparse, sparseStride] at h
  rw [capacityRecords] at hcount
  rw [stepChecked, Checked.add_of_lt hend]
  have hnext : s.count + 1 < 2 ^ 64 := by omega
  by_cases hstride : s.count % sparseStride = 0 ∧ record.slot ≠ 0
  · have hindex : s.sparse.length < maxSparseEntries := by
      rw [sparseStride] at hstride
      rw [maxSparseEntries]
      omega
    have hsparse : s.sparse.length + 1 < 2 ^ 32 := by
      rw [maxSparseEntries] at hindex
      omega
    rw [if_pos hstride, Checked.index_of_lt hindex, Checked.add_of_lt hsparse, Checked.add_of_lt hnext]
    rfl
  · rw [if_neg hstride, Checked.add_of_lt hnext]
    rfl

/-- Below the capacity, the scan fails a check only where it judges what is left. -/
theorem scanChecked_eq {fuel fuel' : ℕ} (hfuel : (file.drop s.endOffset).length < fuel)
    (hfuel' : (file.drop s.endOffset).length ≤ fuel') (hlen : file.length < 2 ^ 64) (h : s.Sparse)
    (hcount : s.count + (scanRecords fuel' (file.drop s.endOffset)).1.length ≤ capacityRecords) :
    scanChecked file fuel s = (scanLoop file fuel s).mapError ofSegmentError := by
  induction fuel generalizing fuel' s with
  | zero => exact absurd hfuel (Nat.not_lt_zero _)
  | succ fuel ih =>
    rw [scanChecked, scanLoop, nextChecked_eq]
    cases hnext : nextRecord (file.drop s.endOffset) with
    | error e =>
      have htrap : (ofSegmentError e).isTrap = false := by
        cases e with
        | corruptSegment => rfl
        | unsupportedSegmentVersion => rfl
        | overflow => exact absurd hnext nextRecord_ne_overflow
      show (if (ofSegmentError e).isTrap then _ else _) = _
      rw [htrap]
      cases recordTouchesEof (file.drop s.endOffset) with
      | error e => rfl
      | ok touches => cases touches <;> rfl
    | ok found =>
      cases found with
      | none => rfl
      | some p =>
        obtain ⟨record, rest⟩ := p
        have hless := length_of_nextRecord hnext
        obtain ⟨-, hregion⟩ := encode_of_nextRecord hnext
        have hdrop := drop_scanStep hregion
        have hsize : (file.drop s.endOffset).length =
            recordHeaderSize + record.payload.length + rest.length := by
          rw [hregion, List.length_append, length_recordEncode]
        rw [List.length_drop] at hsize
        simp only [recordHeaderSize] at hless
        cases fuel' with
        | zero => omega
        | succ fuel' =>
          rw [scanRecords, hnext] at hcount
          replace hcount : s.count + ((scanRecords fuel' rest).1.length + 1) ≤ capacityRecords := hcount
          have hstep : s.stepChecked record = .ok (s.step record) := by
            apply Scan.stepChecked_eq h (by omega)
            simp only [recordHeaderSize] at hsize ⊢
            omega
          simp only [Except.mapError, hstep]
          apply @ih (s.step record) fuel' (by rw [hdrop]; omega) (by rw [hdrop]; omega) (h.step record)
          rw [hdrop]
          show s.count + 1 + _ ≤ _
          omega

/-- What the scan counts on the way. -/
theorem foldl_step (records : List SegmentRecord) (s : Scan) :
    (records.foldl Scan.step s).endOffset =
        s.endOffset + (records.flatMap SegmentRecord.encode).length ∧
      (records.foldl Scan.step s).count = s.count + records.length ∧
      (s.Sparse → (records.foldl Scan.step s).Sparse) := by
  induction records generalizing s with
  | nil => exact ⟨rfl, rfl, id⟩
  | cons record records ih =>
    obtain ⟨hend, hcount, hsparse⟩ := ih (s.step record)
    rw [List.foldl_cons, hend, hcount, List.flatMap_cons, List.length_append, length_recordEncode,
      List.length_cons]
    refine ⟨?_, ?_, fun h => hsparse (h.step record)⟩
    · show s.endOffset + (recordHeaderSize + record.payload.length) + _ = _
      omega
    · show s.count + 1 + _ = _
      omega

end ActiveWriter

/-! ### The header of a cut file -/

/-- The header's reader looks at the header only. -/
theorem local_readHeader : ∃ c : Cursor SegmentError SegmentHeader, Cursor.Local c headerSize ∧
    ∀ file, readHeader file = if file.length < headerSize then .error .corruptSegment
      else match c file with
        | .ok (header, _) => .ok header
        | .error e => .error e := by
  refine ⟨_, ?_, fun file => rfl⟩
  have hsize : headerSize = 4 + (0 + (0 + (1 + (0 + (3 + (16 + (8 + (32 + 0)))))))) := rfl
  rw [hsize]
  apply (Cursor.local_int _ _).bind
  intro magic
  apply (Cursor.local_require _ _).bind
  intro _
  apply (Cursor.local_require _ _).bind
  intro _
  apply (Cursor.local_byte _).bind
  intro version
  apply (Cursor.local_require _ _).bind
  intro _
  apply (Cursor.local_take _ _).bind
  intro reserved
  apply (Cursor.local_int _ _).bind
  intro databaseId
  apply (Cursor.local_int _ _).bind
  intro firstGlobalSlot
  apply (Cursor.local_take _ _).bind
  intro digest
  by_cases hdigest : digest.length = 32
  · rw [dif_pos hdigest]
    exact Cursor.local_pure _
  · rw [dif_neg hdigest]
    exact Cursor.local_fail _ _

theorem readHeader_front {file front : List UInt8} {header : SegmentHeader}
    (h : readHeader file = .ok header) (hfront : front <+: file) (hsize : headerSize ≤ front.length) :
    readHeader front = .ok header := by
  obtain ⟨c, hlocal, hread⟩ := local_readHeader
  rw [hread] at h
  rw [hread, if_neg (not_lt.2 hsize)]
  split at h
  · cases h
  · cases hc : c file with
    | error e =>
      rw [hc] at h
      cases h
    | ok p =>
      rw [hc] at h
      rw [hlocal.front hc hfront hsize]
      exact h

/-! ### Adoption of an arbitrary file -/

/-- The header and the readable records of the file. -/
def readableFront (file : List UInt8) : List UInt8 :=
  file.take headerSize ++ (readable file).1.flatMap SegmentRecord.encode

/-- The adopted writer stands behind the readable records, and what was cut off could be a torn tail. -/
structure KeepsReadable (file : List UInt8) (w : ActiveWriter) : Prop where
  fits : ∀ record ∈ (readable file).1, record.Fits
  kept : w.file = readableFront file
  cut : file = w.file ++ (readable file).2
  unreadable : ∀ record rest, nextRecord (readable file).2 ≠ .ok (some (record, rest))
  torn : recordTouchesEof (readable file).2 = .ok true
  endOffset : w.endOffset = w.file.length
  recordCount : w.recordCount = (readable file).1.length
  sparse : w.sparse.length ≤ maxSparseEntries

/-- The first unreadable record has a whole header whose length field no 32-bit size can hold. -/
def OverlongTail (file : List UInt8) : Prop :=
  recordHeaderSize ≤ (readable file).2.length ∧
    2 ^ 32 ≤ recordHeaderSize + readLe (readable file).2 24 4

section Adoption

variable {file : List UInt8} {header : SegmentHeader}

theorem readableFront_append (file : List UInt8) :
    file = readableFront file ++ (readable file).2 := by
  obtain ⟨hregion, -, -⟩ := scanRecords_spec (le_refl (file.drop headerSize).length)
  rw [readableFront, List.append_assoc, readable, ← hregion, List.take_append_drop]

theorem headerSize_le_of_readHeader (h : readHeader file = .ok header) : headerSize ≤ file.length := by
  apply not_lt.1
  intro hshort
  rw [readHeader, if_pos hshort] at h
  cases h

theorem length_readableFront (h : headerSize ≤ file.length) : (readableFront file).length =
    headerSize + ((readable file).1.flatMap SegmentRecord.encode).length := by
  rw [readableFront, List.length_append, List.length_take, Nat.min_eq_left h]

/-- The scan from the start, in terms of the readable records. -/
theorem scanLoop_start (h : headerSize ≤ file.length) :
    ActiveWriter.scanLoop file file.length ActiveWriter.Scan.start =
      match recordTouchesEof (readable file).2 with
      | .ok true => .ok ((readable file).1.foldl ActiveWriter.Scan.step ActiveWriter.Scan.start)
      | .ok false => .error .corruptSegment
      | .error e => .error e := by
  apply ActiveWriter.scanLoop_eq _ (le_refl (file.drop headerSize).length)
  show (file.drop headerSize).length < file.length
  rw [List.length_drop]
  simp only [headerSize] at h ⊢
  omega

/-- A tail that could be torn is cut off. -/
theorem adopt_torn (h : readHeader file = .ok header)
    (htorn : recordTouchesEof (readable file).2 = .ok true) :
    ∃ w, ActiveWriter.adopt file = .ok w ∧ w.file = readableFront file ∧
      w.endOffset = w.file.length ∧ w.recordCount = (readable file).1.length ∧
      w.sparse.length * sparseStride ≤ w.recordCount + (sparseStride - 1) := by
  have hsize := headerSize_le_of_readHeader h
  have hscan := scanLoop_start hsize
  rw [htorn] at hscan
  obtain ⟨hend, hcount, hsparse⟩ :=
    ActiveWriter.foldl_step (readable file).1 ActiveWriter.Scan.start
  set s := (readable file).1.foldl ActiveWriter.Scan.step ActiveWriter.Scan.start with hs
  have hlength : s.endOffset = (readableFront file).length := by
    rw [hend, length_readableFront hsize]
    rfl
  have hfront : readableFront file <+: file := by
    conv_rhs => rw [readableFront_append file]
    exact List.prefix_append _ _
  have hread : readHeader (readableFront file) = .ok header := by
    apply readHeader_front h hfront
    rw [length_readableFront hsize]
    omega
  let kept : ActiveWriter := ⟨readableFront file, readableFront file, s.endOffset, header.firstGlobalSlot,
    s.last, s.count, Ballot.zero, s.sparse, false⟩
  have hadopt : ActiveWriter.adopt file = .ok { kept with maxPromised := Ballot.zero } :=
    ActiveWriter.adopt_of_scan ⟨rfl, hlength⟩ hfront ⟨header, h⟩ hread rfl rfl hscan
  refine ⟨_, hadopt, rfl, hlength, ?_, ?_⟩
  · show s.count = _
    rw [hcount]
    exact Nat.zero_add _
  · apply hsparse
    exact Nat.zero_le _

theorem adopt_untorn (h : readHeader file = .ok header) {e : SegmentError}
    (htail : (match recordTouchesEof (readable file).2 with
      | .ok true => .ok ()
      | .ok false => .error .corruptSegment
      | .error e => .error e : Except SegmentError Unit) = .error e) :
    ActiveWriter.adopt file = .error e := by
  have hscan := scanLoop_start (headerSize_le_of_readHeader h)
  rw [ActiveWriter.adopt, h]
  cases htouch : recordTouchesEof (readable file).2 with
  | error e' =>
    rw [htouch] at htail hscan
    cases htail
    simp only [hscan]
  | ok touches =>
    cases touches with
    | true =>
      rw [htouch] at htail
      cases htail
    | false =>
      rw [htouch] at htail hscan
      cases htail
      simp only [hscan]

/-- Below the capacity the checks change nothing but the name of the overflow. -/
theorem adoptChecked_eq (h : readHeader file = .ok header) (hlen : file.length < 2 ^ 64)
    (hcount : (readable file).1.length ≤ capacityRecords) :
    ActiveWriter.adoptChecked file = (ActiveWriter.adopt file).mapError ofSegmentError := by
  have hsize := headerSize_le_of_readHeader h
  have hscan : ActiveWriter.scanChecked file file.length ActiveWriter.Scan.start =
      (ActiveWriter.scanLoop file file.length ActiveWriter.Scan.start).mapError ofSegmentError := by
    apply ActiveWriter.scanChecked_eq _ (le_refl (file.drop headerSize).length) hlen (Nat.zero_le _)
    · show 0 + (readable file).1.length ≤ _
      omega
    · show (file.drop headerSize).length < file.length
      rw [List.length_drop]
      simp only [headerSize] at hsize ⊢
      omega
  rw [ActiveWriter.adoptChecked, ActiveWriter.adopt, h]
  simp only [hscan]
  cases ActiveWriter.scanLoop file file.length ActiveWriter.Scan.start with
  | error e => rfl
  | ok s =>
    simp only [Except.mapError]
    cases ActiveWriter.rehash (setFileLength file s.endOffset) s.endOffset s.endOffset 0 [] with
    | error e => rfl
    | ok hasher =>
      simp only
      cases readHeader (setFileLength file s.endOffset) <;> rfl

theorem recordTouchesEof_overflow_iff {left : List UInt8} : recordTouchesEof left = .error .overflow ↔
    recordHeaderSize ≤ left.length ∧ 2 ^ 32 ≤ recordHeaderSize + readLe left 24 4 := by
  rw [recordTouchesEof]
  split
  · rename_i hshort
    constructor
    · intro h
      cases h
    · intro h
      omega
  · split
    · rename_i hlong hsum
      exact ⟨fun _ => ⟨not_lt.1 hlong, hsum⟩, fun _ => rfl⟩
    · rename_i hlong hsum
      constructor
      · intro h
        cases h
      · intro h
        exact absurd h.2 hsum

theorem recordTouchesEof_error {left : List UInt8} {e : SegmentError}
    (h : recordTouchesEof left = .error e) : e = .overflow := by
  rw [recordTouchesEof] at h
  split at h
  · cases h
  · split at h
    · cases h
      rfl
    · cases h

/-- **Adoption of any bytes.** Behind a valid header, with no more whole records than the rotation
threshold allows, adoption cuts the file behind its readable records or declares it corrupt exactly when
the first unreadable record has no length field that overflows its size. -/
theorem adopt_total (h : readHeader file = .ok header) (hlen : file.length < 2 ^ 64)
    (hcount : (readable file).1.length ≤ capacityRecords) :
    ((∃ w, ActiveWriter.adoptChecked file = .ok w ∧ KeepsReadable file w) ∨
        ActiveWriter.adoptChecked file = .error .corruptSegment) ↔ ¬ OverlongTail file := by
  have hchecked := adoptChecked_eq h hlen hcount
  obtain ⟨-, hfits, hstop⟩ := scanRecords_spec (le_refl (file.drop headerSize).length)
  rw [OverlongTail, ← recordTouchesEof_overflow_iff]
  cases htouch : recordTouchesEof (readable file).2 with
  | error e =>
    obtain rfl := recordTouchesEof_error htouch
    rw [adopt_untorn h (e := .overflow) (by rw [htouch])] at hchecked
    constructor
    · intro hok
      rcases hok with ⟨w, hw, -⟩ | hcorrupt
      · cases hw.symm.trans hchecked
      · cases hcorrupt.symm.trans hchecked
    · intro hnot
      exact absurd rfl hnot
  | ok touches =>
    constructor
    · intro _ heq
      cases heq
    · intro _
      cases touches with
      | false =>
        rw [adopt_untorn h (e := .corruptSegment) (by rw [htouch])] at hchecked
        exact Or.inr hchecked
      | true =>
        obtain ⟨w, hadopt, hfile, hend, hrecords, hsparse⟩ := adopt_torn h htouch
        rw [hadopt] at hchecked
        refine Or.inl ⟨w, hchecked, hfits, hfile, ?_, hstop, htouch, hend, hrecords, ?_⟩
        · rw [hfile]
          exact readableFront_append file
        · rw [hrecords] at hsparse
          simp only [sparseStride, capacityRecords] at hsparse hcount
          rw [maxSparseEntries]
          omega

end Adoption

/-! ### A length field no size can hold -/

/-- A fresh segment and a record header's worth of ones. -/
def overlongFile : List UInt8 :=
  (⟨1, 1, Journal.zeroHash⟩ : SegmentHeader).encode ++ List.replicate 32 255

theorem readHeader_overlongFile : readHeader overlongFile = .ok ⟨1, 1, Journal.zeroHash⟩ :=
  readHeader_encode ⟨by decide, by decide⟩ _

theorem readable_overlongFile : readable overlongFile = ([], List.replicate 32 255) := by
  have hdrop : overlongFile.drop headerSize = List.replicate 32 255 := by
    rw [overlongFile, ← length_headerEncode ⟨1, 1, Journal.zeroHash⟩, List.drop_left]
  rw [readable, hdrop]
  rfl

theorem adopt_total_overlongFile :
    ((∃ w, ActiveWriter.adoptChecked overlongFile = .ok w ∧ KeepsReadable overlongFile w) ∨
        ActiveWriter.adoptChecked overlongFile = .error .corruptSegment) ↔ ¬ OverlongTail overlongFile :=
  adopt_total readHeader_overlongFile
    (by rw [overlongFile, List.length_append, length_headerEncode]; decide)
    (by rw [readable_overlongFile]; decide)

/-- Adopting it stops the process. -/
theorem adopt_overlong_traps :
    readHeader overlongFile = .ok ⟨1, 1, Journal.zeroHash⟩ ∧
      ActiveWriter.adoptChecked overlongFile = .error .integerOverflow := by
  have hlen : overlongFile.length < 2 ^ 64 := by
    rw [overlongFile, List.length_append, length_headerEncode]
    decide
  have hcount : (readable overlongFile).1.length ≤ capacityRecords := by
    rw [readable_overlongFile]
    decide
  have htouch : recordTouchesEof (readable overlongFile).2 = .error .overflow := by
    rw [readable_overlongFile]
    rfl
  refine ⟨readHeader_overlongFile, ?_⟩
  rw [adoptChecked_eq readHeader_overlongFile hlen hcount,
    adopt_untorn readHeader_overlongFile (e := .overflow) (by rw [htouch])]
  rfl

end Zaxonlite
