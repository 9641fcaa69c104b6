import Zaxonlite.Storage.Codec

/-!
# Segment files

A segment file is a fixed header, checksummed records in append order and, once it is sealed, a trailer
whose digest covers every byte before it. Nothing but its content says whether a file is sealed: readers
try the trailer at the end of the file first, and an active file is scanned record by record up to its
torn tail. The writer's in-memory state is what it needs to append and to seal.
-/

namespace Zaxonlite

open Bytes (encodeLe readLe)

namespace Segment

def headerMagic : ℕ := 0x3353585a

def trailerMagic : ℕ := 0x3354585a

def recordMagic : ℕ := 0x3352585a

def previousHeaderMagic : ℕ := 0x3253585a

def formatVersion : UInt8 := 3

def sparseStride : ℕ := 64

def maxSparseEntries : ℕ := 256

def headerSize : ℕ := 64

def recordHeaderSize : ℕ := 32

def trailerFixedSize : ℕ := 48

def trailerTailSize : ℕ := 36

def trailerSizeMax : ℕ := trailerFixedSize + maxSparseEntries * 16 + trailerTailSize

def maxWriteSize : ℕ := 1 + 16 + 8 + Entry.maxEntrySize

end Segment

open Segment

inductive SegmentError where
  | corruptSegment
  | unsupportedSegmentVersion
  | overflow
  deriving DecidableEq, Repr

structure SegmentHeader where
  databaseId : ℕ
  firstGlobalSlot : ℕ
  previousSegmentDigest : HashBytes
  deriving DecidableEq

structure SegmentRecord where
  sequence : ℕ
  kind : UInt8
  slot : ℕ
  payload : List UInt8
  deriving DecidableEq

structure SparseEntry where
  slot : ℕ
  offset : ℕ
  deriving DecidableEq

structure SegmentTrailer where
  lastGlobalSlot : ℕ
  recordCount : ℕ
  maxPromised : Ballot
  chosenThrough : ℕ
  sparse : List SparseEntry
  segmentDigest : HashBytes
  deriving DecidableEq

/-! ### Layout -/

/-- One round of the reflected CRC-32 polynomial. -/
def crcShift (crc : UInt32) : UInt32 :=
  if crc &&& 1 = 1 then (crc >>> 1) ^^^ 0xEDB88320 else crc >>> 1

/-- CRC-32 as zlib computes it. -/
def crc32 (bytes : List UInt8) : ℕ :=
  ((bytes.foldl (fun crc b => crcShift (crcShift (crcShift (crcShift (crcShift (crcShift (crcShift
    (crcShift (crc ^^^ b.toUInt32))))))))) 0xFFFFFFFF) ^^^ 0xFFFFFFFF).toNat

def SegmentHeader.encode (h : SegmentHeader) : List UInt8 :=
  encodeLe 4 headerMagic ++ ([formatVersion, 0, 0, 0] ++ (encodeLe 16 h.databaseId ++
    (encodeLe 8 h.firstGlobalSlot ++ h.previousSegmentDigest.toList)))

/-- A record's header up to its checksum. -/
def SegmentRecord.encodeHead (r : SegmentRecord) : List UInt8 :=
  encodeLe 4 recordMagic ++ ([formatVersion] ++ ([r.kind] ++ (encodeLe 2 0 ++ (encodeLe 8 r.sequence ++
    (encodeLe 8 r.slot ++ encodeLe 4 r.payload.length)))))

def SegmentRecord.encode (r : SegmentRecord) : List UInt8 :=
  r.encodeHead ++ (encodeLe 4 (crc32 (r.encodeHead ++ r.payload)) ++ r.payload)

def SparseEntry.encode (entry : SparseEntry) : List UInt8 :=
  encodeLe 8 entry.slot ++ encodeLe 8 entry.offset

/-- The trailer's fields before its digest. -/
def SegmentTrailer.encodeHead (t : SegmentTrailer) : List UInt8 :=
  encodeLe 4 trailerMagic ++ (encodeLe 8 t.lastGlobalSlot ++ (encodeLe 8 t.recordCount ++
    (t.maxPromised.encode ++ (encodeLe 8 t.chosenThrough ++ (encodeLe 4 t.sparse.length ++
      t.sparse.flatMap SparseEntry.encode)))))

def SegmentTrailer.encode (t : SegmentTrailer) : List UInt8 :=
  t.encodeHead ++ (t.segmentDigest.toList ++ encodeLe 4 (t.encodeHead.length + 32 + 4))

def recordOf (sequence : ℕ) (write : Write) : SegmentRecord :=
  ⟨sequence, write.tag, write.slot, encodeWrite write⟩

/-! ### Reading -/

def readHeader (file : List UInt8) : Except SegmentError SegmentHeader :=
  if file.length < headerSize then .error .corruptSegment
  else
    match (do
      let magic ← Cursor.int .corruptSegment 4
      Cursor.require (magic ≠ previousHeaderMagic) .unsupportedSegmentVersion
      Cursor.require (magic = headerMagic) .corruptSegment
      let version ← Cursor.byte .corruptSegment
      Cursor.require (version = formatVersion) .unsupportedSegmentVersion
      let _ ← Cursor.take .corruptSegment 3
      let databaseId ← Cursor.int .corruptSegment 16
      let firstGlobalSlot ← Cursor.int .corruptSegment 8
      let digest ← Cursor.take .corruptSegment 32
      if h : digest.length = 32 then
        pure ⟨databaseId, firstGlobalSlot, ⟨digest.toArray, h⟩⟩
      else Cursor.fail .corruptSegment : Cursor SegmentError SegmentHeader) file with
    | .ok (header, _) => .ok header
    | .error e => .error e

/-- A record's fields with its stored checksum. -/
def readRecordFields : Cursor SegmentError (SegmentRecord × ℕ) := do
  let magic ← Cursor.int .corruptSegment 4
  Cursor.require (magic = recordMagic) .corruptSegment
  let version ← Cursor.byte .corruptSegment
  Cursor.require (version = formatVersion) .unsupportedSegmentVersion
  let kind ← Cursor.byte .corruptSegment
  let reserved ← Cursor.int .corruptSegment 2
  Cursor.require (reserved = 0) .corruptSegment
  let sequence ← Cursor.int .corruptSegment 8
  let slot ← Cursor.int .corruptSegment 8
  let payloadLen ← Cursor.int .corruptSegment 4
  let storedCrc ← Cursor.int .corruptSegment 4
  Cursor.require (payloadLen ≤ maxWriteSize) .corruptSegment
  let payload ← Cursor.take .corruptSegment payloadLen
  pure (⟨sequence, kind, slot, payload⟩, storedCrc)

/-- `Reader.next` on what is left of the records region: the record there and what follows it. -/
def nextRecord (region : List UInt8) : Except SegmentError (Option (SegmentRecord × List UInt8)) :=
  if region = [] then .ok none
  else if region.length < recordHeaderSize then .error .corruptSegment
  else
    match readRecordFields region with
    | .error e => .error e
    | .ok ((record, storedCrc), rest) =>
      if crc32 (region.take 28 ++ record.payload) = storedCrc then .ok (some (record, rest))
      else .error .corruptSegment

/-- Read records until the region ends or a record cannot be read. The second component is what is left:
nothing after a clean end. Every record takes bytes, so the length of the region is enough fuel. -/
def scanRecords : ℕ → List UInt8 → List SegmentRecord × List UInt8
  | 0, region => ([], region)
  | fuel + 1, region =>
    match nextRecord region with
    | .ok none => ([], [])
    | .ok (some (record, rest)) =>
      let (records, left) := scanRecords fuel rest
      (record :: records, left)
    | .error _ => ([], region)

/-- `recordTouchesEof`: whether the record at the front of what is left could extend past the end. The
sum is taken in 32 bits. -/
def recordTouchesEof (left : List UInt8) : Except SegmentError Bool :=
  if left.length < recordHeaderSize then .ok true
  else if 2 ^ 32 ≤ recordHeaderSize + readLe left 24 4 then .error .overflow
  else .ok (left.length < recordHeaderSize + readLe left 24 4)

/-- The records `Writer.adopt` keeps: a torn tail is cut off, anything else unreadable is corruption. -/
def adoptRecords (file : List UInt8) : Except SegmentError (List SegmentRecord) := do
  let _ ← readHeader file
  let region := file.drop headerSize
  let (records, left) := scanRecords region.length region
  if left = [] then pure records
  else
    let touches ← recordTouchesEof left
    if touches then pure records else throw .corruptSegment

/-- The trailer's fields, its digest included. -/
def readTrailerFields : Cursor SegmentError SegmentTrailer := do
  let magic ← Cursor.int .corruptSegment 4
  Cursor.require (magic = trailerMagic) .corruptSegment
  let lastGlobalSlot ← Cursor.int .corruptSegment 8
  let recordCount ← Cursor.int .corruptSegment 8
  let round ← Cursor.int .corruptSegment 8
  let priority ← Cursor.int .corruptSegment 4
  let node ← Cursor.int .corruptSegment 4
  let chosenThrough ← Cursor.int .corruptSegment 8
  let sparseCount ← Cursor.int .corruptSegment 4
  Cursor.require (sparseCount ≤ maxSparseEntries) .corruptSegment
  let sparse ← Cursor.many (do
    let slot ← Cursor.int .corruptSegment 8
    let offset ← Cursor.int .corruptSegment 8
    pure (⟨slot, offset⟩ : SparseEntry)) sparseCount
  let digest ← Cursor.take .corruptSegment 32
  if h : digest.length = 32 then
    pure ⟨lastGlobalSlot, recordCount, ⟨round, priority, node⟩, chosenThrough, sparse,
      ⟨digest.toArray, h⟩⟩
  else Cursor.fail .corruptSegment

/-- `readTrailer`: the trailer the last four bytes of the file point to, and where the records end. -/
def readTrailer (file : List UInt8) : Except SegmentError (SegmentTrailer × ℕ) := do
  if file.length < headerSize + trailerFixedSize + trailerTailSize then throw .corruptSegment
  let trailerLen := readLe file (file.length - 4) 4
  if trailerLen < trailerFixedSize + trailerTailSize ∨ trailerSizeMax < trailerLen ∨
      file.length < headerSize + trailerLen then throw .corruptSegment
  match readTrailerFields (file.drop (file.length - trailerLen)) with
  | .error e => throw e
  | .ok (trailer, _) =>
    if trailerLen = trailerFixedSize + trailer.sparse.length * 16 + trailerTailSize then
      pure (trailer, file.length - trailerLen)
    else throw .corruptSegment

/-- A segment opened as a sealed one: its records up to the first unreadable one, and whether there is
none such. -/
structure SealedView where
  header : SegmentHeader
  trailer : SegmentTrailer
  records : List SegmentRecord
  clean : Bool

/-- `Reader.openSealed`, with the records a pass over it yields. -/
def openSealed (file : List UInt8) : Except SegmentError SealedView := do
  let header ← readHeader file
  let (trailer, recordsEnd) ← readTrailer file
  let digestEnd := recordsEnd + trailerFixedSize + trailer.sparse.length * 16
  if Sha256.hash (file.take digestEnd) ≠ trailer.segmentDigest then throw .corruptSegment
  let region := (file.take recordsEnd).drop headerSize
  let (records, left) := scanRecords region.length region
  pure ⟨header, trailer, records, left = []⟩

/-- What the readers find in a segment file. -/
structure SegmentView where
  header : Except SegmentError SegmentHeader
  sealedView : Except SegmentError SealedView
  adopted : Except SegmentError (List SegmentRecord)

def SegmentView.ofBytes (file : List UInt8) : SegmentView where
  header := readHeader file
  sealedView := openSealed file
  adopted := adoptRecords file

/-! ### Writing -/

/-- The in-memory state of the active segment's writer. -/
structure SegmentWriter where
  header : SegmentHeader
  records : List SegmentRecord
  lastSlot : ℕ
  maxPromised : Ballot
  sparse : List SparseEntry
  endOffset : ℕ

namespace SegmentWriter

def create (header : SegmentHeader) : SegmentWriter where
  header := header
  records := []
  lastSlot := 0
  maxPromised := Ballot.zero
  sparse := []
  endOffset := headerSize

def full (rotationRecords : ℕ) (w : SegmentWriter) : Bool :=
  decide (rotationRecords ≤ w.records.length)

def append (w : SegmentWriter) (record : SegmentRecord) : SegmentWriter where
  header := w.header
  records := w.records ++ [record]
  lastSlot := max w.lastSlot record.slot
  maxPromised := w.maxPromised
  sparse :=
    if w.records.length % sparseStride = 0 ∧ record.slot ≠ 0 then
      w.sparse ++ [⟨record.slot, w.endOffset⟩]
    else w.sparse
  endOffset := w.endOffset + record.encode.length

/-- `adopt`: the state rebuilt from the records that were kept. The promise rollup starts over. -/
def adopt (header : SegmentHeader) (records : List SegmentRecord) : SegmentWriter :=
  records.foldl append (create header)

def observePromise (w : SegmentWriter) (ballot : Ballot) : SegmentWriter :=
  if w.maxPromised.lessThan ballot then { w with maxPromised := ballot } else w

def trailerFields (w : SegmentWriter) (chosenThrough : ℕ) (digest : HashBytes) : SegmentTrailer where
  lastGlobalSlot := w.lastSlot
  recordCount := w.records.length
  maxPromised := w.maxPromised
  chosenThrough := chosenThrough
  sparse := w.sparse
  segmentDigest := digest

/-- The bytes in the file, which the running hash covers. -/
def bytes (w : SegmentWriter) : List UInt8 :=
  w.header.encode ++ w.records.flatMap SegmentRecord.encode

/-- `seal`: the trailer, with the digest of everything before it. -/
def trailer (w : SegmentWriter) (chosenThrough : ℕ) : SegmentTrailer :=
  w.trailerFields chosenThrough
    (Sha256.hash (w.bytes ++ (w.trailerFields chosenThrough Journal.zeroHash).encodeHead))

end SegmentWriter

end Zaxonlite
