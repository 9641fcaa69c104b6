import Zaxonlite.Storage.Codec
import Zaxonlite.Storage.Directory

/-!
# The manifest file

`MANIFEST` is a fixed head, one row for each retained segment and a SHA-256 checksum of both. It is read
back only when the checksum, the database and the row count fit and the rows form one run of slots that
ends at the active segment and leaves no hole above the trim anchor.
-/

namespace Zaxonlite

open Bytes Cursor

inductive ManifestError where
  | corruptManifest
  | unsupportedManifestVersion
  | tooManySegments
  deriving DecidableEq, Repr

/-! ### The format -/

def manifestMagic : ℕ := 0x334d585a

def previousManifestMagic : ℕ := 0x324d585a

def manifestVersion : ℕ := 3

def manifestFixedSize : ℕ := 4 + 2 + 2 + 8 + 16 + 16 + 8 + 8 + 8 + 32 + 8 + 4

def manifestEntrySize : ℕ := 8 + 8 + 32

def manifestChecksumSize : ℕ := 32

def encodeEntryRow (entry : SegmentEntry) : List UInt8 :=
  encodeLe 8 entry.firstSlot ++ encodeLe 8 entry.lastSlot ++ entry.digest.toList

namespace ManifestFile

/-- The bytes before the checksum. -/
def encodeBody (m : ManifestFile) : List UInt8 :=
  encodeLe 4 manifestMagic ++ encodeLe 2 manifestVersion ++ encodeLe 2 0 ++ encodeLe 8 m.generation ++
    encodeLe 16 m.databaseId ++ encodeLe 8 m.rollup.maxPromised.round ++
    encodeLe 4 m.rollup.maxPromised.priority ++ encodeLe 4 m.rollup.maxPromised.node ++
    encodeLe 8 m.rollup.chosenThrough ++ encodeLe 8 m.rollup.trimDecisionSlot ++
    encodeLe 8 m.rollup.trimmedThrough ++ m.rollup.trimHistoryHash.toList ++
    encodeLe 8 m.activeFirstSlot ++ encodeLe 4 m.segments.length ++ m.segments.flatMap encodeEntryRow

/-- `publish`, as bytes. -/
def encode (m : ManifestFile) : Except ManifestError (List UInt8) :=
  if maxSegments < m.segments.length then .error .tooManySegments
  else .ok (m.encodeBody ++ (Sha256.hash m.encodeBody).toList)

end ManifestFile

def readManifestHash : Cursor ManifestError HashBytes :=
  (readHash .truncatedRecord).mapError fun _ => .corruptManifest

def readEntryRow : Cursor ManifestError SegmentEntry := do
  let firstSlot ← Cursor.int .corruptManifest 8
  let lastSlot ← Cursor.int .corruptManifest 8
  let digest ← readManifestHash
  pure ⟨firstSlot, lastSlot, digest⟩

/-- The fields of `load`, of a file of `length` bytes. -/
def readManifest (databaseId length : ℕ) : Cursor ManifestError ManifestFile := do
  let foundMagic ← Cursor.int .corruptManifest 4
  Cursor.require (foundMagic ≠ previousManifestMagic) .unsupportedManifestVersion
  Cursor.require (foundMagic = manifestMagic) .corruptManifest
  let version ← Cursor.int .corruptManifest 2
  Cursor.require (version = manifestVersion) .unsupportedManifestVersion
  let reserved ← Cursor.int .corruptManifest 2
  Cursor.require (reserved = 0) .corruptManifest
  let generation ← Cursor.int .corruptManifest 8
  let foundDatabase ← Cursor.int .corruptManifest 16
  Cursor.require (foundDatabase = databaseId) .corruptManifest
  let round ← Cursor.int .corruptManifest 8
  let priority ← Cursor.int .corruptManifest 4
  let node ← Cursor.int .corruptManifest 4
  let chosenThrough ← Cursor.int .corruptManifest 8
  let trimDecisionSlot ← Cursor.int .corruptManifest 8
  let trimmedThrough ← Cursor.int .corruptManifest 8
  let trimHistoryHash ← readManifestHash
  let activeFirstSlot ← Cursor.int .corruptManifest 8
  let segmentCount ← Cursor.int .corruptManifest 4
  Cursor.require (segmentCount ≤ maxSegments) .corruptManifest
  Cursor.require (length = manifestFixedSize + segmentCount * manifestEntrySize + manifestChecksumSize)
    .corruptManifest
  let segments ← Cursor.many readEntryRow segmentCount
  pure ⟨generation, databaseId, ⟨⟨round, priority, node⟩, chosenThrough, trimDecisionSlot, trimmedThrough,
    trimHistoryHash⟩, activeFirstSlot, segments⟩

/-- `load`, of a file that is there. Every check of `readSegmentTable` fails alike, so the rows are checked
together. -/
def decodeManifest (databaseId : ℕ) (bytes : List UInt8) : Except ManifestError ManifestFile :=
  if bytes.length < manifestFixedSize + manifestChecksumSize then .error .corruptManifest
  else if manifestFixedSize + maxSegments * manifestEntrySize + manifestChecksumSize < bytes.length then
    .error .corruptManifest
  else if (Sha256.hash (bytes.take (bytes.length - manifestChecksumSize))).toList ≠
      bytes.drop (bytes.length - manifestChecksumSize) then .error .corruptManifest
  else
    match readManifest databaseId bytes.length (bytes.take (bytes.length - manifestChecksumSize)) with
    | .error e => .error e
    | .ok (m, _) => if m.tableValid then .ok m else .error .corruptManifest

/-! ### Tables -/

/-- A table without gap, overlap or hole: every range is one, each begins after the one before it, the
active segment after the last of them, and the oldest at or below the slot after the anchor. -/
structure ManifestFile.Gapless (m : ManifestFile) : Prop where
  ranges : ∀ entry ∈ m.segments, entry.firstSlot ≤ entry.lastSlot
  chained : m.segments.IsChain fun a b => b.firstSlot = a.lastSlot + 1
  active : ∀ entry ∈ m.segments.getLast?, m.activeFirstSlot = entry.lastSlot + 1
  anchored : firstListed m.segments m.activeFirstSlot ≤ m.rollup.trimmedThrough + 1

theorem contiguous_iff {entries : List SegmentEntry} {next : ℕ} : contiguous entries next = true ↔
    (∀ entry ∈ entries, entry.firstSlot ≤ entry.lastSlot) ∧
      (entries.IsChain fun a b => b.firstSlot = a.lastSlot + 1) ∧
      ∀ entry ∈ entries.getLast?, next = entry.lastSlot + 1 := by
  induction entries with
  | nil =>
    refine ⟨fun _ => ⟨fun _ hno => absurd hno List.not_mem_nil, List.isChain_nil, ?_⟩, fun _ => rfl⟩
    intro entry hno
    cases hno
  | cons entry rest ih =>
    rw [contiguous, Bool.and_eq_true, Bool.and_eq_true, decide_eq_true_eq, decide_eq_true_eq, ih,
      List.forall_mem_cons]
    cases rest with
    | nil => simp [firstListed]
    | cons second rest =>
      rw [List.isChain_cons_cons, List.getLast?_cons_cons]
      show (_ ∧ second.firstSlot = entry.lastSlot + 1) ∧ _ ↔ _
      tauto

theorem ManifestFile.tableValid_iff {m : ManifestFile} : m.tableValid = true ↔ m.Gapless := by
  rw [tableValid, Bool.and_eq_true, decide_eq_true_eq, contiguous_iff]
  constructor
  · rintro ⟨hanchored, hranges, hchained, hactive⟩
    exact ⟨hranges, hchained, hactive, hanchored⟩
  · intro h
    exact ⟨h.anchored, h.ranges, h.chained, h.active⟩

theorem contiguous_increasing {entries : List SegmentEntry} {next : ℕ} (h : contiguous entries next = true) :
    (entries.map SegmentEntry.firstSlot ++ [next]).Pairwise (· < ·) := by
  induction entries with
  | nil => exact List.pairwise_singleton _ _
  | cons entry rest ih =>
    rw [contiguous, Bool.and_eq_true, Bool.and_eq_true, decide_eq_true_eq, decide_eq_true_eq] at h
    obtain ⟨⟨hrange, hnext⟩, hrest⟩ := h
    have hpairs := ih hrest
    rw [List.map_cons, List.cons_append]
    refine List.pairwise_cons.2 ⟨fun slot hslot => ?_, hpairs⟩
    -- the first of the rest is the smallest of it
    have hle : firstListed rest next ≤ slot := by
      cases rest with
      | nil => exact (List.mem_singleton.1 hslot).ge
      | cons second rest =>
        rcases List.mem_cons.1 hslot with rfl | hslot
        · exact le_rfl
        · exact ((List.pairwise_cons.1 hpairs).1 slot hslot).le
    omega

theorem contiguous_concat {entries : List SegmentEntry} {entry : SegmentEntry}
    (h : contiguous entries entry.firstSlot = true) (hrange : entry.firstSlot ≤ entry.lastSlot) :
    contiguous (entries ++ [entry]) (entry.lastSlot + 1) = true := by
  induction entries with
  | nil =>
    simp only [List.nil_append, contiguous, firstListed, Bool.and_true, Bool.and_eq_true,
      decide_eq_true_eq]
    exact ⟨hrange, trivial⟩
  | cons first rest ih =>
    rw [contiguous, Bool.and_eq_true, Bool.and_eq_true] at h
    obtain ⟨⟨hfirst, hnext⟩, hrest⟩ := h
    rw [List.cons_append, contiguous, Bool.and_eq_true, Bool.and_eq_true]
    refine ⟨⟨hfirst, ?_⟩, ih hrest⟩
    rw [decide_eq_true_eq] at hnext ⊢
    rw [← hnext]
    cases rest <;> rfl

theorem contiguous_dropWhile {entries : List SegmentEntry} {next : ℕ} (h : contiguous entries next = true)
    (p : SegmentEntry → Bool) : contiguous (entries.dropWhile p) next = true := by
  induction entries with
  | nil => rfl
  | cons entry rest ih =>
    rw [List.dropWhile_cons]
    split
    · rw [contiguous, Bool.and_eq_true] at h
      exact ih h.2
    · exact h

/-! ### Round trip -/

/-- The fields fit their widths. -/
structure ManifestFile.Fits (m : ManifestFile) : Prop where
  generation : m.generation < 256 ^ 8
  databaseId : m.databaseId < 256 ^ 16
  round : m.rollup.maxPromised.round < 256 ^ 8
  priority : m.rollup.maxPromised.priority < 256 ^ 4
  node : m.rollup.maxPromised.node < 256 ^ 4
  chosenThrough : m.rollup.chosenThrough < 256 ^ 8
  trimDecisionSlot : m.rollup.trimDecisionSlot < 256 ^ 8
  trimmedThrough : m.rollup.trimmedThrough < 256 ^ 8
  activeFirstSlot : m.activeFirstSlot < 256 ^ 8
  segments : ∀ entry ∈ m.segments, entry.firstSlot < 256 ^ 8 ∧ entry.lastSlot < 256 ^ 8

theorem length_encodeEntryRow (entry : SegmentEntry) : (encodeEntryRow entry).length = manifestEntrySize := by
  simp [encodeEntryRow, manifestEntrySize]

theorem reads_manifestHash (hash : HashBytes) : Reads readManifestHash hash.toList hash :=
  (reads_hash _ _).mapError _

theorem reads_entryRow {entry : SegmentEntry} (h : entry.firstSlot < 256 ^ 8 ∧ entry.lastSlot < 256 ^ 8) :
    Reads readEntryRow (encodeEntryRow entry) entry := by
  rw [encodeEntryRow, List.append_assoc]
  exact (Reads.int _ h.1).bind ((Reads.int _ h.2).bind ((reads_manifestHash _).last (Reads.pure _)))

namespace ManifestFile

variable {m : ManifestFile}

theorem length_encodeBody (m : ManifestFile) :
    m.encodeBody.length = manifestFixedSize + m.segments.length * manifestEntrySize := by
  have hrows : (m.segments.flatMap encodeEntryRow).length = m.segments.length * manifestEntrySize := by
    rw [Bytes.length_records length_encodeEntryRow]
  simp only [encodeBody, List.length_append, length_encodeLe, hrows, Vector.length_toList]
  rfl

theorem reads_manifest (h : m.Fits) (hcount : m.segments.length ≤ maxSegments) {length : ℕ}
    (hlength : length = manifestFixedSize + m.segments.length * manifestEntrySize + manifestChecksumSize) :
    Reads (readManifest m.databaseId length) m.encodeBody m := by
  have hrows : Reads (Cursor.many readEntryRow m.segments.length) (m.segments.flatMap encodeEntryRow)
      m.segments := Reads.many fun entry hentry => reads_entryRow (h.segments entry hentry)
  have hcount' : m.segments.length < 256 ^ 4 := by
    rw [maxSegments] at hcount
    omega
  simp only [encodeBody, List.append_assoc]
  refine (Reads.int _ (by decide)).bind (Reads.require _ (by decide) (Reads.require _ (by decide) ?_))
  refine (Reads.int _ (by decide)).bind (Reads.require _ (by decide) ?_)
  refine (Reads.int _ (by decide)).bind (Reads.require _ (by decide) ?_)
  refine (Reads.int _ h.generation).bind ((Reads.int _ h.databaseId).bind
    (Reads.require _ (decide_eq_true rfl) ?_))
  refine (Reads.int _ h.round).bind ((Reads.int _ h.priority).bind ((Reads.int _ h.node).bind ?_))
  refine (Reads.int _ h.chosenThrough).bind ((Reads.int _ h.trimDecisionSlot).bind
    ((Reads.int _ h.trimmedThrough).bind ((reads_manifestHash _).bind ?_)))
  refine (Reads.int _ h.activeFirstSlot).bind ((Reads.int _ hcount').bind ?_)
  refine Reads.require _ (decide_eq_true hcount) (Reads.require _ (decide_eq_true hlength) ?_)
  exact hrows.last (Reads.pure m)

/-- **A published manifest is loaded as it was, or refused for its table.** -/
theorem decodeManifest_encode (h : m.Fits) {bytes : List UInt8} (hbytes : m.encode = .ok bytes) :
    decodeManifest m.databaseId bytes =
      if m.tableValid = true then .ok m else .error .corruptManifest := by
  unfold encode at hbytes
  split at hbytes
  · cases hbytes
  rename_i hcount
  obtain rfl := Except.ok.inj hbytes
  have hle := Nat.le_of_not_lt hcount
  have hsum : (Sha256.hash m.encodeBody).toList.length = manifestChecksumSize := Vector.length_toList
  have hlength : (m.encodeBody ++ (Sha256.hash m.encodeBody).toList).length =
      manifestFixedSize + m.segments.length * manifestEntrySize + manifestChecksumSize := by
    rw [List.length_append, length_encodeBody, hsum]
  have hcut : (m.encodeBody ++ (Sha256.hash m.encodeBody).toList).length - manifestChecksumSize =
      m.encodeBody.length := by
    rw [List.length_append, hsum, Nat.add_sub_cancel]
  have hmul := Nat.mul_le_mul_right manifestEntrySize hle
  have hread := reads_manifest h hle hlength []
  rw [List.append_nil] at hread
  rw [decodeManifest, if_neg (by omega), if_neg (by omega), hcut, List.take_left, List.drop_left,
    if_neg (not_not.2 rfl), hread]

theorem yields_databaseId (databaseId length : ℕ) :
    Yields (readManifest databaseId length) fun m => m.databaseId = databaseId := by
  rw [readManifest]
  repeat refine Yields.bind fun _ => ?_
  exact Yields.pure rfl

theorem gapless_of_decodeManifest {databaseId : ℕ} {bytes : List UInt8}
    (h : decodeManifest databaseId bytes = .ok m) : m.Gapless ∧ m.databaseId = databaseId := by
  unfold decodeManifest at h
  split at h
  · cases h
  split at h
  · cases h
  split at h
  · cases h
  split at h
  · cases h
  · rename_i found rest hread
    split at h
    · rename_i hvalid
      obtain rfl := Except.ok.inj h
      exact ⟨tableValid_iff.1 hvalid, yields_databaseId _ _ _ _ _ hread⟩
    · cases h

theorem decodeManifest_eq_ok_iff (h : m.Fits) {bytes : List UInt8} (hbytes : m.encode = .ok bytes) :
    decodeManifest m.databaseId bytes = .ok m ↔ loadManifest m.databaseId m = .ok m := by
  rw [decodeManifest_encode h hbytes, loadManifest]
  by_cases hvalid : m.tableValid = true
  · rw [if_pos hvalid, if_pos ⟨rfl, hvalid⟩]
    exact ⟨fun _ => rfl, fun _ => rfl⟩
  · rw [if_neg hvalid, if_neg fun hno => hvalid hno.2]
    constructor
    · intro hno
      cases hno
    · intro hno
      cases hno

end ManifestFile

end Zaxonlite
