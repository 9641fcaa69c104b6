import Zaxonlite.Storage.PayloadLayout

/-!
# Captured frames

A committed transaction is read back from SQLite's WAL as a frame set, encoded into a payload, and
later parsed again by every replica, the capturing one included. What the parsed payload does to an
image is what the frames themselves do when SQLite copies them into the database file.
-/

namespace Zaxonlite

open Bytes Payload

/-- The frames of one committed transaction, as `readCommittedFrames` returns them. -/
structure CapturedFrames extends FrameSet where
  nonempty : 0 < infos.length
  count_lt : infos.length < 256 ^ 4
  pageSize_le : 512 ≤ pageSize ∧ pageSize ≤ 65536
  pageSize_pow : pageSize.isPowerOfTwo
  pages_length : pages.length = infos.length * pageSize
  pageNumber_ne : ∀ info ∈ infos, info.pageNumber ≠ 0
  info_lt : ∀ info ∈ infos, info.pageNumber < 256 ^ 4 ∧ info.commitSize < 256 ^ 4
  committed : ∀ info ∈ infos.getLast?, info.commitSize ≠ 0

/-- What copying the frames into the database file does: every page in order, then the size the last
commit frame names. -/
def FrameSet.changes (frames : FrameSet) : List FileOp :=
  (List.range frames.infos.length).map
      (fun index => FileOp.writePositional (((frames.info index).pageNumber - 1) * frames.pageSize)
        (frames.page index)) ++
    [FileOp.setLength ((List.range frames.infos.length).foldl
      (fun size index => if (frames.info index).commitSize ≠ 0 then (frames.info index).commitSize
        else size) 0 * frames.pageSize)]

/-- A transaction committed in the live WAL, with the batch identity drawn for it. -/
structure CapturedTransaction where
  batchId : ℕ
  sessionId : ℕ
  sequence : ℕ
  changes : ℤ
  frames : CapturedFrames

/-- One page of the default size, filled with one byte, at the end of the database. -/
def CapturedFrames.onePage (page : ℕ) (fill : UInt8) (hpos : page ≠ 0) (hlt : page < 256 ^ 4) :
    CapturedFrames where
  infos := [⟨page, page⟩]
  pages := List.replicate 4096 fill
  pageSize := 4096
  nonempty := Nat.one_pos
  count_lt := by
    rw [List.length_singleton]
    decide
  pageSize_le := by decide
  pageSize_pow := ⟨12, rfl⟩
  pages_length := by rw [List.length_replicate, List.length_singleton, Nat.one_mul]
  pageNumber_ne := by simpa using hpos
  info_lt := by simpa using hlt
  committed := by simpa using hpos

namespace CapturedTransaction

/-- Its record in the payload: one transaction over all the frames. -/
def record (t : CapturedTransaction) : Transaction where
  sessionId := t.sessionId
  sequence := t.sequence
  firstFrame := 0
  frameCount := t.frames.infos.length
  changeCount := t.changes

def payload (t : CapturedTransaction) (databaseId : ℕ) : List UInt8 :=
  Payload.encode databaseId [t.record] t.frames.toFrameSet

def view (t : CapturedTransaction) (databaseId : ℕ) : PayloadView where
  bytes := t.payload databaseId
  pageSize := t.frames.pageSize
  databaseId := databaseId
  transactionCount := 1
  frameCount := t.frames.infos.length

end CapturedTransaction

section RoundTrip

variable (databaseId : ℕ) (t : CapturedTransaction)

theorem length_payload : (t.payload databaseId).length =
    headerSize + 1 * transactionRecordSize + t.frames.infos.length * frameRecordSize +
      t.frames.infos.length * t.frames.pageSize :=
  length_encodePayload databaseId t.frames.pages_length

theorem view_eq : t.view databaseId = encodedView databaseId [t.record] t.frames.toFrameSet :=
  rfl

theorem frameInfoAt_view {index : ℕ} (h : index < t.frames.infos.length) :
    (t.view databaseId).frameInfoAt index = t.frames.info index := by
  have hget : t.frames.infos[index]? = some (t.frames.info index) := by
    simp [FrameSet.info, List.getD_eq_getElem?_getD, List.getElem?_eq_getElem h]
  obtain ⟨hnumber, hcommit⟩ := t.frames.info_lt _ (List.mem_of_getElem? hget)
  rw [view_eq]
  exact frameInfoAt_encodedView databaseId hget hnumber hcommit

theorem framePage_view (index : ℕ) : (t.view databaseId).framePage index = t.frames.page index := by
  rw [view_eq]
  exact framePage_encodedView databaseId index

theorem transactionAt_view : ((t.view databaseId).transactionAt 0).firstFrame = 0 ∧
    ((t.view databaseId).transactionAt 0).frameCount = t.frames.infos.length := by
  have hget : [t.record][0]? = some t.record := rfl
  rw [view_eq]
  constructor
  · exact transactionAt_firstFrame databaseId hget (by simp [CapturedTransaction.record])
  · exact transactionAt_frameCount databaseId hget t.frames.count_lt

theorem checkTransactions_view :
    (t.view databaseId).checkTransactions (List.range 1) 0 = .ok t.frames.infos.length := by
  obtain ⟨hfirst, hcount⟩ := transactionAt_view databaseId t
  have hpos := t.frames.nonempty
  have hlast : (t.frames.info (t.frames.infos.length - 1)).commitSize ≠ 0 := by
    refine t.frames.committed _ ?_
    rw [List.getLast?_eq_getElem?, FrameSet.info, List.getD_eq_getElem?_getD,
      List.getElem?_eq_getElem (by omega)]
    rfl
  have hinfo := frameInfoAt_view databaseId t (Nat.sub_lt hpos Nat.one_pos)
  simp only [List.range_one, PayloadView.checkTransactions, hfirst, hcount, Nat.zero_add, hinfo]
  simp [hlast, Nat.pos_iff_ne_zero.1 hpos, CapturedTransaction.view]

/-- **A captured payload parses back.** -/
theorem parse_payload {databaseId : ℕ} (hdb : databaseId < 256 ^ 16) :
    PayloadView.parse (t.payload databaseId) = .ok (t.view databaseId) := by
  have hlen := length_payload databaseId t
  have hle := t.frames.pageSize_le
  have hpage : t.frames.pageSize < 256 ^ 4 := lt_of_le_of_lt hle.2 (by decide)
  have hone : [t.record].length < 256 ^ 4 := by
    rw [List.length_singleton]
    decide
  obtain ⟨hmagic, hversion, hsize, hid, htx, hframes⟩ :=
    readLe_header ([t.record].flatMap encodeTransaction ++
      (t.frames.infos.flatMap encodeFrameInfo ++ t.frames.pages)) hdb hone t.frames.count_lt hpage
  change readLe (t.payload databaseId) _ _ = _ at hmagic hversion hsize hid htx hframes
  rw [List.length_singleton] at htx
  have hzero : ((List.range t.frames.infos.length).any fun index =>
      ((t.view databaseId).frameInfoAt index).pageNumber == 0) = false := by
    rw [List.any_eq_false]
    intro index hindex
    rw [List.mem_range] at hindex
    rw [frameInfoAt_view databaseId t hindex, beq_iff_eq]
    refine t.frames.pageNumber_ne _ ?_
    rw [FrameSet.info, List.getD_eq_getElem?_getD, List.getElem?_eq_getElem hindex]
    exact List.getElem_mem hindex
  have hview : ({ bytes := t.payload databaseId
                  pageSize := t.frames.pageSize
                  databaseId := databaseId
                  transactionCount := 1
                  frameCount := t.frames.infos.length } : PayloadView) = t.view databaseId := rfl
  have hpos := Nat.pos_iff_ne_zero.1 t.frames.nonempty
  rw [PayloadView.parse]
  simp only [hmagic, hversion, hsize, hid, htx, hframes, hview, checkTransactions_view, hzero, hlen]
  rw [if_neg (by omega), if_neg (not_not.2 rfl), if_neg (not_not.2 rfl), if_neg (by omega),
    if_neg (not_not.2 t.frames.pageSize_pow)]
  simp [hpos]

theorem applyPayload_view : (t.view databaseId).applyPayload = t.frames.changes := by
  have hsize : (t.view databaseId).finalSize = (List.range t.frames.infos.length).foldl
      (fun size index => if (t.frames.info index).commitSize ≠ 0 then (t.frames.info index).commitSize
        else size) 0 := by
    refine List.foldl_ext _ _ _ fun size index hindex => ?_
    rw [frameInfoAt_view databaseId t (List.mem_range.1 hindex)]
  rw [PayloadView.applyPayload, FrameSet.changes, hsize]
  refine congrArg (· ++ _) (List.map_congr_left fun index hindex => ?_)
  rw [frameInfoAt_view databaseId t (List.mem_range.1 hindex), framePage_view]
  rfl

end RoundTrip

end Zaxonlite
