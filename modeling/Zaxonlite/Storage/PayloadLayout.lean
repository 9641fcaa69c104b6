import Zaxonlite.Storage.Payload

/-!
# The layout of a payload

The encoder lays a header, the transaction records, the frame records and the pages one after the other;
each accessor computes an offset of its own from the counts. Reading an encoding at any of these offsets
finds the field that was laid there, whatever the counts are.
-/

namespace Zaxonlite

open Bytes Payload

def FrameSet.info (frames : FrameSet) (index : ℕ) : FrameInfo :=
  frames.infos.getD index ⟨0, 0⟩

def FrameSet.page (frames : FrameSet) (index : ℕ) : List UInt8 :=
  (frames.pages.drop (index * frames.pageSize)).take frames.pageSize

section Layout

variable (databaseId : ℕ) (transactions : List Transaction) (frames : FrameSet)

@[simp] theorem length_encodeHeader (databaseId transactionCount frameCount pageSize : ℕ) :
    (encodeHeader databaseId transactionCount frameCount pageSize).length = headerSize := by
  simp [encodeHeader, headerSize]

@[simp] theorem length_encodeTransaction (t : Transaction) :
    (encodeTransaction t).length = transactionRecordSize := by
  simp [encodeTransaction, transactionRecordSize, encodeLeSigned]

@[simp] theorem length_encodeFrameInfo (info : FrameInfo) :
    (encodeFrameInfo info).length = frameRecordSize := by
  simp [encodeFrameInfo, frameRecordSize]

theorem readLe_header {databaseId transactionCount frameCount pageSize : ℕ} (post : List UInt8)
    (hdb : databaseId < 256 ^ 16) (htx : transactionCount < 256 ^ 4) (hframes : frameCount < 256 ^ 4)
    (hpage : pageSize < 256 ^ 4) :
    let bytes := encodeHeader databaseId transactionCount frameCount pageSize ++ post
    readLe bytes 0 4 = magic ∧ readLe bytes 4 1 = version ∧ readLe bytes 8 4 = pageSize ∧
      readLe bytes 12 16 = databaseId ∧ readLe bytes 28 4 = transactionCount ∧
      readLe bytes 32 4 = frameCount := by
  simp only [encodeHeader, List.append_assoc]
  refine ⟨readLe_encodeLe (by decide) _, ?_, ?_, ?_, ?_, ?_⟩
  · exact (readLe_append (k := 0) (length_encodeLe 4 magic)).trans (readLe_encodeLe (by decide) _)
  · refine (readLe_append (k := 4) (length_encodeLe 4 magic)).trans ?_
    refine (readLe_append (k := 3) (length_encodeLe 1 version)).trans ?_
    exact (readLe_append (k := 0) List.length_replicate).trans (readLe_encodeLe hpage _)
  · refine (readLe_append (k := 8) (length_encodeLe 4 magic)).trans ?_
    refine (readLe_append (k := 7) (length_encodeLe 1 version)).trans ?_
    refine (readLe_append (k := 4) List.length_replicate).trans ?_
    exact (readLe_append (k := 0) (length_encodeLe 4 _)).trans (readLe_encodeLe hdb _)
  · refine (readLe_append (k := 24) (length_encodeLe 4 magic)).trans ?_
    refine (readLe_append (k := 23) (length_encodeLe 1 version)).trans ?_
    refine (readLe_append (k := 20) List.length_replicate).trans ?_
    refine (readLe_append (k := 16) (length_encodeLe 4 _)).trans ?_
    exact (readLe_append (k := 0) (length_encodeLe 16 _)).trans (readLe_encodeLe htx _)
  · refine (readLe_append (k := 28) (length_encodeLe 4 magic)).trans ?_
    refine (readLe_append (k := 27) (length_encodeLe 1 version)).trans ?_
    refine (readLe_append (k := 24) List.length_replicate).trans ?_
    refine (readLe_append (k := 20) (length_encodeLe 4 _)).trans ?_
    refine (readLe_append (k := 4) (length_encodeLe 16 _)).trans ?_
    exact (readLe_append (k := 0) (length_encodeLe 4 _)).trans (readLe_encodeLe hframes _)

variable {transactions} {frames}

/-- Inside the record of a transaction. -/
theorem readLe_transaction {index : ℕ} {t : Transaction} (h : transactions[index]? = some t) {k width : ℕ}
    (hk : k + width ≤ transactionRecordSize) :
    readLe (encode databaseId transactions frames)
        (headerSize + (index * transactionRecordSize + k)) width =
      readLe (encodeTransaction t) k width := by
  rw [encode, readLe_append (length_encodeHeader _ _ _ _), readLe_records length_encodeTransaction h _ hk]

/-- Inside the record of a frame. -/
theorem readLe_frameInfo {index : ℕ} {info : FrameInfo} (h : frames.infos[index]? = some info)
    {k width : ℕ} (hk : k + width ≤ frameRecordSize) :
    readLe (encode databaseId transactions frames)
        (headerSize + (transactions.length * transactionRecordSize + (index * frameRecordSize + k))) width =
      readLe (encodeFrameInfo info) k width := by
  have hlen : (transactions.flatMap encodeTransaction).length =
      transactions.length * transactionRecordSize := length_records length_encodeTransaction _
  rw [encode, readLe_append (length_encodeHeader _ _ _ _), readLe_append hlen,
    readLe_records length_encodeFrameInfo h _ hk]

theorem length_encodePayload (hpages : frames.pages.length = frames.infos.length * frames.pageSize) :
    (encode databaseId transactions frames).length =
      headerSize + transactions.length * transactionRecordSize + frames.infos.length * frameRecordSize +
        frames.infos.length * frames.pageSize := by
  simp only [encode, List.length_append, length_encodeHeader, length_records length_encodeTransaction,
    length_records length_encodeFrameInfo, hpages]
  omega

/-! ### The fields of a record -/

variable {t : Transaction} {info : FrameInfo}

theorem readLe_sessionId (h : t.sessionId < 256 ^ 8) : readLe (encodeTransaction t) 0 8 = t.sessionId :=
  readLe_encodeLe h _

theorem readLe_sequence (h : t.sequence < 256 ^ 8) : readLe (encodeTransaction t) 8 8 = t.sequence := by
  rw [encodeTransaction]
  exact (readLe_append (k := 0) (length_encodeLe 8 _)).trans (readLe_encodeLe h _)

theorem readLe_firstFrame (h : t.firstFrame < 256 ^ 4) :
    readLe (encodeTransaction t) 16 4 = t.firstFrame := by
  rw [encodeTransaction]
  refine (readLe_append (k := 8) (length_encodeLe 8 _)).trans ?_
  exact (readLe_append (k := 0) (length_encodeLe 8 _)).trans (readLe_encodeLe h _)

theorem readLe_frameCount (h : t.frameCount < 256 ^ 4) :
    readLe (encodeTransaction t) 20 4 = t.frameCount := by
  rw [encodeTransaction]
  refine (readLe_append (k := 12) (length_encodeLe 8 _)).trans ?_
  refine (readLe_append (k := 4) (length_encodeLe 8 _)).trans ?_
  exact (readLe_append (k := 0) (length_encodeLe 4 _)).trans (readLe_encodeLe h _)

theorem toSigned_changeCount (hlo : -(256 ^ 8) ≤ 2 * t.changeCount) (hhi : 2 * t.changeCount < 256 ^ 8) :
    toSigned 8 (readLe (encodeTransaction t) 24 8) = t.changeCount := by
  have hread : readLe (encodeTransaction t) 24 8 = (t.changeCount % 256 ^ 8).toNat := by
    have hlt : (t.changeCount % 256 ^ 8).toNat < 256 ^ 8 := by
      have hmod := Int.emod_lt_of_pos t.changeCount (show (0 : ℤ) < 256 ^ 8 by decide)
      omega
    have htail := readLe_encodeLe hlt []
    rw [List.append_nil] at htail
    rw [encodeTransaction]
    refine (readLe_append (k := 16) (length_encodeLe 8 _)).trans ?_
    refine (readLe_append (k := 8) (length_encodeLe 8 _)).trans ?_
    refine (readLe_append (k := 4) (length_encodeLe 4 _)).trans ?_
    exact (readLe_append (k := 0) (length_encodeLe 4 _)).trans htail
  rw [hread]
  exact toSigned_emod hlo hhi

theorem readLe_pageNumber (h : info.pageNumber < 256 ^ 4) :
    readLe (encodeFrameInfo info) 0 4 = info.pageNumber :=
  readLe_encodeLe h _

theorem readLe_commitSize (h : info.commitSize < 256 ^ 4) :
    readLe (encodeFrameInfo info) 4 4 = info.commitSize := by
  have htail := readLe_encodeLe h []
  rw [List.append_nil] at htail
  rw [encodeFrameInfo]
  exact (readLe_append (k := 0) (length_encodeLe 4 _)).trans htail

/-! ### The accessors -/

/-- The view a parse of the encoding should return. -/
def encodedView (databaseId : ℕ) (transactions : List Transaction) (frames : FrameSet) : PayloadView where
  bytes := encode databaseId transactions frames
  pageSize := frames.pageSize
  databaseId := databaseId
  transactionCount := transactions.length
  frameCount := frames.infos.length

/-- The fields of a transaction fit their widths. -/
structure Transaction.Fits (t : Transaction) : Prop where
  sessionId : t.sessionId < 256 ^ 8
  sequence : t.sequence < 256 ^ 8
  firstFrame : t.firstFrame < 256 ^ 4
  frameCount : t.frameCount < 256 ^ 4
  changeCount : -(256 ^ 8) ≤ 2 * t.changeCount ∧ 2 * t.changeCount < 256 ^ 8

theorem transactionAt_firstFrame {index : ℕ} (h : transactions[index]? = some t)
    (hfits : t.firstFrame < 256 ^ 4) :
    ((encodedView databaseId transactions frames).transactionAt index).firstFrame = t.firstFrame := by
  have hread : readLe (encode databaseId transactions frames)
      (headerSize + (index * transactionRecordSize + 16)) 4 = readLe (encodeTransaction t) 16 4 :=
    readLe_transaction databaseId h (by decide)
  exact hread.trans (readLe_firstFrame hfits)

theorem transactionAt_frameCount {index : ℕ} (h : transactions[index]? = some t)
    (hfits : t.frameCount < 256 ^ 4) :
    ((encodedView databaseId transactions frames).transactionAt index).frameCount = t.frameCount := by
  have hread : readLe (encode databaseId transactions frames)
      (headerSize + (index * transactionRecordSize + 20)) 4 = readLe (encodeTransaction t) 20 4 :=
    readLe_transaction databaseId h (by decide)
  exact hread.trans (readLe_frameCount hfits)

theorem transactionAt_encodedView {index : ℕ} (h : transactions[index]? = some t) (hfits : t.Fits) :
    (encodedView databaseId transactions frames).transactionAt index = t := by
  have hread : ∀ {k width : ℕ}, k + width ≤ transactionRecordSize →
      readLe (encode databaseId transactions frames)
        (headerSize + (index * transactionRecordSize + k)) width = readLe (encodeTransaction t) k width :=
    fun hk => readLe_transaction databaseId h hk
  have hfirst : ((encodedView databaseId transactions frames).transactionAt index).firstFrame =
      t.firstFrame := transactionAt_firstFrame databaseId h hfits.firstFrame
  have hcount : ((encodedView databaseId transactions frames).transactionAt index).frameCount =
      t.frameCount := transactionAt_frameCount databaseId h hfits.frameCount
  have hsession : ((encodedView databaseId transactions frames).transactionAt index).sessionId =
      t.sessionId := (hread (k := 0) (by decide)).trans (readLe_sessionId hfits.sessionId)
  have hsequence : ((encodedView databaseId transactions frames).transactionAt index).sequence =
      t.sequence := (hread (k := 8) (by decide)).trans (readLe_sequence hfits.sequence)
  have hchange : ((encodedView databaseId transactions frames).transactionAt index).changeCount =
      t.changeCount :=
    (congrArg (toSigned 8) (hread (k := 24) (by decide))).trans
      (toSigned_changeCount hfits.changeCount.1 hfits.changeCount.2)
  cases hat : (encodedView databaseId transactions frames).transactionAt index with
  | mk sessionId sequence firstFrame frameCount changeCount =>
    rw [hat] at hfirst hcount hsession hsequence hchange
    cases t
    simp only at hfirst hcount hsession hsequence hchange
    rw [hfirst, hcount, hsession, hsequence, hchange]

theorem frameInfoAt_encodedView {index : ℕ} (h : frames.infos[index]? = some info)
    (hnumber : info.pageNumber < 256 ^ 4) (hcommit : info.commitSize < 256 ^ 4) :
    (encodedView databaseId transactions frames).frameInfoAt index = info := by
  have hread : ∀ {k width : ℕ}, k + width ≤ frameRecordSize →
      readLe (encode databaseId transactions frames)
        (headerSize + (transactions.length * transactionRecordSize + (index * frameRecordSize + k)))
          width = readLe (encodeFrameInfo info) k width :=
    fun hk => readLe_frameInfo databaseId h hk
  have hfirst := (hread (k := 0) (by decide)).trans (readLe_pageNumber hnumber)
  have hsecond := (hread (k := 4) (by decide)).trans (readLe_commitSize hcommit)
  simp only [Nat.add_zero, ← Nat.add_assoc] at hfirst hsecond
  simp only [PayloadView.frameInfoAt, encodedView, hfirst, hsecond]

theorem framePage_encodedView (index : ℕ) :
    (encodedView databaseId transactions frames).framePage index = frames.page index := by
  have htx : (transactions.flatMap encodeTransaction).length =
      transactions.length * transactionRecordSize := length_records length_encodeTransaction _
  have hinfo : (frames.infos.flatMap encodeFrameInfo).length =
      frames.infos.length * frameRecordSize := length_records length_encodeFrameInfo _
  simp only [PayloadView.framePage, encodedView, encode, FrameSet.page]
  rw [Nat.add_assoc, Nat.add_assoc, ← List.drop_drop,
    ← length_encodeHeader databaseId transactions.length frames.infos.length frames.pageSize,
    List.drop_left, ← List.drop_drop, ← htx, List.drop_left, ← List.drop_drop, ← hinfo,
    List.drop_left]

end Layout

end Zaxonlite
