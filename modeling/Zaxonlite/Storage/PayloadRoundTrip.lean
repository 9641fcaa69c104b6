import Zaxonlite.Storage.PayloadChecks

/-!
# Parsing what was encoded

Any list of transactions that tile the frames, each ending on a commit frame, survives the way through the
bytes: the parse with all its checks succeeds, and the accessors give back every transaction, every frame
record and every page. The parser refuses an empty list, which tiles no frames.
-/

namespace Zaxonlite

open Bytes Payload PayloadView

/-- The transactions cover the frames once and in order, and each ends on a commit frame. -/
structure TilesFrames (transactions : List Transaction) (frames : FrameSet) : Prop where
  tiles : transactions.flatMap (fun t => List.range' t.firstFrame t.frameCount) =
    List.range frames.infos.length
  ends : ∀ t ∈ transactions, t.frameCount ≠ 0 ∧
    (frames.info (t.firstFrame + t.frameCount - 1)).commitSize ≠ 0

/-- A frame set in memory: every record fits its widths and names a page, and every page is there. -/
structure FrameSet.Fits (frames : FrameSet) : Prop where
  pageSize : 512 ≤ frames.pageSize ∧ frames.pageSize ≤ 65536
  pageSize_pow : frames.pageSize.isPowerOfTwo
  pages : frames.pages.length = frames.infos.length * frames.pageSize
  count : frames.infos.length < 256 ^ 4
  infos : ∀ info ∈ frames.infos, info.pageNumber < 256 ^ 4 ∧ info.commitSize < 256 ^ 4
  pageNumber_ne : ∀ info ∈ frames.infos, info.pageNumber ≠ 0

section Tiling

variable {transactions : List Transaction} {frames : FrameSet}

theorem range'_append_eq {a m b k : ℕ} {l : List ℕ} (hm : m ≠ 0)
    (h : List.range' a m ++ l = List.range' b k) :
    a = b ∧ m ≤ k ∧ l = List.range' (b + m) (k - m) := by
  have hlen := congrArg List.length h
  rw [List.length_append, List.length_range', List.length_range'] at hlen
  have hle : m ≤ k := by omega
  have hsplit : List.range' b k = List.range' b m ++ List.range' (b + m) (k - m) := by
    rw [List.range'_append_1]
    congr 1
    omega
  rw [hsplit] at h
  obtain ⟨hfront, hrest⟩ := List.append_inj h (by rw [List.length_range', List.length_range'])
  obtain ⟨count, rfl⟩ := Nat.exists_eq_succ_of_ne_zero hm
  rw [List.range'_succ, List.range'_succ] at hfront
  exact ⟨(List.cons_eq_cons.1 hfront).1, hle, hrest⟩

theorem TilesFrames.length_le (h : TilesFrames transactions frames) :
    transactions.length ≤ frames.infos.length := by
  have hcount : ∀ l : List Transaction, (∀ t ∈ l, t.frameCount ≠ 0) →
      l.length ≤ (l.flatMap fun t => List.range' t.firstFrame t.frameCount).length := by
    intro l hl
    induction l with
    | nil => exact Nat.zero_le _
    | cons t l ih =>
      have hrest := ih fun u hu => hl u (List.mem_cons_of_mem t hu)
      have hpos := hl t List.mem_cons_self
      rw [List.flatMap_cons, List.length_append, List.length_range', List.length_cons]
      omega
  have hle := hcount transactions fun t ht => (h.ends t ht).1
  rwa [h.tiles, List.length_range] at hle

variable {databaseId : ℕ}

theorem FrameSet.getElem?_info {index : ℕ} (h : index < frames.infos.length) :
    frames.infos[index]? = some (frames.info index) := by
  rw [FrameSet.info, List.getD_eq_getElem?_getD, List.getElem?_eq_getElem h]
  rfl

theorem FrameSet.Fits.frameInfoAt (h : frames.Fits) {index : ℕ} (hindex : index < frames.infos.length) :
    (encodedView databaseId transactions frames).frameInfoAt index = frames.info index := by
  have hget := FrameSet.getElem?_info hindex
  obtain ⟨hnumber, hcommit⟩ := h.infos _ (List.mem_of_getElem? hget)
  exact frameInfoAt_encodedView databaseId hget hnumber hcommit

/-- From any transaction on, the loop of the parser follows the tiling to the last frame. -/
theorem checkTransactions_encodedView (hframes : frames.Fits) (hfits : ∀ t ∈ transactions, t.Fits)
    (h : TilesFrames transactions frames) {count start nextFrame : ℕ}
    (hcount : start + count = transactions.length) (hnext : nextFrame ≤ frames.infos.length)
    (htiles : (transactions.drop start).flatMap (fun t => List.range' t.firstFrame t.frameCount) =
      List.range' nextFrame (frames.infos.length - nextFrame)) :
    (encodedView databaseId transactions frames).checkTransactions (List.range' start count) nextFrame =
      .ok frames.infos.length := by
  induction count generalizing start nextFrame with
  | zero =>
    rw [List.drop_of_length_le (by omega), List.flatMap_nil] at htiles
    have hlen := congrArg List.length htiles
    rw [List.length_nil, List.length_range'] at hlen
    have hend : nextFrame = frames.infos.length := by omega
    rw [List.range'_zero, hend]
    rfl
  | succ count ih =>
    have hstart : start < transactions.length := by omega
    have hmem := List.getElem_mem hstart
    have hget : transactions[start]? = some transactions[start] := List.getElem?_eq_getElem hstart
    obtain ⟨hpos, hcommit⟩ := h.ends _ hmem
    rw [List.drop_eq_getElem_cons hstart, List.flatMap_cons] at htiles
    obtain ⟨hfirst, hle, hrest⟩ := range'_append_eq hpos htiles
    have hlast : nextFrame + transactions[start].frameCount - 1 < frames.infos.length := by omega
    rw [hfirst] at hcommit
    rw [List.range'_succ, checkTransactions_cons, transactionAt_encodedView databaseId hget (hfits _ hmem),
      if_neg (not_not.2 hfirst), if_neg hpos, hframes.frameInfoAt hlast, if_neg, if_neg hcommit]
    · apply ih (by omega) (by omega)
      rw [hrest, Nat.sub_sub]
    · show ¬ nextFrame + transactions[start].frameCount > frames.infos.length
      omega

end Tiling

/-- What a parse of an encoding gives back. -/
structure GivesBack (databaseId : ℕ) (transactions : List Transaction) (frames : FrameSet)
    (view : PayloadView) : Prop where
  databaseId : view.databaseId = databaseId
  pageSize : view.pageSize = frames.pageSize
  transactionCount : view.transactionCount = transactions.length
  frameCount : view.frameCount = frames.infos.length
  transactionAt : ∀ index t, transactions[index]? = some t → view.transactionAtChecked index = .ok t
  frameInfoAt : ∀ index info, frames.infos[index]? = some info → view.frameInfoAtChecked index = .ok info
  framePage : ∀ index < frames.infos.length, view.framePageChecked index =
    .ok ((frames.pages.drop (index * frames.pageSize)).take frames.pageSize)
  length : view.bytes.length = headerSize + transactions.length * transactionRecordSize +
    frames.infos.length * frameRecordSize + frames.infos.length * frames.pageSize

section RoundTrip

variable {databaseId : ℕ} {transactions : List Transaction} {frames : FrameSet}

theorem givesBack_encodedView (hframes : frames.Fits) (hfits : ∀ t ∈ transactions, t.Fits) :
    GivesBack databaseId transactions frames (encodedView databaseId transactions frames) := by
  have hlen : (encode databaseId transactions frames).length =
      headerSize + transactions.length * transactionRecordSize + frames.infos.length * frameRecordSize +
        frames.infos.length * frames.pageSize := length_encodePayload databaseId hframes.pages
  have hsized : (encodedView databaseId transactions frames).Sized := hlen
  refine ⟨rfl, rfl, rfl, rfl, ?_, ?_, ?_, hlen⟩
  · intro index t hget
    obtain ⟨hindex, -⟩ := List.getElem?_eq_some_iff.1 hget
    rw [transactionAtChecked_of_lt hsized hindex,
      transactionAt_encodedView databaseId hget (hfits t (List.mem_of_getElem? hget))]
  · intro index info hget
    obtain ⟨hindex, -⟩ := List.getElem?_eq_some_iff.1 hget
    obtain ⟨hnumber, hcommit⟩ := hframes.infos info (List.mem_of_getElem? hget)
    rw [frameInfoAtChecked_of_lt hsized hindex, frameInfoAt_encodedView databaseId hget hnumber hcommit]
  · intro index hindex
    rw [(framePageChecked_of_lt hsized hindex).1, framePage_encodedView]
    rfl

/-- **Encode, then parse.** A list of transactions that tiles a frame set is given back whole. -/
theorem parse_encode (hdb : databaseId < 256 ^ 16) (hframes : frames.Fits)
    (hfits : ∀ t ∈ transactions, t.Fits) (h : TilesFrames transactions frames)
    (hnonempty : transactions ≠ []) :
    ∃ view, parseChecked (encode databaseId transactions frames) = .ok view ∧
      GivesBack databaseId transactions frames view := by
  refine ⟨_, ?_, givesBack_encodedView hframes hfits⟩
  have hle := h.length_le
  have hpos : transactions.length ≠ 0 := fun hzero => hnonempty (List.length_eq_zero_iff.1 hzero)
  have hcount := hframes.count
  have hpage : frames.pageSize < 256 ^ 4 := lt_of_le_of_lt hframes.pageSize.2 (by decide)
  have htx : transactions.length < 256 ^ 4 := by omega
  have hheader := headerAccepted_encode hdb htx hcount
    hframes.pageSize hframes.pageSize_pow hframes.pages ⟨hpos, by omega⟩
  obtain ⟨-, -, hview⟩ := ofHeader_encode hdb htx hcount hpage
  have hloop : (encodedView databaseId transactions frames).checkTransactions
      (List.range (encodedView databaseId transactions frames).transactionCount) 0 =
        .ok (encodedView databaseId transactions frames).frameCount := by
    show (encodedView databaseId transactions frames).checkTransactions
      (List.range transactions.length) 0 = .ok frames.infos.length
    rw [List.range_eq_range']
    apply checkTransactions_encodedView hframes hfits h (Nat.zero_add _) (Nat.zero_le _)
    rw [List.drop_zero, h.tiles, Nat.sub_zero, List.range_eq_range']
  have hany : ¬ ((List.range (encodedView databaseId transactions frames).frameCount).any fun index =>
      ((encodedView databaseId transactions frames).frameInfoAt index).pageNumber == 0) = true := by
    intro hany
    obtain ⟨index, hindex, hzero⟩ := List.any_eq_true.1 hany
    rw [List.mem_range] at hindex
    rw [hframes.frameInfoAt hindex, beq_iff_eq] at hzero
    exact hframes.pageNumber_ne _ (List.mem_of_getElem? (FrameSet.getElem?_info hindex)) hzero
  have hparse : PayloadView.parse (encode databaseId transactions frames) =
      .ok (encodedView databaseId transactions frames) := by
    rw [parse_of hheader, hview, hloop]
    exact (if_neg (not_not.2 rfl)).trans (if_neg hany)
  exact parseChecked_of_parse hheader hparse

end RoundTrip

def twoTransactions : List Transaction :=
  [⟨7, 1, 0, 1, 3⟩, ⟨8, 2, 1, 1, -1⟩]

def twoFrames : FrameSet :=
  ⟨[⟨1, 1⟩, ⟨2, 2⟩], List.replicate 1024 0, 512⟩

theorem twoFrames_fits : twoFrames.Fits where
  pageSize := by decide
  pageSize_pow := ⟨9, rfl⟩
  pages := List.length_replicate
  count := by decide
  infos := by decide
  pageNumber_ne := by decide

theorem twoTransactions_fits : ∀ t ∈ twoTransactions, t.Fits := by
  intro t ht
  rcases List.mem_pair.1 ht with rfl | rfl
  · exact ⟨by decide, by decide, by decide, by decide, by decide, by decide⟩
  · exact ⟨by decide, by decide, by decide, by decide, by decide, by decide⟩

theorem parse_encode_two : ∃ view, parseChecked (encode 1 twoTransactions twoFrames) = .ok view ∧
    GivesBack 1 twoTransactions twoFrames view :=
  parse_encode (by decide) twoFrames_fits twoTransactions_fits ⟨by decide, by decide⟩ (by decide)

def noFrames : FrameSet :=
  ⟨[], [], 512⟩

/-- No transactions tile no frames, and no payload of none is accepted. -/
theorem parse_encode_empty : noFrames.Fits ∧ TilesFrames [] noFrames ∧
    ¬ ∃ view, parseChecked (encode 1 [] noFrames) = .ok view := by
  refine ⟨⟨by decide, ⟨9, rfl⟩, rfl, by decide, by decide, by decide⟩, ⟨rfl, by decide⟩, ?_⟩
  rintro ⟨view, hok⟩
  have hview : ofHeader (encode 1 [] noFrames) = encodedView 1 [] noFrames :=
    (ofHeader_encode (by decide) (by decide) (by decide) (by decide)).2.2
  have hnot : ¬ HeaderAccepted (encode 1 [] noFrames) := by
    rintro ⟨-, -, -, -, -, -, hcounts⟩
    rw [hview] at hcounts
    exact hcounts.1 rfl
  obtain ⟨e, hfail⟩ := parseChecked_of_not hnot
  cases hok.symm.trans hfail

end Zaxonlite
