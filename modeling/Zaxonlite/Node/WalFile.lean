import Zaxonlite.Node.Chosen

/-!
# SQLite's write-ahead log

A live connection commits into a WAL file: every page a transaction changed is appended as a frame, and
the last frame of a transaction names the size of the database after it. What a connection sees is the
database file with the frames laid over it in order. A transaction is captured by reading its frames
back by number, from the frame counter before the commit to the one after it.
-/

namespace Zaxonlite

/-- A frame: its record and the page image. -/
structure WalFrame where
  info : FrameInfo
  page : List UInt8
  page_length : page.length = defaultPageSize
  pageNumber_ne : info.pageNumber ≠ 0
  info_lt : info.pageNumber < 256 ^ 4 ∧ info.commitSize < 256 ^ 4

namespace WalFrame

/-- The page the frame stores. -/
def write (f : WalFrame) : FileOp :=
  .writePositional ((f.info.pageNumber - 1) * defaultPageSize) f.page

/-- Laying the frame over the database file; a commit frame also sets the size. -/
def ops (f : WalFrame) : List FileOp :=
  f.write ::
    if f.info.commitSize = 0 then [] else [.setLength (f.info.commitSize * defaultPageSize)]

end WalFrame

/-- The changes the frames make, in order. -/
def frameOps (frames : List WalFrame) : List FileOp :=
  frames.flatMap WalFrame.ops

/-- The database file overlaid with frames of its WAL. -/
def overlay (main : File) (frames : List WalFrame) : File :=
  main.execAll (frameOps frames)

def captureFrames (frames : List WalFrame) (hpos : 0 < frames.length)
    (hlt : frames.length < 256 ^ 4)
    (hcommit : ∀ f ∈ frames.getLast?, f.info.commitSize ≠ 0) : CapturedFrames where
  infos := frames.map WalFrame.info
  pages := frames.flatMap WalFrame.page
  pageSize := defaultPageSize
  nonempty := by rwa [List.length_map]
  count_lt := by rwa [List.length_map]
  pageSize_le := by decide
  pageSize_pow := ⟨12, rfl⟩
  pages_length := by
    rw [List.length_map]
    exact Bytes.length_records WalFrame.page_length frames
  pageNumber_ne := by
    intro info hinfo
    obtain ⟨f, -, rfl⟩ := List.mem_map.1 hinfo
    exact f.pageNumber_ne
  info_lt := by
    intro info hinfo
    obtain ⟨f, -, rfl⟩ := List.mem_map.1 hinfo
    exact f.info_lt
  committed := by
    intro info hinfo
    rw [List.getLast?_map] at hinfo
    obtain ⟨f, hf, rfl⟩ := Option.map_eq_some_iff.1 hinfo
    exact hcommit f hf

/-- What can go wrong on a live connection besides the node's own errors. -/
inductive LiveError where
  | node (error : NodeError)
  | sqlite
  | io
  | captureLost
  | tornWal
  | nonCommitTail
  deriving DecidableEq

/-- `readCommittedFrames`: the frames from `first` up to `last`. -/
def readCommittedFrames (file : List WalFrame) (first last : ℕ) : Except LiveError CapturedFrames :=
  let frames := (file.drop first).take (last - first)
  if frames.length < last - first then .error .tornWal
  else if h : 0 < frames.length ∧ frames.length < 256 ^ 4 ∧
      ∀ f ∈ frames.getLast?, f.info.commitSize ≠ 0 then
    .ok (captureFrames frames h.1 h.2.1 h.2.2)
  else .error .nonCommitTail

/-- The frames SQLite appends for one transaction: only the last one is a commit frame. -/
structure CommittedFrames where
  frames : List WalFrame
  nonempty : 0 < frames.length
  count_lt : frames.length < 256 ^ 4
  committed : ∀ f ∈ frames.getLast?, f.info.commitSize ≠ 0
  marked : ∀ f ∈ frames.dropLast, f.info.commitSize = 0

namespace CommittedFrames

def captured (c : CommittedFrames) : CapturedFrames :=
  captureFrames c.frames c.nonempty c.count_lt c.committed

/-- Reading exactly a transaction's frames gives the transaction. -/
theorem read_eq (c : CommittedFrames) (before after : List WalFrame) :
    readCommittedFrames (before ++ c.frames ++ after) before.length
      (before.length + c.frames.length) = .ok c.captured := by
  have hframes : ((before ++ c.frames ++ after).drop before.length).take
      (before.length + c.frames.length - before.length) = c.frames := by
    rw [List.append_assoc, List.drop_left, Nat.add_sub_cancel_left, List.take_left]
  have hlt : ¬ c.frames.length < before.length + c.frames.length - before.length := by omega
  unfold readCommittedFrames
  simp only [hframes]
  rw [if_neg hlt, dif_pos ⟨c.nonempty, c.count_lt, c.committed⟩]
  rfl

end CommittedFrames

/-! ### Frames and payload changes -/

section Changes

variable {frames : List WalFrame} {hpos : 0 < frames.length} {hlt : frames.length < 256 ^ 4}
  {hcommit : ∀ f ∈ frames.getLast?, f.info.commitSize ≠ 0}

theorem info_captureFrames {i : ℕ} (hi : i < frames.length) :
    (captureFrames frames hpos hlt hcommit).info i = frames[i].info := by
  simp [FrameSet.info, captureFrames, List.getD_eq_getElem?_getD, hi]

theorem drop_flatMap_page (frames : List WalFrame) (i : ℕ) :
    (frames.flatMap WalFrame.page).drop (i * defaultPageSize) =
      (frames.drop i).flatMap WalFrame.page := by
  induction i generalizing frames with
  | zero => simp
  | succ i ih =>
    cases frames with
    | nil => simp
    | cons f frames =>
      have hstep : (i + 1) * defaultPageSize = f.page.length + i * defaultPageSize := by
        rw [f.page_length, Nat.succ_mul, Nat.add_comm]
      rw [List.flatMap_cons, hstep, ← List.drop_drop, List.drop_left, ih, List.drop_succ_cons]

theorem page_captureFrames {i : ℕ} (hi : i < frames.length) :
    (captureFrames frames hpos hlt hcommit).page i = frames[i].page := by
  have hlength : frames[i].page.length = defaultPageSize := frames[i].page_length
  show ((frames.flatMap WalFrame.page).drop (i * defaultPageSize)).take defaultPageSize = _
  rw [drop_flatMap_page, List.drop_eq_getElem_cons hi, List.flatMap_cons, ← hlength, List.take_left]

theorem frameOps_append (before after : List WalFrame) :
    frameOps (before ++ after) = frameOps before ++ frameOps after := by
  simp only [frameOps, List.flatMap_append]

theorem frameOps_of_unmarked (h : ∀ f ∈ frames, f.info.commitSize = 0) :
    frameOps frames = frames.map WalFrame.write := by
  induction frames with
  | nil => rfl
  | cons f frames ih =>
    have hrest := ih fun g hg => h g (List.mem_cons_of_mem f hg)
    rw [frameOps, List.flatMap_cons, ← frameOps, hrest, WalFrame.ops, if_pos (h f List.mem_cons_self)]
    rfl

theorem CommittedFrames.changes_captured (c : CommittedFrames) :
    c.captured.changes = frameOps c.frames := by
  obtain ⟨last, hlast⟩ : ∃ last, c.frames.getLast? = some last := by
    cases hlast : c.frames.getLast? with
    | some last => exact ⟨last, rfl⟩
    | none =>
      have hnil := List.getLast?_eq_none_iff.1 hlast
      have hpos := c.nonempty
      rw [hnil] at hpos
      exact absurd hpos (Nat.lt_irrefl 0)
  have hsplit : c.frames = c.frames.dropLast ++ [last] :=
    (List.dropLast_append_getLast? last hlast).symm
  have hsize : last.info.commitSize ≠ 0 := c.committed last hlast
  have hlength : c.captured.infos.length = c.frames.length := List.length_map _
  have hwrites : (List.range c.captured.infos.length).map (fun index => FileOp.writePositional
      (((c.captured.info index).pageNumber - 1) * c.captured.pageSize) (c.captured.page index)) =
      c.frames.map WalFrame.write := by
    apply List.ext_getElem
    · simp [hlength]
    · intro i hi hi'
      have hframe : i < c.frames.length := by simpa using hi'
      simp only [List.getElem_map, List.getElem_range, WalFrame.write]
      rw [captured, info_captureFrames hframe, page_captureFrames hframe]
      rfl
  have hinfos : (List.range c.captured.infos.length).map c.captured.info =
      c.frames.map WalFrame.info := by
    apply List.ext_getElem
    · simp [hlength]
    · intro i hi hi'
      have hframe : i < c.frames.length := by simpa using hi'
      simp only [List.getElem_map, List.getElem_range]
      rw [captured, info_captureFrames hframe]
  have hfinal : (List.range c.captured.infos.length).foldl
      (fun size index => if (c.captured.info index).commitSize ≠ 0 then
        (c.captured.info index).commitSize else size) 0 = last.info.commitSize := by
    rw [← List.foldl_map (f := c.captured.info)
      (g := fun size info => if info.commitSize ≠ 0 then info.commitSize else size), hinfos, hsplit,
      List.map_append, List.foldl_append]
    simp [hsize]
  rw [FrameSet.changes, hwrites, hfinal, hsplit, frameOps_append, frameOps_of_unmarked c.marked,
    List.map_append, List.append_assoc]
  simp [frameOps, WalFrame.ops, hsize, captured, captureFrames]

/-- Copying frames into the database file again changes nothing a connection sees. -/
theorem overlay_copied {main : File} {frames : List WalFrame} {copied : List FileOp}
    (hsettled : Settled (frameOps frames)) (hsub : copied ⊆ frameOps frames) :
    overlay (main.execAll copied) frames = overlay main frames :=
  File.execAll_replay hsettled hsub main

theorem overlay_append (main : File) (before after : List WalFrame) :
    overlay main (before ++ after) = overlay (overlay main before) after := by
  rw [overlay, overlay, overlay, frameOps_append, File.execAll_append]

end Changes

end Zaxonlite
