import Zaxonlite.Command
import Zaxonlite.Storage.File

/-!
# Transaction payloads

A payload holds the committed WAL frames of one transaction batch: a header, one record per
transaction, one record per frame, then the page images. `parse` validates the bytes and yields a
view; `applyPayload` turns a view into the page writes and the final length change that install it in
a database image. The payload store maps content hashes to payload bytes.
-/

namespace Zaxonlite

open Bytes (encodeLe encodeLeSigned readLe toSigned)

structure Transaction where
  sessionId : ℕ
  sequence : ℕ
  firstFrame : ℕ
  frameCount : ℕ
  changeCount : ℤ
  deriving DecidableEq, Repr

structure FrameInfo where
  pageNumber : ℕ
  commitSize : ℕ
  deriving DecidableEq, Repr

/-- Captured frames: their records and the concatenated page images. -/
structure FrameSet where
  infos : List FrameInfo
  pages : List UInt8
  pageSize : ℕ

namespace Payload

def headerSize : ℕ := 4 + 4 + 4 + 16 + 4 + 4
def transactionRecordSize : ℕ := 8 + 8 + 4 + 4 + 8
def frameRecordSize : ℕ := 4 + 4
def magic : ℕ := 0x4c50585a
def version : ℕ := 1

def encodeHeader (databaseId transactionCount frameCount pageSize : ℕ) : List UInt8 :=
  encodeLe 4 magic ++ (encodeLe 1 version ++ (List.replicate 3 0 ++ (encodeLe 4 pageSize ++
    (encodeLe 16 databaseId ++ (encodeLe 4 transactionCount ++ encodeLe 4 frameCount)))))

def encodeTransaction (t : Transaction) : List UInt8 :=
  encodeLe 8 t.sessionId ++ (encodeLe 8 t.sequence ++ (encodeLe 4 t.firstFrame ++
    (encodeLe 4 t.frameCount ++ encodeLeSigned 8 t.changeCount)))

def encodeFrameInfo (info : FrameInfo) : List UInt8 :=
  encodeLe 4 info.pageNumber ++ encodeLe 4 info.commitSize

/-- `encodePayload`. -/
def encode (databaseId : ℕ) (transactions : List Transaction) (frames : FrameSet) : List UInt8 :=
  encodeHeader databaseId transactions.length frames.infos.length frames.pageSize ++
    (transactions.flatMap encodeTransaction ++
      (frames.infos.flatMap encodeFrameInfo ++ frames.pages))

end Payload

inductive PayloadError where
  | invalidPayloadMagic
  | unsupportedPayloadVersion
  | truncatedPayload
  | invalidPayloadShape
  deriving DecidableEq, Repr

/-- A view over payload bytes; `parse` returns only validated ones. -/
structure PayloadView where
  bytes : List UInt8
  pageSize : ℕ
  databaseId : ℕ
  transactionCount : ℕ
  frameCount : ℕ
  deriving DecidableEq

namespace PayloadView

open Payload

def transactionAt (view : PayloadView) (index : ℕ) : Transaction :=
  let offset := headerSize + index * transactionRecordSize
  { sessionId := readLe view.bytes offset 8
    sequence := readLe view.bytes (offset + 8) 8
    firstFrame := readLe view.bytes (offset + 16) 4
    frameCount := readLe view.bytes (offset + 20) 4
    changeCount := toSigned 8 (readLe view.bytes (offset + 24) 8) }

def frameInfoAt (view : PayloadView) (index : ℕ) : FrameInfo :=
  let offset := headerSize + view.transactionCount * transactionRecordSize + index * frameRecordSize
  { pageNumber := readLe view.bytes offset 4
    commitSize := readLe view.bytes (offset + 4) 4 }

def framePage (view : PayloadView) (index : ℕ) : List UInt8 :=
  let base := headerSize + view.transactionCount * transactionRecordSize +
    view.frameCount * frameRecordSize
  (view.bytes.drop (base + index * view.pageSize)).take view.pageSize

/-- The transactions from `index` on tile the frames from `nextFrame` on, each ending on a commit
frame. Returns the frame after the last transaction. -/
def checkTransactions (view : PayloadView) : List ℕ → ℕ → Except PayloadError ℕ
  | [], nextFrame => .ok nextFrame
  | index :: rest, nextFrame =>
    let transaction := view.transactionAt index
    if transaction.firstFrame ≠ nextFrame then .error .invalidPayloadShape
    else if transaction.frameCount = 0 then .error .invalidPayloadShape
    else
      let nextFrame := nextFrame + transaction.frameCount
      if nextFrame > view.frameCount then .error .invalidPayloadShape
      else if (view.frameInfoAt (nextFrame - 1)).commitSize = 0 then .error .invalidPayloadShape
      else checkTransactions view rest nextFrame

def parse (bytes : List UInt8) : Except PayloadError PayloadView :=
  if bytes.length < headerSize then .error .truncatedPayload
  else if readLe bytes 0 4 ≠ magic then .error .invalidPayloadMagic
  else if readLe bytes 4 1 ≠ version then .error .unsupportedPayloadVersion
  else
    let pageSize := readLe bytes 8 4
    if pageSize < 512 ∨ pageSize > 65536 then .error .invalidPayloadShape
    else if ¬ pageSize.isPowerOfTwo then .error .invalidPayloadShape
    else
      let view : PayloadView :=
        { bytes := bytes
          pageSize := pageSize
          databaseId := readLe bytes 12 16
          transactionCount := readLe bytes 28 4
          frameCount := readLe bytes 32 4 }
      let expected := headerSize + view.transactionCount * transactionRecordSize +
        view.frameCount * frameRecordSize + view.frameCount * pageSize
      if bytes.length ≠ expected then .error .truncatedPayload
      else if view.transactionCount = 0 ∨ view.frameCount = 0 then .error .invalidPayloadShape
      else
        match view.checkTransactions (List.range view.transactionCount) 0 with
        | .error e => .error e
        | .ok nextFrame =>
          if nextFrame ≠ view.frameCount then .error .invalidPayloadShape
          else if (List.range view.frameCount).any
              (fun index => (view.frameInfoAt index).pageNumber == 0) then
            .error .invalidPayloadShape
          else .ok view

/-- The database size after the frames: the last commit size that is not zero. -/
def finalSize (view : PayloadView) : ℕ :=
  (List.range view.frameCount).foldl
    (fun size index =>
      let info := view.frameInfoAt index
      if info.commitSize ≠ 0 then info.commitSize else size) 0

/-- `applyPayload`: one positional write per frame, then the length the last commit frame names. -/
def applyPayload (view : PayloadView) : List FileOp :=
  (List.range view.frameCount).map
      (fun index => FileOp.writePositional (((view.frameInfoAt index).pageNumber - 1) * view.pageSize)
        (view.framePage index)) ++
    [FileOp.setLength (view.finalSize * view.pageSize)]

theorem settled_applyPayload (view : PayloadView) : Settled view.applyPayload :=
  Or.inr ⟨_, _, rfl⟩

/-! ### Applying again after an interrupted application -/

/-- The page writes of `applyPayload`, in frame order. -/
def pageWrites (view : PayloadView) : List FileOp :=
  (List.range view.frameCount).map
    (fun index => FileOp.writePositional (((view.frameInfoAt index).pageNumber - 1) * view.pageSize)
      (view.framePage index))

/-- What an application interrupted after `count` page writes has done. The final length change may
have been made durable without the writes before it. -/
def applyInterrupted (view : PayloadView) (count : ℕ) (resized : Bool) : List FileOp :=
  view.pageWrites.take count ++
    if resized then [FileOp.setLength (view.finalSize * view.pageSize)] else []

/-- `applyPayload` over several payloads, the first one first. -/
def applyPayloads (views : List PayloadView) : List FileOp :=
  views.flatMap applyPayload

theorem applyPayloads_append (before after : List PayloadView) :
    applyPayloads (before ++ after) = applyPayloads before ++ applyPayloads after := by
  simp only [applyPayloads, List.flatMap_append]

theorem settled_applyPayloads (views : List PayloadView) : Settled (applyPayloads views) := by
  induction views with
  | nil => exact Or.inl rfl
  | cons view views ih => exact view.settled_applyPayload.append ih

theorem applyInterrupted_subset (view : PayloadView) (count : ℕ) (resized : Bool) :
    view.applyInterrupted count resized ⊆ view.applyPayload := by
  intro op hop
  rw [applyInterrupted, List.mem_append] at hop
  apply List.mem_append.2
  rcases hop with hwrite | hlength
  · exact Or.inl (List.mem_of_mem_take hwrite)
  · cases resized with
    | false => exact absurd hlength List.not_mem_nil
    | true => exact Or.inr hlength

/-- Everything an interrupted application of the list did, the full application does again. -/
theorem interrupted_subset (before : List PayloadView) (view : PayloadView)
    (after : List PayloadView) (count : ℕ) (resized : Bool) :
    applyPayloads before ++ view.applyInterrupted count resized ⊆
      applyPayloads (before ++ view :: after) := by
  rw [applyPayloads_append]
  apply List.append_subset.2
  constructor
  · exact List.subset_append_left _ _
  · apply List.subset_append_of_subset_right
    exact List.subset_append_of_subset_left _ (view.applyInterrupted_subset count resized)

/-- **Re-applying payloads is idempotent over partial application.** Over a file that received the
payloads before `view` and part of `view`, the whole list leaves the file it leaves over the
original; a byte of it that was past the original end and that no payload stores is zero. -/
theorem applyPayloads_interrupted (f : File) (before : List PayloadView) (view : PayloadView)
    (after : List PayloadView) (count : ℕ) (resized : Bool) :
    ((f.execAll (applyPayloads before)).execAll (view.applyInterrupted count resized)).execAll
        (applyPayloads (before ++ view :: after)) =
      f.execAll (applyPayloads (before ++ view :: after)) ∧
    ∀ i, f.length ≤ i → (∀ op ∈ applyPayloads (before ++ view :: after), ¬ op.Touches i) →
      (f.execAll (applyPayloads (before ++ view :: after))).byte i = 0 := by
  constructor
  · rw [← File.execAll_append f]
    exact File.execAll_replay (settled_applyPayloads _)
      (interrupted_subset before view after count resized) f
  · intro i hi hfree
    rw [File.execAll_byte, Overlay.applyAll_of_not_covers, f.byte_beyond i hi]
    rw [FileOp.covers_map_patch]
    rintro ⟨op, hop, htouch⟩
    exact hfree op hop htouch

end PayloadView

/-! ### The payload store -/

abbrev PayloadStore := HashBytes → Option (List UInt8)

namespace PayloadStore

def empty : PayloadStore := fun _ => none

/-- `load`: the bytes stored under a hash, refused when they do not hash to it. -/
def load (store : PayloadStore) (digest : HashBytes) : Option (List UInt8) :=
  (store digest).filter fun bytes => Sha256.hash bytes == digest

/-- `contains`: an object is stored under the hash and verifies. -/
def contains (store : PayloadStore) (digest : HashBytes) : Bool :=
  (store.load digest).isSome

/-- `put`: install bytes under their content hash; an object that verifies is left untouched. -/
def put (store : PayloadStore) (bytes : List UInt8) : PayloadStore :=
  let digest := Sha256.hash bytes
  if store.contains digest then store else Function.update store digest (some bytes)

/-- `sweepUnreachable`: delete every object absent from `reachable`. -/
def sweepUnreachable (store : PayloadStore) (reachable : List HashBytes) : PayloadStore :=
  fun digest => if digest ∈ reachable then store digest else none

theorem load_put_self (store : PayloadStore) (bytes : List UInt8) :
    ∃ stored, (store.put bytes).load (Sha256.hash bytes) = some stored := by
  unfold put
  simp only
  split
  · rename_i h
    exact Option.isSome_iff_exists.1 h
  · exact ⟨bytes, by simp [load, Function.update_self]⟩

/-- Installing bytes never disturbs an object that verifies. -/
theorem load_put_of_load {store : PayloadStore} {digest : HashBytes} {stored : List UInt8}
    (h : store.load digest = some stored) (bytes : List UInt8) :
    (store.put bytes).load digest = some stored := by
  unfold put
  simp only
  split
  · exact h
  · rename_i hnot
    by_cases hd : digest = Sha256.hash bytes
    · subst hd
      exact absurd (by rw [contains, h]; rfl) hnot
    · simpa only [load, Function.update_of_ne hd] using h

theorem load_sweepUnreachable {store : PayloadStore} {reachable : List HashBytes}
    {digest : HashBytes} (h : digest ∈ reachable) :
    (store.sweepUnreachable reachable).load digest = store.load digest := by
  simp only [load, sweepUnreachable, if_pos h]

end PayloadStore

end Zaxonlite
