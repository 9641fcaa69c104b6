import Zaxonlite.Lib.Checked
import Zaxonlite.Storage.PayloadLayout

/-!
# Parsing arbitrary payload bytes

A payload arrives from a peer or from the disk, and every count in it is whatever was stored there. The
parser is written here with the checks its source makes at run time, and what it accepts is shown to be
well formed: the transactions tile the frames and every accessor stays inside the bytes. One sum is taken
before it is compared with anything, the running frame number, and it is taken in 32 bits.
-/

namespace Zaxonlite

open Bytes (readLe readLe_lt)
open Payload

/-- What ends a parse: the errors it declares, and the checks that stop the process. -/
inductive ParseFault where
  | declared (e : PayloadError)
  | integerOverflow
  | indexOutOfBounds
  | assertionFailed
  deriving DecidableEq, Repr

namespace PayloadView

/-- Where the record of a transaction lies. -/
def transactionOffset (index : ℕ) : ℕ :=
  headerSize + index * transactionRecordSize

/-- Where the record of a frame lies. -/
def frameInfoOffset (view : PayloadView) (index : ℕ) : ℕ :=
  headerSize + view.transactionCount * transactionRecordSize + index * frameRecordSize

def framePageOffset (view : PayloadView) (index : ℕ) : ℕ :=
  headerSize + view.transactionCount * transactionRecordSize + view.frameCount * frameRecordSize +
    index * view.pageSize

/-- `transactionAt`, with its assertion and its slices. -/
def transactionAtChecked (view : PayloadView) (index : ℕ) : Except ParseFault Transaction := do
  Checked.index .assertionFailed view.transactionCount index
  Checked.slice .indexOutOfBounds view.bytes.length (transactionOffset index) transactionRecordSize
  pure (view.transactionAt index)

/-- `frameInfoAt`. -/
def frameInfoAtChecked (view : PayloadView) (index : ℕ) : Except ParseFault FrameInfo := do
  Checked.index .assertionFailed view.frameCount index
  Checked.slice .indexOutOfBounds view.bytes.length (view.frameInfoOffset index) frameRecordSize
  pure (view.frameInfoAt index)

/-- `framePage`. -/
def framePageChecked (view : PayloadView) (index : ℕ) : Except ParseFault (List UInt8) := do
  Checked.index .assertionFailed view.frameCount index
  Checked.slice .indexOutOfBounds view.bytes.length (view.framePageOffset index) view.pageSize
  pure (view.framePage index)

/-- The loop over the transactions: the frame number is a 32-bit sum. -/
def checkTransactionsChecked (view : PayloadView) : List ℕ → ℕ → Except ParseFault ℕ
  | [], nextFrame => .ok nextFrame
  | index :: rest, nextFrame => do
    let transaction ← view.transactionAtChecked index
    Checked.require (.declared .invalidPayloadShape) (transaction.firstFrame = nextFrame)
    Checked.require (.declared .invalidPayloadShape) (transaction.frameCount ≠ 0)
    let nextFrame ← Checked.add .integerOverflow 32 nextFrame transaction.frameCount
    Checked.require (.declared .invalidPayloadShape) (nextFrame ≤ view.frameCount)
    let lastFrame ← Checked.sub .integerOverflow nextFrame 1
    let last ← view.frameInfoAtChecked lastFrame
    Checked.require (.declared .invalidPayloadShape) (last.commitSize ≠ 0)
    checkTransactionsChecked view rest nextFrame

/-- The loop over the frames. -/
def checkPagesChecked (view : PayloadView) : List ℕ → Except ParseFault Unit
  | [] => .ok ()
  | index :: rest => do
    let info ← view.frameInfoAtChecked index
    Checked.require (.declared .invalidPayloadShape) (info.pageNumber ≠ 0)
    checkPagesChecked view rest

def ofHeader (bytes : List UInt8) : PayloadView where
  bytes := bytes
  pageSize := readLe bytes 8 4
  databaseId := readLe bytes 12 16
  transactionCount := readLe bytes 28 4
  frameCount := readLe bytes 32 4

/-- The length the header calls for, summed in 64 bits. -/
def expectedChecked (view : PayloadView) : Except ParseFault ℕ := do
  let transactions ← Checked.mul .integerOverflow 64 view.transactionCount transactionRecordSize
  let header ← Checked.add .integerOverflow 64 headerSize transactions
  let infos ← Checked.mul .integerOverflow 64 view.frameCount frameRecordSize
  let records ← Checked.add .integerOverflow 64 header infos
  let pages ← Checked.mul .integerOverflow 64 view.frameCount view.pageSize
  Checked.add .integerOverflow 64 records pages

/-- `PayloadView.parse`. -/
def parseChecked (bytes : List UInt8) : Except ParseFault PayloadView := do
  Checked.require (.declared .truncatedPayload) (headerSize ≤ bytes.length)
  Checked.slice .indexOutOfBounds bytes.length 0 headerSize
  Checked.require (.declared .invalidPayloadMagic) (readLe bytes 0 4 = magic)
  Checked.require (.declared .unsupportedPayloadVersion) (readLe bytes 4 1 = version)
  let view := ofHeader bytes
  Checked.require (.declared .invalidPayloadShape) (512 ≤ view.pageSize ∧ view.pageSize ≤ 65536)
  Checked.require (.declared .invalidPayloadShape) view.pageSize.isPowerOfTwo
  let expected ← view.expectedChecked
  Checked.require (.declared .truncatedPayload) (bytes.length = expected)
  Checked.require (.declared .invalidPayloadShape) (view.transactionCount ≠ 0 ∧ view.frameCount ≠ 0)
  let nextFrame ← view.checkTransactionsChecked (List.range view.transactionCount) 0
  Checked.require (.declared .invalidPayloadShape) (nextFrame = view.frameCount)
  view.checkPagesChecked (List.range view.frameCount)
  pure view

/-! ### Accessors -/

/-- The bytes are as long as the header says. -/
def Sized (view : PayloadView) : Prop :=
  view.bytes.length = headerSize + view.transactionCount * transactionRecordSize +
    view.frameCount * frameRecordSize + view.frameCount * view.pageSize

section Accessors

variable {view : PayloadView} {index : ℕ}

theorem transactionAtChecked_of_lt (h : view.Sized) (hindex : index < view.transactionCount) :
    view.transactionAtChecked index = .ok (view.transactionAt index) := by
  have hroom : transactionOffset index + transactionRecordSize ≤ view.bytes.length := by
    have hmul : (index + 1) * transactionRecordSize ≤ view.transactionCount * transactionRecordSize :=
      Nat.mul_le_mul_right _ hindex
    rw [Nat.succ_mul] at hmul
    rw [h, transactionOffset]
    omega
  rw [transactionAtChecked, Checked.index_of_lt hindex, Checked.slice_of_le hroom]
  rfl

theorem frameInfoAtChecked_of_lt (h : view.Sized) (hindex : index < view.frameCount) :
    view.frameInfoAtChecked index = .ok (view.frameInfoAt index) := by
  have hroom : view.frameInfoOffset index + frameRecordSize ≤ view.bytes.length := by
    have hmul : (index + 1) * frameRecordSize ≤ view.frameCount * frameRecordSize :=
      Nat.mul_le_mul_right _ hindex
    rw [Nat.succ_mul] at hmul
    rw [h, frameInfoOffset]
    omega
  rw [frameInfoAtChecked, Checked.index_of_lt hindex, Checked.slice_of_le hroom]
  rfl

theorem framePageChecked_of_lt (h : view.Sized) (hindex : index < view.frameCount) :
    view.framePageChecked index = .ok (view.framePage index) ∧
      (view.framePage index).length = view.pageSize := by
  have hroom : view.framePageOffset index + view.pageSize ≤ view.bytes.length := by
    have hmul : (index + 1) * view.pageSize ≤ view.frameCount * view.pageSize :=
      Nat.mul_le_mul_right _ hindex
    rw [Nat.succ_mul] at hmul
    rw [h, framePageOffset]
    omega
  constructor
  · rw [framePageChecked, Checked.index_of_lt hindex, Checked.slice_of_le hroom]
    rfl
  · rw [framePageOffset] at hroom
    rw [framePage, List.length_take, List.length_drop]
    omega

end Accessors

/-! ### The loop over the transactions -/

section Loop

variable {view : PayloadView}

/-- One turn of the loop, when its sum is in range. -/
theorem checkTransactionsChecked_cons (h : view.Sized) {index nextFrame : ℕ} {rest : List ℕ}
    (hindex : index < view.transactionCount)
    (hsum : nextFrame + (view.transactionAt index).frameCount < 2 ^ 32) :
    view.checkTransactionsChecked (index :: rest) nextFrame =
      if (view.transactionAt index).firstFrame ≠ nextFrame then .error (.declared .invalidPayloadShape)
      else if (view.transactionAt index).frameCount = 0 then .error (.declared .invalidPayloadShape)
      else if nextFrame + (view.transactionAt index).frameCount > view.frameCount then
        .error (.declared .invalidPayloadShape)
      else if (view.frameInfoAt (nextFrame + (view.transactionAt index).frameCount - 1)).commitSize = 0
        then .error (.declared .invalidPayloadShape)
      else view.checkTransactionsChecked rest (nextFrame + (view.transactionAt index).frameCount) := by
  rw [checkTransactionsChecked, transactionAtChecked_of_lt h hindex, Checked.ok_bind]
  by_cases hfirst : (view.transactionAt index).firstFrame = nextFrame
  · rw [if_neg (not_not.2 hfirst), Checked.require_of hfirst, Checked.ok_bind]
    by_cases hcount : (view.transactionAt index).frameCount = 0
    · rw [if_pos hcount, Checked.require_of_not (not_not.2 hcount)]
      rfl
    · rw [if_neg hcount, Checked.require_of hcount, Checked.ok_bind, Checked.add_of_lt hsum,
        Checked.ok_bind]
      by_cases hle : nextFrame + (view.transactionAt index).frameCount ≤ view.frameCount
      · rw [if_neg (not_lt.2 hle), Checked.require_of hle, Checked.ok_bind,
          Checked.sub_of_le (by omega), Checked.ok_bind, frameInfoAtChecked_of_lt h (by omega),
          Checked.ok_bind]
        by_cases hlast : (view.frameInfoAt
            (nextFrame + (view.transactionAt index).frameCount - 1)).commitSize = 0
        · rw [if_pos hlast, Checked.require_of_not (not_not.2 hlast)]
          rfl
        · rw [if_neg hlast, Checked.require_of hlast]
          rfl
      · rw [if_pos (not_le.1 hle), Checked.require_of_not hle]
        rfl
  · rw [if_pos hfirst, Checked.require_of_not hfirst]
    rfl

/-- Two sides of one turn: a sum in range leaves the loop as it was. -/
theorem checkTransactions_cons (view : PayloadView) (index nextFrame : ℕ) (rest : List ℕ) :
    view.checkTransactions (index :: rest) nextFrame =
      if (view.transactionAt index).firstFrame ≠ nextFrame then .error .invalidPayloadShape
      else if (view.transactionAt index).frameCount = 0 then .error .invalidPayloadShape
      else if nextFrame + (view.transactionAt index).frameCount > view.frameCount then
        .error .invalidPayloadShape
      else if (view.frameInfoAt (nextFrame + (view.transactionAt index).frameCount - 1)).commitSize = 0
        then .error .invalidPayloadShape
      else view.checkTransactions rest (nextFrame + (view.transactionAt index).frameCount) :=
  rfl

/-- A transaction of the list, reached by a proper tiling and starting where it should, is too long for
the running frame number. -/
def Overflows (view : PayloadView) (l : List ℕ) (nextFrame : ℕ) : Prop :=
  ∃ pre index post, l = pre ++ index :: post ∧ ∃ reached,
    view.checkTransactions pre nextFrame = .ok reached ∧
      (view.transactionAt index).firstFrame = reached ∧
      2 ^ 32 ≤ reached + (view.transactionAt index).frameCount

theorem overflows_cons {index nextFrame : ℕ} {rest : List ℕ} :
    view.Overflows (index :: rest) nextFrame ↔
      ((view.transactionAt index).firstFrame = nextFrame ∧
        2 ^ 32 ≤ nextFrame + (view.transactionAt index).frameCount) ∨
      ((view.transactionAt index).firstFrame = nextFrame ∧ (view.transactionAt index).frameCount ≠ 0 ∧
        nextFrame + (view.transactionAt index).frameCount ≤ view.frameCount ∧
        (view.frameInfoAt (nextFrame + (view.transactionAt index).frameCount - 1)).commitSize ≠ 0 ∧
        view.Overflows rest (nextFrame + (view.transactionAt index).frameCount)) := by
  constructor
  · rintro ⟨pre, at', post, hl, reached, hpre, hfirst, hsum⟩
    cases pre with
    | nil =>
      cases hpre
      cases hl
      exact Or.inl ⟨hfirst, hsum⟩
    | cons head pre =>
      obtain ⟨rfl, rfl⟩ := List.cons_eq_cons.1 hl
      rw [checkTransactions_cons] at hpre
      split at hpre
      · cases hpre
      · rename_i hfirst'
        split at hpre
        · cases hpre
        · rename_i hcount
          split at hpre
          · cases hpre
          · rename_i hle
            split at hpre
            · cases hpre
            · rename_i hlast
              exact Or.inr ⟨not_not.1 hfirst', hcount, not_lt.1 hle, hlast, pre, at', post, rfl, reached,
                hpre, hfirst, hsum⟩
  · rintro (⟨hfirst, hsum⟩ | ⟨hfirst, hcount, hle, hlast, pre, at', post, rfl, reached, hpre, hrest⟩)
    · exact ⟨[], index, rest, rfl, nextFrame, rfl, hfirst, hsum⟩
    · refine ⟨index :: pre, at', post, rfl, reached, ?_, hrest⟩
      rw [checkTransactions_cons, if_neg (not_not.2 hfirst), if_neg hcount, if_neg (not_lt.2 hle),
        if_neg hlast]
      exact hpre

/-- The checked loop is the loop, except where its sum overflows. -/
theorem checkTransactionsChecked_eq (h : view.Sized) {l : List ℕ} {nextFrame : ℕ}
    (hl : ∀ index ∈ l, index < view.transactionCount) (hnext : nextFrame < 2 ^ 32) :
    (view.Overflows l nextFrame →
      view.checkTransactionsChecked l nextFrame = .error .integerOverflow) ∧
    (¬ view.Overflows l nextFrame →
      view.checkTransactionsChecked l nextFrame =
        (view.checkTransactions l nextFrame).mapError .declared) := by
  induction l generalizing nextFrame with
  | nil =>
    constructor
    · rintro ⟨pre, index, post, hl, -⟩
      simp at hl
    · intro _
      rfl
  | cons index rest ih =>
    have hindex := hl index List.mem_cons_self
    rw [overflows_cons]
    by_cases hfirst : (view.transactionAt index).firstFrame = nextFrame
    · by_cases hsum : nextFrame + (view.transactionAt index).frameCount < 2 ^ 32
      · obtain ⟨htrap, hsame⟩ := ih (fun i hi => hl i (List.mem_cons_of_mem index hi)) hsum
        rw [checkTransactionsChecked_cons h hindex hsum, checkTransactions_cons]
        rw [if_neg (not_not.2 hfirst), if_neg (not_not.2 hfirst)]
        by_cases hcount : (view.transactionAt index).frameCount = 0
        · rw [if_pos hcount, if_pos hcount]
          constructor
          · rintro (⟨-, hover⟩ | ⟨-, hne, -⟩)
            · omega
            · exact absurd hcount hne
          · intro _
            rfl
        · rw [if_neg hcount, if_neg hcount]
          by_cases hle : nextFrame + (view.transactionAt index).frameCount > view.frameCount
          · rw [if_pos hle, if_pos hle]
            constructor
            · rintro (⟨-, hover⟩ | ⟨-, -, hin, -⟩)
              · omega
              · omega
            · intro _
              rfl
          · rw [if_neg hle, if_neg hle]
            by_cases hlast : (view.frameInfoAt
                (nextFrame + (view.transactionAt index).frameCount - 1)).commitSize = 0
            · rw [if_pos hlast, if_pos hlast]
              constructor
              · rintro (⟨-, hover⟩ | ⟨-, -, -, hne, -⟩)
                · omega
                · exact absurd hlast hne
              · intro _
                rfl
            · rw [if_neg hlast, if_neg hlast]
              constructor
              · rintro (⟨-, hover⟩ | ⟨-, -, -, -, hrest⟩)
                · omega
                · exact htrap hrest
              · intro hnot
                apply hsame
                intro hrest
                exact hnot (Or.inr ⟨hfirst, hcount, not_lt.1 hle, hlast, hrest⟩)
      · have hover : 2 ^ 32 ≤ nextFrame + (view.transactionAt index).frameCount := not_lt.1 hsum
        constructor
        · intro _
          rw [checkTransactionsChecked, transactionAtChecked_of_lt h hindex, Checked.ok_bind,
            Checked.require_of hfirst, Checked.ok_bind, Checked.require_of (by omega), Checked.ok_bind,
            Checked.add_of_le hover]
          rfl
        · intro hnot
          exact absurd (Or.inl ⟨hfirst, hover⟩) hnot
    · constructor
      · rintro (⟨hgood, -⟩ | ⟨hgood, -⟩)
        · exact absurd hgood hfirst
        · exact absurd hgood hfirst
      · intro _
        rw [checkTransactionsChecked, transactionAtChecked_of_lt h hindex, Checked.ok_bind,
          Checked.require_of_not hfirst, checkTransactions_cons, if_pos hfirst]
        rfl

end Loop

/-! ### What the loops accept -/

section Accepted

variable {view : PayloadView}

def framesOf (view : PayloadView) (index : ℕ) : List ℕ :=
  List.range' (view.transactionAt index).firstFrame (view.transactionAt index).frameCount

def lastFrameOf (view : PayloadView) (index : ℕ) : ℕ :=
  (view.transactionAt index).firstFrame + (view.transactionAt index).frameCount - 1

/-- The transactions of an accepted list tile the frames up to the frame number reached. -/
theorem tiles_of_checkTransactions {l : List ℕ} {nextFrame reached : ℕ}
    (h : view.checkTransactions l nextFrame = .ok reached) :
    nextFrame ≤ reached ∧ l.flatMap view.framesOf = List.range' nextFrame (reached - nextFrame) ∧
      (∀ index ∈ l, (view.transactionAt index).frameCount ≠ 0 ∧
        (view.frameInfoAt (view.lastFrameOf index)).commitSize ≠ 0) ∧
      (l ≠ [] → (view.frameInfoAt (reached - 1)).commitSize ≠ 0) := by
  induction l generalizing nextFrame with
  | nil =>
    cases h
    refine ⟨le_rfl, ?_, fun _ h => absurd h List.not_mem_nil, fun h => absurd rfl h⟩
    rw [Nat.sub_self]
    rfl
  | cons index rest ih =>
    rw [checkTransactions_cons] at h
    split at h
    · cases h
    · rename_i hfirst
      replace hfirst := not_not.1 hfirst
      split at h
      · cases h
      · rename_i hcount
        split at h
        · cases h
        · split at h
          · cases h
          · rename_i hlast
            obtain ⟨hle, htiles, hall, hend⟩ := ih h
            refine ⟨by omega, ?_, ?_, ?_⟩
            · rw [List.flatMap_cons, htiles, framesOf, hfirst, List.range'_append_1]
              congr 1
              omega
            · intro i hi
              rcases List.mem_cons.1 hi with rfl | hi
              · rw [lastFrameOf, hfirst]
                exact ⟨hcount, hlast⟩
              · exact hall i hi
            · intro _
              cases rest with
              | nil =>
                cases h
                exact hlast
              | cons _ _ => exact hend (List.cons_ne_nil _ _)

theorem checkPagesChecked_eq (h : view.Sized) {l : List ℕ} (hl : ∀ index ∈ l, index < view.frameCount) :
    view.checkPagesChecked l = Checked.require (.declared .invalidPayloadShape)
      (∀ index ∈ l, (view.frameInfoAt index).pageNumber ≠ 0) := by
  induction l with
  | nil => exact (Checked.require_of fun _ h => absurd h List.not_mem_nil).symm
  | cons index rest ih =>
    rw [checkPagesChecked, frameInfoAtChecked_of_lt h (hl index List.mem_cons_self), Checked.ok_bind]
    by_cases hzero : (view.frameInfoAt index).pageNumber = 0
    · rw [Checked.require_of_not (not_not.2 hzero), Checked.require_of_not]
      · rfl
      · intro hall
        exact hall index List.mem_cons_self hzero
    · rw [Checked.require_of hzero, Checked.ok_bind, ih fun i hi => hl i (List.mem_cons_of_mem index hi)]
      simp only [Checked.require, List.forall_mem_cons, ne_eq, hzero, not_false_eq_true, true_and]

/-- The last frame names the final size when it is a commit frame. -/
theorem finalSize_eq (hpos : view.frameCount ≠ 0)
    (hlast : (view.frameInfoAt (view.frameCount - 1)).commitSize ≠ 0) :
    view.finalSize = (view.frameInfoAt (view.frameCount - 1)).commitSize := by
  obtain ⟨count, hcount⟩ := Nat.exists_eq_succ_of_ne_zero hpos
  rw [hcount, Nat.succ_sub_one] at hlast
  rw [finalSize, hcount, Nat.succ_sub_one, List.range_succ, List.foldl_append]
  exact if_pos hlast

end Accepted

/-! ### Parsing -/

section Parsing

variable {bytes : List UInt8} {view : PayloadView}

/-- What the parser checks of the header before it looks at any record. -/
def HeaderAccepted (bytes : List UInt8) : Prop :=
  headerSize ≤ bytes.length ∧ readLe bytes 0 4 = magic ∧ readLe bytes 4 1 = version ∧
    (512 ≤ (ofHeader bytes).pageSize ∧ (ofHeader bytes).pageSize ≤ 65536) ∧
    (ofHeader bytes).pageSize.isPowerOfTwo ∧ (ofHeader bytes).Sized ∧
    ((ofHeader bytes).transactionCount ≠ 0 ∧ (ofHeader bytes).frameCount ≠ 0)

theorem expectedChecked_eq (hsize : view.pageSize ≤ 65536) (htx : view.transactionCount < 256 ^ 4)
    (hframes : view.frameCount < 256 ^ 4) : view.expectedChecked =
      .ok (headerSize + view.transactionCount * transactionRecordSize +
        view.frameCount * frameRecordSize + view.frameCount * view.pageSize) := by
  have hpages : view.frameCount * view.pageSize ≤ view.frameCount * 65536 :=
    Nat.mul_le_mul_left _ hsize
  simp only [expectedChecked, headerSize, transactionRecordSize, frameRecordSize]
  rw [Checked.mul_of_lt (by omega), Checked.ok_bind, Checked.add_of_lt (by omega), Checked.ok_bind,
    Checked.mul_of_lt (by omega), Checked.ok_bind, Checked.add_of_lt (by omega), Checked.ok_bind,
    Checked.mul_of_lt (by omega), Checked.ok_bind, Checked.add_of_lt (by omega)]

theorem expectedChecked_ofHeader (hsize : (ofHeader bytes).pageSize ≤ 65536) :
    (ofHeader bytes).expectedChecked =
      .ok (headerSize + (ofHeader bytes).transactionCount * transactionRecordSize +
        (ofHeader bytes).frameCount * frameRecordSize +
          (ofHeader bytes).frameCount * (ofHeader bytes).pageSize) :=
  expectedChecked_eq hsize (readLe_lt bytes 28 4) (readLe_lt bytes 32 4)

theorem parseChecked_of_not (h : ¬ HeaderAccepted bytes) :
    ∃ e, parseChecked bytes = .error (.declared e) := by
  rw [parseChecked]
  by_cases hlen : headerSize ≤ bytes.length
  · rw [Checked.require_of hlen, Checked.ok_bind, Checked.slice_of_le (by omega), Checked.ok_bind]
    by_cases hmagic : readLe bytes 0 4 = magic
    · rw [Checked.require_of hmagic, Checked.ok_bind]
      by_cases hversion : readLe bytes 4 1 = version
      · rw [Checked.require_of hversion, Checked.ok_bind]
        by_cases hsize : 512 ≤ (ofHeader bytes).pageSize ∧ (ofHeader bytes).pageSize ≤ 65536
        · simp only [Checked.require_of hsize, Checked.ok_bind]
          by_cases hpow : (ofHeader bytes).pageSize.isPowerOfTwo
          · simp only [Checked.require_of hpow, Checked.ok_bind, expectedChecked_ofHeader hsize.2]
            by_cases hsized : bytes.length = headerSize +
                (ofHeader bytes).transactionCount * transactionRecordSize +
                  (ofHeader bytes).frameCount * frameRecordSize +
                    (ofHeader bytes).frameCount * (ofHeader bytes).pageSize
            · rw [Checked.require_of hsized, Checked.ok_bind, Checked.require_of_not]
              · exact ⟨_, rfl⟩
              · intro hcounts
                exact h ⟨hlen, hmagic, hversion, hsize, hpow, hsized, hcounts⟩
            · rw [Checked.require_of_not hsized]
              exact ⟨_, rfl⟩
          · simp only [Checked.require_of_not hpow]
            exact ⟨_, rfl⟩
        · simp only [Checked.require_of_not hsize]
          exact ⟨_, rfl⟩
      · rw [Checked.require_of_not hversion]
        exact ⟨_, rfl⟩
    · rw [Checked.require_of_not hmagic]
      exact ⟨_, rfl⟩
  · rw [Checked.require_of_not hlen]
    exact ⟨_, rfl⟩

/-- Behind an accepted header the records decide. -/
theorem parseChecked_of (h : HeaderAccepted bytes) : parseChecked bytes = (do
    let nextFrame ← (ofHeader bytes).checkTransactionsChecked
      (List.range (ofHeader bytes).transactionCount) 0
    Checked.require (.declared .invalidPayloadShape) (nextFrame = (ofHeader bytes).frameCount)
    Checked.require (.declared .invalidPayloadShape) (∀ index ∈ List.range (ofHeader bytes).frameCount,
      ((ofHeader bytes).frameInfoAt index).pageNumber ≠ 0)
    pure (ofHeader bytes)) := by
  obtain ⟨hlen, hmagic, hversion, hsize, hpow, hsized, hcounts⟩ := h
  have hexpected : bytes.length = headerSize +
      (ofHeader bytes).transactionCount * transactionRecordSize +
        (ofHeader bytes).frameCount * frameRecordSize +
          (ofHeader bytes).frameCount * (ofHeader bytes).pageSize := hsized
  rw [parseChecked, Checked.require_of hlen, Checked.ok_bind, Checked.slice_of_le (by omega),
    Checked.ok_bind, Checked.require_of hmagic, Checked.ok_bind, Checked.require_of hversion,
    Checked.ok_bind]
  simp only [Checked.require_of hsize, Checked.ok_bind, Checked.require_of hpow,
    expectedChecked_ofHeader hsize.2]
  rw [Checked.require_of hexpected, Checked.ok_bind]
  simp only [Checked.require_of hcounts, Checked.ok_bind,
    checkPagesChecked_eq hsized fun index hindex => List.mem_range.1 hindex]

theorem parse_of (h : HeaderAccepted bytes) : PayloadView.parse bytes =
    match (ofHeader bytes).checkTransactions (List.range (ofHeader bytes).transactionCount) 0 with
    | .error e => .error e
    | .ok nextFrame =>
      if nextFrame ≠ (ofHeader bytes).frameCount then .error .invalidPayloadShape
      else if (List.range (ofHeader bytes).frameCount).any
          (fun index => ((ofHeader bytes).frameInfoAt index).pageNumber == 0) then
        .error .invalidPayloadShape
      else .ok (ofHeader bytes) := by
  obtain ⟨hlen, hmagic, hversion, hsize, hpow, hsized, hcounts⟩ := h
  rw [PayloadView.parse, if_neg (not_lt.2 hlen), if_neg (not_not.2 hmagic), if_neg (not_not.2 hversion)]
  have hsize' : ¬ (readLe bytes 8 4 < 512 ∨ readLe bytes 8 4 > 65536) := by
    intro h
    rcases h with h | h
    · exact absurd hsize.1 (not_le.2 h)
    · exact absurd hsize.2 (not_le.2 h)
  have hpow' : ¬ ¬ (readLe bytes 8 4).isPowerOfTwo := not_not.2 hpow
  have hsized' : ¬ bytes.length ≠ headerSize + readLe bytes 28 4 * transactionRecordSize +
      readLe bytes 32 4 * frameRecordSize + readLe bytes 32 4 * readLe bytes 8 4 := not_not.2 hsized
  have hcounts' : ¬ (readLe bytes 28 4 = 0 ∨ readLe bytes 32 4 = 0) := not_or.2 hcounts
  simp only [if_neg hsize', if_neg hpow', if_neg hsized', if_neg hcounts']
  rfl

/-- A transaction record of an accepted header that its predecessors tile the frames up to, and whose
frame count overflows the running frame number. -/
def OverflowingTiling (bytes : List UInt8) : Prop :=
  HeaderAccepted bytes ∧
    (ofHeader bytes).Overflows (List.range (ofHeader bytes).transactionCount) 0

/-- Behind an accepted header, a parse with the checks is the parse or stops at the running frame
number. -/
theorem parseChecked_eq (h : HeaderAccepted bytes) :
    (OverflowingTiling bytes → parseChecked bytes = .error .integerOverflow) ∧
    (¬ OverflowingTiling bytes → parseChecked bytes = (PayloadView.parse bytes).mapError .declared) := by
  have hindex : ∀ index ∈ List.range (ofHeader bytes).transactionCount,
      index < (ofHeader bytes).transactionCount := fun index => List.mem_range.1
  have hzero : 0 < 2 ^ 32 := by decide
  obtain ⟨htrap, hsame⟩ := checkTransactionsChecked_eq h.2.2.2.2.2.1 hindex hzero
  rw [parseChecked_of h]
  constructor
  · rintro ⟨-, hover⟩
    rw [htrap hover]
    rfl
  · intro hnot
    rw [parse_of h, hsame fun hover => hnot ⟨h, hover⟩]
    cases (ofHeader bytes).checkTransactions (List.range (ofHeader bytes).transactionCount) 0 with
    | error e => rfl
    | ok nextFrame =>
      simp only [Except.mapError, Checked.ok_bind]
      by_cases hnext : nextFrame = (ofHeader bytes).frameCount
      · rw [Checked.require_of hnext, Checked.ok_bind, if_neg (not_not.2 hnext)]
        by_cases hpages : ∀ index ∈ List.range (ofHeader bytes).frameCount,
            ((ofHeader bytes).frameInfoAt index).pageNumber ≠ 0
        · have hany : ¬ ((List.range (ofHeader bytes).frameCount).any fun index =>
              ((ofHeader bytes).frameInfoAt index).pageNumber == 0) = true := by
            simpa using hpages
          rw [Checked.require_of hpages, if_neg hany]
          rfl
        · have hany : ((List.range (ofHeader bytes).frameCount).any fun index =>
              ((ofHeader bytes).frameInfoAt index).pageNumber == 0) = true := by
            simpa using hpages
          rw [Checked.require_of_not hpages, if_pos hany]
          rfl
      · rw [Checked.require_of_not hnext, if_pos hnext]
        rfl

theorem not_overflows_of_checkTransactions (hframes : view.frameCount < 2 ^ 32) {l : List ℕ}
    {nextFrame reached : ℕ} (h : view.checkTransactions l nextFrame = .ok reached) :
    ¬ view.Overflows l nextFrame := by
  induction l generalizing nextFrame with
  | nil =>
    rintro ⟨pre, index, post, hl, -⟩
    cases pre <;> cases hl
  | cons index rest ih =>
    rw [checkTransactions_cons] at h
    rw [overflows_cons]
    split at h
    · cases h
    · split at h
      · cases h
      · split at h
        · cases h
        · rename_i hle
          split at h
          · cases h
          · rintro (⟨-, hover⟩ | ⟨-, -, -, -, hrest⟩)
            · omega
            · exact ih h hrest

theorem parseChecked_of_parse (h : HeaderAccepted bytes) (hparse : PayloadView.parse bytes = .ok view) :
    parseChecked bytes = .ok view := by
  have hno : ¬ OverflowingTiling bytes := by
    rintro ⟨-, hover⟩
    rw [parse_of h] at hparse
    cases htiling : (ofHeader bytes).checkTransactions
        (List.range (ofHeader bytes).transactionCount) 0 with
    | error e =>
      rw [htiling] at hparse
      cases hparse
    | ok reached =>
      exact not_overflows_of_checkTransactions (readLe_lt bytes 32 4) htiling hover
  rw [(parseChecked_eq h).2 hno, hparse]
  rfl

/-- A view whose records hold together. -/
structure WellFormed (view : PayloadView) : Prop where
  sized : view.Sized
  transactions_ne : view.transactionCount ≠ 0
  tiles : (List.range view.transactionCount).flatMap view.framesOf = List.range view.frameCount
  ends : ∀ index < view.transactionCount, (view.transactionAt index).frameCount ≠ 0 ∧
    (view.frameInfoAt (view.lastFrameOf index)).commitSize ≠ 0
  pages : ∀ index < view.frameCount, (view.frameInfoAt index).pageNumber ≠ 0
  transactionAt : ∀ index < view.transactionCount,
    view.transactionAtChecked index = .ok (view.transactionAt index)
  frameInfoAt : ∀ index < view.frameCount, view.frameInfoAtChecked index = .ok (view.frameInfoAt index)
  framePage : ∀ index < view.frameCount, view.framePageChecked index = .ok (view.framePage index) ∧
    (view.framePage index).length = view.pageSize
  finalSize : view.finalSize ≠ 0

theorem wellFormed_of_parse (h : HeaderAccepted bytes) (hparse : PayloadView.parse bytes = .ok view) :
    view.bytes = bytes ∧ view.WellFormed := by
  rw [parse_of h] at hparse
  obtain ⟨-, -, -, -, -, hsized, htx, hframes⟩ := h
  cases htiling : (ofHeader bytes).checkTransactions
      (List.range (ofHeader bytes).transactionCount) 0 with
  | error e =>
    rw [htiling] at hparse
    cases hparse
  | ok nextFrame =>
    rw [htiling] at hparse
    simp only at hparse
    split at hparse
    · cases hparse
    · rename_i hnext
      split at hparse
      · cases hparse
      · rename_i hany
        cases hparse
        obtain rfl := not_not.1 hnext
        obtain ⟨-, htiles, hends, hlast⟩ := tiles_of_checkTransactions htiling
        have hcommit := hlast (by rwa [ne_eq, List.range_eq_nil])
        refine ⟨rfl, hsized, htx, ?_, ?_, ?_, ?_, ?_, ?_, ?_⟩
        · rw [htiles, Nat.sub_zero, List.range_eq_range']
        · intro index hindex
          exact hends index (List.mem_range.2 hindex)
        · intro index hindex hzero
          apply hany
          rw [List.any_eq_true]
          exact ⟨index, List.mem_range.2 hindex, beq_iff_eq.2 hzero⟩
        · exact fun index => transactionAtChecked_of_lt hsized
        · exact fun index => frameInfoAtChecked_of_lt hsized
        · exact fun index => framePageChecked_of_lt hsized
        · rwa [finalSize_eq hframes hcommit]

/-- **Parsing any bytes.** A returned view is well formed, and the parse stops the process exactly on a
transaction record that overflows the running frame number behind a proper tiling. -/
theorem parseChecked_total (bytes : List UInt8) :
    ((∃ view, parseChecked bytes = .ok view ∧ view.bytes = bytes ∧ view.WellFormed) ∨
        ∃ e, parseChecked bytes = .error (.declared e)) ↔ ¬ OverflowingTiling bytes := by
  constructor
  · intro hgood hover
    rw [(parseChecked_eq hover.1).1 hover] at hgood
    rcases hgood with ⟨view, hok, -, -⟩ | ⟨e, hfail⟩
    · cases hok
    · cases hfail
  · intro hnot
    by_cases h : HeaderAccepted bytes
    · rw [(parseChecked_eq h).2 hnot]
      cases hparse : PayloadView.parse bytes with
      | error e => exact Or.inr ⟨e, rfl⟩
      | ok view =>
        obtain ⟨hbytes, hformed⟩ := wellFormed_of_parse h hparse
        exact Or.inl ⟨view, rfl, hbytes, hformed⟩
    · exact Or.inr (parseChecked_of_not h)

end Parsing

/-! ### The header of an encoding -/

section Encoding

variable {databaseId : ℕ} {transactions : List Transaction} {frames : FrameSet}

theorem ofHeader_encode (hdb : databaseId < 256 ^ 16) (htx : transactions.length < 256 ^ 4)
    (hframes : frames.infos.length < 256 ^ 4) (hpage : frames.pageSize < 256 ^ 4) :
    readLe (encode databaseId transactions frames) 0 4 = magic ∧
      readLe (encode databaseId transactions frames) 4 1 = version ∧
      ofHeader (encode databaseId transactions frames) = encodedView databaseId transactions frames := by
  obtain ⟨hmagic, hversion, hsize, hid, htxs, hinfos⟩ := readLe_header
    (transactions.flatMap encodeTransaction ++ (frames.infos.flatMap encodeFrameInfo ++ frames.pages))
    hdb htx hframes hpage
  refine ⟨hmagic, hversion, ?_⟩
  rw [ofHeader]
  simp only [encode, hsize, hid, htxs, hinfos]
  rfl

/-- The parser accepts the header of an encoding that has any records. -/
theorem headerAccepted_encode (hdb : databaseId < 256 ^ 16) (htx : transactions.length < 256 ^ 4)
    (hframes : frames.infos.length < 256 ^ 4) (hsize : 512 ≤ frames.pageSize ∧ frames.pageSize ≤ 65536)
    (hpow : frames.pageSize.isPowerOfTwo)
    (hpages : frames.pages.length = frames.infos.length * frames.pageSize)
    (hnonempty : transactions.length ≠ 0 ∧ frames.infos.length ≠ 0) :
    HeaderAccepted (encode databaseId transactions frames) := by
  have hpage : frames.pageSize < 256 ^ 4 := lt_of_le_of_lt hsize.2 (by decide)
  obtain ⟨hmagic, hversion, hheader⟩ := ofHeader_encode hdb htx hframes hpage
  have hlen : (encode databaseId transactions frames).length =
      headerSize + transactions.length * transactionRecordSize + frames.infos.length * frameRecordSize +
        frames.infos.length * frames.pageSize := length_encodePayload databaseId hpages
  rw [HeaderAccepted, hheader]
  refine ⟨?_, hmagic, hversion, hsize, hpow, hlen, hnonempty⟩
  rw [hlen]
  omega

end Encoding

/-! ### Two plausible records -/

/-- A transaction over one frame, and one over as many frames as 32 bits can count. -/
def overflowingTransactions : List Transaction :=
  [⟨0, 0, 0, 1, 0⟩, ⟨0, 0, 1, 2 ^ 32 - 1, 0⟩]

def oneFrame : FrameSet :=
  ⟨[⟨1, 1⟩], List.replicate 512 0, 512⟩

/-- The second record passes every test made before its frame count is added. -/
theorem overflowing_traps :
    parseChecked (encode 1 overflowingTransactions oneFrame) = .error .integerOverflow := by
  have hview : ofHeader (encode 1 overflowingTransactions oneFrame) =
      encodedView 1 overflowingTransactions oneFrame :=
    (ofHeader_encode (by decide) (by decide) (by decide) (by decide)).2.2
  have hheader : HeaderAccepted (encode 1 overflowingTransactions oneFrame) :=
    headerAccepted_encode (by decide) (by decide) (by decide) (by decide) ⟨9, rfl⟩ List.length_replicate
      ⟨by decide, by decide⟩
  apply (parseChecked_eq hheader).1
  refine ⟨hheader, ?_⟩
  · rw [hview]
    have hfirst : (encodedView 1 overflowingTransactions oneFrame).transactionAt 0 = ⟨0, 0, 0, 1, 0⟩ :=
      transactionAt_encodedView 1 rfl ⟨by decide, by decide, by decide, by decide, by decide, by decide⟩
    have hsecond : (encodedView 1 overflowingTransactions oneFrame).transactionAt 1 =
        ⟨0, 0, 1, 2 ^ 32 - 1, 0⟩ :=
      transactionAt_encodedView 1 rfl ⟨by decide, by decide, by decide, by decide, by decide, by decide⟩
    have hframe : (encodedView 1 overflowingTransactions oneFrame).frameInfoAt 0 = ⟨1, 1⟩ :=
      frameInfoAt_encodedView 1 rfl (by decide) (by decide)
    refine ⟨[0], 1, [], rfl, 1, ?_, ?_, ?_⟩
    · rw [checkTransactions_cons, hfirst, if_neg (by decide), if_neg (by decide)]
      simp only [Nat.zero_add, Nat.sub_self, hframe]
      rw [if_neg (by decide), if_neg (by decide)]
      rfl
    · rw [hsecond]
    · rw [hsecond]
      decide

end PayloadView

end Zaxonlite
