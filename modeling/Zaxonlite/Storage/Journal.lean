import Mathlib.Data.Prod.Lex
import Zaxonlite.Command
import Zaxonlite.Lib.Contiguous

/-!
# The consensus journal

The journal is a run of sealed segments and one active segment, each a list of appended records. The
active segment is sealed and replaced when it is full; trimming unlinks whole sealed segments from the
front. Only the records of the active segment past its last sync can be lost, and only by power loss;
a process crash keeps every appended record. Rotation is one step here: whichever of its file-system
effects a crash cuts off, reopening resolves to the same records.
-/

namespace Zaxonlite

/-- A Paxos ballot, ordered lexicographically. -/
structure Ballot where
  round : ℕ
  priority : ℕ
  node : ℕ
  deriving DecidableEq, Repr

namespace Ballot

def zero : Ballot := ⟨0, 0, 0⟩

def lessThan (a b : Ballot) : Bool :=
  decide (a.round < b.round) ||
    (a.round == b.round && (decide (a.priority < b.priority) ||
      (a.priority == b.priority && decide (a.node < b.node))))

def key (ballot : Ballot) : ℕ ×ₗ (ℕ ×ₗ ℕ) :=
  toLex (ballot.round, toLex (ballot.priority, ballot.node))

theorem key_injective : Function.Injective key := by
  intro a b h
  have hround : a.round = b.round := congrArg (fun k => (ofLex k).1) h
  have hpriority : a.priority = b.priority := congrArg (fun k => (ofLex (ofLex k).2).1) h
  have hnode : a.node = b.node := congrArg (fun k => (ofLex (ofLex k).2).2) h
  cases a
  cases b
  simp_all

instance : LinearOrder Ballot := LinearOrder.lift' key key_injective

theorem lessThan_iff {a b : Ballot} : a.lessThan b = true ↔ a < b := by
  have hlt : a < b ↔ a.key < b.key := Iff.rfl
  rw [hlt, key, key, Prod.Lex.toLex_lt_toLex, Prod.Lex.toLex_lt_toLex, lessThan]
  simp only [Bool.or_eq_true, Bool.and_eq_true, decide_eq_true_eq, beq_iff_eq]

end Ballot

structure TrimAnchor where
  trimId : ℕ
  chosenTrimSlot : ℕ
  historyHash : HashBytes
  deriving DecidableEq

/-- One durable record of the consensus core. -/
inductive Write where
  | promise (ballot : Ballot)
  | accept (ballot : Ballot) (slot : ℕ) (value : Entry)
  | commit (slot : ℕ) (value : Entry)
  | trimAnchor (anchor : TrimAnchor)
  deriving DecidableEq

namespace Write

/-- The slot filed with the record, zero for records without one. -/
def slot : Write → ℕ
  | promise _ => 0
  | accept _ slot _ => slot
  | commit slot _ => slot
  | trimAnchor _ => 0

def commitSlot? : Write → Option ℕ
  | commit slot _ => some slot
  | _ => none

/-- The value an accept or commit record names. -/
def entry? : Write → Option Entry
  | accept _ _ value => some value
  | commit _ value => some value
  | _ => none

/-- The ballot an acceptor is bound by after the record. -/
def ballot? : Write → Option Ballot
  | promise ballot => some ballot
  | accept ballot _ _ => some ballot
  | _ => none

end Write

/-- A segment's records with the greatest slot filed in them. -/
structure Segment where
  firstSlot : ℕ
  lastSlot : ℕ
  records : List Write
  slot_le : ∀ write ∈ records, write.slot ≤ lastSlot

/-- The segment being appended to; the first `synced` records have reached the disk. -/
structure ActiveSegment extends Segment where
  synced : ℕ

namespace ActiveSegment

def empty (firstSlot : ℕ) : ActiveSegment where
  firstSlot := firstSlot
  lastSlot := 0
  records := []
  slot_le := fun _ h => absurd h List.not_mem_nil
  synced := 0

def append (active : ActiveSegment) (write : Write) : ActiveSegment where
  firstSlot := active.firstSlot
  lastSlot := max active.lastSlot write.slot
  records := active.records ++ [write]
  slot_le := by
    intro w hw
    rcases List.mem_append.1 hw with hw | hw
    · exact le_trans (active.slot_le w hw) (le_max_left _ _)
    · rw [List.mem_singleton] at hw
      exact hw ▸ le_max_right _ _
  synced := active.synced

/-- The manifest entry of the sealed segment. -/
def toSealed (active : ActiveSegment) : Segment where
  firstSlot := active.firstSlot
  lastSlot := max active.lastSlot active.firstSlot
  records := active.records
  slot_le := fun w hw => le_trans (active.slot_le w hw) (le_max_left _ _)

end ActiveSegment

/-- The trim and promise fields of the last published manifest. -/
structure Manifest where
  maxPromised : Ballot
  chosenThrough : ℕ
  trimDecisionSlot : ℕ
  trimmedThrough : ℕ
  trimHistoryHash : HashBytes

/-- The first slot of the oldest of these segments, `next` when there are none. -/
def firstRetained (segments : List Segment) (next : ℕ) : ℕ :=
  match segments with
  | [] => next
  | entry :: _ => entry.firstSlot

/-- Every segment starts right after the one before it, and `next` after the last. -/
def Linked : List Segment → ℕ → Prop
  | [], _ => True
  | entry :: rest, next =>
    entry.firstSlot ≤ entry.lastSlot ∧ firstRetained rest next = entry.lastSlot + 1 ∧ Linked rest next

theorem Linked.concat {segments : List Segment} (entry : Segment) (hle : entry.firstSlot ≤ entry.lastSlot)
    (h : Linked segments entry.firstSlot) : Linked (segments ++ [entry]) (entry.lastSlot + 1) := by
  induction segments with
  | nil => exact ⟨hle, rfl, trivial⟩
  | cons first rest ih =>
    refine ⟨h.1, ?_, ih h.2.2⟩
    rw [← h.2.1]
    cases rest <;> rfl

theorem Linked.dropWhile {segments : List Segment} {next : ℕ} (h : Linked segments next)
    (p : Segment → Bool) : Linked (segments.dropWhile p) next := by
  induction segments with
  | nil => exact trivial
  | cons entry rest ih =>
    rw [List.dropWhile_cons]
    split
    · exact ih h.2.2
    · exact h

theorem Linked.firstRetained_le {segments : List Segment} {next : ℕ} (h : Linked segments next)
    (p : Segment → Bool) : firstRetained segments next ≤ firstRetained (segments.dropWhile p) next := by
  induction segments with
  | nil => exact le_rfl
  | cons entry rest ih =>
    rw [List.dropWhile_cons]
    split
    · have hrest := ih h.2.2
      have hfirst := h.1
      rw [h.2.1] at hrest
      exact le_trans hfirst (le_trans (Nat.le_succ _) hrest)
    · exact le_rfl

/-- The records of dropped leading segments all lie below the first retained slot. -/
theorem Linked.split {segments : List Segment} {next : ℕ} (h : Linked segments next)
    (p : Segment → Bool) : ∃ low, segments.flatMap Segment.records = low ++
        (segments.dropWhile p).flatMap Segment.records ∧
      ∀ write ∈ low, write.slot < firstRetained (segments.dropWhile p) next := by
  induction segments with
  | nil => exact ⟨[], rfl, fun _ hw => absurd hw List.not_mem_nil⟩
  | cons entry rest ih =>
    by_cases hp : p entry
    · obtain ⟨low, heq, hlow⟩ := ih h.2.2
      have hrest := h.2.2.firstRetained_le p
      rw [h.2.1] at hrest
      rw [List.dropWhile_cons_of_pos hp]
      refine ⟨entry.records ++ low, by rw [List.flatMap_cons, heq, List.append_assoc], ?_⟩
      intro write hwrite
      rcases List.mem_append.1 hwrite with hw | hw
      · exact lt_of_le_of_lt (entry.slot_le write hw) hrest
      · exact hlow write hw
    · rw [List.dropWhile_cons_of_neg hp]
      exact ⟨[], rfl, fun _ hw => absurd hw List.not_mem_nil⟩

/-- Dropping segments up to a floor leaves a run that starts at most one slot above it. -/
theorem Linked.firstRetained_dropWhile {segments : List Segment} {next : ℕ} (h : Linked segments next)
    (floor : ℕ) :
    firstRetained (segments.dropWhile fun entry => decide (entry.lastSlot ≤ floor)) next ≤
      max (firstRetained segments next) (floor + 1) := by
  induction segments with
  | nil => exact le_max_left _ _
  | cons entry rest ih =>
    by_cases hle : entry.lastSlot ≤ floor
    · rw [List.dropWhile_cons_of_pos (by simpa using hle)]
      refine le_trans (ih h.2.2) ?_
      rw [h.2.1]
      omega
    · rw [List.dropWhile_cons_of_neg (by simpa using hle)]
      exact le_max_left _ _

structure Journal where
  segments : List Segment
  active : ActiveSegment
  linked : Linked segments active.firstSlot
  manifest : Manifest
  rotationRecords : ℕ
  persisted : ℕ
  chosenHint : ℕ
  maxPromised : Ballot
  trimDecisionSlot : ℕ
  trimmedThrough : ℕ
  trimHistoryHash : HashBytes

namespace Journal

def zeroHash : HashBytes := Vector.replicate 32 0

/-- `create`: an empty active segment starting at slot one. -/
def create (rotationRecords : ℕ) : Journal where
  segments := []
  active := ActiveSegment.empty 1
  linked := trivial
  manifest :=
    { maxPromised := Ballot.zero, chosenThrough := 0, trimDecisionSlot := 0, trimmedThrough := 0,
      trimHistoryHash := zeroHash }
  rotationRecords := rotationRecords
  persisted := 0
  chosenHint := 0
  maxPromised := Ballot.zero
  trimDecisionSlot := 0
  trimmedThrough := 0
  trimHistoryHash := zeroHash

/-- Every retained record in append order. -/
def records (j : Journal) : List Write :=
  j.segments.flatMap Segment.records ++ j.active.records

def publishManifest (j : Journal) : Journal :=
  { j with manifest :=
    { maxPromised := j.maxPromised, chosenThrough := j.chosenHint,
      trimDecisionSlot := j.trimDecisionSlot, trimmedThrough := j.trimmedThrough,
      trimHistoryHash := j.trimHistoryHash } }

def full (j : Journal) : Bool :=
  decide (j.rotationRecords ≤ j.active.records.length)

/-- `rotate`: seal and sync the active segment, publish, and start the next one. -/
def rotate (j : Journal) : Journal :=
  let sealedSegment := j.active.toSealed
  publishManifest
    { j with
      segments := j.segments ++ [sealedSegment]
      active := ActiveSegment.empty (sealedSegment.lastSlot + 1)
      linked := Linked.concat sealedSegment (le_max_right _ _) j.linked }

def observePromise (j : Journal) (ballot : Ballot) : Journal :=
  if j.maxPromised.lessThan ballot then { j with maxPromised := ballot } else j

/-- Append one record to the active segment. -/
def append (j : Journal) (write : Write) : Journal :=
  let j := match write.ballot? with
    | some ballot => j.observePromise ballot
    | none => j
  { j with
    active := j.active.append write
    persisted := max j.persisted write.slot }

/-- One turn of `appendWrites`: rotate a full segment, then append. -/
def appendWrite (j : Journal) (write : Write) : Journal :=
  (if j.full then j.rotate else j).append write

def appendWrites (j : Journal) (writes : List Write) : Journal :=
  writes.foldl appendWrite j

/-- `sync`: everything in the active segment has reached the disk. -/
def sync (j : Journal) : Journal :=
  { j with active := { j.active with synced := j.active.records.length } }

def noteChosen (j : Journal) (through : ℕ) : Journal :=
  { j with chosenHint := max j.chosenHint through }

def noteTrimAnchor (j : Journal) (decisionSlot through : ℕ) (historyHash : HashBytes) : Journal :=
  if decisionSlot ≤ j.trimDecisionSlot then j
  else { j with
    trimDecisionSlot := decisionSlot, trimmedThrough := through, trimHistoryHash := historyHash }

/-- `trimThrough`: unlink the leading sealed segments wholly at or below `floor`. Returns whether any
was removed. -/
def trimThrough (j : Journal) (floor : ℕ) : Bool × Journal :=
  let kept := j.segments.dropWhile fun entry => decide (entry.lastSlot ≤ floor)
  if kept.length = j.segments.length then (false, j)
  else (true, publishManifest { j with segments := kept, linked := j.linked.dropWhile _ })

/-- `retainedFirstSlot`: the first slot of the oldest retained segment. -/
def retainedFirstSlot (j : Journal) : ℕ :=
  firstRetained j.segments j.active.firstSlot

/-- `iterate`: the retained records from the first segment that reaches `fromSlot`. -/
def iterate (j : Journal) (fromSlot : ℕ) : List Write :=
  (j.segments.dropWhile fun entry => decide (entry.lastSlot < fromSlot)).flatMap Segment.records ++
    j.active.records

/-- `open`: the retained records as a restart finds them, with the in-memory fields rebuilt. -/
def reopen (j : Journal) : Journal :=
  let replayed := j.records.foldl (fun ballot write =>
    match write.ballot? with
    | some b => if Ballot.lessThan ballot b then b else ballot
    | none => ballot) j.manifest.maxPromised
  { j with
    persisted := max (j.records.foldl (fun slot write => max slot write.slot) 0) j.manifest.trimmedThrough
    chosenHint := j.manifest.chosenThrough
    maxPromised := replayed
    trimDecisionSlot := j.manifest.trimDecisionSlot
    trimmedThrough := j.manifest.trimmedThrough
    trimHistoryHash := j.manifest.trimHistoryHash }

end Journal

/-- The slots of the commit records of a stream, in order. -/
def commitSlots (records : List Write) : List ℕ :=
  records.filterMap Write.commitSlot?

theorem commitSlots_append (xs ys : List Write) :
    commitSlots (xs ++ ys) = commitSlots xs ++ commitSlots ys :=
  List.filterMap_append

theorem commitSlots_singleton (write : Write) : commitSlots [write] = write.commitSlot?.toList := by
  cases write <;> rfl

theorem mem_commitSlots {records : List Write} {s : ℕ} :
    s ∈ commitSlots records ↔ ∃ value, Write.commit s value ∈ records := by
  simp only [commitSlots, List.mem_filterMap]
  constructor
  · rintro ⟨write, hmem, hslot⟩
    cases write with
    | commit slot value => exact ⟨value, (Option.some.inj hslot) ▸ hmem⟩
    | promise ballot => cases hslot
    | accept ballot slot value => cases hslot
    | trimAnchor anchor => cases hslot
  · rintro ⟨value, hmem⟩
    exact ⟨_, hmem, rfl⟩

/-! ### Records under each operation -/

namespace Journal

@[simp] theorem records_observePromise (j : Journal) (ballot : Ballot) :
    (j.observePromise ballot).records = j.records := by
  unfold observePromise
  split <;> rfl

@[simp] theorem records_append (j : Journal) (write : Write) :
    (j.append write).records = j.records ++ [write] := by
  unfold append
  cases write.ballot? with
  | none => simp [records, ActiveSegment.append]
  | some ballot =>
    have hrecords := records_observePromise j ballot
    simp only [records, ActiveSegment.append] at hrecords ⊢
    rw [← List.append_assoc, hrecords]

@[simp] theorem records_rotate (j : Journal) : j.rotate.records = j.records := by
  simp [rotate, records, publishManifest, ActiveSegment.toSealed, ActiveSegment.empty]

@[simp] theorem records_noteTrimAnchor (j : Journal) (decisionSlot through : ℕ)
    (historyHash : HashBytes) :
    (j.noteTrimAnchor decisionSlot through historyHash).records = j.records := by
  unfold noteTrimAnchor
  split <;> rfl

@[simp] theorem retainedFirstSlot_append (j : Journal) (write : Write) :
    (j.append write).retainedFirstSlot = j.retainedFirstSlot := by
  unfold append
  cases write.ballot? with
  | none => rfl
  | some ballot =>
    unfold observePromise
    simp only
    split <;> rfl

@[simp] theorem retainedFirstSlot_rotate (j : Journal) :
    j.rotate.retainedFirstSlot = j.retainedFirstSlot := by
  cases hsegments : j.segments with
  | nil => simp [rotate, publishManifest, retainedFirstSlot, firstRetained, hsegments,
      ActiveSegment.toSealed]
  | cons entry rest => simp [rotate, publishManifest, retainedFirstSlot, firstRetained, hsegments]

@[simp] theorem retainedFirstSlot_noteTrimAnchor (j : Journal) (decisionSlot through : ℕ)
    (historyHash : HashBytes) :
    (j.noteTrimAnchor decisionSlot through historyHash).retainedFirstSlot = j.retainedFirstSlot := by
  unfold noteTrimAnchor
  split <;> rfl

/-- Splitting off leading segments whose slots are all below a bound. -/
private theorem split_dropWhile (segments : List Segment) (bound : ℕ) :
    ∃ low, segments.flatMap Segment.records = low ++
        (segments.dropWhile fun entry => decide (entry.lastSlot < bound)).flatMap Segment.records ∧
      ∀ write ∈ low, write.slot < bound := by
  induction segments with
  | nil => exact ⟨[], rfl, fun _ h => absurd h List.not_mem_nil⟩
  | cons entry rest ih =>
    by_cases hlt : entry.lastSlot < bound
    · obtain ⟨low, heq, hlow⟩ := ih
      refine ⟨entry.records ++ low, ?_, ?_⟩
      · rw [List.dropWhile_cons_of_pos (by simpa using hlt), List.flatMap_cons, heq,
          List.append_assoc]
      · intro write hwrite
        rcases List.mem_append.1 hwrite with hw | hw
        · exact lt_of_le_of_lt (entry.slot_le write hw) hlt
        · exact hlow write hw
    · refine ⟨[], ?_, fun _ h => absurd h List.not_mem_nil⟩
      rw [List.dropWhile_cons_of_neg (by simpa using hlt), List.nil_append]

theorem records_eq_append_iterate (j : Journal) (fromSlot : ℕ) :
    ∃ low, j.records = low ++ j.iterate fromSlot ∧ ∀ write ∈ low, write.slot < fromSlot := by
  obtain ⟨low, heq, hlow⟩ := split_dropWhile j.segments fromSlot
  exact ⟨low, by rw [records, heq, iterate, List.append_assoc], hlow⟩

/-- Trimming drops only records of slots below the first one it retains, which is where it was or at
most one slot above the floor. -/
theorem records_trimThrough (j : Journal) (floor : ℕ) :
    ∃ low, j.records = low ++ (j.trimThrough floor).2.records ∧
      (∀ write ∈ low, write.slot < (j.trimThrough floor).2.retainedFirstSlot) ∧
      j.retainedFirstSlot ≤ (j.trimThrough floor).2.retainedFirstSlot ∧
      (j.trimThrough floor).2.retainedFirstSlot ≤ max j.retainedFirstSlot (floor + 1) := by
  unfold trimThrough
  simp only
  split
  · exact ⟨[], rfl, fun _ h => absurd h List.not_mem_nil, le_rfl, le_max_left _ _⟩
  · obtain ⟨low, heq, hlow⟩ := j.linked.split fun entry => decide (entry.lastSlot ≤ floor)
    refine ⟨low, ?_, hlow, j.linked.firstRetained_le _, j.linked.firstRetained_dropWhile floor⟩
    simp only [records, publishManifest, heq, List.append_assoc]

end Journal

end Zaxonlite
