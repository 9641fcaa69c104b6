import Zaxonlite.Storage.Segment

/-!
# The journal directory

The journal is a manifest and the segment files it names. The manifest is replaced atomically; segment
files are appended to, sealed and unlinked. Every operation on the running journal is a function of its
in-memory handle, so what it does to the directory is a list of file effects, and a crash leaves a prefix
of them. Opening reads the manifest, drops files it does not name, takes over the active file in whatever
shape rotation left it, and replays every retained record.
-/

namespace Zaxonlite

/-- One row of the manifest's segment table. -/
structure SegmentEntry where
  firstSlot : ℕ
  lastSlot : ℕ
  digest : HashBytes
  deriving DecidableEq

/-- `MANIFEST`. -/
structure ManifestFile where
  generation : ℕ
  databaseId : ℕ
  rollup : Manifest
  activeFirstSlot : ℕ
  segments : List SegmentEntry

def maxSegments : ℕ := 65536

inductive JournalError where
  | corruptJournal
  | sequenceGap
  | corruptManifest
  | tooManySegments
  | core
  | segment (error : SegmentError)
  deriving DecidableEq, Repr

theorem ok_of_toOption {α : Type} {result : Except JournalError α} {a : α}
    (h : result.toOption = some a) : result = .ok a := by
  cases result with
  | error e => cases h
  | ok b => exact congrArg Except.ok (Option.some.inj h)

/-- The first slot of the oldest listed segment, `next` when there is none. -/
def firstListed (segments : List SegmentEntry) (next : ℕ) : ℕ :=
  match segments with
  | [] => next
  | entry :: _ => entry.firstSlot

/-- Every listed range is one and ends where the next begins. -/
def contiguous : List SegmentEntry → ℕ → Bool
  | [], _ => true
  | entry :: rest, next =>
    decide (entry.firstSlot ≤ entry.lastSlot) && decide (firstListed rest next = entry.lastSlot + 1) &&
      contiguous rest next

/-- `readSegmentTable`: the ranges are contiguous up to the active segment and leave no hole above the
trim anchor. -/
def ManifestFile.tableValid (m : ManifestFile) : Bool :=
  decide (firstListed m.segments m.activeFirstSlot ≤ m.rollup.trimmedThrough + 1) &&
    contiguous m.segments m.activeFirstSlot

/-- `manifest.load`, of a manifest that was published. -/
def loadManifest (databaseId : ℕ) (m : ManifestFile) : Except JournalError ManifestFile :=
  if m.databaseId = databaseId ∧ m.tableValid = true then .ok m else .error .corruptManifest

inductive FileEffect where
  | create (name : ℕ) (header : SegmentHeader)
  | append (name : ℕ) (record : SegmentRecord)
  | seal (name : ℕ) (trailer : SegmentTrailer)
  | truncate (name : ℕ) (records : List SegmentRecord)
  | sync (name : ℕ)
  | publish (manifest : ManifestFile)
  | delete (name : ℕ)
  | sweep (kept : List ℕ)

/-! ### The running journal -/

structure JournalHandle where
  databaseId : ℕ
  rotationRecords : ℕ
  generation : ℕ
  segments : List SegmentEntry
  active : SegmentWriter
  activeFirstSlot : ℕ
  nextSequence : ℕ
  persisted : ℕ
  chosenHint : ℕ
  maxPromised : Ballot
  trimDecisionSlot : ℕ
  trimmedThrough : ℕ
  trimHistoryHash : HashBytes

namespace JournalHandle

def manifestFile (h : JournalHandle) : ManifestFile where
  generation := h.generation
  databaseId := h.databaseId
  rollup :=
    { maxPromised := h.maxPromised, chosenThrough := h.chosenHint,
      trimDecisionSlot := h.trimDecisionSlot, trimmedThrough := h.trimmedThrough,
      trimHistoryHash := h.trimHistoryHash }
  activeFirstSlot := h.activeFirstSlot
  segments := h.segments

/-- `publishManifest`: the next generation, refused when the table is too long. -/
def publishManifest (h : JournalHandle) : Except JournalError JournalHandle :=
  if maxSegments < h.segments.length then .error .tooManySegments
  else .ok { h with generation := h.generation + 1 }

def nextHeader (h : JournalHandle) (previous : HashBytes) : SegmentHeader :=
  ⟨h.databaseId, h.activeFirstSlot, previous⟩

/-- Start an empty active segment. -/
def startSegment (h : JournalHandle) (previous : HashBytes) : JournalHandle :=
  { h with active := SegmentWriter.create (h.nextHeader previous) }

/-- List a sealed segment that begins at `firstSlot` and holds slots up to `lastSlot`. -/
def listSealed (h : JournalHandle) (firstSlot lastSlot : ℕ) (digest : HashBytes) : JournalHandle :=
  { h with
    segments := h.segments ++ [⟨firstSlot, max lastSlot firstSlot, digest⟩]
    activeFirstSlot := max lastSlot firstSlot + 1 }

/-- Publish the manifest of a handle that lists a sealed segment, and start the next one. -/
def startNext (h : JournalHandle) (digest : HashBytes) :
    List FileEffect × Except JournalError JournalHandle :=
  match h.publishManifest with
  | .error e => ([], .error e)
  | .ok published =>
    ([.publish published.manifestFile, .create published.activeFirstSlot (published.nextHeader digest)],
      .ok (published.startSegment digest))

def rotate (h : JournalHandle) : List FileEffect × Except JournalError JournalHandle :=
  let trailer := h.active.trailer h.chosenHint
  let (effects, result) := (h.listSealed h.active.header.firstGlobalSlot h.active.lastSlot
    trailer.segmentDigest).startNext trailer.segmentDigest
  (.seal h.activeFirstSlot trailer :: .sync h.activeFirstSlot :: effects, result)

def observePromise (h : JournalHandle) (ballot : Ballot) : JournalHandle :=
  { h with
    active := h.active.observePromise ballot
    maxPromised := if h.maxPromised.lessThan ballot then ballot else h.maxPromised }

/-- Append one record to the active segment. -/
def appendRecord (h : JournalHandle) (write : Write) : JournalHandle :=
  let h := match write.ballot? with
    | some ballot => h.observePromise ballot
    | none => h
  { h with
    active := h.active.append (recordOf h.nextSequence write)
    nextSequence := h.nextSequence + 1
    persisted := max h.persisted write.slot }

/-- One turn of `appendWrites`. -/
def appendWrite (h : JournalHandle) (write : Write) :
    List FileEffect × Except JournalError JournalHandle :=
  if h.active.full h.rotationRecords then
    match h.rotate with
    | (effects, .error e) => (effects, .error e)
    | (effects, .ok h') =>
      (effects ++ [.append h'.activeFirstSlot (recordOf h'.nextSequence write)],
        .ok (h'.appendRecord write))
  else ([.append h.activeFirstSlot (recordOf h.nextSequence write)], .ok (h.appendRecord write))

def appendWrites : JournalHandle → List Write → List FileEffect × Except JournalError JournalHandle
  | h, [] => ([], .ok h)
  | h, write :: writes =>
    match h.appendWrite write with
    | (effects, .error e) => (effects, .error e)
    | (effects, .ok h') =>
      let (effects', result) := h'.appendWrites writes
      (effects ++ effects', result)

def sync (h : JournalHandle) : List FileEffect :=
  [.sync h.activeFirstSlot]

def noteChosen (h : JournalHandle) (through : ℕ) : JournalHandle :=
  { h with chosenHint := max h.chosenHint through }

def noteTrimAnchor (h : JournalHandle) (decisionSlot through : ℕ) (historyHash : HashBytes) :
    JournalHandle :=
  if decisionSlot ≤ h.trimDecisionSlot then h
  else { h with
    trimDecisionSlot := decisionSlot, trimmedThrough := through, trimHistoryHash := historyHash }

/-- The leading listed segments wholly at or below a floor. -/
def removable (h : JournalHandle) (floor : ℕ) : List SegmentEntry :=
  h.segments.takeWhile fun entry => decide (entry.lastSlot ≤ floor)

/-- `trimThrough`: publish the shorter table, then unlink. -/
def trimThrough (h : JournalHandle) (floor : ℕ) :
    List FileEffect × Except JournalError (Bool × JournalHandle) :=
  if h.removable floor = [] then ([], .ok (false, h))
  else
    match ({ h with
        segments := h.segments.dropWhile fun entry => decide (entry.lastSlot ≤ floor) } :
        JournalHandle).publishManifest with
    | .error e => ([], .error e)
    | .ok published =>
      (.publish published.manifestFile ::
          (h.removable floor).map (fun entry => .delete entry.firstSlot),
        .ok (true, published))

def retainedFirstSlot (h : JournalHandle) : ℕ :=
  firstListed h.segments h.activeFirstSlot

end JournalHandle

/-! ### Opening -/

/-- The consensus library, as far as the journal relies on it: its durable acceptor state and the stop
signs it constructs. -/
structure CoreLib (Durable : Type) where
  initial : Durable
  promised : Durable → Ballot
  applyPromise : Durable → Ballot → Option Durable
  replayFold : Durable → Write → Option Durable
  createStop : StopSign → Bool

/-- The directory as its readers see it. -/
structure DirectoryView where
  manifest : Option ManifestFile
  view : ℕ → Option SegmentView

namespace JournalHandle

/-- The handle before its active segment is taken over. -/
def ofManifest (rotationRecords : ℕ) (m : ManifestFile) : JournalHandle where
  databaseId := m.databaseId
  rotationRecords := rotationRecords
  generation := m.generation
  segments := m.segments
  active := SegmentWriter.create ⟨m.databaseId, m.activeFirstSlot, Journal.zeroHash⟩
  activeFirstSlot := m.activeFirstSlot
  nextSequence := 1
  persisted := 0
  chosenHint := m.rollup.chosenThrough
  maxPromised := m.rollup.maxPromised
  trimDecisionSlot := m.rollup.trimDecisionSlot
  trimmedThrough := m.rollup.trimmedThrough
  trimHistoryHash := m.rollup.trimHistoryHash

/-- The digest of the newest listed segment, zero when there is none. -/
def lastDigest (h : JournalHandle) : HashBytes :=
  match h.segments.getLast? with
  | some entry => entry.digest
  | none => Journal.zeroHash

/-- The files the manifest accounts for. -/
def accounted (h : JournalHandle) : List ℕ :=
  h.activeFirstSlot :: h.segments.map SegmentEntry.firstSlot

/-- Take over an unsealed active file. -/
def resume (h : JournalHandle) (file : SegmentView) :
    List FileEffect × Except JournalError JournalHandle :=
  match file.header with
  | .error _ => ([], .error .corruptJournal)
  | .ok header =>
    if header.databaseId ≠ h.databaseId ∨ header.firstGlobalSlot ≠ h.activeFirstSlot ∨
        (h.segments ≠ [] ∧ header.previousSegmentDigest ≠ h.lastDigest) then
      ([], .error .corruptJournal)
    else
      match file.adopted with
      | .error e => ([], .error (.segment e))
      | .ok records =>
        ([.truncate h.activeFirstSlot records],
          .ok { h with active := SegmentWriter.adopt header records })

def adoptActive (h : JournalHandle) (view : ℕ → Option SegmentView) :
    List FileEffect × Except JournalError JournalHandle :=
  match view h.activeFirstSlot with
  | none =>
    ([.create h.activeFirstSlot (h.nextHeader h.lastDigest)], .ok (h.startSegment h.lastDigest))
  | some file =>
    match file.sealedView with
    | .ok found =>
      (h.listSealed h.activeFirstSlot found.trailer.lastGlobalSlot
        found.trailer.segmentDigest).startNext found.trailer.segmentDigest
    | .error _ => h.resume file

end JournalHandle

section Replay

variable {Durable : Type} (core : CoreLib Durable)

/-- What replay has rebuilt so far, and the writes it has replayed. -/
structure JournalReplay (Durable : Type) where
  durable : Durable
  expected : Option ℕ
  nextSequence : ℕ
  persisted : ℕ
  maxPromised : Ballot
  replayed : List Write

def JournalReplay.replayRecord (s : JournalReplay Durable) (record : SegmentRecord) :
    Except JournalError (JournalReplay Durable) := do
  if s.expected.any (fun want => decide (record.sequence ≠ want)) then throw .sequenceGap
  match decodeWrite core.createStop record.payload with
  | .error _ => throw .corruptJournal
  | .ok write =>
    match core.replayFold s.durable write with
    | none => throw .corruptJournal
    | some durable =>
      pure
        { durable := durable
          expected := some (record.sequence + 1)
          nextSequence := record.sequence + 1
          persisted := max s.persisted write.slot
          maxPromised :=
            match write.ballot? with
            | some ballot => if s.maxPromised.lessThan ballot then ballot else s.maxPromised
            | none => s.maxPromised
          replayed := s.replayed ++ [write] }

/-- Raise the durable promise to a rolled-up ballot. -/
def raisePromise (durable : Durable) (ballot : Ballot) : Except JournalError Durable :=
  if (core.promised durable).lessThan ballot then
    match core.applyPromise durable ballot with
    | some durable => .ok durable
    | none => .error .core
  else .ok durable

/-- Whether a sealed file is the one a manifest row names, after the segment with digest `previous`. -/
def matchesEntry (databaseId : ℕ) (entry : SegmentEntry) (previous : Option HashBytes)
    (found : SealedView) : Bool :=
  decide (found.header.databaseId = databaseId) && decide (found.trailer.segmentDigest = entry.digest) &&
    decide (found.header.firstGlobalSlot = entry.firstSlot) &&
    previous.all (fun digest => decide (found.header.previousSegmentDigest = digest)) &&
    decide (max found.trailer.lastGlobalSlot entry.firstSlot = entry.lastSlot)

/-- One sealed segment of `replay`. -/
def replaySealed (databaseId : ℕ) (view : ℕ → Option SegmentView) (previous : Option HashBytes)
    (s : JournalReplay Durable) (entry : SegmentEntry) : Except JournalError (JournalReplay Durable) :=
  match (view entry.firstSlot).map SegmentView.sealedView with
  | some (.ok found) => do
    if matchesEntry databaseId entry previous found = false then throw .corruptJournal
    let durable ← raisePromise core s.durable found.trailer.maxPromised
    let s ← found.records.foldlM (JournalReplay.replayRecord core) { s with durable := durable }
    if found.clean then pure s else throw .corruptJournal
  | _ => .error .corruptJournal

/-- The sealed segments of `replay`, each after the digest of the one before it. -/
def replayListed (databaseId : ℕ) (view : ℕ → Option SegmentView) :
    Option HashBytes → JournalReplay Durable → List SegmentEntry → Except JournalError (JournalReplay Durable)
  | _, s, [] => .ok s
  | previous, s, entry :: rest => do
    let s ← replaySealed core databaseId view previous s entry
    replayListed databaseId view (some entry.digest) s rest

/-- What `Journal.open` returns. -/
structure Opened (Durable : Type) where
  handle : JournalHandle
  durable : Durable
  replayed : List Write

/-- `replay` of a journal whose active segment was taken over, and the rollups after it. -/
def replayJournal (h : JournalHandle) (view : ℕ → Option SegmentView) :
    Except JournalError (Opened Durable) := do
  let s ← replayListed core h.databaseId view none
    ⟨core.initial, none, h.nextSequence, h.persisted, h.maxPromised, []⟩ h.segments
  let s ← h.active.records.foldlM (JournalReplay.replayRecord core) s
  let durable ← raisePromise core s.durable s.maxPromised
  pure
    { handle :=
        { h with
          nextSequence := s.nextSequence
          persisted := max s.persisted h.trimmedThrough
          maxPromised := s.maxPromised }
      durable := durable
      replayed := s.replayed }

/-- `Journal.open`. -/
def openJournal (databaseId rotationRecords : ℕ) (d : DirectoryView) :
    List FileEffect × Except JournalError (Opened Durable) :=
  match d.manifest with
  | none => ([], .error .corruptJournal)
  | some m =>
    match loadManifest databaseId m with
    | .error e => ([], .error e)
    | .ok m =>
      let h := JournalHandle.ofManifest rotationRecords m
      match h.adoptActive d.view with
      | (effects, .error e) => (.sweep h.accounted :: effects, .error e)
      | (effects, .ok h') => (.sweep h.accounted :: effects, replayJournal core h' d.view)

end Replay

section Reading

variable {Durable : Type} (core : CoreLib Durable)

def decodeRecords (records : List SegmentRecord) : Except JournalError (List Write) :=
  records.mapM fun record =>
    match decodeWrite core.createStop record.payload with
    | .ok write => .ok write
    | .error _ => .error .corruptJournal

def readListed (view : ℕ → Option SegmentView) (entry : SegmentEntry) :
    Except JournalError (List Write) :=
  match (view entry.firstSlot).map SegmentView.sealedView with
  | some (.ok found) => do
    let writes ← decodeRecords core found.records
    if found.clean then pure writes else throw .corruptJournal
  | _ => .error .corruptJournal

/-- `iterate`: the retained writes from the first listed segment that reaches `fromSlot`. -/
def JournalHandle.iterate (h : JournalHandle) (view : ℕ → Option SegmentView) (fromSlot : ℕ) :
    Except JournalError (List Write) := do
  let listed ← (h.segments.dropWhile fun entry => decide (entry.lastSlot < fromSlot)).mapM
    (readListed core view)
  let active ← decodeRecords core h.active.records
  pure (listed.flatten ++ active)

/-- `serveRange` for `count` slots, at least one: the retained commits there. -/
def JournalHandle.serveRange (h : JournalHandle) (view : ℕ → Option SegmentView) (first count : ℕ) :
    Except JournalError (List (ℕ × Entry)) := do
  let writes ← h.iterate core view first
  pure (writes.filterMap fun write =>
    match write with
    | .commit slot value => if slot < first ∨ slot > first + (count - 1) then none else some (slot, value)
    | _ => none)

end Reading

/-! ### Files as records -/

/-- A segment file read record by record; the first `synced` records have reached the disk. -/
structure SegmentFile where
  header : SegmentHeader
  records : List SegmentRecord
  trailer : Option SegmentTrailer
  synced : ℕ

/-- What the readers find in a file that holds whole records. -/
def SegmentFile.view (file : SegmentFile) : SegmentView where
  header := .ok file.header
  sealedView :=
    match file.trailer with
    | some trailer => .ok ⟨file.header, trailer, file.records, true⟩
    | none => .error .corruptSegment
  adopted :=
    match file.trailer with
    | some _ => .error .corruptSegment
    | none => .ok file.records

structure Directory where
  manifest : Option ManifestFile
  files : ℕ → Option SegmentFile

namespace Directory

def view (d : Directory) : DirectoryView where
  manifest := d.manifest
  view := fun name => (d.files name).map SegmentFile.view

def modify (d : Directory) (name : ℕ) (f : SegmentFile → SegmentFile) : Directory :=
  { d with files := Function.update d.files name ((d.files name).map f) }

def apply (d : Directory) : FileEffect → Directory
  | .create name header => { d with files := Function.update d.files name (some ⟨header, [], none, 0⟩) }
  | .append name record => d.modify name fun file => { file with records := file.records ++ [record] }
  | .seal name trailer => d.modify name fun file => { file with trailer := some trailer }
  | .truncate name records => d.modify name fun file => { file with records := records }
  | .sync name => d.modify name fun file => { file with synced := file.records.length }
  | .publish manifest => { d with manifest := some manifest }
  | .delete name => { d with files := Function.update d.files name none }
  | .sweep kept => { d with files := fun name => if name ∈ kept then d.files name else none }

def applyAll (d : Directory) (effects : List FileEffect) : Directory :=
  effects.foldl apply d

def empty : Directory where
  manifest := none
  files := fun _ => none

end Directory

/-- `Journal.create`: the handle and what it does to the empty directory. -/
def createJournal (databaseId rotationRecords : ℕ) : List FileEffect × JournalHandle :=
  let h : JournalHandle :=
    { databaseId := databaseId, rotationRecords := rotationRecords, generation := 2, segments := []
      active := SegmentWriter.create ⟨databaseId, 1, Journal.zeroHash⟩, activeFirstSlot := 1
      nextSequence := 1, persisted := 0, chosenHint := 0, maxPromised := Ballot.zero
      trimDecisionSlot := 0, trimmedThrough := 0, trimHistoryHash := Journal.zeroHash }
  ([.publish h.manifestFile, .create 1 h.active.header], h)

end Zaxonlite
