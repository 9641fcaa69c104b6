import Zaxonlite.Lib.Run
import Zaxonlite.Node.Capture
import Zaxonlite.Storage.Growth

/-!
# Storage accounting over whole runs

A node's journal is appended to, rotated, trimmed, closed, crashed at any point and reopened, while payloads
come and go. As long as no file operation of a rotation, a trim or an opening fails, the journal's counter is
the size of the sealed files it lists, and a write that was admitted stays below the cap. A trim whose
manifest cannot be published has already shortened its table, and the counter is then too high until the
journal is reopened.
-/

namespace Zaxonlite

open Run Segment

/-! ### Admission -/

def admissionReserveBytes : ℕ :=
  maxPayloadBytes + 2 * (recordHeaderSize + Segment.maxWriteSize) + trailerSizeMax + headerSize

def admissionOverCap (usage reserve cap : ℕ) : Bool :=
  decide (cap ≤ satAdd usage reserve)

/-- Writes on their way into the journal, in one batch or several, with the chosen prefix noted between
them. -/
inductive Journals : CountedJournal → List Write → CountedJournal → Prop
  | nothing (j : CountedJournal) : Journals j [] j
  | appendWrites {j j' j'' : CountedJournal} {writes rest : List Write} {effects : List FileEffect} :
    j.appendWrites writes = (effects, .ok j') → Journals j' rest j'' → Journals j (writes ++ rest) j''
  | noteChosen {j j' : CountedJournal} {writes : List Write} (through : ℕ) :
    Journals (j.noteChosen through) writes j' → Journals j writes j'

/-! ### The system -/

/-- A journal that may be running, whether appending to it has failed, its directory, and the payloads. -/
structure StorageState where
  journal : Option CountedJournal
  failed : Bool
  directory : Directory
  store : CountedStore

/-- The journal accepts operations. -/
def StorageState.Runs (s : StorageState) (j : CountedJournal) : Prop :=
  s.journal = some j ∧ s.failed = false

/-- What an operation that is under way does to the directory. -/
inductive UnderWay (j : CountedJournal) : List FileEffect → Prop
  | idle : UnderWay j []
  | appendWrites (writes : List Write) : UnderWay j (j.appendWrites writes).1
  | trimThrough (floor : ℕ) : UnderWay j (j.handle.trimThrough floor).1
  | sync : UnderWay j j.handle.sync

/-- What is left of a file: all of it, or the beginning of what was appended. -/
def SegmentFile.LeftOf (file' file : SegmentFile) : Prop :=
  file' = file ∨ file'.header = file.header ∧ file'.records <+: file.records ∧ file'.trailer = none

/-- What a crash leaves of a directory. -/
def Directory.LeftOf (d' d : Directory) : Prop :=
  d'.manifest = d.manifest ∧
    ∀ name file', d'.files name = some file' → ∃ file, d.files name = some file ∧ file'.LeftOf file

section System

variable {Durable : Type} (core : CoreLib Durable) (databaseId threshold : ℕ)

/-- One step of a node's storage, with the file system answering as allowed. An open measures whatever
payloads it finds. -/
inductive StorageStep (allowed : StorageIo → Prop) : StorageState → StorageState → Prop
  | append {s : StorageState} {j j' : CountedJournal} {writes : List Write} {effects : List FileEffect} :
    s.Runs j → j.appendWrites writes = (effects, .ok j') →
    StorageStep allowed s { s with journal := some j', directory := s.directory.applyAll effects }
  | rotateFails {s : StorageState} {j : CountedJournal} {io : StorageIo} : s.Runs j → allowed io →
    io.published = false → j.handle.active.full j.handle.rotationRecords = true →
    StorageStep allowed s
      { s with
        journal := some j.rotateUnpublished
        failed := true
        directory := s.directory.applyAll
          [.seal j.handle.activeFirstSlot (j.handle.active.trailer j.handle.chosenHint),
            .sync j.handle.activeFirstSlot] }
  | sync {s : StorageState} {j : CountedJournal} : s.Runs j →
    StorageStep allowed s { s with directory := s.directory.applyAll j.handle.sync }
  | noteChosen {s : StorageState} {j : CountedJournal} (through : ℕ) : s.Runs j →
    StorageStep allowed s { s with journal := some (j.noteChosen through) }
  | noteTrimAnchor {s : StorageState} {j : CountedJournal} (decisionSlot through : ℕ)
    (historyHash : HashBytes) : s.Runs j →
    StorageStep allowed s { s with journal := some (j.noteTrimAnchor decisionSlot through historyHash) }
  | trim {s : StorageState} {j : CountedJournal} {io : StorageIo} {floor : ℕ} : s.Runs j → allowed io →
    floor ≤ j.handle.trimmedThrough →
    StorageStep allowed s
      { s with
        journal := some (j.trimThrough io s.directory floor).1
        directory := (j.trimThrough io s.directory floor).2 }
  | put {s : StorageState} (bytes : List UInt8) (measured linked : Bool) :
    StorageStep allowed s { s with store := s.store.put bytes measured linked }
  | sweepUnreachable {s : StorageState} (doomed : List HashBytes) (measured unlinked : HashBytes → Bool) :
    StorageStep allowed s { s with store := s.store.sweep doomed measured unlinked }
  | crash {s : StorageState} {j : CountedJournal} {effects : List FileEffect} {d : Directory} (done : ℕ) :
    s.Runs j → UnderWay j effects → d.LeftOf (s.directory.applyAll (effects.take done)) →
    StorageStep allowed s { s with journal := none, failed := false, directory := d }
  | crashFailed {s : StorageState} {d : Directory} : s.failed = true → d.LeftOf s.directory →
    StorageStep allowed s { s with journal := none, failed := false, directory := d }
  | opens {s : StorageState} {io : StorageIo} {effects : List FileEffect} {opened : Opened Durable}
    (store : CountedStore) : s.journal = none → allowed io →
    openJournal core databaseId threshold s.directory.view = (effects, .ok opened) →
    StorageStep allowed s
      { journal := some (.recount io opened.handle (s.directory.applyAll effects))
        failed := false
        directory := s.directory.applyAll effects
        store := store }
  | openStops {s : StorageState} {d : Directory} (done : ℕ) : s.journal = none →
    d.LeftOf (s.directory.applyAll
      ((openJournal core databaseId threshold s.directory.view).1.take done)) →
    StorageStep allowed s { s with directory := d }

/-- A journal that was just created in an empty directory, and an empty store. -/
def StartsEmpty (s : StorageState) : Prop :=
  s = ⟨some ⟨(createJournal databaseId threshold).2, 0⟩, false,
    Directory.empty.applyAll (createJournal databaseId threshold).1, ⟨fun _ => none, 0⟩⟩

/-- The journal was just created, or it is about to be opened after any run at all. -/
def StartsAfresh (s : StorageState) : Prop :=
  StartsEmpty databaseId threshold s ∨
    Reachable (StartsEmpty databaseId threshold) (StorageStep core databaseId threshold fun _ => True) s ∧
      s.journal = none

end System

/-! ### What every step keeps -/

/-- Files are small, and the directory backs a journal that accepts operations. -/
structure StorageState.Stored (threshold : ℕ) (s : StorageState) : Prop where
  small : s.directory.Small threshold
  backed : ∀ j, s.Runs j → j.handle.Backed threshold s.directory

/-- Nothing has failed since the journal was opened, and its counter is right. -/
structure StorageState.Counted (s : StorageState) : Prop where
  sound : s.failed = false
  counts : ∀ j, s.Runs j → j.Counts s.directory

section Steps

variable {threshold : ℕ} {d d' : Directory}

theorem Directory.LeftOf.small (h : d'.LeftOf d) (hsmall : d.Small threshold) : d'.Small threshold := by
  intro name file' hfile'
  obtain ⟨file, hfile, hleft⟩ := h.2 name file' hfile'
  have hle := hsmall name file hfile
  rcases hleft with rfl | ⟨-, hprefix, -⟩
  · exact hle
  · exact hprefix.length_le.trans hle

theorem UnderWay.small (hpos : 0 < threshold) {j : CountedJournal} {effects : List FileEffect}
    (h : UnderWay j effects) (hb : j.handle.Backed threshold d) (hsmall : d.Small threshold) :
    d.StaysSmall threshold effects := by
  cases h with
  | idle => exact hsmall.stays fun _ heffect => absurd heffect List.not_mem_nil
  | appendWrites writes => exact CountedJournal.appendWrites_small hpos hb hsmall writes
  | trimThrough floor =>
    apply hsmall.stays
    rw [JournalHandle.trimThrough]
    split
    · exact fun _ heffect => absurd heffect List.not_mem_nil
    · split
      · exact fun _ heffect => absurd heffect List.not_mem_nil
      · intro effect heffect
        rcases List.mem_cons.1 heffect with rfl | heffect
        · trivial
        · obtain ⟨entry, -, rfl⟩ := List.mem_map.1 heffect
          trivial
  | sync =>
    apply hsmall.stays
    intro effect heffect
    rw [List.mem_singleton.1 heffect]
    trivial

theorem StorageState.Runs.unique {s : StorageState} {j j' : CountedJournal} (h : s.Runs j)
    (h' : s.Runs j') : j' = j :=
  Option.some.inj (h'.1.symm.trans h.1)

theorem CountedJournal.backed_sync {j : CountedJournal} (hb : j.handle.Backed threshold d) :
    j.handle.Backed threshold (d.applyAll j.handle.sync) ∧
      (j.Counts d → j.Counts (d.applyAll j.handle.sync)) := by
  obtain ⟨synced, hfile⟩ := hb.file
  constructor
  · refine ⟨hb.threshold, hb.listed, hb.named, ⟨j.handle.active.records.length, ?_⟩, hb.measured⟩
    show Function.update d.files j.handle.activeFirstSlot _ j.handle.activeFirstSlot = _
    rw [Function.update_self, hfile]
    rfl
  · intro hcounts
    rw [CountedJournal.Counts, lengthOfAll_congr]
    · exact hcounts
    · intro entry hentry
      exact Function.update_of_ne ((contiguous_below hb.listed).1 entry hentry).ne _ _

theorem CountedJournal.backed_noteTrimAnchor {j : CountedJournal} (hb : j.handle.Backed threshold d)
    (decisionSlot through : ℕ) (historyHash : HashBytes) :
    (j.noteTrimAnchor decisionSlot through historyHash).handle.Backed threshold d ∧
      (j.Counts d → (j.noteTrimAnchor decisionSlot through historyHash).Counts d) := by
  rw [noteTrimAnchor, JournalHandle.noteTrimAnchor]
  split
  · exact ⟨hb, fun hcounts => hcounts⟩
  · exact ⟨⟨hb.threshold, hb.listed, hb.named, hb.file, hb.measured⟩, fun hcounts => hcounts⟩

section System

variable {Durable : Type} {core : CoreLib Durable} {databaseId : ℕ} {allowed : StorageIo → Prop}
  {s s' : StorageState}

theorem stored_start (hstart : StartsEmpty databaseId threshold s) :
    s.Stored threshold ∧ s.Counted := by
  subst hstart
  refine ⟨⟨?_, ?_⟩, rfl, ?_⟩
  · intro name file hfile
    replace hfile : Function.update (fun _ => none) 1 (some _) name = some file := hfile
    by_cases hname : name = 1
    · rw [hname, Function.update_self] at hfile
      cases hfile
      exact Nat.zero_le _
    · rw [Function.update_of_ne hname] at hfile
      cases hfile
  · intro j hruns
    obtain rfl := Option.some.inj hruns.1
    refine ⟨rfl, rfl, rfl, ⟨0, ?_⟩, SegmentWriter.measured_create _⟩
    show Function.update (fun _ => none) 1 _ 1 = _
    rw [Function.update_self]
    rfl
  · intro j hruns
    obtain rfl := Option.some.inj hruns.1
    rfl

theorem stored_step (hpos : 0 < threshold) (h : s.Stored threshold)
    (hstep : StorageStep core databaseId threshold allowed s s') : s'.Stored threshold := by
  cases hstep with
  | @append j j' writes effects hruns happend =>
    have hb := h.backed j hruns
    constructor
    · have hstays := CountedJournal.appendWrites_small hpos hb h.small writes
      rw [happend] at hstays
      exact hstays.all
    · intro k hk
      obtain rfl := Option.some.inj hk.1
      exact (CountedJournal.backed_appendWrites hb happend).1
  | rotateFails hruns hallowed hfails hfull =>
    constructor
    · apply h.small.applyAll
      intro effect heffect
      rcases List.mem_pair.1 heffect with rfl | rfl <;> trivial
    · intro k hk
      cases hk.2
  | @sync j hruns =>
    have hb := h.backed j hruns
    constructor
    · show (s.directory.apply (.sync j.handle.activeFirstSlot)).Small threshold
      apply h.small.apply
      trivial
    · intro k hk
      obtain rfl := hruns.unique hk
      exact (CountedJournal.backed_sync hb).1
  | @noteChosen j through hruns =>
    refine ⟨h.small, ?_⟩
    intro k hk
    obtain rfl := Option.some.inj hk.1
    have hb := h.backed j hruns
    exact ⟨hb.threshold, hb.listed, hb.named, hb.file, hb.measured⟩
  | @noteTrimAnchor j decisionSlot through historyHash hruns =>
    refine ⟨h.small, ?_⟩
    intro k hk
    obtain rfl := Option.some.inj hk.1
    exact (CountedJournal.backed_noteTrimAnchor (h.backed j hruns) _ _ _).1
  | @trim j io floor hruns hallowed hfloor =>
    constructor
    · exact CountedJournal.trimThrough_small h.small io floor
    · intro k hk
      obtain rfl := Option.some.inj hk.1
      exact CountedJournal.backed_trimThrough (h.backed j hruns) io floor
  | put bytes measured linked => exact ⟨h.small, h.backed⟩
  | sweepUnreachable doomed measured unlinked => exact ⟨h.small, h.backed⟩
  | @crash j effects d done hruns hop hleft =>
    constructor
    · exact hleft.small (hop.small hpos (h.backed j hruns) h.small done)
    · intro k hk
      cases hk.1
  | crashFailed hfailed hleft =>
    constructor
    · exact hleft.small h.small
    · intro k hk
      cases hk.1
  | @opens io effects opened store hnone hallowed hopen =>
    constructor
    · apply h.small.applyAll
      have hadds := @CountedJournal.openJournal_addsNone _ _ _ core databaseId h.small
      rw [hopen] at hadds
      exact hadds
    · intro k hk
      obtain rfl := Option.some.inj hk.1
      exact CountedJournal.backed_openJournal hopen
  | @openStops d done hnone hleft =>
    constructor
    · exact hleft.small (h.small.stays (CountedJournal.openJournal_addsNone databaseId h.small) done)
    · intro k hk
      cases hnone.symm.trans hk.1

theorem closed_step (h : s.journal = none → s.failed = false)
    (hstep : StorageStep core databaseId threshold allowed s s') :
    s'.journal = none → s'.failed = false := by
  cases hstep with
  | append | rotateFails | noteChosen | noteTrimAnchor | trim | opens =>
    intro hnone
    cases hnone
  | sync | put | sweepUnreachable | openStops => exact h
  | crash | crashFailed => exact fun _ => rfl

theorem counted_step (h : s.Stored threshold) (hc : s.Counted)
    (hstep : StorageStep core databaseId threshold StorageIo.Succeeds s s') : s'.Counted := by
  cases hstep with
  | @append j j' writes effects hruns happend =>
    refine ⟨hc.sound, ?_⟩
    intro k hk
    obtain rfl := Option.some.inj hk.1
    exact (CountedJournal.backed_appendWrites (h.backed j hruns) happend).2 (hc.counts j hruns)
  | rotateFails hruns hallowed hfails hfull =>
    rw [hallowed.1] at hfails
    cases hfails
  | @sync j hruns =>
    refine ⟨hc.sound, ?_⟩
    intro k hk
    obtain rfl := hruns.unique hk
    exact (CountedJournal.backed_sync (h.backed _ hruns)).2 (hc.counts _ hruns)
  | @noteChosen j through hruns =>
    refine ⟨hc.sound, ?_⟩
    intro k hk
    obtain rfl := Option.some.inj hk.1
    exact hc.counts j hruns
  | @noteTrimAnchor j decisionSlot through historyHash hruns =>
    refine ⟨hc.sound, ?_⟩
    intro k hk
    obtain rfl := Option.some.inj hk.1
    exact (CountedJournal.backed_noteTrimAnchor (h.backed j hruns) _ _ _).2 (hc.counts j hruns)
  | @trim j io floor hruns hallowed hfloor =>
    refine ⟨hc.sound, ?_⟩
    intro k hk
    obtain rfl := Option.some.inj hk.1
    exact CountedJournal.counts_trimThrough (h.backed j hruns) hallowed floor (hc.counts j hruns)
  | put bytes measured linked => exact ⟨hc.sound, hc.counts⟩
  | sweepUnreachable doomed measured unlinked => exact ⟨hc.sound, hc.counts⟩
  | crash done hruns hop hleft =>
    refine ⟨rfl, ?_⟩
    intro k hk
    cases hk.1
  | crashFailed hfailed hleft =>
    refine ⟨rfl, ?_⟩
    intro k hk
    cases hk.1
  | @opens io effects opened store hnone hallowed hopen =>
    refine ⟨rfl, ?_⟩
    intro k hk
    obtain rfl := Option.some.inj hk.1
    exact CountedJournal.counts_recount hallowed _
  | openStops done hnone hleft =>
    refine ⟨hc.sound, ?_⟩
    intro k hk
    cases hnone.symm.trans hk.1

/-- After any run, and any run without failures since the journal was created or last opened. -/
theorem counted_of_clean (hpos : 0 < threshold)
    (h : Reachable (StartsAfresh core databaseId threshold)
      (StorageStep core databaseId threshold StorageIo.Succeeds) s) :
    s.Stored threshold ∧ s.Counted := by
  apply h.invariant
  · intro s hstart
    rcases hstart with hempty | ⟨hreach, hclosed⟩
    · exact stored_start hempty
    · have hstored : s.Stored threshold ∧ (s.journal = none → s.failed = false) := by
        apply hreach.invariant (I := fun s => s.Stored threshold ∧ (s.journal = none → s.failed = false))
        · exact fun s hempty => ⟨(stored_start hempty).1, fun _ => (stored_start hempty).2.sound⟩
        · exact fun s s' hinv hstep => ⟨stored_step hpos hinv.1 hstep, closed_step hinv.2 hstep⟩
      refine ⟨hstored.1, hstored.2 hclosed, ?_⟩
      intro j hruns
      cases hclosed.symm.trans hruns.1
  · intro s s' hinv hstep
    exact ⟨stored_step hpos hinv.1 hstep, counted_step hinv.1 hinv.2 hstep⟩

end System

end Steps

/-! ### What an admitted write adds -/

namespace CountedJournal

variable {threshold : ℕ} {j j' : CountedJournal} {d : Directory} {effects : List FileEffect}

/-- The most the counter can be after some writes: their records, and a trailer and a header for each
rotation they can trigger. -/
def ceiling (threshold : ℕ) (j : CountedJournal) (writes : List Write) : ℕ :=
  j.journalBytes + (writes.map fun write => recordHeaderSize + (encodeWrite write).length).sum +
    (j.handle.active.records.length + writes.length - 1) / threshold *
      (trailerBound threshold + headerSize)

theorem journalBytes_le_ceiling (j : CountedJournal) (writes : List Write) :
    j.journalBytes ≤ j.ceiling threshold writes := by
  rw [ceiling]
  omega

theorem ceiling_appendWrite (hpos : 0 < threshold) (hb : j.handle.Backed threshold d)
    (hsmall : d.Small threshold) {write : Write} (happend : j.appendWrite write = (effects, .ok j'))
    (rest : List Write) : j'.ceiling threshold rest ≤ j.ceiling threshold (write :: rest) := by
  rw [ceiling, ceiling, List.map_cons, List.sum_cons, List.length_cons]
  rcases appendWrite_growth hb hsmall happend with ⟨-, hrecords, hbytes⟩ | ⟨hfull, hrecords, hbytes⟩
  · have hsame : j.handle.active.records.length + 1 + rest.length - 1 =
        j.handle.active.records.length + (rest.length + 1) - 1 := by omega
    rw [hrecords, hbytes, hsame]
    omega
  · have hone : (threshold + (rest.length + 1) - 1) / threshold = rest.length / threshold + 1 := by
      rw [show threshold + (rest.length + 1) - 1 = rest.length + threshold by omega,
        Nat.add_div_right _ hpos]
    have hrest : 1 + rest.length - 1 = rest.length := by omega
    rw [hrecords, hfull, hone, hrest, Nat.succ_mul]
    omega

theorem ceiling_appendWrites (hpos : 0 < threshold) (hb : j.handle.Backed threshold d)
    (hsmall : d.Small threshold) {writes : List Write}
    (happend : j.appendWrites writes = (effects, .ok j')) (rest : List Write) :
    j'.ceiling threshold rest ≤ j.ceiling threshold (writes ++ rest) := by
  induction writes generalizing j d effects with
  | nil =>
    obtain ⟨-, hj⟩ := Prod.mk.inj happend
    obtain rfl := Except.ok.inj hj
    exact le_rfl
  | cons write writes ih =>
    rw [appendWrites] at happend
    split at happend
    · cases (Prod.mk.inj happend).2
    · rename_i first j₁ hfirst
      obtain ⟨rfl, hrest⟩ := Prod.mk.inj happend
      have hstays := appendWrite_small hpos hb hsmall write
      rw [hfirst] at hstays
      calc j'.ceiling threshold rest ≤ j₁.ceiling threshold (writes ++ rest) :=
            ih (backed_appendWrite hb hfirst).1 hstays.all (Prod.ext rfl hrest)
        _ ≤ j.ceiling threshold (write :: (writes ++ rest)) :=
            ceiling_appendWrite hpos hb hsmall hfirst _

/-- However the writes are batched, the counter ends below the ceiling. -/
theorem journals_le_ceiling (hpos : 0 < threshold) {writes : List Write} (h : Journals j writes j')
    (hb : j.handle.Backed threshold d) (hsmall : d.Small threshold) :
    j'.journalBytes ≤ j.ceiling threshold writes := by
  induction h generalizing d with
  | nothing j => exact journalBytes_le_ceiling j []
  | @appendWrites j j₁ j₂ writes rest effects happend hrest ih =>
    have hstays := appendWrites_small hpos hb hsmall writes
    rw [happend] at hstays
    exact (ih (backed_appendWrites hb happend).1 hstays.all).trans
      (ceiling_appendWrites hpos hb hsmall happend rest)
  | @noteChosen j j₁ writes through hrest ih =>
    exact ih ⟨hb.threshold, hb.listed, hb.named, hb.file, hb.measured⟩ hsmall

/-- The reserve covers a payload and two records. -/
theorem ceiling_le_reserve (hpos : 0 < threshold) (hthreshold : threshold ≤ capacityRecords)
    (hrecords : j.handle.active.records.length ≤ threshold) {first second : Write}
    (hfirst : (encodeWrite first).length ≤ Segment.maxWriteSize)
    (hsecond : (encodeWrite second).length ≤ Segment.maxWriteSize) :
    j.ceiling threshold [first, second] + maxPayloadBytes ≤ j.journalBytes + admissionReserveBytes := by
  have hrotations : (j.handle.active.records.length + 1) / threshold *
      (trailerBound threshold + headerSize) ≤ trailerSizeMax + headerSize := by
    rw [capacityRecords] at hthreshold
    by_cases hone : threshold = 1
    · subst hone
      have hle : (j.handle.active.records.length + 1) / 1 ≤ 2 := by omega
      calc _ ≤ 2 * (trailerBound 1 + headerSize) := Nat.mul_le_mul_right _ hle
        _ ≤ trailerSizeMax + headerSize := by decide
    · have hle : (j.handle.active.records.length + 1) / threshold ≤ 1 := by
        rw [← Nat.lt_succ_iff, Nat.div_lt_iff_lt_mul hpos]
        omega
      have htrailer : trailerBound threshold ≤ trailerSizeMax := by
        simp only [trailerBound, trailerSizeMax, maxSparseEntries, sparseStride]
        omega
      calc _ ≤ 1 * (trailerBound threshold + headerSize) := Nat.mul_le_mul_right _ hle
        _ ≤ trailerSizeMax + headerSize := by omega
  rw [ceiling, admissionReserveBytes]
  simp only [List.map_cons, List.map_nil, List.sum_cons, List.sum_nil, List.length_cons, List.length_nil,
    zero_add, Nat.add_zero]
  have hsame : j.handle.active.records.length + (1 + 1) - 1 = j.handle.active.records.length + 1 := by
    omega
  rw [hsame]
  omega

end CountedJournal

/-- The two records of a replicated batch. -/
def batchWrites (ballot : Ballot) (slot : ℕ) (batch : TransactionBatch) : List Write :=
  [.accept ballot slot (.command (.transactionBatch batch)), .commit slot (.command (.transactionBatch batch))]

theorem length_batchWrites (ballot : Ballot) (slot : ℕ) (batch : TransactionBatch) :
    ∀ write ∈ batchWrites ballot slot batch, (encodeWrite write).length ≤ Segment.maxWriteSize := by
  have hentry : (Entry.command (.transactionBatch batch)).encode.length = 1 + Command.encodedSize := by
    rw [Entry.encode, List.length_cons, length_encode, Nat.add_comm]
  intro write hwrite
  rcases List.mem_pair.1 hwrite with rfl | rfl
  · simp only [encodeWrite, List.length_append, length_encodeBallot, List.length_singleton,
      Bytes.length_encodeLe, hentry]
    decide
  · simp only [encodeWrite, List.length_append, List.length_singleton, Bytes.length_encodeLe, hentry]
    decide

theorem le_of_admitted {journalBytes retainedBytes reserve cap : ℕ} (hcap : cap < 2 ^ 64)
    (hadmitted : admissionOverCap (satAdd journalBytes retainedBytes) reserve cap = false) :
    journalBytes + retainedBytes + reserve < cap := by
  rw [admissionOverCap, decide_eq_false_iff_not, satAdd, satAdd] at hadmitted
  omega

/-- **Admission bounds growth.** While no file operation of a rotation, a trim or an opening has failed
since the journal was created or last opened, the counter is the size of the listed files, and a write
that was admitted stays below the cap. -/
theorem storage_bounded {Durable : Type} {core : CoreLib Durable} {databaseId threshold : ℕ}
    (hpos : 0 < threshold) (hthreshold : threshold ≤ capacityRecords) {s : StorageState}
    (h : Reachable (StartsAfresh core databaseId threshold)
      (StorageStep core databaseId threshold StorageIo.Succeeds) s)
    {j : CountedJournal} (hj : s.journal = some j) :
    j.journalBytes = s.directory.lengthOfAll j.handle.segments + j.handle.active.endOffset ∧
      ∀ cap < 2 ^ 64, admissionOverCap (satAdd j.journalBytes s.store.retainedBytes)
        admissionReserveBytes cap = false →
      ∀ payload : List UInt8, payload.length ≤ maxPayloadBytes → ∀ measured linked ballot slot batch j',
        Journals j (batchWrites ballot slot batch) j' →
        j'.journalBytes + (s.store.put payload measured linked).retainedBytes < cap := by
  obtain ⟨hstored, hcounted⟩ := counted_of_clean hpos h
  have hruns : s.Runs j := ⟨hj, hcounted.sound⟩
  constructor
  · rw [CountedJournal.journalBytes, hcounted.counts j hruns]
  · intro cap hcap hadmitted payload hpayload measured linked ballot slot batch j' hjournals
    have hb := hstored.backed j hruns
    obtain ⟨synced, hfile⟩ := hb.file
    have hrecords : j.handle.active.records.length ≤ threshold := hstored.small _ _ hfile
    have hsize := length_batchWrites ballot slot batch
    have hceiling := CountedJournal.journals_le_ceiling hpos hjournals hb hstored.small
    have hreserve := CountedJournal.ceiling_le_reserve hpos hthreshold hrecords
      (hsize _ List.mem_cons_self) (hsize _ (List.mem_cons_of_mem _ List.mem_cons_self))
    have hput := s.store.retainedBytes_put_le payload measured linked
    have hroom := le_of_admitted hcap hadmitted
    rw [batchWrites] at hceiling
    omega

/-- An acceptor that takes every write. -/
def takesAll : CoreLib Unit where
  initial := ()
  promised := fun _ => Ballot.zero
  applyPromise := fun _ _ => some ()
  replayFold := fun _ _ => some ()
  createStop := fun _ => true

def createdJournal (threshold : ℕ) : StorageState :=
  ⟨some ⟨(createJournal 7 threshold).2, 0⟩, false, Directory.empty.applyAll (createJournal 7 threshold).1,
    ⟨fun _ => none, 0⟩⟩

theorem Journals.batch {j j' : CountedJournal} {writes : List Write} {effects : List FileEffect}
    (h : j.appendWrites writes = (effects, .ok j')) : Journals j writes j' := by
  rw [← List.append_nil writes]
  exact .appendWrites h (.nothing j')

/-! ### A segment that is trimmed -/

/-- Thirty-three slots, each accepted and committed. -/
def slotWrites : List Write :=
  (List.range 33).flatMap fun i => [.accept ⟨1, 0, 1⟩ (i + 1) (.command .noop), .commit (i + 1) (.command .noop)]

/-- The journal that is about to take the thirty-three slots, at sixty-four records a segment. -/
def emptyJournal : CountedJournal :=
  ⟨(createJournal 7 64).2, 0⟩

/-- The journal after them, with the first segment sealed and covered by a trim anchor. -/
def rolledJournal : CountedJournal :=
  ((emptyJournal.appendWrites slotWrites).2.toOption.getD emptyJournal).noteTrimAnchor 33 32 Journal.zeroHash

def rolledState : StorageState :=
  ⟨some rolledJournal, false,
    (createdJournal 64).directory.applyAll (emptyJournal.appendWrites slotWrites).1, (createdJournal 64).store⟩

theorem isSome_slotWrites : (emptyJournal.appendWrites slotWrites).2.toOption.isSome = true := by
  decide +kernel

theorem segments_rolledJournal : rolledJournal.handle.trimmedThrough = 32 ∧
    (rolledJournal.handle.removable 32).map SegmentEntry.firstSlot = [1] := by
  decide +kernel

theorem reachable_rolledState {starts : StorageState → Prop} (hstart : starts (createdJournal 64))
    (allowed : StorageIo → Prop) : Reachable starts (StorageStep takesAll 7 64 allowed) rolledState := by
  obtain ⟨j, hj⟩ := Option.isSome_iff_exists.1 isSome_slotWrites
  have happend : emptyJournal.appendWrites slotWrites = ((emptyJournal.appendWrites slotWrites).1, .ok j) :=
    Prod.ext rfl (ok_of_toOption hj)
  have hrolled : rolledJournal = j.noteTrimAnchor 33 32 Journal.zeroHash := by
    rw [rolledJournal, hj, Option.getD_some]
  rw [rolledState, hrolled]
  exact ((Reachable.start hstart).step (.append ⟨rfl, rfl⟩ happend)).step
    (.noteTrimAnchor 33 32 Journal.zeroHash ⟨rfl, rfl⟩)

/-- Nothing fails. -/
def working : StorageIo :=
  ⟨true, fun _ => true, fun _ => true⟩

/-- The first segment is trimmed. -/
def trimmedState : StorageState :=
  ⟨some (rolledJournal.trimThrough working rolledState.directory 32).1, false,
    (rolledJournal.trimThrough working rolledState.directory 32).2, (createdJournal 64).store⟩

/-- What the trim leaves, evaluated: no sealed segment, room under a gibibyte, and two more records fit. -/
theorem trimmedState_spec : ∀ j, trimmedState.journal = some j → j.handle.segments = [] ∧
    admissionOverCap (satAdd j.journalBytes trimmedState.store.retainedBytes) admissionReserveBytes
      (2 ^ 30) = false ∧
    (j.appendWrites (batchWrites ⟨1, 0, 1⟩ 34
      ⟨7, 1, 0, Journal.zeroHash, Journal.zeroHash, Journal.zeroHash, 1, 1, 1⟩)).2.toOption.isSome = true := by
  intro j hj
  obtain rfl := Option.some.inj hj
  decide +kernel

/-- A payload of one byte, admitted after a rotation and a trim under a cap of a gibibyte. -/
theorem storage_bounded_created : ∃ j j', trimmedState.Runs j ∧ j.handle.segments = [] ∧
    j.journalBytes = trimmedState.directory.lengthOfAll j.handle.segments + j.handle.active.endOffset ∧
    Journals j (batchWrites ⟨1, 0, 1⟩ 34
      ⟨7, 1, 0, Journal.zeroHash, Journal.zeroHash, Journal.zeroHash, 1, 1, 1⟩) j' ∧
    j'.journalBytes + (trimmedState.store.put [0] true true).retainedBytes < 2 ^ 30 := by
  have hreach : Reachable (StartsAfresh takesAll 7 64)
      (StorageStep takesAll 7 64 StorageIo.Succeeds) trimmedState := by
    apply Reachable.step (reachable_rolledState (Or.inl rfl) _)
    exact .trim ⟨rfl, rfl⟩ ⟨rfl, fun _ => rfl, fun _ => rfl⟩ segments_rolledJournal.1.ge
  obtain ⟨hcounter, hcap⟩ := storage_bounded (by decide) (by decide) hreach rfl
  obtain ⟨hsegments, hadmitted, hfits⟩ := trimmedState_spec _ rfl
  obtain ⟨j', hj'⟩ := Option.isSome_iff_exists.1 hfits
  have hjournals := Journals.batch (Prod.ext rfl (ok_of_toOption hj'))
  exact ⟨_, j', ⟨rfl, rfl⟩, hsegments, hcounter, hjournals,
    hcap (2 ^ 30) (by decide) hadmitted [0] (by decide) true true _ _ _ j' hjournals⟩

/-! ### A trim that fails -/

/-- A trim whose manifest is not published leaves the counter too high by the files it dropped from the
table. -/
theorem CountedJournal.trim_unpublished {j : CountedJournal} {d : Directory} (hcounts : j.Counts d)
    {io : StorageIo} (hio : io.published = false) {floor : ℕ} (hremovable : j.handle.removable floor ≠ []) :
    (j.trimThrough io d floor).1.journalBytes =
      (j.trimThrough io d floor).2.lengthOfAll (j.trimThrough io d floor).1.handle.segments +
        (j.trimThrough io d floor).1.handle.active.endOffset + d.lengthOfAll (j.handle.removable floor) := by
  rw [trimThrough, if_neg hremovable, hio]
  show j.sealedBytes + j.handle.active.endOffset = d.lengthOfAll (j.shorten floor).handle.segments +
    j.handle.active.endOffset + d.lengthOfAll (j.handle.removable floor)
  have hsplit := lengthOfAll_append d (j.handle.removable floor) (j.shorten floor).handle.segments
  rw [shorten, removable_append j.handle floor] at hsplit
  rw [show j.sealedBytes = _ from hcounts, hsplit, shorten]
  omega

/-- Only the manifest cannot be published. -/
def unpublished : StorageIo :=
  ⟨false, fun _ => true, fun _ => true⟩

/-- Such a trim is a step of the node's storage. -/
theorem trim_overcounts {Durable : Type} (core : CoreLib Durable) (databaseId threshold : ℕ)
    {s : StorageState} {j : CountedJournal} (hruns : s.Runs j) (hcounts : j.Counts s.directory) {floor : ℕ}
    (hfloor : floor ≤ j.handle.trimmedThrough)
    (hdropped : 0 < s.directory.lengthOfAll (j.handle.removable floor)) :
    ∃ s' j', StorageStep core databaseId threshold (fun _ => True) s s' ∧ s'.Runs j' ∧
      s'.directory.lengthOfAll j'.handle.segments + j'.handle.active.endOffset < j'.journalBytes := by
  have hremovable : j.handle.removable floor ≠ [] := by
    intro hnone
    rw [hnone] at hdropped
    exact absurd hdropped (Nat.lt_irrefl 0)
  have hover := CountedJournal.trim_unpublished hcounts (rfl : unpublished.published = false) hremovable
  refine ⟨_, _, @StorageStep.trim _ _ _ _ _ s j unpublished floor hruns trivial hfloor, ⟨rfl, hruns.2⟩, ?_⟩
  show (j.trimThrough unpublished s.directory floor).2.lengthOfAll _ + _ < _
  omega

theorem lengthOf_pos {d : Directory} {name : ℕ} (h : (d.files name).isSome = true) : 0 < d.lengthOf name := by
  obtain ⟨file, hfile⟩ := Option.isSome_iff_exists.1 h
  rw [Directory.lengthOf, hfile]
  show 0 < SegmentFile.length file
  rw [SegmentFile.length, length_headerEncode, headerSize]
  omega

theorem files_rolledState : (rolledState.directory.files 1).isSome = true := by
  decide +kernel

/-- A full segment is trimmed, and the manifest without it cannot be published: the counter keeps the
file. -/
theorem storage_overcounted : ∃ s j,
    Reachable (StartsEmpty 7 64) (StorageStep takesAll 7 64 fun _ => True) s ∧ s.Runs j ∧
      s.directory.lengthOfAll j.handle.segments + j.handle.active.endOffset < j.journalBytes := by
  obtain ⟨hanchor, hremovable⟩ := segments_rolledJournal
  obtain ⟨entry, hentry, hfirst⟩ := List.map_eq_singleton_iff.1 hremovable
  have hstart : StartsEmpty 7 64 (createdJournal 64) := rfl
  have hreach := reachable_rolledState hstart fun _ => True
  have hcounts : rolledJournal.Counts rolledState.directory :=
    (counted_of_clean (by decide) (reachable_rolledState (.inl rfl) StorageIo.Succeeds)).2.counts _ ⟨rfl, rfl⟩
  have hdropped : 0 < rolledState.directory.lengthOfAll (rolledJournal.handle.removable 32) := by
    rw [hentry, Directory.lengthOfAll, List.map_singleton, List.sum_singleton, hfirst]
    exact lengthOf_pos files_rolledState
  obtain ⟨s, j, hstep, hruns, hover⟩ :=
    trim_overcounts takesAll 7 64 (s := rolledState) ⟨rfl, rfl⟩ hcounts hanchor.ge hdropped
  exact ⟨s, j, hreach.step hstep, hruns, hover⟩

end Zaxonlite
