import Zaxonlite.Lib.Run
import Zaxonlite.Storage.Retained

/-!
# What the journal retains

Runs of a journal that is appended to, trimmed, closed and reopened. Beside the handle and the directory a
run carries what was appended, what lay in the segments trimming removed, and the floors it was asked to
trim to. The next open replays what was appended less what was removed, and the readers of the running
journal find the same records.
-/

namespace Zaxonlite

open Run

section Reading

variable {Durable : Type} {core : CoreLib Durable} {d : Directory} {databaseId base : ℕ}
  {previous : Option HashBytes} {entries : List SegmentEntry} {listed : List (List Write)}

theorem decodeRecords_recordsFrom {writes : List Write}
    (hcanonical : ∀ write ∈ writes, write.Canonical core.createStop) (base : ℕ) :
    decodeRecords core (recordsFrom base writes) = .ok writes := by
  induction writes generalizing base with
  | nil => rfl
  | cons write writes ih =>
    have hdecode : decodeWrite core.createStop (recordOf base write).payload = .ok write :=
      decodeWrite_encodeWrite (hcanonical write List.mem_cons_self)
    have hrest := ih (fun w hw => hcanonical w (List.mem_cons_of_mem _ hw)) (base + 1)
    rw [decodeRecords] at hrest
    rw [recordsFrom, decodeRecords, List.mapM_cons, hdecode, hrest]
    rfl

theorem mapM_readListed (h : Listed d databaseId previous base entries listed)
    (hcanonical : ∀ write ∈ listed.flatten, write.Canonical core.createStop) :
    entries.mapM (readListed core d.view.view) = .ok listed := by
  induction entries generalizing previous base listed with
  | nil =>
    cases listed with
    | nil => rfl
    | cons _ _ => exact h.elim
  | cons entry entries ih =>
    cases listed with
    | nil => exact h.elim
    | cons writes rest =>
      obtain ⟨⟨file, hfile, hsealed⟩, hrest⟩ := h
      obtain ⟨trailer, htrailer, -, -⟩ := hsealed.trailer
      rw [List.flatten_cons] at hcanonical
      have hone : readListed core d.view.view entry = .ok writes := by
        have hdecode := decodeRecords_recordsFrom
          (fun w hw => hcanonical w (List.mem_append_left _ hw)) base
        simp only [readListed, Directory.view, hfile, Option.map_some, SegmentFile.view, htrailer,
          hsealed.records, hdecode]
        rfl
      rw [List.mapM_cons, hone, ih hrest fun w hw => hcanonical w (List.mem_append_right _ hw)]
      rfl

theorem Listed.take (h : Listed d databaseId previous base entries listed) (n : ℕ) :
    Listed d databaseId previous base (entries.take n) (listed.take n) := by
  induction n generalizing previous base entries listed with
  | zero => exact trivial
  | succ n ih =>
    cases entries with
    | nil =>
      cases listed with
      | nil => exact trivial
      | cons _ _ => exact h.elim
    | cons entry entries =>
      cases listed with
      | nil => exact h.elim
      | cons writes rest => exact ⟨h.1, ih h.2⟩

variable (core)

def writesIn (d : Directory) (entries : List SegmentEntry) : List Write :=
  match entries.mapM (readListed core d.view.view) with
  | .ok listed => listed.flatten
  | .error _ => []

end Reading

theorem takeWhile_eq_take {α : Type} (p : α → Bool) (l : List α) :
    l.takeWhile p = l.take (l.takeWhile p).length := by
  have hsplit : l.takeWhile p ++ l.dropWhile p = l := List.takeWhile_append_dropWhile
  calc l.takeWhile p = (l.takeWhile p ++ l.dropWhile p).take (l.takeWhile p).length := List.take_left.symm
    _ = l.take (l.takeWhile p).length := by rw [hsplit]

/-- Trimming keeps the records of all but the leading segments at or below the floor. -/
theorem Journal.records_eq_takeWhile_append (j : Journal) (floor : ℕ) :
    j.records = (j.segments.takeWhile fun segment => decide (segment.lastSlot ≤ floor)).flatMap
      Segment.records ++ (j.trimThrough floor).2.records := by
  have hsplit : j.segments.takeWhile (fun segment => decide (segment.lastSlot ≤ floor)) ++
      j.segments.dropWhile (fun segment => decide (segment.lastSlot ≤ floor)) = j.segments :=
    List.takeWhile_append_dropWhile
  rw [trimThrough]
  split
  · rename_i hlength
    have hnone : j.segments.takeWhile (fun segment => decide (segment.lastSlot ≤ floor)) = [] := by
      have hsum := congrArg List.length hsplit
      rw [List.length_append, hlength] at hsum
      exact List.length_eq_zero_iff.1 (by omega)
    rw [hnone]
    rfl
  · have hrecords := congrArg (List.flatMap Segment.records) hsplit
    rw [List.flatMap_append] at hrecords
    rw [records, ← hrecords, List.append_assoc]
    rfl

namespace Journal

theorem records_appendWrites (j : Journal) (writes : List Write) :
    (j.appendWrites writes).records = j.records ++ writes := by
  induction writes generalizing j with
  | nil => exact (List.append_nil _).symm
  | cons write writes ih =>
    have hone : (j.appendWrite write).records = j.records ++ [write] := by
      rw [appendWrite, records_append]
      split
      · rw [records_rotate]
      · rfl
    show ((j.appendWrite write).appendWrites writes).records = _
    rw [ih, hone, List.append_assoc]
    rfl

theorem retainedFirstSlot_appendWrites (j : Journal) (writes : List Write) :
    (j.appendWrites writes).retainedFirstSlot = j.retainedFirstSlot := by
  induction writes generalizing j with
  | nil => rfl
  | cons write writes ih =>
    refine (ih (j.appendWrite write)).trans ?_
    rw [appendWrite, retainedFirstSlot_append]
    split
    · exact retainedFirstSlot_rotate j
    · rfl

end Journal

namespace JournalHandle

variable {h h' : JournalHandle}

theorem databaseId_appendRecord (h : JournalHandle) (write : Write) :
    (h.appendRecord write).databaseId = h.databaseId := by
  rw [appendRecord]
  cases write.ballot? <;> rfl

theorem databaseId_appendWrites {writes : List Write} {effects : List FileEffect}
    (happend : h.appendWrites writes = (effects, .ok h')) : h'.databaseId = h.databaseId := by
  induction writes generalizing h effects with
  | nil =>
    rw [appendWrites, Prod.mk.injEq] at happend
    rw [← Except.ok.inj happend.2]
  | cons write writes ih =>
    rw [appendWrites] at happend
    split at happend
    · cases (Prod.mk.inj happend).2
    · rename_i first h₁ hfirst
      refine (ih (Prod.ext rfl (Prod.mk.inj happend).2)).trans ?_
      rw [appendWrite] at hfirst
      split at hfirst
      · split at hfirst
        · cases (Prod.mk.inj hfirst).2
        · rename_i rotation rotated hrotate
          rw [← Except.ok.inj (Prod.mk.inj hfirst).2, databaseId_appendRecord,
            (rotate_eq_ok hrotate).1]
          rfl
      · rw [← Except.ok.inj (Prod.mk.inj hfirst).2, databaseId_appendRecord]

end JournalHandle

namespace Refines

variable {Durable : Type} {core : CoreLib Durable} {h : JournalHandle} {d : Directory} {j : Journal}

/-- The listed files from the first entry that fails a test on. -/
theorem listed_dropWhile (hr : Refines h d j) (p : ℕ → Bool) :
    ∃ base, Listed d h.databaseId none base (h.segments.dropWhile fun entry => p entry.lastSlot)
      ((j.segments.dropWhile fun segment => p segment.lastSlot).map Segment.records) := by
  obtain ⟨base, hlisted, -, -⟩ := hr.records
  have hdrop := hlisted.drop (h.segments.takeWhile fun entry => p entry.lastSlot).length
  rw [← dropWhile_eq_drop, length_takeWhile_range hr.ranges p, ← List.map_drop, ← dropWhile_eq_drop]
    at hdrop
  exact ⟨_, hdrop⟩

theorem iterate (hr : Refines h d j) (hcanonical : ∀ write ∈ j.records, write.Canonical core.createStop)
    (fromSlot : ℕ) : h.iterate core d.view.view fromSlot = .ok (j.iterate fromSlot) := by
  obtain ⟨base, hlisted⟩ := hr.listed_dropWhile fun last => decide (last < fromSlot)
  obtain ⟨start, -, hactive, -⟩ := hr.records
  obtain ⟨low, hsplit, -⟩ := j.records_eq_append_iterate fromSlot
  rw [Journal.iterate, List.flatMap_def] at hsplit
  have hkept : ∀ write ∈ ((j.segments.dropWhile fun segment => decide (segment.lastSlot < fromSlot)).map
      Segment.records).flatten, write.Canonical core.createStop := by
    intro write hwrite
    apply hcanonical
    rw [hsplit]
    exact List.mem_append_right _ (List.mem_append_left _ hwrite)
  have hread := mapM_readListed hlisted hkept
  have hdecode : decodeRecords core h.active.records = .ok j.active.records := by
    rw [hactive]
    exact decodeRecords_recordsFrom (fun w hw => hcanonical w (List.mem_append_right _ hw)) _
  rw [JournalHandle.iterate, hread, hdecode, Journal.iterate, List.flatMap_def]
  rfl

/-- The writes in the segments trimming removes. -/
theorem writesIn_removable (hr : Refines h d j)
    (hcanonical : ∀ write ∈ j.records, write.Canonical core.createStop) (floor : ℕ) :
    writesIn core d (h.removable floor) =
      (j.segments.takeWhile fun segment => decide (segment.lastSlot ≤ floor)).flatMap Segment.records := by
  obtain ⟨base, hlisted, -, -⟩ := hr.records
  have htake := hlisted.take (h.removable floor).length
  have hcount : (h.removable floor).length =
      (j.segments.takeWhile fun segment => decide (segment.lastSlot ≤ floor)).length :=
    length_takeWhile_range hr.ranges fun last => decide (last ≤ floor)
  have hentries : h.segments.take (h.removable floor).length = h.removable floor :=
    (takeWhile_eq_take _ _).symm
  rw [hentries, hcount, ← List.map_take, ← takeWhile_eq_take] at htake
  have hgone : ∀ write ∈ ((j.segments.takeWhile fun segment => decide (segment.lastSlot ≤ floor)).map
      Segment.records).flatten, write.Canonical core.createStop := by
    intro write hwrite
    apply hcanonical
    rw [j.records_eq_takeWhile_append floor, List.flatMap_def]
    exact List.mem_append_left _ hwrite
  have hread := mapM_readListed htake hgone
  rw [writesIn, hread, List.flatMap_def]

end Refines

/-! ### Runs -/

/-- A journal, what was appended to it, what lay in the segments it removed, and the floors it was asked
to trim to. -/
structure JournalSystem where
  handle : JournalHandle
  directory : Directory
  appended : List Write
  removed : List Write
  floors : List ℕ

def JournalSystem.create (databaseId rotationRecords : ℕ) : JournalSystem where
  handle := (createJournal databaseId rotationRecords).2
  directory := Directory.empty.applyAll (createJournal databaseId rotationRecords).1
  appended := []
  removed := []
  floors := []

section Runs

variable {Durable : Type} (core : CoreLib Durable) (databaseId : ℕ)

/-- The operations on a journal. An adopted trim anchor never lowers the floor, and trimming asks for no
more than it; a reopen may change the rotation threshold. -/
inductive JournalStep : JournalSystem → JournalSystem → Prop
  | appendWrites {s : JournalSystem} {writes : List Write} {effects : List FileEffect}
    {h : JournalHandle} : (∀ write ∈ writes, write.Canonical core.createStop) →
    s.handle.appendWrites writes = (effects, .ok h) →
    JournalStep s { s with
      handle := h, directory := s.directory.applyAll effects, appended := s.appended ++ writes }
  | sync {s : JournalSystem} :
    JournalStep s { s with directory := s.directory.applyAll s.handle.sync }
  | noteChosen {s : JournalSystem} (through : ℕ) :
    JournalStep s { s with handle := s.handle.noteChosen through }
  | noteTrimAnchor {s : JournalSystem} (decisionSlot through : ℕ) (historyHash : HashBytes) :
    (s.handle.trimDecisionSlot < decisionSlot → s.handle.trimmedThrough ≤ through) →
    JournalStep s { s with handle := s.handle.noteTrimAnchor decisionSlot through historyHash }
  | trimThrough {s : JournalSystem} {floor : ℕ} {effects : List FileEffect} {any : Bool}
    {h : JournalHandle} : floor ≤ s.handle.trimmedThrough →
    s.handle.trimThrough floor = (effects, .ok (any, h)) →
    JournalStep s
      { handle := h
        directory := s.directory.applyAll effects
        appended := s.appended
        removed := s.removed ++ writesIn core s.directory (s.handle.removable floor)
        floors := s.floors ++ [floor] }
  | reopen {s : JournalSystem} {rotationRecords : ℕ} {effects : List FileEffect}
    {opened : Opened Durable} :
    openJournal core databaseId rotationRecords s.directory.view = (effects, .ok opened) →
    JournalStep s { s with handle := opened.handle, directory := s.directory.applyAll effects }

/-- The states of a journal's life. -/
def JournalReachable : JournalSystem → Prop :=
  Reachable (fun s => ∃ rotationRecords, s = JournalSystem.create databaseId rotationRecords)
    (JournalStep core databaseId)

/-- The journal is the one that was appended to, less what was removed. -/
structure JournalSystem.Retains (s : JournalSystem) : Prop where
  journal : ∃ j, Refines s.handle s.directory j ∧ s.appended = s.removed ++ j.records ∧
    ∀ write ∈ s.removed, write.slot < j.retainedFirstSlot
  database : s.handle.databaseId = databaseId
  canonical : ∀ write ∈ s.appended, write.Canonical core.createStop
  floor : ∀ write ∈ s.removed, ∃ floor ∈ s.floors, write.slot ≤ floor

variable {core databaseId} {good : Durable → List Write → Prop} {s s' : JournalSystem}

theorem JournalSystem.Retains.create (rotationRecords : ℕ) :
    (JournalSystem.create databaseId rotationRecords).Retains core databaseId where
  journal := ⟨Journal.create rotationRecords, Refines.create databaseId rotationRecords, rfl,
    fun _ hno => absurd hno List.not_mem_nil⟩
  database := rfl
  canonical := fun _ hno => absurd hno List.not_mem_nil
  floor := fun _ hno => absurd hno List.not_mem_nil

/-- Opening the journal of a run succeeds, whatever the rotation threshold, and replays what the journal
retains. -/
theorem JournalSystem.Retains.reopens (h : s.Retains core databaseId)
    (hadmits : core.Admits good s.appended) {j : Journal} (hr : Refines s.handle s.directory j)
    (happended : s.appended = s.removed ++ j.records) (rotationRecords : ℕ) :
    ∃ effects opened,
      openJournal core databaseId rotationRecords s.directory.view = (effects, .ok opened) ∧
      opened.replayed = j.records ∧ opened.handle.databaseId = databaseId ∧
      Refines opened.handle (s.directory.applyAll effects)
        ({ j with rotationRecords := rotationRecords } : Journal).reopen := by
  have hstretch : j.records <:+: s.appended := by
    rw [happended]
    exact (List.suffix_append _ _).isInfix
  have hcanonical : ∀ write ∈ j.records, write.Canonical core.createStop :=
    fun write hwrite => h.canonical write (hstretch.subset hwrite)
  have hr' : Refines { s.handle with rotationRecords := rotationRecords } s.directory
      { j with rotationRecords := rotationRecords } := { hr with rotationRecords := rfl }
  obtain ⟨effects, opened, hopen, hreplayed, -, hdatabase, hrefines⟩ :=
    hr'.openJournal_ok hadmits hstretch hcanonical
  rw [← h.database]
  exact ⟨effects, opened, hopen, hreplayed, hdatabase, hrefines⟩

theorem JournalStep.prefix_appended (h : JournalStep core databaseId s s') :
    s.appended <+: s'.appended := by
  cases h with
  | appendWrites => exact List.prefix_append _ _
  | sync => exact List.prefix_rfl
  | noteChosen => exact List.prefix_rfl
  | noteTrimAnchor => exact List.prefix_rfl
  | trimThrough => exact List.prefix_rfl
  | reopen => exact List.prefix_rfl

theorem JournalSystem.Retains.trimThrough (h : s.Retains core databaseId) {floor : ℕ}
    {effects : List FileEffect} {any : Bool} {handle : JournalHandle}
    (hfloor : floor ≤ s.handle.trimmedThrough)
    (htrim : s.handle.trimThrough floor = (effects, .ok (any, handle))) :
    JournalSystem.Retains core databaseId
      { handle := handle
        directory := s.directory.applyAll effects
        appended := s.appended
        removed := s.removed ++ writesIn core s.directory (s.handle.removable floor)
        floors := s.floors ++ [floor] } := by
  obtain ⟨j, hr, happended, hbelow⟩ := h.journal
  have hcanonical : ∀ write ∈ j.records, write.Canonical core.createStop := by
    intro write hwrite
    apply h.canonical
    rw [happended]
    exact List.mem_append_right _ hwrite
  have hgone := hr.writesIn_removable hcanonical floor
  have hsplit := j.records_eq_takeWhile_append floor
  obtain ⟨low, hlow, hslots, hgrow, -⟩ := j.records_trimThrough floor
  have hlow_eq : low = writesIn core s.directory (s.handle.removable floor) := by
    rw [hgone]
    exact List.append_cancel_right (hlow.symm.trans hsplit)
  refine ⟨⟨_, hr.trimThrough hfloor htrim, ?_, ?_⟩, ?_, h.canonical, ?_⟩
  · show s.appended = s.removed ++ _ ++ _
    rw [← hlow_eq, List.append_assoc, ← hlow]
    exact happended
  · intro write hwrite
    rcases List.mem_append.1 hwrite with hold | hnew
    · exact lt_of_lt_of_le (hbelow write hold) hgrow
    · exact hslots write (hlow_eq ▸ hnew)
  · rcases Refines.trimThrough_eq_ok htrim with ⟨-, -, rfl⟩ | ⟨rfl, -, -⟩
    · exact h.database
    · exact h.database
  · intro write hwrite
    rcases List.mem_append.1 hwrite with hold | hnew
    · obtain ⟨f, hf, hle⟩ := h.floor write hold
      exact ⟨f, List.mem_append_left _ hf, hle⟩
    · rw [hgone, List.mem_flatMap] at hnew
      obtain ⟨segment, hsegment, hmem⟩ := hnew
      have hlast := List.all_eq_true.1 List.all_takeWhile segment hsegment
      rw [decide_eq_true_eq] at hlast
      exact ⟨floor, List.mem_append_right _ List.mem_cons_self,
        le_trans (segment.slot_le write hmem) hlast⟩

/-- Every operation keeps the journal the one that was appended to, less what was removed. -/
theorem JournalStep.retains (hstep : JournalStep core databaseId s s')
    (hadmits : core.Admits good s.appended) (h : s.Retains core databaseId) :
    s'.Retains core databaseId := by
  obtain ⟨j, hr, happended, hbelow⟩ := h.journal
  cases hstep with
  | appendWrites hcanonical happend =>
    refine ⟨⟨_, hr.appendWrites happend, ?_, ?_⟩,
      (JournalHandle.databaseId_appendWrites happend).trans h.database, ?_, h.floor⟩
    · rw [Journal.records_appendWrites, ← List.append_assoc, ← happended]
    · rw [Journal.retainedFirstSlot_appendWrites]
      exact hbelow
    · intro write hwrite
      rcases List.mem_append.1 hwrite with hold | hnew
      · exact h.canonical write hold
      · exact hcanonical write hnew
  | sync => exact { h with journal := ⟨_, hr.sync, happended, hbelow⟩ }
  | noteChosen through => exact { h with journal := ⟨_, hr.noteChosen through, happended, hbelow⟩ }
  | noteTrimAnchor decisionSlot through historyHash hmono =>
    refine { h with
      journal := ⟨_, hr.noteTrimAnchor decisionSlot through historyHash hmono, ?_, ?_⟩
      database := ?_ }
    · rw [Journal.records_noteTrimAnchor]
      exact happended
    · rw [Journal.retainedFirstSlot_noteTrimAnchor]
      exact hbelow
    · rw [← h.database, JournalHandle.noteTrimAnchor]
      split <;> rfl
  | trimThrough hfloor htrim => exact h.trimThrough hfloor htrim
  | @reopen rotationRecords effects opened hopen =>
    obtain ⟨effects', opened', hopen', -, hdatabase, hrefines⟩ :=
      h.reopens hadmits hr happended rotationRecords
    rw [hopen, Prod.mk.injEq, Except.ok.injEq] at hopen'
    obtain ⟨rfl, rfl⟩ := hopen'
    exact { h with journal := ⟨_, hrefines, happended, hbelow⟩, database := hdatabase }

theorem JournalReachable.retains (h : JournalReachable core databaseId s)
    (hadmits : core.Admits good s.appended) : s.Retains core databaseId := by
  have hinv : core.Admits good s.appended → s.Retains core databaseId := by
    apply h.invariant (I := fun s => core.Admits good s.appended → s.Retains core databaseId)
    · rintro s ⟨rotationRecords, rfl⟩ -
      exact JournalSystem.Retains.create rotationRecords
    · intro s s' hs hstep hadmits'
      have hstart := hadmits'.of_stretch hstep.prefix_appended.isInfix
      exact hstep.retains hstart (hs hstart)
  exact hinv hadmits

/-- The commits of a stream with slots from `first` to `last`. -/
def commitsIn (first last : ℕ) (writes : List Write) : List (ℕ × Entry) :=
  writes.filterMap fun write =>
    match write with
    | .commit slot value => if first ≤ slot ∧ slot ≤ last then some (slot, value) else none
    | _ => none

theorem commitsIn_of_below {first : ℕ} {writes : List Write} (h : ∀ write ∈ writes, write.slot < first)
    (last : ℕ) : commitsIn first last writes = [] := by
  rw [commitsIn, List.filterMap_eq_nil_iff]
  intro write hwrite
  cases write with
  | commit slot value =>
    have hslot : slot < first := h _ hwrite
    exact if_neg fun hin => by omega
  | promise ballot => rfl
  | accept ballot slot value => rfl
  | trimAnchor anchor => rfl

/-- Serving a range yields the commits in it of what iterating from its start yields. -/
theorem serveRange_eq {h : JournalHandle} {view : ℕ → Option SegmentView} {first : ℕ}
    {writes : List Write} (hiterate : h.iterate core view first = .ok writes) (count : ℕ) :
    h.serveRange core view first (count + 1) = .ok (commitsIn first (first + count) writes) := by
  rw [JournalHandle.serveRange, hiterate]
  refine congrArg Except.ok (List.filterMap_congr fun write _ => ?_)
  cases write with
  | commit slot value =>
    show (if slot < first ∨ slot > first + count then none else some (slot, value)) =
      if first ≤ slot ∧ slot ≤ first + count then some (slot, value) else none
    by_cases hin : first ≤ slot ∧ slot ≤ first + count
    · rw [if_pos hin, if_neg (by omega)]
    · rw [if_neg hin, if_pos (by omega)]
  | promise ballot => rfl
  | accept ballot slot value => rfl
  | trimAnchor anchor => rfl

/-- **The journal replays exactly what it retains.** After any operations the next open succeeds and
replays what was appended less what was removed; what was removed was below a requested floor and below
the first retained slot; iterating skips only records of lower slots; and serving a range yields the
retained commits in it. -/
theorem JournalReachable.replays_retained (h : JournalReachable core databaseId s)
    (hadmits : core.Admits good s.appended) (rotationRecords : ℕ) :
    ∃ effects opened,
      openJournal core databaseId rotationRecords s.directory.view = (effects, .ok opened) ∧
      s.appended = s.removed ++ opened.replayed ∧
      (∀ write ∈ s.removed, (∃ floor ∈ s.floors, write.slot ≤ floor) ∧
        write.slot < s.handle.retainedFirstSlot) ∧
      (∀ fromSlot, ∃ skipped yielded,
        s.handle.iterate core s.directory.view.view fromSlot = .ok yielded ∧
        opened.replayed = skipped ++ yielded ∧ ∀ write ∈ skipped, write.slot < fromSlot) ∧
      ∀ first count, s.handle.serveRange core s.directory.view.view first (count + 1) =
        .ok (commitsIn first (first + count) opened.replayed) := by
  have hretains := h.retains hadmits
  obtain ⟨j, hr, happended, hbelow⟩ := hretains.journal
  obtain ⟨effects, opened, hopen, hreplayed, -, -⟩ :=
    hretains.reopens hadmits hr happended rotationRecords
  have hfirst : s.handle.retainedFirstSlot = j.retainedFirstSlot := by
    rw [JournalHandle.retainedFirstSlot, firstListed_eq hr.ranges, hr.activeFirst]
    rfl
  have hcanonical : ∀ write ∈ j.records, write.Canonical core.createStop := by
    intro write hwrite
    apply hretains.canonical
    rw [happended]
    exact List.mem_append_right _ hwrite
  refine ⟨effects, opened, hopen, ?_, ?_, ?_, ?_⟩
  · rw [hreplayed]
    exact happended
  · intro write hwrite
    rw [hfirst]
    exact ⟨hretains.floor write hwrite, hbelow write hwrite⟩
  · intro fromSlot
    obtain ⟨low, hlow, hslots⟩ := j.records_eq_append_iterate fromSlot
    exact ⟨low, _, hr.iterate hcanonical fromSlot, hreplayed.trans hlow, hslots⟩
  · intro first count
    obtain ⟨low, hlow, hslots⟩ := j.records_eq_append_iterate first
    rw [serveRange_eq (hr.iterate hcanonical first), hreplayed, hlow, commitsIn, commitsIn,
      List.filterMap_append]
    exact congrArg (fun l => Except.ok (l ++ _)) (commitsIn_of_below hslots _).symm

end Runs

/-- An acceptor that keeps its promise and the writes it replayed. -/
def replayLog : CoreLib (Ballot × List Write) where
  initial := (Ballot.zero, [])
  promised := Prod.fst
  applyPromise := fun durable ballot => some (ballot, durable.2)
  replayFold := fun durable write => some (raiseBallot durable.1 write, durable.2 ++ [write])
  createStop := fun sign => decide (sign.members ≠ [])

theorem replayLog_admits (writes : List Write) : replayLog.Admits (fun _ _ => True) writes where
  initial := fun _ _ => trivial
  fold := fun _ _ _ _ => ⟨_, rfl, trivial⟩
  promise := fun _ _ _ _ _ => ⟨_, rfl, trivial⟩

def noopCommit (slot : ℕ) : Write :=
  .commit slot (.command .noop)

theorem noopCommit_canonical {slot : ℕ} (h : slot < 256 ^ 8) (createStop : StopSign → Bool) :
    (noopCommit slot).Canonical createStop :=
  ⟨h, trivial⟩

/-- Three commits at one record a segment, and a trim through the first slot. -/
theorem JournalReachable.replays_retained_sample : ∃ s, JournalReachable replayLog 7 s ∧
    s.appended = [noopCommit 1, noopCommit 2, noopCommit 3] ∧ s.floors = [1] ∧
    ∃ effects opened, openJournal replayLog 7 1 s.directory.view = (effects, .ok opened) ∧
      s.appended = s.removed ++ opened.replayed := by
  have hcanonical : ∀ write ∈ [noopCommit 1, noopCommit 2, noopCommit 3],
      write.Canonical replayLog.createStop := by
    intro write hwrite
    simp only [List.mem_cons, List.not_mem_nil, or_false] at hwrite
    rcases hwrite with rfl | rfl | rfl
    · exact noopCommit_canonical (by decide) _
    · exact noopCommit_canonical (by decide) _
    · exact noopCommit_canonical (by decide) _
  have hcreated : JournalReachable replayLog 7 (JournalSystem.create 7 1) := .start ⟨1, rfl⟩
  have happended := hcreated.step (.appendWrites hcanonical rfl)
  have hnoted := happended.step (.noteTrimAnchor 1 1 Journal.zeroHash fun _ => Nat.zero_le _)
  have htrimmed := hnoted.step (.trimThrough le_rfl rfl)
  obtain ⟨effects, opened, hopen, hsplit, -⟩ :=
    JournalReachable.replays_retained htrimmed (replayLog_admits _) 1
  exact ⟨_, htrimmed, rfl, rfl, effects, opened, hopen, hsplit⟩

/-- **An anchor decided later that names a lower slot** hides a gap: the table published after it starts
above the slot its trim anchor covers, and the journal does not open. -/
theorem lowered_trim_anchor_refused : ∃ effects₁ h₁ effects₂ h₂ effects₃ h₃,
    (createJournal 7 1).2.appendWrites [noopCommit 1, noopCommit 2] = (effects₁, .ok h₁) ∧
    1 ≤ (h₁.noteTrimAnchor 1 1 Journal.zeroHash).trimmedThrough ∧
    (h₁.noteTrimAnchor 1 1 Journal.zeroHash).trimThrough 1 = (effects₂, .ok (true, h₂)) ∧
    (h₂.noteTrimAnchor 2 0 Journal.zeroHash).appendWrites [noopCommit 3] = (effects₃, .ok h₃) ∧
    (openJournal replayLog 7 1 ((((Directory.empty.applyAll (createJournal 7 1).1).applyAll
      effects₁).applyAll effects₂).applyAll effects₃).view).2 = .error .corruptManifest := by
  exact ⟨_, _, _, _, _, _, rfl, le_rfl, rfl, rfl, rfl⟩

end Zaxonlite
