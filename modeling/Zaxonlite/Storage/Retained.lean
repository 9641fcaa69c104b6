import Zaxonlite.Storage.Directory

/-!
# The directory refines the journal

The node's model of the journal is a list of sealed segments and an active one. Here the directory is
shown to hold exactly that: every listed file is sealed, chained to its predecessor by digest and carries
the writes of its segment under consecutive sequence numbers, and the active file carries the rest.
Appending, rotating, trimming and reopening keep the relation, and reopening replays the retained writes.
-/

namespace Zaxonlite

/-- The records of writes under consecutive sequence numbers. -/
def recordsFrom : ℕ → List Write → List SegmentRecord
  | _, [] => []
  | base, write :: writes => recordOf base write :: recordsFrom (base + 1) writes

theorem recordsFrom_append (base : ℕ) (xs ys : List Write) :
    recordsFrom base (xs ++ ys) = recordsFrom base xs ++ recordsFrom (base + xs.length) ys := by
  induction xs generalizing base with
  | nil => rfl
  | cons write xs ih =>
    rw [List.cons_append, recordsFrom, ih, recordsFrom, List.cons_append, List.length_cons,
      Nat.add_assoc, Nat.add_comm 1]

def raiseBallot (ballot : Ballot) (write : Write) : Ballot :=
  match write.ballot? with
  | some b => if ballot.lessThan b then b else ballot
  | none => ballot

/-- The library admits the replay of every stretch of these writes, with promise rollups in between:
`good durable rest` says that it can replay `rest` from the state `durable`. -/
structure CoreLib.Admits {Durable : Type} (core : CoreLib Durable) (good : Durable → List Write → Prop)
    (writes : List Write) : Prop where
  initial : ∀ rest, rest <:+: writes → good core.initial rest
  fold : ∀ durable write rest, good durable (write :: rest) →
    ∃ next, core.replayFold durable write = some next ∧ good next rest
  promise : ∀ durable rest, good durable rest → ∀ ballot,
    (core.promised durable).lessThan ballot = true →
    ∃ next, core.applyPromise durable ballot = some next ∧ good next rest

section Replay

variable {Durable : Type} {core : CoreLib Durable} {good : Durable → List Write → Prop}
  {all rest : List Write} {s : JournalReplay Durable} {base : ℕ}

theorem CoreLib.Admits.of_stretch {writes : List Write} (h : core.Admits good all)
    (hstretch : writes <:+: all) : core.Admits good writes :=
  { h with initial := fun rest hrest => h.initial rest (hrest.trans hstretch) }

/-- Nothing was replayed yet, or the next record must carry `base`. -/
def JournalReplay.At (s : JournalReplay Durable) (base : ℕ) : Prop :=
  (s.expected = none ∧ s.nextSequence = 1 ∧ s.replayed = []) ∨
    (s.expected = some base ∧ s.nextSequence = base)

/-- The state after replaying more writes, with `rest` still to come. -/
structure JournalReplay.Extends (good : Durable → List Write → Prop) (s s' : JournalReplay Durable)
    (base : ℕ) (writes rest : List Write) : Prop where
  durable : good s'.durable rest
  position : s'.At (base + writes.length)
  persisted : s'.persisted = writes.foldl (fun slot write => max slot write.slot) s.persisted
  maxPromised : s'.maxPromised = writes.foldl raiseBallot s.maxPromised
  replayed : s'.replayed = s.replayed ++ writes

theorem JournalReplay.Extends.trans {s s' s'' : JournalReplay Durable} {xs ys : List Write}
    (h : Extends good s s' base xs (ys ++ rest)) (h' : Extends good s' s'' (base + xs.length) ys rest) :
    Extends good s s'' base (xs ++ ys) rest := by
  refine ⟨h'.durable, ?_, ?_, ?_, ?_⟩
  · have hpos := h'.position
    rwa [Nat.add_assoc, ← List.length_append] at hpos
  · rw [h'.persisted, h.persisted, List.foldl_append]
  · rw [h'.maxPromised, h.maxPromised, List.foldl_append]
  · rw [h'.replayed, h.replayed, List.append_assoc]

theorem replayRecord_recordOf (hadmits : core.Admits good all) {write : Write}
    (hcanonical : write.Canonical core.createStop) (hgood : good s.durable (write :: rest))
    (hat : s.At base) :
    ∃ s', JournalReplay.replayRecord core s (recordOf base write) = .ok s' ∧
      JournalReplay.Extends good s s' base [write] rest := by
  obtain ⟨durable, hfold, hgood'⟩ := hadmits.fold s.durable write rest hgood
  have hgap : s.expected.any (fun want => decide ((recordOf base write).sequence ≠ want)) = false := by
    rcases hat with ⟨hnone, -, -⟩ | ⟨hsome, -⟩
    · rw [hnone]
      rfl
    · rw [hsome]
      exact decide_eq_false (not_not.2 rfl)
  refine ⟨⟨durable, some (base + 1), base + 1, max s.persisted write.slot,
    raiseBallot s.maxPromised write, s.replayed ++ [write]⟩, ?_, hgood', Or.inr ⟨rfl, rfl⟩, rfl, rfl, rfl⟩
  have hdecode : decodeWrite core.createStop (recordOf base write).payload = .ok write :=
    decodeWrite_encodeWrite hcanonical
  rw [JournalReplay.replayRecord, hgap, hdecode]
  simp only [Bool.false_eq_true, if_false, hfold]
  rfl

theorem foldlM_recordsFrom (hadmits : core.Admits good all) {writes : List Write}
    (hcanonical : ∀ write ∈ writes, write.Canonical core.createStop)
    (hgood : good s.durable (writes ++ rest)) (hat : s.At base) :
    ∃ s', (recordsFrom base writes).foldlM (JournalReplay.replayRecord core) s = .ok s' ∧
      JournalReplay.Extends good s s' base writes rest := by
  induction writes generalizing s base with
  | nil => exact ⟨s, rfl, hgood, hat, rfl, rfl, (List.append_nil _).symm⟩
  | cons write writes ih =>
    obtain ⟨s₁, hfirst, hext⟩ := replayRecord_recordOf hadmits
      (hcanonical write List.mem_cons_self) hgood hat
    obtain ⟨s₂, hrest, hext'⟩ := ih
      (fun w hw => hcanonical w (List.mem_cons_of_mem _ hw)) hext.durable hext.position
    refine ⟨s₂, ?_, hext.trans hext'⟩
    rw [recordsFrom, List.foldlM_cons, hfirst]
    exact hrest

theorem raisePromise_ok (hadmits : core.Admits good all) {durable : Durable}
    (hgood : good durable rest) (ballot : Ballot) :
    ∃ next, raisePromise core durable ballot = .ok next ∧ good next rest := by
  rw [raisePromise]
  split
  · rename_i hlt
    obtain ⟨next, happly, hnext⟩ := hadmits.promise durable rest hgood ballot hlt
    rw [happly]
    exact ⟨next, rfl, hnext⟩
  · exact ⟨durable, rfl, hgood⟩

end Replay

/-! ### The relation -/

/-- A sealed file: the one a manifest row names after the segment with digest `previous`, with these
writes from sequence number `base` on. -/
structure SealedFile (databaseId : ℕ) (entry : SegmentEntry) (previous : Option HashBytes) (base : ℕ)
    (writes : List Write) (file : SegmentFile) : Prop where
  database : file.header.databaseId = databaseId
  first : file.header.firstGlobalSlot = entry.firstSlot
  chained : ∀ digest ∈ previous, file.header.previousSegmentDigest = digest
  records : file.records = recordsFrom base writes
  trailer : ∃ trailer, file.trailer = some trailer ∧ trailer.segmentDigest = entry.digest ∧
    max trailer.lastGlobalSlot entry.firstSlot = entry.lastSlot

def Listed (d : Directory) (databaseId : ℕ) :
    Option HashBytes → ℕ → List SegmentEntry → List (List Write) → Prop
  | _, _, [], [] => True
  | previous, base, entry :: entries, writes :: rest =>
    (∃ file, d.files entry.firstSlot = some file ∧
        SealedFile databaseId entry previous base writes file) ∧
      Listed d databaseId (some entry.digest) (base + writes.length) entries rest
  | _, _, _, _ => False

section Listed

variable {Durable : Type} {core : CoreLib Durable} {good : Durable → List Write → Prop}
  {all remaining : List Write} {d d' : Directory} {databaseId base : ℕ} {previous : Option HashBytes} {entries : List SegmentEntry}
  {listed : List (List Write)} {s : JournalReplay Durable}

theorem Listed.congr (h : Listed d databaseId previous base entries listed)
    (hsame : ∀ entry ∈ entries, d'.files entry.firstSlot = d.files entry.firstSlot) :
    Listed d' databaseId previous base entries listed := by
  induction entries generalizing previous base listed with
  | nil => cases listed <;> exact h
  | cons entry entries ih =>
    cases listed with
    | nil => exact h
    | cons writes rest =>
      obtain ⟨⟨file, hfile, hsealed⟩, hrest⟩ := h
      refine ⟨⟨file, ?_, hsealed⟩, ih hrest fun e he => hsame e (List.mem_cons_of_mem _ he)⟩
      rw [hsame entry List.mem_cons_self, hfile]

/-- Listing one more sealed file. -/
theorem Listed.concat (h : Listed d databaseId previous base entries listed) {entry : SegmentEntry}
    {writes : List Write} {file : SegmentFile} (hfile : d.files entry.firstSlot = some file)
    (hsealed : SealedFile databaseId entry ((entries.getLast?.map SegmentEntry.digest).or previous)
      (base + listed.flatten.length) writes file) :
    Listed d databaseId previous base (entries ++ [entry]) (listed ++ [writes]) := by
  induction entries generalizing previous base listed with
  | nil =>
    cases listed with
    | nil => exact ⟨⟨file, hfile, hsealed⟩, trivial⟩
    | cons _ _ => exact h.elim
  | cons first entries ih =>
    cases listed with
    | nil => exact h.elim
    | cons ws rest =>
      refine ⟨h.1, ih h.2 ?_⟩
      rw [List.flatten_cons, List.length_append, ← Nat.add_assoc] at hsealed
      cases entries with
      | nil => exact hsealed
      | cons second entries =>
        rw [List.getLast?_cons_cons] at hsealed
        have hlast : ∃ last, (second :: entries).getLast? = some last :=
          ⟨_, List.getLast?_eq_some_getLast (List.cons_ne_nil second entries)⟩
        obtain ⟨last, hlast⟩ := hlast
        rw [hlast] at hsealed ⊢
        exact hsealed

theorem Listed.drop (h : Listed d databaseId none base entries listed) (n : ℕ) :
    Listed d databaseId none (base + (listed.take n).flatten.length) (entries.drop n)
      (listed.drop n) := by
  have hnone : ∀ {previous base entries listed}, Listed d databaseId previous base entries listed →
      Listed d databaseId none base entries listed := by
    intro previous base entries listed h
    cases entries with
    | nil => cases listed <;> exact h
    | cons entry entries =>
      cases listed with
      | nil => exact h
      | cons writes rest =>
        obtain ⟨⟨file, hfile, hsealed⟩, hrest⟩ := h
        exact ⟨⟨file, hfile, { hsealed with chained := fun _ hno => nomatch hno }⟩, hrest⟩
  induction n generalizing base entries listed with
  | zero => exact h
  | succ n ih =>
    cases entries with
    | nil =>
      cases listed with
      | nil => exact trivial
      | cons _ _ => exact h.elim
    | cons entry entries =>
      cases listed with
      | nil => exact h.elim
      | cons writes rest =>
        have hrest := ih (hnone h.2)
        rw [Nat.add_assoc, ← List.length_append] at hrest
        exact hrest

theorem Listed.rebase (h : Listed d databaseId previous base entries listed)
    (hnone : listed.flatten = []) (base' : ℕ) : Listed d databaseId previous base' entries listed := by
  induction entries generalizing previous base base' listed with
  | nil => cases listed <;> exact h
  | cons entry entries ih =>
    cases listed with
    | nil => exact h
    | cons writes rest =>
      rw [List.flatten_cons, List.append_eq_nil_iff] at hnone
      obtain ⟨rfl, hrest⟩ := hnone
      obtain ⟨⟨file, hfile, hsealed⟩, hlisted⟩ := h
      exact ⟨⟨file, hfile, { hsealed with records := hsealed.records }⟩, ih hlisted hrest _⟩

/-- The replay of the listed files. -/
theorem replayListed_ok (hadmits : core.Admits good all)
    (h : Listed d databaseId previous base entries listed)
    (hcanonical : ∀ write ∈ listed.flatten, write.Canonical core.createStop)
    (hgood : good s.durable (listed.flatten ++ remaining)) (hat : s.At base) :
    ∃ s', replayListed core databaseId d.view.view previous s entries = .ok s' ∧
      JournalReplay.Extends good s s' base listed.flatten remaining := by
  induction entries generalizing previous base listed s with
  | nil =>
    cases listed with
    | nil => exact ⟨s, rfl, hgood, hat, rfl, rfl, (List.append_nil _).symm⟩
    | cons _ _ => exact h.elim
  | cons entry entries ih =>
    cases listed with
    | nil => exact h.elim
    | cons writes rest =>
      obtain ⟨⟨file, hfile, hsealed⟩, hrest⟩ := h
      obtain ⟨trailer, htrailer, hdigest, hlast⟩ := hsealed.trailer
      rw [List.flatten_cons] at hcanonical hgood
      rw [List.append_assoc] at hgood
      obtain ⟨durable, hraise, hgood'⟩ := raisePromise_ok hadmits hgood trailer.maxPromised
      have hview : (d.view.view entry.firstSlot).map SegmentView.sealedView =
          some (.ok ⟨file.header, trailer, file.records, true⟩) := by
        simp only [Directory.view, hfile, Option.map_some, SegmentFile.view, htrailer]
      have hmatch : matchesEntry databaseId entry previous ⟨file.header, trailer, file.records, true⟩ =
          true := by
        simp only [matchesEntry, hsealed.database, hdigest, hsealed.first, hlast, decide_true,
          Bool.true_and, Bool.and_true]
        cases hprev : previous with
        | none => rfl
        | some digest =>
          rw [Option.all_some, hsealed.chained digest hprev]
          exact decide_eq_true rfl
      obtain ⟨s₁, hfold, hext⟩ := foldlM_recordsFrom (s := { s with durable := durable }) hadmits
        (fun w hw => hcanonical w (List.mem_append_left _ hw)) hgood' hat
      have hone : replaySealed core databaseId d.view.view previous s entry = .ok s₁ := by
        rw [hsealed.records] at hview hmatch
        rw [replaySealed, hview]
        simp only [hmatch, hraise, bind, Except.bind, hfold, Bool.true_eq_false, if_false, if_true]
        rfl
      have hext₁ : JournalReplay.Extends good s s₁ base writes (rest.flatten ++ remaining) :=
        ⟨hext.durable, hext.position, hext.persisted, hext.maxPromised, hext.replayed⟩
      obtain ⟨s₂, hreplay, hext₂⟩ := ih hrest
        (fun w hw => hcanonical w (List.mem_append_right _ hw)) hext₁.durable hext₁.position
      refine ⟨s₂, ?_, hext₁.trans hext₂⟩
      rw [replayListed, hone]
      exact hreplay

end Listed

def Segment.range (segment : Segment) : ℕ × ℕ :=
  (segment.firstSlot, segment.lastSlot)

def SegmentEntry.range (entry : SegmentEntry) : ℕ × ℕ :=
  (entry.firstSlot, entry.lastSlot)

theorem Linked.lt_next {segments : List Segment} {next : ℕ} (h : Linked segments next) :
    ∀ segment ∈ segments, segment.firstSlot < next := by
  induction segments with
  | nil => exact fun _ hno => absurd hno List.not_mem_nil
  | cons first rest ih =>
    intro segment hsegment
    have hrest := ih h.2.2
    have hfirst := h.1
    have hnext := h.2.1
    rcases List.mem_cons.1 hsegment with rfl | hmem
    · cases rest with
      | nil =>
        simp only [firstRetained] at hnext
        omega
      | cons second rest =>
        have hsecond := hrest second List.mem_cons_self
        simp only [firstRetained] at hnext
        omega
    · exact hrest segment hmem

theorem Linked.pairwise {segments : List Segment} {next : ℕ} (h : Linked segments next) :
    segments.Pairwise fun a b => a.firstSlot < b.firstSlot := by
  induction segments generalizing next with
  | nil => exact List.Pairwise.nil
  | cons first rest ih =>
    refine List.pairwise_cons.2 ⟨fun segment hsegment => ?_, ih h.2.2⟩
    obtain ⟨hrange, hnext, hrest⟩ := h
    cases rest with
    | nil => exact absurd hsegment List.not_mem_nil
    | cons second rest =>
      simp only [firstRetained] at hnext
      rcases List.mem_cons.1 hsegment with rfl | hmem
      · omega
      · have hlt := (List.pairwise_cons.1 (ih hrest)).1 segment hmem
        omega

theorem dropWhile_eq_drop {α : Type} (p : α → Bool) (l : List α) :
    l.dropWhile p = l.drop (l.takeWhile p).length := by
  have hsplit : l.takeWhile p ++ l.dropWhile p = l := List.takeWhile_append_dropWhile
  calc l.dropWhile p = (l.takeWhile p ++ l.dropWhile p).drop (l.takeWhile p).length := List.drop_left.symm
    _ = l.drop (l.takeWhile p).length := by rw [hsplit]

section Ranges

variable {entries : List SegmentEntry} {segments : List Segment} {next : ℕ}

theorem firstListed_eq (h : entries.map SegmentEntry.range = segments.map Segment.range) :
    firstListed entries next = firstRetained segments next := by
  cases entries with
  | nil =>
    rw [List.map_nil, eq_comm, List.map_eq_nil_iff] at h
    rw [h]
    rfl
  | cons entry entries =>
    cases segments with
    | nil => cases h
    | cons segment segments =>
      rw [List.map_cons, List.map_cons, List.cons.injEq] at h
      exact congrArg Prod.fst h.1

theorem contiguous_of_linked (h : entries.map SegmentEntry.range = segments.map Segment.range)
    (hlinked : Linked segments next) : contiguous entries next = true := by
  induction entries generalizing segments with
  | nil => rfl
  | cons entry entries ih =>
    cases segments with
    | nil => cases h
    | cons segment segments =>
      rw [List.map_cons, List.map_cons, List.cons.injEq] at h
      obtain ⟨hrange, hrest⟩ := h
      have hfirst : entry.firstSlot = segment.firstSlot := congrArg Prod.fst hrange
      have hlast : entry.lastSlot = segment.lastSlot := congrArg Prod.snd hrange
      rw [contiguous, hfirst, hlast, firstListed_eq hrest, ih hrest hlinked.2.2, Bool.and_true,
        Bool.and_eq_true, decide_eq_true_eq, decide_eq_true_eq]
      exact ⟨hlinked.1, hlinked.2.1⟩

theorem lt_next_of_range (h : entries.map SegmentEntry.range = segments.map Segment.range)
    (hlinked : Linked segments next) : ∀ entry ∈ entries, entry.firstSlot < next := by
  intro entry hentry
  have hmem : entry.range ∈ segments.map Segment.range := h ▸ List.mem_map_of_mem hentry
  obtain ⟨segment, hsegment, heq⟩ := List.mem_map.1 hmem
  have hfirst : segment.firstSlot = entry.firstSlot := congrArg Prod.fst heq
  exact hfirst ▸ hlinked.lt_next segment hsegment

/-- Leading entries up to a bound are as many as leading segments up to it. -/
theorem length_takeWhile_range (h : entries.map SegmentEntry.range = segments.map Segment.range)
    (p : ℕ → Bool) :
    (entries.takeWhile fun entry => p entry.lastSlot).length =
      (segments.takeWhile fun segment => p segment.lastSlot).length := by
  have hentries : ((entries.map SegmentEntry.range).takeWhile fun r => p r.2) =
      (entries.takeWhile fun entry => p entry.lastSlot).map SegmentEntry.range := List.takeWhile_map
  have hsegments : ((segments.map Segment.range).takeWhile fun r => p r.2) =
      (segments.takeWhile fun segment => p segment.lastSlot).map Segment.range := List.takeWhile_map
  rw [h, hsegments] at hentries
  have hlength := congrArg List.length hentries
  rw [List.length_map, List.length_map] at hlength
  exact hlength.symm

theorem dropWhile_range (h : entries.map SegmentEntry.range = segments.map Segment.range) (p : ℕ → Bool) :
    (entries.dropWhile fun entry => p entry.lastSlot).map SegmentEntry.range =
      (segments.dropWhile fun segment => p segment.lastSlot).map Segment.range := by
  have hentries : ((entries.map SegmentEntry.range).dropWhile fun r => p r.2) =
      (entries.dropWhile fun entry => p entry.lastSlot).map SegmentEntry.range := List.dropWhile_map
  have hsegments : ((segments.map Segment.range).dropWhile fun r => p r.2) =
      (segments.dropWhile fun segment => p segment.lastSlot).map Segment.range := List.dropWhile_map
  rw [← hentries, ← hsegments, h]

theorem pairwise_of_range (h : entries.map SegmentEntry.range = segments.map Segment.range)
    (hlinked : Linked segments next) : entries.Pairwise fun a b => a.firstSlot < b.firstSlot := by
  have hpairs : (segments.map Segment.range).Pairwise fun a b => a.1 < b.1 :=
    List.pairwise_map.2 hlinked.pairwise
  rw [← h, List.pairwise_map] at hpairs
  exact hpairs

end Ranges

/-- **The directory and the handle hold the journal.** -/
structure Refines (h : JournalHandle) (d : Directory) (j : Journal) : Prop where
  manifest : ∃ generation, d.manifest =
    some ⟨generation, h.databaseId, j.manifest, h.activeFirstSlot, h.segments⟩
  records : ∃ base, Listed d h.databaseId none base h.segments (j.segments.map Segment.records) ∧
    h.active.records =
      recordsFrom (base + (j.segments.map Segment.records).flatten.length) j.active.records ∧
    h.nextSequence =
      base + (j.segments.map Segment.records).flatten.length + j.active.records.length
  activeFile : ∃ synced, d.files h.activeFirstSlot =
    some ⟨h.active.header, h.active.records, none, synced⟩
  database : h.active.header.databaseId = h.databaseId
  first : h.active.header.firstGlobalSlot = h.activeFirstSlot
  chained : h.segments ≠ [] → h.active.header.previousSegmentDigest = h.lastDigest
  writer : h.active = { SegmentWriter.adopt h.active.header h.active.records with
    maxPromised := h.active.maxPromised }
  ranges : h.segments.map SegmentEntry.range = j.segments.map Segment.range
  activeFirst : h.activeFirstSlot = j.active.firstSlot
  activeLast : h.active.lastSlot = j.active.lastSlot
  rotationRecords : h.rotationRecords = j.rotationRecords
  persisted : h.persisted = j.persisted
  chosenHint : h.chosenHint = j.chosenHint
  maxPromised : h.maxPromised = j.maxPromised
  trimDecisionSlot : h.trimDecisionSlot = j.trimDecisionSlot
  trimmedThrough : h.trimmedThrough = j.trimmedThrough
  trimHistoryHash : h.trimHistoryHash = j.trimHistoryHash
  floor : j.retainedFirstSlot ≤ j.manifest.trimmedThrough + 1
  adopted : j.manifest.trimmedThrough ≤ j.trimmedThrough

theorem Refines.create (databaseId rotationRecords : ℕ) :
    Refines (createJournal databaseId rotationRecords).2
      (Directory.empty.applyAll (createJournal databaseId rotationRecords).1)
      (Journal.create rotationRecords) where
  manifest := ⟨2, rfl⟩
  records := ⟨1, trivial, rfl, rfl⟩
  activeFile := ⟨0, rfl⟩
  database := rfl
  first := rfl
  chained := fun hne => absurd rfl hne
  writer := rfl
  ranges := rfl
  activeFirst := rfl
  activeLast := rfl
  rotationRecords := rfl
  persisted := rfl
  chosenHint := rfl
  maxPromised := rfl
  trimDecisionSlot := rfl
  trimmedThrough := rfl
  trimHistoryHash := rfl
  floor := le_rfl
  adopted := le_rfl

namespace Refines

variable {h h' : JournalHandle} {d : Directory} {j : Journal}

theorem noteChosen (hr : Refines h d j) (through : ℕ) :
    Refines (h.noteChosen through) d (j.noteChosen through) :=
  { hr with chosenHint := congrArg (max · through) hr.chosenHint }

theorem noteTrimAnchor (hr : Refines h d j) (decisionSlot through : ℕ) (historyHash : HashBytes)
    (hmono : h.trimDecisionSlot < decisionSlot → h.trimmedThrough ≤ through) :
    Refines (h.noteTrimAnchor decisionSlot through historyHash) d
      (j.noteTrimAnchor decisionSlot through historyHash) := by
  rw [JournalHandle.noteTrimAnchor, Journal.noteTrimAnchor, ← hr.trimDecisionSlot]
  split
  · exact hr
  · rename_i hnew
    have hthrough := hmono (not_le.1 hnew)
    exact { hr with
      trimDecisionSlot := rfl
      trimmedThrough := rfl
      trimHistoryHash := rfl
      adopted := le_trans hr.adopted (hr.trimmedThrough ▸ hthrough) }

theorem writer_append {w : SegmentWriter} (record : SegmentRecord)
    (hw : w = { SegmentWriter.adopt w.header w.records with maxPromised := w.maxPromised }) :
    w.append record = { SegmentWriter.adopt (w.append record).header (w.append record).records with
      maxPromised := (w.append record).maxPromised } := by
  have hadopt : SegmentWriter.adopt w.header (w.records ++ [record]) =
      (SegmentWriter.adopt w.header w.records).append record := by
    rw [SegmentWriter.adopt, List.foldl_append]
    rfl
  show w.append record = { SegmentWriter.adopt w.header (w.records ++ [record]) with
    maxPromised := w.maxPromised }
  rw [hadopt]
  conv_lhs => rw [hw]
  rfl

theorem writer_observePromise {w : SegmentWriter} (ballot : Ballot)
    (hw : w = { SegmentWriter.adopt w.header w.records with maxPromised := w.maxPromised }) :
    w.observePromise ballot = { SegmentWriter.adopt w.header w.records with
      maxPromised := (w.observePromise ballot).maxPromised } := by
  rw [SegmentWriter.observePromise]
  split
  · conv_lhs => rw [hw]
  · exact hw

theorem observePromise (hr : Refines h d j) (ballot : Ballot) :
    Refines (h.observePromise ballot) d (j.observePromise ballot) := by
  have hheader : (h.active.observePromise ballot).header = h.active.header := by
    rw [SegmentWriter.observePromise]
    split <;> rfl
  have hrecords : (h.active.observePromise ballot).records = h.active.records := by
    rw [SegmentWriter.observePromise]
    split <;> rfl
  have hlast : (h.active.observePromise ballot).lastSlot = h.active.lastSlot := by
    rw [SegmentWriter.observePromise]
    split <;> rfl
  have hkept : Refines (h.observePromise ballot) d
      { j with maxPromised := if j.maxPromised.lessThan ballot then ballot else j.maxPromised } :=
    { hr with
      records := by
        simp only [JournalHandle.observePromise, hrecords]
        exact hr.records
      activeFile := by
        simp only [JournalHandle.observePromise, hrecords, hheader]
        exact hr.activeFile
      database := by
        simp only [JournalHandle.observePromise, hheader]
        exact hr.database
      first := by
        simp only [JournalHandle.observePromise, hheader]
        exact hr.first
      chained := by
        simp only [JournalHandle.observePromise, hheader]
        exact hr.chained
      writer := by
        simp only [JournalHandle.observePromise, hheader, hrecords]
        exact writer_observePromise ballot hr.writer
      activeLast := by
        simp only [JournalHandle.observePromise, hlast]
        exact hr.activeLast
      maxPromised := by
        simp only [JournalHandle.observePromise, hr.maxPromised] }
  have hjournal : j.observePromise ballot =
      { j with maxPromised := if j.maxPromised.lessThan ballot then ballot else j.maxPromised } := by
    rw [Journal.observePromise]
    split <;> rfl
  rw [hjournal]
  exact hkept

/-- Appending a record whose ballot was observed. -/
theorem appendObserved (hr : Refines h d j) (write : Write) :
    Refines
      { h with
        active := h.active.append (recordOf h.nextSequence write)
        nextSequence := h.nextSequence + 1
        persisted := max h.persisted write.slot }
      (d.apply (.append h.activeFirstSlot (recordOf h.nextSequence write)))
      { j with active := j.active.append write, persisted := max j.persisted write.slot } := by
  obtain ⟨base, hlisted, hactive, hnext⟩ := hr.records
  obtain ⟨synced, hfile⟩ := hr.activeFile
  have hrecord : h.active.records ++ [recordOf h.nextSequence write] = recordsFrom
      (base + (j.segments.map Segment.records).flatten.length) (j.active.records ++ [write]) := by
    rw [recordsFrom_append, ← hactive, hnext]
    rfl
  exact
    { hr with
      records := by
        refine ⟨base, ?_, hrecord, ?_⟩
        · refine hlisted.congr fun entry hentry => ?_
          have hlt := lt_next_of_range hr.ranges j.linked entry hentry
          exact Function.update_of_ne (hr.activeFirst ▸ hlt).ne _ _
        · simp only [ActiveSegment.append, List.length_append, List.length_singleton, hnext, Nat.add_assoc]
      activeFile := by
        refine ⟨synced, ?_⟩
        simp only [Directory.apply, Directory.modify, Function.update_self, hfile, Option.map_some,
          SegmentWriter.append]
      writer := writer_append _ hr.writer
      activeLast := congrArg (max · write.slot) hr.activeLast
      persisted := congrArg (max · write.slot) hr.persisted }

theorem append (hr : Refines h d j) (write : Write) :
    Refines (h.appendRecord write) (d.apply (.append h.activeFirstSlot (recordOf h.nextSequence write)))
      (j.append write) := by
  unfold JournalHandle.appendRecord Journal.append
  cases write.ballot? with
  | none => exact hr.appendObserved write
  | some ballot => exact (hr.observePromise ballot).appendObserved write

theorem full_iff (hr : Refines h d j) : h.active.full h.rotationRecords = j.full := by
  obtain ⟨base, -, hactive, -⟩ := hr.records
  have hlength : ∀ (base : ℕ) (writes : List Write), (recordsFrom base writes).length = writes.length := by
    intro base writes
    induction writes generalizing base with
    | nil => rfl
    | cons write writes ih => rw [recordsFrom, List.length_cons, ih, List.length_cons]
  rw [SegmentWriter.full, Journal.full, hactive, hlength, hr.rotationRecords]

end Refines

namespace JournalHandle

/-- The handle after the active segment was sealed, listed and replaced. -/
def rolled (h : JournalHandle) (firstSlot lastSlot : ℕ) (digest : HashBytes) : JournalHandle :=
  { h with
    generation := h.generation + 1
    segments := h.segments ++ [⟨firstSlot, max lastSlot firstSlot, digest⟩]
    activeFirstSlot := max lastSlot firstSlot + 1
    active := SegmentWriter.create ⟨h.databaseId, max lastSlot firstSlot + 1, digest⟩ }

/-- What publishing a listed segment and starting the next one does when the table is not too long. -/
theorem startNext_eq_ok {h h' : JournalHandle} {firstSlot lastSlot : ℕ} {digest : HashBytes}
    {effects : List FileEffect}
    (hnext : (h.listSealed firstSlot lastSlot digest).startNext digest = (effects, .ok h')) :
    h' = h.rolled firstSlot lastSlot digest ∧
      effects = [.publish (h.rolled firstSlot lastSlot digest).manifestFile,
        .create (max lastSlot firstSlot + 1) ⟨h.databaseId, max lastSlot firstSlot + 1, digest⟩] := by
  simp only [startNext, publishManifest] at hnext
  split at hnext
  · rw [Prod.mk.injEq] at hnext
    cases hnext.2
  · rename_i published hpublished
    split at hpublished
    · cases hpublished
    · obtain rfl := Except.ok.inj hpublished
      rw [Prod.mk.injEq] at hnext
      exact ⟨(Except.ok.inj hnext.2).symm, hnext.1.symm⟩

theorem rotate_eq_ok {h h' : JournalHandle} {effects : List FileEffect}
    (hrotate : h.rotate = (effects, .ok h')) :
    h' = h.rolled h.active.header.firstGlobalSlot h.active.lastSlot
        (h.active.trailer h.chosenHint).segmentDigest ∧
      effects = [.seal h.activeFirstSlot (h.active.trailer h.chosenHint), .sync h.activeFirstSlot,
        .publish h'.manifestFile, .create h'.activeFirstSlot h'.active.header] := by
  rw [rotate, Prod.mk.injEq] at hrotate
  obtain ⟨heffects, hresult⟩ := hrotate
  obtain ⟨rfl, hlast⟩ := startNext_eq_ok (Prod.ext rfl hresult)
  refine ⟨rfl, heffects.symm.trans ?_⟩
  exact congrArg (fun es => FileEffect.seal h.activeFirstSlot (h.active.trailer h.chosenHint) ::
    .sync h.activeFirstSlot :: es) hlast

theorem lastDigest_rolled (h : JournalHandle) (firstSlot lastSlot : ℕ) (digest : HashBytes) :
    (h.rolled firstSlot lastSlot digest).lastDigest = digest := by
  simp only [lastDigest, rolled, List.getLast?_concat]

end JournalHandle

namespace Refines

variable {h h' : JournalHandle} {d : Directory} {j : Journal}

theorem rotate (hr : Refines h d j) {effects : List FileEffect}
    (hrotate : h.rotate = (effects, .ok h')) : Refines h' (d.applyAll effects) j.rotate := by
  obtain ⟨hh', heffects⟩ := JournalHandle.rotate_eq_ok hrotate
  subst hh' heffects
  obtain ⟨base, hlisted, hactive, hnext⟩ := hr.records
  obtain ⟨synced, hfile⟩ := hr.activeFile
  have hname : h.active.header.firstGlobalSlot = h.activeFirstSlot := hr.first
  have hsame : max h.active.lastSlot h.active.header.firstGlobalSlot =
      max j.active.lastSlot j.active.firstSlot := by
    rw [hr.activeLast, hr.first, hr.activeFirst]
  have hbelow : ∀ entry ∈ h.segments, entry.firstSlot < h.activeFirstSlot := by
    rw [hr.activeFirst]
    exact lt_next_of_range hr.ranges j.linked
  have hfresh : h.activeFirstSlot < max h.active.lastSlot h.active.header.firstGlobalSlot + 1 := by
    rw [hname]
    omega
  have hlast : j.rotate.segments = j.segments ++ [j.active.toSealed] := rfl
  let h' := h.rolled h.active.header.firstGlobalSlot h.active.lastSlot
    (h.active.trailer h.chosenHint).segmentDigest
  have hfile' : (d.applyAll [.seal h.activeFirstSlot (h.active.trailer h.chosenHint),
      .sync h.activeFirstSlot, .publish h'.manifestFile, .create h'.activeFirstSlot h'.active.header]).files
        h.active.header.firstGlobalSlot =
      some ⟨h.active.header, h.active.records, some (h.active.trailer h.chosenHint),
        h.active.records.length⟩ := by
    simp only [Directory.applyAll, List.foldl_cons, List.foldl_nil, Directory.apply,
      Directory.modify, h', JournalHandle.rolled, hname]
    rw [Function.update_of_ne (hname ▸ hfresh).ne, Function.update_self, Function.update_self, hfile]
    rfl
  exact
    { hr with
      manifest := by
        refine ⟨h.generation + 1, ?_⟩
        simp only [Directory.applyAll, List.foldl_cons, List.foldl_nil, Directory.apply, Directory.modify,
          JournalHandle.manifestFile, JournalHandle.rolled, Journal.rotate, Journal.publishManifest,
          hr.maxPromised, hr.chosenHint, hr.trimDecisionSlot, hr.trimmedThrough, hr.trimHistoryHash]
      records := by
        refine ⟨base, ?_, rfl, ?_⟩
        · rw [hlast, List.map_append, List.map_singleton]
          refine Listed.concat (hlisted.congr fun entry hentry => ?_) hfile' ?_
          · have hlt := hbelow entry hentry
            simp only [Directory.applyAll, List.foldl_cons, List.foldl_nil, Directory.apply,
              Directory.modify, JournalHandle.rolled]
            rw [Function.update_of_ne (lt_trans hlt hfresh).ne, Function.update_of_ne hlt.ne,
              Function.update_of_ne hlt.ne]
          · refine ⟨hr.database, rfl, fun digest hdigest => ?_, hactive,
              h.active.trailer h.chosenHint, rfl, rfl, rfl⟩
            cases hsegments : h.segments.getLast? with
            | none =>
              rw [hsegments] at hdigest
              cases hdigest
            | some entry =>
              rw [hsegments] at hdigest
              have hne : h.segments ≠ [] := by
                intro hnil
                rw [hnil] at hsegments
                cases hsegments
              rw [hr.chained hne, JournalHandle.lastDigest, hsegments]
              exact Option.some.inj hdigest
        · rw [hlast, List.map_append, List.flatten_append, List.length_append]
          simp only [JournalHandle.rolled, Journal.rotate, Journal.publishManifest, ActiveSegment.empty,
            ActiveSegment.toSealed, List.map_singleton, List.flatten_singleton, List.length_nil, hnext]
          omega
      activeFile := by
        refine ⟨0, ?_⟩
        simp only [Directory.applyAll, List.foldl_cons, List.foldl_nil, Directory.apply, Directory.modify,
          JournalHandle.rolled, Function.update_self]
        rfl
      database := rfl
      first := rfl
      chained := fun _ => (JournalHandle.lastDigest_rolled _ _ _ _).symm
      writer := rfl
      ranges := by
        rw [hlast, List.map_append, ← hr.ranges, JournalHandle.rolled, List.map_append]
        simp only [List.map_singleton, SegmentEntry.range, Segment.range, ActiveSegment.toSealed, hsame]
        rw [hname, hr.activeFirst]
      activeFirst := congrArg (· + 1) hsame
      activeLast := rfl
      floor := by
        rw [Journal.retainedFirstSlot_rotate]
        exact le_trans hr.floor (Nat.succ_le_succ hr.adopted)
      adopted := le_rfl }

theorem sync (hr : Refines h d j) : Refines h (d.applyAll h.sync) j.sync := by
  obtain ⟨base, hlisted, hactive, hnext⟩ := hr.records
  obtain ⟨synced, hfile⟩ := hr.activeFile
  exact
    { hr with
      records := by
        refine ⟨base, hlisted.congr fun entry hentry => ?_, hactive, hnext⟩
        have hlt := lt_next_of_range hr.ranges j.linked entry hentry
        exact Function.update_of_ne (hr.activeFirst ▸ hlt).ne _ _
      activeFile := by
        refine ⟨h.active.records.length, ?_⟩
        simp only [JournalHandle.sync, Directory.applyAll, List.foldl_cons, List.foldl_nil,
          Directory.apply, Directory.modify, Function.update_self, hfile, Option.map_some] }

theorem applyAll_append (d : Directory) (xs ys : List FileEffect) :
    d.applyAll (xs ++ ys) = (d.applyAll xs).applyAll ys :=
  List.foldl_append

theorem appendWrite (hr : Refines h d j) {write : Write} {effects : List FileEffect}
    (happend : h.appendWrite write = (effects, .ok h')) :
    Refines h' (d.applyAll effects) (j.appendWrite write) := by
  rw [JournalHandle.appendWrite, hr.full_iff] at happend
  rw [Journal.appendWrite]
  cases hfull : j.full with
  | false =>
    rw [hfull] at happend
    simp only [Bool.false_eq_true, if_false, Prod.mk.injEq] at happend ⊢
    obtain ⟨rfl, hok⟩ := happend
    obtain rfl := Except.ok.inj hok
    exact hr.append write
  | true =>
    rw [hfull] at happend
    simp only [if_true] at happend ⊢
    split at happend
    · rw [Prod.mk.injEq] at happend
      cases happend.2
    · rename_i rotation rotated hrotate
      rw [Prod.mk.injEq] at happend
      obtain ⟨rfl, hok⟩ := happend
      obtain rfl := Except.ok.inj hok
      rw [applyAll_append]
      exact (hr.rotate hrotate).append write

theorem appendWrites (hr : Refines h d j) {writes : List Write} {effects : List FileEffect}
    (happend : h.appendWrites writes = (effects, .ok h')) :
    Refines h' (d.applyAll effects) (j.appendWrites writes) := by
  induction writes generalizing h d j effects with
  | nil =>
    rw [JournalHandle.appendWrites, Prod.mk.injEq] at happend
    obtain ⟨rfl, hok⟩ := happend
    obtain rfl := Except.ok.inj hok
    exact hr
  | cons write writes ih =>
    rw [JournalHandle.appendWrites] at happend
    split at happend
    · rw [Prod.mk.injEq] at happend
      cases happend.2
    · rename_i first h₁ hfirst
      rw [Prod.mk.injEq] at happend
      obtain ⟨rfl, hok⟩ := happend
      rw [applyAll_append]
      exact ih (hr.appendWrite hfirst) (Prod.ext rfl hok)

theorem files_deleteAll (d : Directory) (names : List ℕ) {name : ℕ} (hname : name ∉ names) :
    (d.applyAll (names.map FileEffect.delete)).files name = d.files name := by
  induction names generalizing d with
  | nil => rfl
  | cons first names ih =>
    rw [List.mem_cons, not_or] at hname
    refine (ih _ hname.2).trans ?_
    exact Function.update_of_ne hname.1 _ _

theorem manifest_deleteAll (d : Directory) (names : List ℕ) :
    (d.applyAll (names.map FileEffect.delete)).manifest = d.manifest := by
  induction names generalizing d with
  | nil => rfl
  | cons first names ih => exact ih _

/-- The handle after a trim that removes something. -/
theorem trimThrough_eq_ok {floor : ℕ} {effects : List FileEffect} {removed : Bool}
    (htrim : h.trimThrough floor = (effects, .ok (removed, h'))) :
    (h.removable floor = [] ∧ effects = [] ∧ h' = h) ∨
      (h' = { h with
          segments := h.segments.dropWhile fun entry => decide (entry.lastSlot ≤ floor)
          generation := h.generation + 1 } ∧
        effects = .publish h'.manifestFile ::
          ((h.removable floor).map SegmentEntry.firstSlot).map FileEffect.delete ∧
        h.removable floor ≠ []) := by
  rw [JournalHandle.trimThrough] at htrim
  split at htrim
  · rename_i hnone
    rw [Prod.mk.injEq, Except.ok.injEq, Prod.mk.injEq] at htrim
    exact Or.inl ⟨hnone, htrim.1.symm, htrim.2.2.symm⟩
  · rename_i hsome
    right
    split at htrim
    · rw [Prod.mk.injEq] at htrim
      cases htrim.2
    · rename_i published hpublished
      rw [JournalHandle.publishManifest] at hpublished
      split at hpublished
      · cases hpublished
      · obtain rfl := Except.ok.inj hpublished
        rw [Prod.mk.injEq, Except.ok.injEq, Prod.mk.injEq] at htrim
        obtain ⟨rfl, -, rfl⟩ := htrim
        refine ⟨rfl, ?_, hsome⟩
        rw [List.map_map]
        rfl

theorem trimThrough (hr : Refines h d j) {floor : ℕ} (hfloor : floor ≤ h.trimmedThrough)
    {effects : List FileEffect} {removed : Bool}
    (htrim : h.trimThrough floor = (effects, .ok (removed, h'))) :
    Refines h' (d.applyAll effects) (j.trimThrough floor).2 := by
  have hcount := length_takeWhile_range hr.ranges fun last => decide (last ≤ floor)
  have hkept := dropWhile_range hr.ranges fun last => decide (last ≤ floor)
  have hbound := (j.records_trimThrough floor).choose_spec.2.2.2
  rcases trimThrough_eq_ok htrim with ⟨hnone, rfl, rfl⟩ | ⟨hh', heffects, hsome⟩
  · have hsame : (j.trimThrough floor).2 = j := by
      have hzero : (j.segments.takeWhile fun entry => decide (entry.lastSlot ≤ floor)).length = 0 := by
        rw [← hcount]
        exact congrArg List.length hnone
      have hlength : (j.segments.dropWhile fun entry => decide (entry.lastSlot ≤ floor)).length =
          j.segments.length := by
        rw [dropWhile_eq_drop, hzero, List.drop_zero]
      rw [Journal.trimThrough, if_pos hlength]
    rw [hsame]
    exact hr
  · obtain ⟨base, hlisted, hactive, hnext⟩ := hr.records
    obtain ⟨synced, hfile⟩ := hr.activeFile
    let n := (h.removable floor).length
    have hn : (j.segments.takeWhile fun entry => decide (entry.lastSlot ≤ floor)).length = n := hcount.symm
    have hentries : (h.segments.dropWhile fun entry => decide (entry.lastSlot ≤ floor)) =
        h.segments.drop n := dropWhile_eq_drop _ _
    have hsegments : (j.segments.dropWhile fun entry => decide (entry.lastSlot ≤ floor)) =
        j.segments.drop n := by
      rw [dropWhile_eq_drop, hn]
    have hsplit : h.removable floor ++ h.segments.drop n = h.segments := by
      rw [← hentries]
      exact List.takeWhile_append_dropWhile
    have hjournal : (j.trimThrough floor).2 =
        Journal.publishManifest { j with
          segments := j.segments.dropWhile fun entry => decide (entry.lastSlot ≤ floor)
          linked := j.linked.dropWhile _ } := by
      have hpos : n ≠ 0 := fun hzero => hsome (List.length_eq_zero_iff.1 hzero)
      have hlen : j.segments.length = h.segments.length := by
        have := congrArg List.length hr.ranges
        rwa [List.length_map, List.length_map, eq_comm] at this
      have hle : n ≤ h.segments.length := by
        rw [← hsplit, List.length_append]
        exact Nat.le_add_right _ _
      rw [Journal.trimThrough, if_neg]
      rw [hsegments, List.length_drop]
      omega
    have hpairs := pairwise_of_range hr.ranges j.linked
    rw [← hsplit, List.pairwise_append] at hpairs
    have hbelow := lt_next_of_range hr.ranges j.linked
    have hkeeps : ∀ name, (∀ entry ∈ h.removable floor, entry.firstSlot < name) →
        (d.applyAll effects).files name = d.files name := by
      intro name hlt
      rw [heffects]
      refine (files_deleteAll _ _ fun hmem => ?_).trans rfl
      obtain ⟨entry, hentry, heq⟩ := List.mem_map.1 hmem
      exact absurd heq (hlt entry hentry).ne
    have hremoved : ∀ entry ∈ h.removable floor, entry.firstSlot < h.activeFirstSlot := by
      intro entry hentry
      rw [hr.activeFirst]
      exact hbelow entry (hsplit ▸ List.mem_append_left _ hentry)
    have hflat : ((j.segments.map Segment.records).take n).flatten.length +
        ((j.segments.map Segment.records).drop n).flatten.length =
        (j.segments.map Segment.records).flatten.length := by
      rw [← List.length_append, ← List.flatten_append, List.take_append_drop]
    rw [hjournal] at hbound ⊢
    subst hh'
    exact
      { hr with
        manifest := by
          refine ⟨h.generation + 1, ?_⟩
          rw [heffects]
          refine (manifest_deleteAll _ _).trans ?_
          simp only [Directory.apply, JournalHandle.manifestFile, Journal.publishManifest, hr.maxPromised,
            hr.chosenHint, hr.trimDecisionSlot, hr.trimmedThrough, hr.trimHistoryHash]
        records := by
          refine ⟨base + ((j.segments.map Segment.records).take n).flatten.length, ?_, ?_, ?_⟩
          · simp only [Journal.publishManifest, hentries, hsegments, List.map_drop]
            exact (hlisted.drop n).congr fun entry hentry => hkeeps _ fun first hfirst =>
              hpairs.2.2 first hfirst entry hentry
          · simp only [Journal.publishManifest, hsegments, List.map_drop]
            rw [Nat.add_assoc, hflat]
            exact hactive
          · simp only [Journal.publishManifest, hsegments, List.map_drop]
            rw [Nat.add_assoc base, hflat]
            exact hnext
        activeFile := ⟨synced, (hkeeps _ hremoved).trans hfile⟩
        chained := by
          intro hne
          have hall : h.segments ≠ [] := by
            rw [← hsplit]
            exact List.append_ne_nil_of_right_ne_nil _ (hentries ▸ hne)
          rw [hr.chained hall, JournalHandle.lastDigest, JournalHandle.lastDigest]
          have hlast : h.segments.getLast? = (h.segments.drop n).getLast? := by
            conv_lhs => rw [← hsplit]
            exact List.getLast?_append_of_ne_nil _ (hentries ▸ hne)
          rw [hlast, hentries]
        ranges := hkept
        floor := by
          refine le_trans hbound (max_le ?_ ?_)
          · exact le_trans hr.floor (Nat.succ_le_succ hr.adopted)
          · exact Nat.succ_le_succ (hr.trimmedThrough ▸ hfloor)
        adopted := le_rfl }

section Open

variable {Durable : Type} {core : CoreLib Durable} {good : Durable → List Write → Prop}
  {all : List Write}

theorem tableValid (hr : Refines h d j) (generation : ℕ) :
    (⟨generation, h.databaseId, j.manifest, h.activeFirstSlot, h.segments⟩ : ManifestFile).tableValid =
      true := by
  rw [ManifestFile.tableValid, Bool.and_eq_true, decide_eq_true_eq, firstListed_eq hr.ranges,
    hr.activeFirst]
  exact ⟨hr.floor, contiguous_of_linked hr.ranges j.linked⟩

/-- The writer rebuilt from the active file. -/
theorem adopt_eq (hr : Refines h d j) :
    (SegmentWriter.adopt h.active.header h.active.records).header = h.active.header ∧
      (SegmentWriter.adopt h.active.header h.active.records).records = h.active.records ∧
      (SegmentWriter.adopt h.active.header h.active.records).lastSlot = h.active.lastSlot :=
  ⟨(congrArg SegmentWriter.header hr.writer).symm, (congrArg SegmentWriter.records hr.writer).symm,
    (congrArg SegmentWriter.lastSlot hr.writer).symm⟩

/-- Taking over the active file of a journal that was closed between operations. -/
theorem adoptActive_eq (hr : Refines h d j) (generation : ℕ) :
    (JournalHandle.ofManifest h.rotationRecords
        ⟨generation, h.databaseId, j.manifest, h.activeFirstSlot, h.segments⟩).adoptActive d.view.view =
      ([.truncate h.activeFirstSlot h.active.records],
        .ok { JournalHandle.ofManifest h.rotationRecords
            ⟨generation, h.databaseId, j.manifest, h.activeFirstSlot, h.segments⟩ with
          active := SegmentWriter.adopt h.active.header h.active.records }) := by
  obtain ⟨synced, hfile⟩ := hr.activeFile
  have hview : d.view.view h.activeFirstSlot =
      some (⟨h.active.header, h.active.records, none, synced⟩ : SegmentFile).view := by
    simp only [Directory.view, hfile, Option.map_some]
  have hheader : ¬ (h.active.header.databaseId ≠ h.databaseId ∨
      h.active.header.firstGlobalSlot ≠ h.activeFirstSlot ∨
      (h.segments ≠ [] ∧ h.active.header.previousSegmentDigest ≠ h.lastDigest)) := by
    rintro (hno | hno | ⟨hne, hno⟩)
    · exact hno hr.database
    · exact hno hr.first
    · exact hno (hr.chained hne)
  simp only [JournalHandle.adoptActive, JournalHandle.ofManifest, hview, SegmentFile.view,
    JournalHandle.resume]
  exact if_neg hheader

/-- **Reopening succeeds, replays exactly the retained writes and keeps the relation.** -/
theorem openJournal_ok (hr : Refines h d j) (hadmits : core.Admits good all)
    (hstretch : j.records <:+: all)
    (hcanonical : ∀ write ∈ j.records, write.Canonical core.createStop) :
    ∃ effects opened, openJournal core h.databaseId h.rotationRecords d.view = (effects, .ok opened) ∧
      opened.replayed = j.records ∧ good opened.durable [] ∧
      opened.handle.databaseId = h.databaseId ∧
      Refines opened.handle (d.applyAll effects) j.reopen := by
  obtain ⟨generation, hmanifest⟩ := hr.manifest
  obtain ⟨base, hlisted, hactive, hnext⟩ := hr.records
  obtain ⟨synced, hfile⟩ := hr.activeFile
  have hrecords : j.records = (j.segments.map Segment.records).flatten ++ j.active.records := by
    rw [Journal.records, List.flatMap_def]
  rw [hrecords] at hcanonical
  have hgood := hadmits.initial _ hstretch
  rw [hrecords] at hgood
  obtain ⟨s₁, hreplay₁, hext₁⟩ := replayListed_ok
    (s := ⟨core.initial, none, 1, 0, j.manifest.maxPromised, []⟩) hadmits hlisted
    (fun w hw => hcanonical w (List.mem_append_left _ hw)) hgood (Or.inl ⟨rfl, rfl, rfl⟩)
  have hgood' : good s₁.durable (j.active.records ++ []) := by
    rw [List.append_nil]
    exact hext₁.durable
  obtain ⟨s₂, hreplay₂, hext₂⟩ := foldlM_recordsFrom hadmits
    (fun w hw => hcanonical w (List.mem_append_right _ hw)) hgood' hext₁.position
  obtain ⟨durable, hraise, hdurable⟩ := raisePromise_ok hadmits hext₂.durable s₂.maxPromised
  rw [← List.append_nil j.active.records] at hext₁
  have hext := hext₁.trans hext₂
  have hsame := hr.adopt_eq
  rw [← hactive] at hreplay₂
  let opened : Opened Durable :=
    { handle :=
        { JournalHandle.ofManifest h.rotationRecords
            ⟨generation, h.databaseId, j.manifest, h.activeFirstSlot, h.segments⟩ with
          active := SegmentWriter.adopt h.active.header h.active.records
          nextSequence := s₂.nextSequence
          persisted := max s₂.persisted j.manifest.trimmedThrough
          maxPromised := s₂.maxPromised }
      durable := durable
      replayed := s₂.replayed }
  have hopen : openJournal core h.databaseId h.rotationRecords d.view =
      ([.sweep h.accounted, .truncate h.activeFirstSlot h.active.records], .ok opened) := by
    have hload : loadManifest h.databaseId
        ⟨generation, h.databaseId, j.manifest, h.activeFirstSlot, h.segments⟩ =
        .ok ⟨generation, h.databaseId, j.manifest, h.activeFirstSlot, h.segments⟩ :=
      if_pos ⟨rfl, hr.tableValid generation⟩
    have hd : d.view.manifest = _ := hmanifest
    rw [openJournal, hd]
    simp only [hload, hr.adoptActive_eq generation]
    rw [replayJournal]
    simp only [JournalHandle.ofManifest, hsame.2.1, hreplay₁, hreplay₂, hraise, bind, Except.bind]
    rfl
  have hreplayed : s₂.replayed = j.records := by
    rw [hext.replayed, hrecords, List.nil_append]
  have hkept : ∀ name ∈ h.accounted, (d.applyAll
      [.sweep h.accounted, .truncate h.activeFirstSlot h.active.records]).files name = d.files name := by
    intro name hname
    by_cases hactive : name = h.activeFirstSlot
    · subst hactive
      simp only [Directory.applyAll, List.foldl_cons, List.foldl_nil, Directory.apply, Directory.modify,
        Function.update_self, if_pos hname, hfile, Option.map_some]
    · simp only [Directory.applyAll, List.foldl_cons, List.foldl_nil, Directory.apply, Directory.modify,
        Function.update_of_ne hactive, if_pos hname]
  have hlisted' : ∀ base, Listed d h.databaseId none base h.segments (j.segments.map Segment.records) →
      Listed (d.applyAll [.sweep h.accounted, .truncate h.activeFirstSlot h.active.records])
        h.databaseId none base h.segments (j.segments.map Segment.records) := by
    intro base hbase
    apply hbase.congr
    intro entry hentry
    exact hkept _ (List.mem_cons_of_mem _ (List.mem_map_of_mem hentry))
  refine ⟨_, opened, hopen, hreplayed, hdurable, rfl, ?_⟩
  have hpersisted : s₂.persisted = j.records.foldl (fun slot write => max slot write.slot) 0 := by
    rw [hext.persisted, hrecords]
  have hballot : s₂.maxPromised = j.records.foldl raiseBallot j.manifest.maxPromised := by
    rw [hext.maxPromised, hrecords]
  exact
    { manifest := ⟨generation, hmanifest⟩
      records := by
        rcases hext.position with ⟨-, hone, hnone⟩ | ⟨-, hat⟩
        · rw [hreplayed, hrecords, List.append_eq_nil_iff] at hnone
          refine ⟨1, hlisted' 1 (hlisted.rebase hnone.1 1), ?_, ?_⟩
          · show (SegmentWriter.adopt h.active.header h.active.records).records = _
            rw [hsame.2.1, hactive]
            show recordsFrom _ j.active.records = recordsFrom _ j.active.records
            rw [hnone.2]
            rfl
          · show s₂.nextSequence = _
            rw [hone]
            show 1 = 1 + (j.segments.map Segment.records).flatten.length + j.active.records.length
            rw [hnone.1, hnone.2]
            rfl
        · refine ⟨base, hlisted' base hlisted, ?_, ?_⟩
          · exact hsame.2.1.trans hactive
          · show s₂.nextSequence = _
            rw [hat, List.length_append, ← Nat.add_assoc]
            rfl
      activeFile := ⟨synced, by
        refine ((hkept _ List.mem_cons_self).trans hfile).trans ?_
        show _ = some (SegmentFile.mk (SegmentWriter.adopt h.active.header h.active.records).header
          (SegmentWriter.adopt h.active.header h.active.records).records none synced)
        rw [hsame.1, hsame.2.1]⟩
      database := hsame.1 ▸ hr.database
      first := hsame.1 ▸ hr.first
      chained := hsame.1 ▸ hr.chained
      writer := by
        show SegmentWriter.adopt h.active.header h.active.records =
          { SegmentWriter.adopt (SegmentWriter.adopt h.active.header h.active.records).header
              (SegmentWriter.adopt h.active.header h.active.records).records with
            maxPromised := (SegmentWriter.adopt h.active.header h.active.records).maxPromised }
        rw [hsame.1, hsame.2.1]
      ranges := hr.ranges
      activeFirst := hr.activeFirst
      activeLast := hsame.2.2.trans hr.activeLast
      rotationRecords := hr.rotationRecords
      persisted := congrArg (max · j.manifest.trimmedThrough) hpersisted
      chosenHint := rfl
      maxPromised := hballot
      trimDecisionSlot := rfl
      trimmedThrough := rfl
      trimHistoryHash := rfl
      floor := hr.floor
      adopted := le_rfl }

end Open

end Refines

end Zaxonlite
