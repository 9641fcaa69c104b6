import Zaxonlite.Runs.Promises
import Zaxonlite.Storage.Manifest

/-!
# Published manifests over whole runs

The manifest changes only when it is published, as one replacement of the file. Rotation lists the sealed
segment, trimming drops rows from the front, and an open that finds the active file sealed lists it; each
publishes before anything else happens. The process crashes between any two file effects, and an open may
find anything in place of the active segment.
-/

namespace Zaxonlite

open Run

def lastPublished (m : ManifestFile) (effects : List FileEffect) : ManifestFile :=
  effects.foldl (fun m effect =>
    match effect with
    | .publish published => published
    | _ => m) m

/-- A manifest whose fields are below the end of their widths; the code traps on the counter that would
pass it. -/
structure ManifestFile.InRange (m : ManifestFile) : Prop extends m.Fits where
  through : m.rollup.trimmedThrough + 1 < 256 ^ 8

/-- A journal that may be running, and the manifest in its directory. -/
structure ManifestSystem where
  handle : Option JournalHandle
  published : ManifestFile

/-- An operation on a running journal: its effects, and the handle it returns if it succeeds. An adopted
trim anchor does not lower the floor, and trimming asks for no more than it. -/
inductive Upkeep (h : JournalHandle) : List FileEffect → Option JournalHandle → Prop
  | appendWrites (writes : List Write) :
    Upkeep h (h.appendWrites writes).1 (h.appendWrites writes).2.toOption
  | trimThrough {floor : ℕ} : floor ≤ h.trimmedThrough →
    Upkeep h (h.trimThrough floor).1 ((h.trimThrough floor).2.toOption.map Prod.snd)
  | sync : Upkeep h h.sync (some h)
  | noteChosen (through : ℕ) : Upkeep h [] (some (h.noteChosen through))
  | noteTrimAnchor {decisionSlot through : ℕ} {historyHash : HashBytes} :
    (h.trimDecisionSlot < decisionSlot → h.trimmedThrough ≤ through) →
    Upkeep h [] (some (h.noteTrimAnchor decisionSlot through historyHash))

section System

variable {Durable : Type} (core : CoreLib Durable) (databaseId : ℕ)

/-- One step of a journal and its process. An open may find any files beside the manifest. -/
inductive ManifestStep : ManifestSystem → ManifestSystem → Prop
  | operate {s : ManifestSystem} {h h' : JournalHandle} {effects : List FileEffect} : s.handle = some h →
    Upkeep h effects (some h') → (∀ m, .publish m ∈ effects → m.InRange) →
    ManifestStep s ⟨some h', lastPublished s.published effects⟩
  | crash {s : ManifestSystem} {h : JournalHandle} {effects : List FileEffect}
    {result : Option JournalHandle} (done : ℕ) : s.handle = some h → Upkeep h effects result →
    (∀ m, .publish m ∈ effects.take done → m.InRange) →
    ManifestStep s ⟨none, lastPublished s.published (effects.take done)⟩
  | opens {s : ManifestSystem} {rotationRecords : ℕ} {view : ℕ → Option SegmentView}
    {effects : List FileEffect} {opened : Opened Durable} : s.handle = none →
    openJournal core databaseId rotationRecords ⟨some s.published, view⟩ = (effects, .ok opened) →
    (∀ m, .publish m ∈ effects → m.InRange) →
    ManifestStep s ⟨some opened.handle, lastPublished s.published effects⟩
  | openStops {s : ManifestSystem} {rotationRecords : ℕ} {view : ℕ → Option SegmentView} (done : ℕ) :
    s.handle = none →
    (∀ m, .publish m ∈ (openJournal core databaseId rotationRecords ⟨some s.published, view⟩).1.take done →
      m.InRange) →
    ManifestStep s ⟨none, lastPublished s.published
      ((openJournal core databaseId rotationRecords ⟨some s.published, view⟩).1.take done)⟩

def StartsCreated (s : ManifestSystem) : Prop :=
  databaseId < 256 ^ 16 ∧ ∃ rotationRecords,
    s = ⟨some (createJournal databaseId rotationRecords).2,
      (createJournal databaseId rotationRecords).2.manifestFile⟩

end System

/-! ### Effects -/

theorem lastPublished_append (m : ManifestFile) (xs ys : List FileEffect) :
    lastPublished m (xs ++ ys) = lastPublished (lastPublished m xs) ys :=
  List.foldl_append

theorem lastPublished_mem (m : ManifestFile) (effects : List FileEffect) :
    lastPublished m effects = m ∨ .publish (lastPublished m effects) ∈ effects := by
  induction effects using List.reverseRecOn with
  | nil => exact .inl rfl
  | append_singleton effects effect ih =>
    have hlift : ∀ m', lastPublished m effects = m' →
        m' = m ∨ .publish m' ∈ effects ++ [effect] := by
      rintro m' rfl
      exact ih.imp_right fun hmem => List.mem_append_left _ hmem
    rw [lastPublished_append]
    cases effect with
    | publish published => exact .inr (List.mem_append_right _ List.mem_cons_self)
    | _ => exact hlift _ rfl

/-! ### Tables -/

/-- A handle whose table the loader would take, with its active segment where the table ends. -/
structure Tabled (databaseId : ℕ) (h : JournalHandle) : Prop where
  database : h.databaseId = databaseId
  active : h.active.header.firstGlobalSlot = h.activeFirstSlot
  anchored : firstListed h.segments h.activeFirstSlot ≤ h.trimmedThrough + 1
  contiguous : contiguous h.segments h.activeFirstSlot = true

/-- A manifest the loader takes. -/
structure Loadable (databaseId : ℕ) (m : ManifestFile) : Prop where
  database : m.databaseId = databaseId
  table : m.tableValid = true
  count : m.segments.length ≤ maxSegments

/-- A rollup that was true when it was written. The anchor is the later one's, or was decided earlier. -/
structure Manifest.Behind (r r' : Manifest) : Prop where
  maxPromised : r.maxPromised ≤ r'.maxPromised
  chosenThrough : r.chosenThrough ≤ r'.chosenThrough
  trimDecisionSlot : r.trimDecisionSlot ≤ r'.trimDecisionSlot
  trimmedThrough : r.trimmedThrough ≤ r'.trimmedThrough
  anchor : r.trimDecisionSlot = r'.trimDecisionSlot →
    r.trimmedThrough = r'.trimmedThrough ∧ r.trimHistoryHash = r'.trimHistoryHash

theorem Manifest.Behind.refl (r : Manifest) : r.Behind r :=
  ⟨le_rfl, le_rfl, le_rfl, le_rfl, fun _ => ⟨rfl, rfl⟩⟩

theorem Manifest.Behind.trans {a b c : Manifest} (hab : a.Behind b) (hbc : b.Behind c) : a.Behind c := by
  refine ⟨hab.maxPromised.trans hbc.maxPromised, hab.chosenThrough.trans hbc.chosenThrough,
    hab.trimDecisionSlot.trans hbc.trimDecisionSlot, hab.trimmedThrough.trans hbc.trimmedThrough, ?_⟩
  intro heq
  have hle := hab.trimDecisionSlot
  have hle' := hbc.trimDecisionSlot
  have hb := hab.anchor (by omega)
  have hc := hbc.anchor (by omega)
  exact ⟨hb.1.trans hc.1, hb.2.trans hc.2⟩

/-- The manifest has the handle's generation and table, and a rollup the handle has kept or raised since. -/
structure Mirrors (h : JournalHandle) (m : ManifestFile) : Prop where
  generation : m.generation = h.generation
  rollup : m.rollup.Behind h.manifestFile.rollup
  activeFirstSlot : m.activeFirstSlot = h.activeFirstSlot
  segments : m.segments = h.segments

/-- What a stretch of effects publishes, and the handle it ends with. -/
structure Publishes (databaseId : ℕ) (h : JournalHandle) (effects : List FileEffect)
    (result : Option JournalHandle) : Prop where
  loadable : ∀ m, .publish m ∈ effects → Loadable databaseId m
  tabled : ∀ h', result = some h' → Tabled databaseId h'
  mirrors : ∀ h', result = some h' → ∀ m, Mirrors h m → Mirrors h' (lastPublished m effects)

section Tables

variable {databaseId : ℕ} {h h' : JournalHandle} {effects : List FileEffect} {entries : List SegmentEntry}
  {next : ℕ}

/-- Dropping rows up to a floor leaves a run that starts at most one slot above it. -/
theorem firstListed_dropWhile (h : contiguous entries next = true) (floor : ℕ) :
    firstListed (entries.dropWhile fun entry => decide (entry.lastSlot ≤ floor)) next ≤
      max (firstListed entries next) (floor + 1) := by
  induction entries with
  | nil => exact le_max_left _ _
  | cons entry rest ih =>
    rw [contiguous, Bool.and_eq_true, Bool.and_eq_true, decide_eq_true_eq, decide_eq_true_eq] at h
    obtain ⟨⟨-, hnext⟩, hrest⟩ := h
    by_cases hle : entry.lastSlot ≤ floor
    · rw [List.dropWhile_cons_of_pos (by simpa using hle)]
      refine le_trans (ih hrest) ?_
      rw [hnext]
      omega
    · rw [List.dropWhile_cons_of_neg (by simpa using hle)]
      exact le_max_left _ _

theorem tableValid_manifestFile (hanchored : firstListed h.segments h.activeFirstSlot ≤ h.trimmedThrough + 1)
    (hcontiguous : contiguous h.segments h.activeFirstSlot = true) : h.manifestFile.tableValid = true := by
  rw [ManifestFile.tableValid, Bool.and_eq_true, decide_eq_true_eq]
  exact ⟨hanchored, hcontiguous⟩

/-- Publishing a table and starting the segment after it. -/
theorem startNext_publishes (hdatabase : h.databaseId = databaseId)
    (hanchored : firstListed h.segments h.activeFirstSlot ≤ h.trimmedThrough + 1)
    (hcontiguous : contiguous h.segments h.activeFirstSlot = true) (digest : HashBytes)
    (h₀ : JournalHandle) :
    Publishes databaseId h₀ (h.startNext digest).1 (h.startNext digest).2.toOption := by
  rw [JournalHandle.startNext, JournalHandle.publishManifest]
  by_cases hcount : maxSegments < h.segments.length
  · rw [if_pos hcount]
    refine ⟨fun m hno => absurd hno List.not_mem_nil, ?_, ?_⟩
    · intro h' hno
      cases hno
    · intro h' hno
      cases hno
  · rw [if_neg hcount]
    refine ⟨fun m hm => ?_, ?_, ?_⟩
    · dsimp only at hm
      simp only [List.mem_cons, FileEffect.publish.injEq, List.not_mem_nil, or_false, reduceCtorEq] at hm
      rw [hm]
      exact ⟨hdatabase, tableValid_manifestFile hanchored hcontiguous, Nat.le_of_not_lt hcount⟩
    · intro h' hok
      obtain rfl := Option.some.inj hok
      exact ⟨hdatabase, rfl, hanchored, hcontiguous⟩
    · intro h' hok m _
      obtain rfl := Option.some.inj hok
      exact ⟨rfl, .refl _, rfl, rfl⟩

/-- Handles with one table, the second with the rollup of the first or a later one. -/
structure SameTable (h h' : JournalHandle) : Prop where
  database : h'.databaseId = h.databaseId
  header : h'.active.header.firstGlobalSlot = h.active.header.firstGlobalSlot
  rollup : h.manifestFile.rollup.Behind h'.manifestFile.rollup
  generation : h'.generation = h.generation
  activeFirstSlot : h'.activeFirstSlot = h.activeFirstSlot
  segments : h'.segments = h.segments

theorem SameTable.refl (h : JournalHandle) : SameTable h h := ⟨rfl, rfl, .refl _, rfl, rfl, rfl⟩

theorem Tabled.sameTable (ht : Tabled databaseId h) (hsame : SameTable h h') : Tabled databaseId h' := by
  refine ⟨hsame.database.trans ht.database, ?_, ?_, ?_⟩
  · rw [hsame.header, ht.active, hsame.activeFirstSlot]
  · rw [hsame.segments, hsame.activeFirstSlot]
    exact ht.anchored.trans (Nat.succ_le_succ hsame.rollup.trimmedThrough)
  · rw [hsame.segments, hsame.activeFirstSlot]
    exact ht.contiguous

theorem Mirrors.sameTable {m : ManifestFile} (hm : Mirrors h m) (hsame : SameTable h h') : Mirrors h' m :=
  ⟨hm.generation.trans hsame.generation.symm, hm.rollup.trans hsame.rollup,
    hm.activeFirstSlot.trans hsame.activeFirstSlot.symm, hm.segments.trans hsame.segments.symm⟩

theorem lastPublished_of_quiet {m : ManifestFile} (hquiet : ∀ m', .publish m' ∉ effects) :
    lastPublished m effects = m :=
  (lastPublished_mem m effects).resolve_right (hquiet _)

theorem Tabled.quiet (ht : Tabled databaseId h) (hquiet : ∀ m, .publish m ∉ effects)
    (hsame : SameTable h h') : Publishes databaseId h effects (some h') := by
  refine ⟨fun m hm => absurd hm (hquiet m), fun h'' hok => ?_, fun h'' hok m hm => ?_⟩
  · exact Option.some.inj hok ▸ ht.sameTable hsame
  · rw [lastPublished_of_quiet hquiet]
    exact Option.some.inj hok ▸ hm.sameTable hsame

theorem Publishes.trans {before after : List FileEffect} {result : Option JournalHandle}
    {h₀ : JournalHandle} (hp : Publishes databaseId h₀ before (some h))
    (hp' : Publishes databaseId h after result) : Publishes databaseId h₀ (before ++ after) result := by
  refine ⟨fun m hm => ?_, hp'.tabled, fun h' hok m hm => ?_⟩
  · rcases List.mem_append.1 hm with hm | hm
    · exact hp.loadable m hm
    · exact hp'.loadable m hm
  · rw [lastPublished_append]
    exact hp'.mirrors h' hok _ (hp.mirrors h rfl m hm)

theorem Publishes.failed {result : Option JournalHandle} (hp : Publishes databaseId h effects result) :
    Publishes databaseId h effects none := by
  refine ⟨hp.loadable, ?_, ?_⟩
  · intro h' hno
    cases hno
  · intro h' hno
    cases hno

/-- Listing the sealed active segment and starting the next. -/
theorem Tabled.listSealed (ht : Tabled databaseId h) (lastSlot : ℕ) (digest : HashBytes) :
    Publishes databaseId h ((h.listSealed h.activeFirstSlot lastSlot digest).startNext digest).1
      ((h.listSealed h.activeFirstSlot lastSlot digest).startNext digest).2.toOption := by
  have hconcat := @contiguous_concat h.segments
    ⟨h.activeFirstSlot, max lastSlot h.activeFirstSlot, digest⟩ ht.contiguous (le_max_right _ _)
  have hfirst : firstListed (h.segments ++ [⟨h.activeFirstSlot, max lastSlot h.activeFirstSlot, digest⟩])
      (max lastSlot h.activeFirstSlot + 1) = firstListed h.segments h.activeFirstSlot := by
    cases h.segments <;> rfl
  exact startNext_publishes (h := h.listSealed h.activeFirstSlot lastSlot digest) ht.database
    (hfirst.le.trans ht.anchored) hconcat digest h

theorem Tabled.rotate (ht : Tabled databaseId h) :
    Publishes databaseId h h.rotate.1 h.rotate.2.toOption := by
  have hsealed : Publishes databaseId h
      [.seal h.activeFirstSlot (h.active.trailer h.chosenHint), .sync h.activeFirstSlot] (some h) :=
    ht.quiet (by simp) (.refl h)
  have hnext := hsealed.trans (ht.listSealed h.active.lastSlot
    (h.active.trailer h.chosenHint).segmentDigest)
  rw [JournalHandle.rotate, ht.active]
  exact hnext

theorem sameTable_appendRecord (h : JournalHandle) (write : Write) : SameTable h (h.appendRecord write) := by
  unfold JournalHandle.appendRecord
  cases write.ballot? with
  | none => exact ⟨rfl, rfl, .refl _, rfl, rfl, rfl⟩
  | some ballot =>
    have hraised : h.maxPromised ≤ if h.maxPromised.lessThan ballot then ballot else h.maxPromised := by
      split
      · rename_i hless
        exact (Ballot.lessThan_iff.1 hless).le
      · exact le_rfl
    refine ⟨rfl, ?_, ⟨hraised, le_rfl, le_rfl, le_rfl, fun _ => ⟨rfl, rfl⟩⟩, rfl, rfl, rfl⟩
    show (h.active.observePromise ballot).header.firstGlobalSlot = h.active.header.firstGlobalSlot
    rw [SegmentWriter.observePromise]
    split <;> rfl

theorem Tabled.appendWrite (ht : Tabled databaseId h) (write : Write) :
    Publishes databaseId h (h.appendWrite write).1 (h.appendWrite write).2.toOption := by
  rw [JournalHandle.appendWrite]
  split
  · have hrotate := ht.rotate
    cases hresult : h.rotate with
    | mk effects result =>
      rw [hresult] at hrotate
      cases result with
      | error e => exact hrotate
      | ok h' =>
        exact hrotate.trans ((hrotate.tabled h' rfl).quiet (by simp) (sameTable_appendRecord h' write))
  · exact ht.quiet (by simp) (sameTable_appendRecord h write)

theorem Tabled.appendWrites (ht : Tabled databaseId h) (writes : List Write) :
    Publishes databaseId h (h.appendWrites writes).1 (h.appendWrites writes).2.toOption := by
  induction writes generalizing h with
  | nil => exact ht.quiet (by simp [JournalHandle.appendWrites]) (.refl h)
  | cons write writes ih =>
    have hwrite := ht.appendWrite write
    rw [JournalHandle.appendWrites]
    cases hresult : h.appendWrite write with
    | mk effects result =>
      rw [hresult] at hwrite
      cases result with
      | error e => exact hwrite
      | ok h' => exact hwrite.trans (ih (hwrite.tabled h' rfl))

theorem Tabled.trimThrough (ht : Tabled databaseId h) {floor : ℕ} (hfloor : floor ≤ h.trimmedThrough) :
    Publishes databaseId h (h.trimThrough floor).1 ((h.trimThrough floor).2.toOption.map Prod.snd) := by
  have hanchored : firstListed (h.segments.dropWhile fun entry => decide (entry.lastSlot ≤ floor))
      h.activeFirstSlot ≤ h.trimmedThrough + 1 :=
    (firstListed_dropWhile ht.contiguous floor).trans (max_le ht.anchored (Nat.succ_le_succ hfloor))
  have hcontiguous := contiguous_dropWhile ht.contiguous fun entry => decide (entry.lastSlot ≤ floor)
  unfold JournalHandle.trimThrough
  split
  · exact ht.quiet (by simp) (.refl h)
  · unfold JournalHandle.publishManifest
    by_cases hcount : maxSegments <
        (h.segments.dropWhile fun entry => decide (entry.lastSlot ≤ floor)).length
    · rw [if_pos hcount]
      refine ⟨fun m hno => absurd hno List.not_mem_nil, ?_, ?_⟩
      · intro h' hno
        cases hno
      · intro h' hno
        cases hno
    · rw [if_neg hcount]
      have hquiet : ∀ m, .publish m ∉
          (h.removable floor).map fun entry => FileEffect.delete entry.firstSlot := by
        intro m hm
        obtain ⟨entry, -, hno⟩ := List.mem_map.1 hm
        cases hno
      refine ⟨fun m hm => ?_, fun h' hok => ?_, fun h' hok m hm => ?_⟩
      · rcases List.mem_cons.1 hm with hm | hm
        · cases hm
          exact ⟨ht.database, tableValid_manifestFile hanchored hcontiguous, Nat.le_of_not_lt hcount⟩
        · exact absurd hm (hquiet m)
      · obtain rfl := Option.some.inj hok
        exact ⟨ht.database, ht.active, hanchored, hcontiguous⟩
      · obtain rfl := Option.some.inj hok
        have hlast : ∀ m', lastPublished m (.publish m' ::
            (h.removable floor).map fun entry => FileEffect.delete entry.firstSlot) = m' :=
          fun m' => lastPublished_of_quiet (m := m') hquiet
        exact (hlast _).symm ▸ ⟨rfl, .refl _, rfl, rfl⟩

/-- An adopted anchor that does not lower the floor keeps the table. -/
theorem sameTable_noteTrimAnchor {decisionSlot through : ℕ} {hash : HashBytes}
    (hmono : h.trimDecisionSlot < decisionSlot → h.trimmedThrough ≤ through) :
    SameTable h (h.noteTrimAnchor decisionSlot through hash) := by
  rw [JournalHandle.noteTrimAnchor]
  split
  · exact .refl h
  · rename_i hlater
    have hlt := Nat.lt_of_not_le hlater
    exact ⟨rfl, rfl, ⟨le_rfl, le_rfl, hlt.le, hmono hlt, fun heq => absurd heq hlt.ne⟩, rfl, rfl, rfl⟩

theorem sameTable_noteChosen (h : JournalHandle) (through : ℕ) : SameTable h (h.noteChosen through) :=
  ⟨rfl, rfl, ⟨le_rfl, le_max_left _ _, le_rfl, le_rfl, fun _ => ⟨rfl, rfl⟩⟩, rfl, rfl, rfl⟩

theorem Tabled.upkeep {result : Option JournalHandle} (ht : Tabled databaseId h)
    (hop : Upkeep h effects result) : Publishes databaseId h effects result := by
  cases hop with
  | appendWrites writes => exact ht.appendWrites writes
  | trimThrough hfloor => exact ht.trimThrough hfloor
  | sync => exact ht.quiet (by simp [JournalHandle.sync]) (.refl h)
  | noteChosen through => exact ht.quiet (by simp) (sameTable_noteChosen h through)
  | noteTrimAnchor hmono => exact ht.quiet (by simp) (sameTable_noteTrimAnchor hmono)

theorem header_adopt (header : SegmentHeader) (records : List SegmentRecord) :
    (SegmentWriter.adopt header records).header = header := by
  have hfold : ∀ (w : SegmentWriter), (records.foldl SegmentWriter.append w).header = w.header := by
    induction records with
    | nil => exact fun w => rfl
    | cons record records ih => exact fun w => ih (w.append record)
  exact hfold (SegmentWriter.create header)

theorem Tabled.adoptActive (ht : Tabled databaseId h) (view : ℕ → Option SegmentView) :
    Publishes databaseId h (h.adoptActive view).1 (h.adoptActive view).2.toOption := by
  have hnone : Publishes databaseId h [] (some h) := ht.quiet (by simp) (.refl h)
  rw [JournalHandle.adoptActive]
  cases view h.activeFirstSlot with
  | none => exact ht.quiet (by simp) ⟨rfl, ht.active.symm, .refl _, rfl, rfl, rfl⟩
  | some file =>
    dsimp only
    cases file.sealedView with
    | ok found => exact ht.listSealed _ _
    | error e =>
      dsimp only
      rw [JournalHandle.resume]
      cases file.header with
      | error e => exact hnone.failed
      | ok header =>
        dsimp only
        split
        · exact hnone.failed
        · rename_i hheader
          cases file.adopted with
          | error e => exact hnone.failed
          | ok records =>
            have hfirst : header.firstGlobalSlot = h.activeFirstSlot := by
              by_contra hne
              exact hheader (.inr (.inl hne))
            refine ht.quiet (by simp) ⟨rfl, ?_, .refl _, rfl, rfl, rfl⟩
            show (SegmentWriter.adopt header records).header.firstGlobalSlot = _
            rw [header_adopt, hfirst, ht.active]

section Opening

variable {Durable : Type} {core : CoreLib Durable} {m : ManifestFile}

theorem replaySealed_raised {view : ℕ → Option SegmentView} {previous : Option HashBytes}
    {s s' : JournalReplay Durable} {entry : SegmentEntry}
    (hreplay : replaySealed core databaseId view previous s entry = .ok s') :
    s.maxPromised ≤ s'.maxPromised := by
  rw [replaySealed] at hreplay
  split at hreplay
  · simp only [bind, Except.bind] at hreplay
    split at hreplay
    · cases hreplay
    · split at hreplay
      · cases hreplay
      · split at hreplay
        · cases hreplay
        · rename_i s₁ hfold
          have hraised := (foldlM_raises hfold).le
          split at hreplay
          · obtain rfl := Except.ok.inj hreplay
            exact hraised
          · cases hreplay
  · cases hreplay

theorem replayListed_raised {view : ℕ → Option SegmentView} {previous : Option HashBytes}
    {s s' : JournalReplay Durable} (hreplay : replayListed core databaseId view previous s entries = .ok s') :
    s.maxPromised ≤ s'.maxPromised := by
  induction entries generalizing previous s with
  | nil =>
    obtain rfl := Except.ok.inj hreplay
    exact le_rfl
  | cons entry entries ih =>
    rw [replayListed] at hreplay
    cases hone : replaySealed core databaseId view previous s entry with
    | error e =>
      rw [hone] at hreplay
      cases hreplay
    | ok s₁ =>
      rw [hone] at hreplay
      exact (replaySealed_raised hone).trans (ih hreplay)

theorem sameTable_replayJournal {view : ℕ → Option SegmentView} {opened : Opened Durable}
    (hreplay : replayJournal core h view = .ok opened) : SameTable h opened.handle := by
  simp only [replayJournal, bind, Except.bind] at hreplay
  split at hreplay
  · cases hreplay
  · rename_i s₁ hlisted
    split at hreplay
    · cases hreplay
    · rename_i s₂ hactive
      split at hreplay
      · cases hreplay
      · obtain rfl := Except.ok.inj hreplay
        have hraised : h.maxPromised ≤ s₂.maxPromised :=
          (replayListed_raised hlisted).trans (foldlM_raises hactive).le
        exact ⟨rfl, rfl, ⟨hraised, le_rfl, le_rfl, le_rfl, fun _ => ⟨rfl, rfl⟩⟩, rfl, rfl, rfl⟩

theorem Loadable.tabled (hm : Loadable databaseId m) (rotationRecords : ℕ) :
    Tabled databaseId (JournalHandle.ofManifest rotationRecords m) := by
  have htable := hm.table
  rw [ManifestFile.tableValid, Bool.and_eq_true, decide_eq_true_eq] at htable
  exact ⟨hm.database, rfl, htable.1, htable.2⟩

/-- An open publishes tables that load, and ends with the one in the directory. -/
theorem Loadable.openJournal (hm : Loadable databaseId m) (rotationRecords : ℕ)
    (view : ℕ → Option SegmentView) :
    Publishes databaseId (JournalHandle.ofManifest rotationRecords m)
      (Zaxonlite.openJournal core databaseId rotationRecords ⟨some m, view⟩).1
      ((Zaxonlite.openJournal core databaseId rotationRecords ⟨some m, view⟩).2.toOption.map
        Opened.handle) := by
  have ht := hm.tabled rotationRecords
  have hload : loadManifest databaseId m = .ok m := if_pos ⟨hm.database, hm.table⟩
  have hadopt := ht.adoptActive view
  have hswept : Publishes databaseId (JournalHandle.ofManifest rotationRecords m)
      [.sweep (JournalHandle.ofManifest rotationRecords m).accounted]
      (some (JournalHandle.ofManifest rotationRecords m)) := ht.quiet (by simp) (.refl _)
  have hall := hswept.trans hadopt
  rw [Zaxonlite.openJournal]
  dsimp only
  rw [hload]
  dsimp only
  cases hresult : (JournalHandle.ofManifest rotationRecords m).adoptActive view with
  | mk effects result =>
    rw [hresult] at hall
    cases result with
    | error e => exact hall
    | ok h' =>
      dsimp only
      cases hreplay : replayJournal core h' view with
      | error e => exact hall.failed
      | ok opened =>
        have hsame := sameTable_replayJournal hreplay
        refine ⟨hall.loadable, fun h'' hok => ?_, fun h'' hok m' hm' => ?_⟩
        · obtain rfl := Option.some.inj hok
          exact (hall.tabled h' rfl).sameTable hsame
        · obtain rfl := Option.some.inj hok
          exact (hall.mirrors h' rfl m' hm').sameTable hsame

end Opening

end Tables

/-! ### Runs -/

section Runs

variable {Durable : Type} {core : CoreLib Durable} {databaseId : ℕ} {s s' : ManifestSystem}

/-- What holds between a journal and its published manifest. -/
structure ManifestSystem.Kept (databaseId : ℕ) (s : ManifestSystem) : Prop where
  loadable : Loadable databaseId s.published
  inRange : s.published.InRange
  running : ∀ h, s.handle = some h → Tabled databaseId h ∧ Mirrors h s.published

/-- A manifest that was left in place, or published. -/
theorem ManifestSystem.Kept.published {h : JournalHandle} {effects stretch : List FileEffect}
    {result : Option JournalHandle} (hs : s.Kept databaseId) (hp : Publishes databaseId h effects result)
    (hpart : stretch ⊆ effects) (hrange : ∀ m, .publish m ∈ stretch → m.InRange) :
    Loadable databaseId (lastPublished s.published stretch) ∧
      (lastPublished s.published stretch).InRange := by
  rcases lastPublished_mem s.published stretch with hsame | hmem
  · rw [hsame]
    exact ⟨hs.loadable, hs.inRange⟩
  · exact ⟨hp.loadable _ (hpart hmem), hrange _ hmem⟩

theorem inRange_createJournal (hid : databaseId < 256 ^ 16) (rotationRecords : ℕ) :
    (createJournal databaseId rotationRecords).2.manifestFile.InRange := by
  have hzero : 0 < 256 ^ 8 := by decide
  have hpart : 0 < 256 ^ 4 := by decide
  have hone : 1 < 256 ^ 8 := by decide
  have htwo : 2 < 256 ^ 8 := by decide
  exact ⟨⟨htwo, hid, hzero, hpart, hpart, hzero, hzero, hzero, hone,
    fun _ hno => absurd hno List.not_mem_nil⟩, hone⟩

theorem StartsCreated.kept (hs : StartsCreated databaseId s) : s.Kept databaseId := by
  obtain ⟨hid, rotationRecords, rfl⟩ := hs
  refine ⟨⟨rfl, rfl, Nat.zero_le _⟩, inRange_createJournal hid rotationRecords, fun h hrunning => ?_⟩
  obtain rfl := Option.some.inj hrunning
  exact ⟨⟨rfl, rfl, le_rfl, rfl⟩, ⟨rfl, .refl _, rfl, rfl⟩⟩

theorem mirrors_ofManifest (rotationRecords : ℕ) (m : ManifestFile) :
    Mirrors (JournalHandle.ofManifest rotationRecords m) m :=
  ⟨rfl, .refl _, rfl, rfl⟩

theorem ManifestSystem.Kept.step (hs : s.Kept databaseId) (hstep : ManifestStep core databaseId s s') :
    s'.Kept databaseId := by
  cases hstep with
  | @operate h h' effects hrunning hop hrange =>
    obtain ⟨ht, hmirrors⟩ := hs.running h hrunning
    have hp := ht.upkeep hop
    obtain ⟨hloadable, hinRange⟩ := hs.published hp (List.Subset.refl _) hrange
    refine ⟨hloadable, hinRange, fun h'' hsome => ?_⟩
    obtain rfl := Option.some.inj hsome
    exact ⟨hp.tabled h' rfl, hp.mirrors h' rfl _ hmirrors⟩
  | @crash h effects result done hrunning hop hrange =>
    obtain ⟨ht, -⟩ := hs.running h hrunning
    obtain ⟨hloadable, hinRange⟩ := hs.published (ht.upkeep hop) (List.take_subset _ _) hrange
    refine ⟨hloadable, hinRange, ?_⟩
    intro h' hno
    cases hno
  | @opens rotationRecords view effects opened hstopped hopen hrange =>
    have hp := @Loadable.openJournal databaseId Durable core _ hs.loadable rotationRecords view
    rw [hopen] at hp
    obtain ⟨hloadable, hinRange⟩ := hs.published hp (List.Subset.refl _) hrange
    refine ⟨hloadable, hinRange, fun h'' hsome => ?_⟩
    obtain rfl := Option.some.inj hsome
    exact ⟨hp.tabled _ rfl, hp.mirrors _ rfl _ (mirrors_ofManifest rotationRecords s.published)⟩
  | @openStops rotationRecords view done hstopped hrange =>
    have hp := @Loadable.openJournal databaseId Durable core _ hs.loadable rotationRecords view
    obtain ⟨hloadable, hinRange⟩ := hs.published hp (List.take_subset _ _) hrange
    refine ⟨hloadable, hinRange, ?_⟩
    intro h' hno
    cases hno

theorem encode_of_count {m : ManifestFile} (h : m.segments.length ≤ maxSegments) :
    ∃ bytes, m.encode = .ok bytes :=
  ⟨_, if_neg (Nat.not_lt.2 h)⟩

/-- **Every manifest the journal publishes is one it loads.** At any point of any run the bytes in the
directory load as the manifest they were published from. A running journal still has its generation, its
table and its active slot, under first slots that strictly increase; its rollup and its anchor are the
published ones or later. Nothing with a gap, an overlap or a hole above the anchor loads. -/
theorem manifestSystem_loads (hs : Reachable (StartsCreated databaseId) (ManifestStep core databaseId) s) :
    (∃ bytes, s.published.encode = .ok bytes ∧ decodeManifest databaseId bytes = .ok s.published) ∧
    (∀ h, s.handle = some h → Mirrors h s.published ∧
      (h.segments.map SegmentEntry.firstSlot ++ [h.activeFirstSlot]).Pairwise (· < ·)) ∧
    ∀ bytes m, decodeManifest databaseId bytes = .ok m → m.Gapless := by
  have hkept : s.Kept databaseId :=
    hs.invariant (fun _ hinit => hinit.kept) fun _ _ hkept hstep => hkept.step hstep
  refine ⟨?_, fun h hrunning => ?_, fun bytes m hload => (ManifestFile.gapless_of_decodeManifest hload).1⟩
  · obtain ⟨bytes, hbytes⟩ := encode_of_count hkept.loadable.count
    have hload := ManifestFile.decodeManifest_encode hkept.inRange.toFits hbytes
    rw [hkept.loadable.database, if_pos hkept.loadable.table] at hload
    exact ⟨bytes, hbytes, hload⟩
  · obtain ⟨ht, hmirrors⟩ := hkept.running h hrunning
    exact ⟨hmirrors, contiguous_increasing ht.contiguous⟩

end Runs

theorem inRange_rotated (m : ManifestFile)
    (hm : .publish m ∈ ((createJournal 7 1).2.appendWrites [noopCommit 1, noopCommit 2]).1) :
    m.InRange := by
  have heffects : ((createJournal 7 1).2.appendWrites [noopCommit 1, noopCommit 2]).1 =
      [.append _ _, .seal _ _, .sync _, .publish _, .create _ _, .append _ _] := rfl
  rw [heffects] at hm
  simp only [List.mem_cons, FileEffect.publish.injEq, reduceCtorEq, List.not_mem_nil, or_false,
    false_or] at hm
  have hzero : 0 < 256 ^ 8 := by decide
  have hpart : 0 < 256 ^ 4 := by decide
  have hone : 1 < 256 ^ 8 := by decide
  have htwo : 2 < 256 ^ 8 := by decide
  have hthree : 3 < 256 ^ 8 := by decide
  have hid : 7 < 256 ^ 16 := by decide
  rw [hm]
  refine ⟨⟨hthree, hid, hzero, hpart, hpart, hzero, hzero, hzero, htwo, ?_⟩, hone⟩
  intro entry hentry
  obtain rfl := List.mem_singleton.1 hentry
  exact ⟨hone, hone⟩

/-- Two commits at one record a segment: the first segment is sealed and listed. -/
theorem manifestSystem_loads_sample : ∃ s, Reachable (StartsCreated 7) (ManifestStep replayLog 7) s ∧
    s.published.segments.length = 1 ∧ s.published.activeFirstSlot = 2 ∧
    ∃ bytes, s.published.encode = .ok bytes ∧ decodeManifest 7 bytes = .ok s.published := by
  have hcreated : Reachable (StartsCreated 7) (ManifestStep replayLog 7)
      ⟨some (createJournal 7 1).2, (createJournal 7 1).2.manifestFile⟩ :=
    .start ⟨by decide, 1, rfl⟩
  have happended := hcreated.step (.operate rfl (.appendWrites [noopCommit 1, noopCommit 2])
    inRange_rotated)
  obtain ⟨hloads, -⟩ := manifestSystem_loads happended
  exact ⟨_, happended, rfl, rfl, hloads⟩

theorem unlisted_below_active : ∃ effects₁ h₁ effects₂ h₂ effects₃ h₃,
    (createJournal 7 1).2.appendWrites [noopCommit 1, noopCommit 2] = (effects₁, .ok h₁) ∧
    1 ≤ (h₁.noteTrimAnchor 1 1 Journal.zeroHash).trimmedThrough ∧
    (h₁.noteTrimAnchor 1 1 Journal.zeroHash).trimThrough 1 = (effects₂, .ok (true, h₂)) ∧
    (h₂.noteTrimAnchor 2 0 Journal.zeroHash).appendWrites [noopCommit 3] = (effects₃, .ok h₃) ∧
    lastPublished h₂.manifestFile effects₃ = h₃.manifestFile ∧
    h₃.manifestFile.segments.length ≤ maxSegments ∧ h₃.manifestFile.Fits ∧
    h₃.manifestFile.databaseId = 7 ∧ h₃.manifestFile.tableValid = false := by
  have hzero : 0 < 256 ^ 8 := by decide
  have hpart : 0 < 256 ^ 4 := by decide
  have htwo : 2 < 256 ^ 8 := by decide
  have hthree : 3 < 256 ^ 8 := by decide
  have hfive : 5 < 256 ^ 8 := by decide
  have hid : 7 < 256 ^ 16 := by decide
  refine ⟨_, _, _, _, _, _, rfl, le_rfl, rfl, rfl, rfl, ?_, ?_, rfl, rfl⟩
  · show 1 ≤ maxSegments
    decide
  · refine ⟨hfive, hid, hzero, hpart, hpart, hzero, htwo, hzero, hthree, fun entry hentry => ?_⟩
    obtain rfl := List.mem_singleton.1 hentry
    exact ⟨htwo, htwo⟩

/-- **An anchor decided later that names a lower slot** is published with a hole above it: the bytes in the
directory are refused. -/
theorem lowered_trim_anchor_published : ∃ effects₁ h₁ effects₂ h₂ effects₃ h₃ bytes,
    (createJournal 7 1).2.appendWrites [noopCommit 1, noopCommit 2] = (effects₁, .ok h₁) ∧
    1 ≤ (h₁.noteTrimAnchor 1 1 Journal.zeroHash).trimmedThrough ∧
    (h₁.noteTrimAnchor 1 1 Journal.zeroHash).trimThrough 1 = (effects₂, .ok (true, h₂)) ∧
    (h₂.noteTrimAnchor 2 0 Journal.zeroHash).appendWrites [noopCommit 3] = (effects₃, .ok h₃) ∧
    lastPublished h₂.manifestFile effects₃ = h₃.manifestFile ∧
    h₃.manifestFile.encode = .ok bytes ∧ decodeManifest 7 bytes = .error .corruptManifest := by
  obtain ⟨effects₁, h₁, effects₂, h₂, effects₃, h₃, hfirst, hthrough, htrim, hsecond, hpublished, hcount,
    hfits, hid, hhole⟩ := unlisted_below_active
  obtain ⟨bytes, hbytes⟩ := encode_of_count hcount
  have hload := ManifestFile.decodeManifest_encode hfits hbytes
  rw [hid, hhole, if_neg Bool.false_ne_true] at hload
  exact ⟨effects₁, h₁, effects₂, h₂, effects₃, h₃, bytes, hfirst, hthrough, htrim, hsecond, hpublished,
    hbytes, hload⟩

end Zaxonlite
