import Zaxonlite.Runs.Retention

/-!
# The promise across crashes

An acceptor must never fall behind a ballot it has promised. The ballot survives in the manifest and in
the synced records of the files the manifest names. Runs append, rotate, trim and reopen; a crash may
stop any of them after any of its effects and lose the unsynced end of the active segment. A run
carries every ballot that was ever synced, and the greatest promised ballot at each publish and at each
successful open.
-/

namespace Zaxonlite

open Run

section Raise

variable {ballot : Ballot} {write : Write}

theorem raiseBallot_of_ballot {b : Ballot} (h : write.ballot? = some b) :
    raiseBallot ballot write = max ballot b := by
  rw [raiseBallot, h]
  simp only [Ballot.lessThan_iff]
  rcases lt_or_ge ballot b with hlt | hge
  · rw [if_pos hlt, max_eq_right hlt.le]
  · rw [if_neg (not_lt.2 hge), max_eq_left hge]

theorem raiseBallot_of_none (h : write.ballot? = none) : raiseBallot ballot write = ballot := by
  rw [raiseBallot, h]

theorem le_raiseBallot (ballot : Ballot) (write : Write) : ballot ≤ raiseBallot ballot write := by
  cases h : write.ballot? with
  | none => rw [raiseBallot_of_none h]
  | some b =>
    rw [raiseBallot_of_ballot h]
    exact le_max_left _ _

end Raise

/-! ### What holds a ballot -/

section Durable

variable {Durable : Type} (core : CoreLib Durable)

def recordBallot (record : SegmentRecord) : Option Ballot :=
  match decodeWrite core.createStop record.payload with
  | .ok write => write.ballot?
  | .error _ => none

def SegmentFile.ballots (file : SegmentFile) : List Ballot :=
  file.records.filterMap (recordBallot core)

def SegmentFile.syncedBallots (file : SegmentFile) : List Ballot :=
  (file.records.take file.synced).filterMap (recordBallot core)

def ManifestFile.names (m : ManifestFile) : List ℕ :=
  m.activeFirstSlot :: m.segments.map SegmentEntry.firstSlot

/-- A ballot that no crash can take back: the manifest or a synced record reaches it. -/
def Durably (d : Directory) (ballot : Ballot) : Prop :=
  ∃ m, d.manifest = some m ∧ (ballot ≤ m.rollup.maxPromised ∨
    ∃ name ∈ m.names, ∃ file, d.files name = some file ∧ ∃ b ∈ file.syncedBallots core, ballot ≤ b)

/-- No ballot in the directory is above `bound`. -/
structure Bounded (d : Directory) (bound : Ballot) : Prop where
  manifest : ∀ m, d.manifest = some m → m.rollup.maxPromised ≤ bound
  files : ∀ name file, d.files name = some file → ∀ b ∈ file.ballots core, b ≤ bound

/-- The directory of a running journal: the handle has seen every ballot in it. -/
structure Running (h : JournalHandle) (d : Directory) : Prop where
  bounded : Bounded core d h.maxPromised
  active : ∃ m, d.manifest = some m ∧ m.activeFirstSlot = h.activeFirstSlot

variable {core} {d d' : Directory} {ballot bound : Ballot}

theorem SegmentFile.mem_ballots_of_synced {file : SegmentFile} (h : ballot ∈ file.syncedBallots core) :
    ballot ∈ file.ballots core := by
  rw [SegmentFile.syncedBallots, List.mem_filterMap] at h
  obtain ⟨record, hrecord, hballot⟩ := h
  exact List.mem_filterMap.2 ⟨record, List.mem_of_mem_take hrecord, hballot⟩

theorem Durably.le (h : Durably core d ballot) (hbound : Bounded core d bound) : ballot ≤ bound := by
  obtain ⟨m, hm, hle | ⟨name, -, file, hfile, b, hb, hle⟩⟩ := h
  · exact hle.trans (hbound.manifest m hm)
  · exact hle.trans (hbound.files name file hfile b (SegmentFile.mem_ballots_of_synced hb))

/-- A change that keeps the manifest and the synced part of every file it names. -/
theorem Durably.mono (h : Durably core d ballot) (hmanifest : d'.manifest = d.manifest)
    (hfiles : ∀ m, d.manifest = some m → ∀ name ∈ m.names, ∀ file, d.files name = some file →
      ∃ file', d'.files name = some file' ∧ file.syncedBallots core ⊆ file'.syncedBallots core) :
    Durably core d' ballot := by
  obtain ⟨m, hm, hle | ⟨name, hname, file, hfile, b, hb, hle⟩⟩ := h
  · exact ⟨m, hmanifest.trans hm, Or.inl hle⟩
  · obtain ⟨file', hfile', hsub⟩ := hfiles m hm name hname file hfile
    exact ⟨m, hmanifest.trans hm, Or.inr ⟨name, hname, file', hfile', b, hsub hb, hle⟩⟩

theorem Durably.modify (h : Durably core d ballot) (name : ℕ) {f : SegmentFile → SegmentFile}
    (hf : ∀ file, d.files name = some file → file.syncedBallots core ⊆ (f file).syncedBallots core) :
    Durably core (d.modify name f) ballot := by
  refine Durably.mono h rfl ?_
  intro m hm other _ file hfile
  by_cases heq : other = name
  · subst heq
    exact ⟨f file, by simp only [Directory.modify, Function.update_self, hfile, Option.map_some],
      hf file hfile⟩
  · exact ⟨file, by simp only [Directory.modify, Function.update_of_ne heq, hfile], fun _ hb => hb⟩

theorem Bounded.modify (h : Bounded core d bound) (name : ℕ) {f : SegmentFile → SegmentFile}
    (hf : ∀ file, d.files name = some file → ∀ b ∈ (f file).ballots core, b ≤ bound) :
    Bounded core (d.modify name f) bound := by
  refine ⟨h.manifest, fun other file hfile => ?_⟩
  by_cases heq : other = name
  · subst heq
    simp only [Directory.modify, Function.update_self, Option.map_eq_some_iff] at hfile
    obtain ⟨file₀, hfile₀, rfl⟩ := hfile
    exact hf file₀ hfile₀
  · simp only [Directory.modify, Function.update_of_ne heq] at hfile
    exact h.files other file hfile

/-- Where the manifest covers every ballot in the directory, the files do not matter. -/
theorem Durably.of_covered (h : Durably core d ballot) {m : ManifestFile}
    (hbound : Bounded core d m.rollup.maxPromised) (hmanifest : d'.manifest = some m) :
    Durably core d' ballot :=
  ⟨m, hmanifest, Or.inl (h.le hbound)⟩

theorem Bounded.publish (h : Bounded core d bound) {m : ManifestFile} (hm : m.rollup.maxPromised ≤ bound) :
    Bounded core (d.apply (.publish m)) bound := by
  refine ⟨?_, h.files⟩
  intro m' hm'
  obtain rfl := Option.some.inj hm'
  exact hm

theorem Bounded.create (h : Bounded core d bound) (name : ℕ) (header : SegmentHeader) :
    Bounded core (d.apply (.create name header)) bound := by
  refine ⟨h.manifest, fun other file hfile => ?_⟩
  by_cases heq : other = name
  · subst heq
    simp only [Directory.apply, Function.update_self, Option.some.injEq] at hfile
    subst hfile
    exact fun b hb => absurd hb List.not_mem_nil
  · simp only [Directory.apply, Function.update_of_ne heq] at hfile
    exact h.files other file hfile

theorem Bounded.delete (h : Bounded core d bound) (name : ℕ) :
    Bounded core (d.apply (.delete name)) bound := by
  refine ⟨h.manifest, fun other file hfile => ?_⟩
  by_cases heq : other = name
  · subst heq
    simp only [Directory.apply, Function.update_self] at hfile
    cases hfile
  · simp only [Directory.apply, Function.update_of_ne heq] at hfile
    exact h.files other file hfile

theorem Bounded.mono {bound' : Ballot} (h : Bounded core d bound) (hle : bound ≤ bound') :
    Bounded core d bound' :=
  ⟨fun m hm => (h.manifest m hm).trans hle, fun name file hfile b hb =>
    (h.files name file hfile b hb).trans hle⟩

end Durable

/-! ### Effects with their history -/

/-- A directory, the ballots that were ever synced in it, and the greatest promised ballot at each publish
and each successful open, oldest first. -/
structure PromiseLog where
  directory : Directory
  synced : List Ballot
  marks : List Ballot

section Effects

variable {Durable : Type} (core : CoreLib Durable)

def FileEffect.syncs (d : Directory) : FileEffect → List Ballot
  | .sync name => ((d.files name).map (SegmentFile.ballots core)).getD []
  | _ => []

def FileEffect.publishes : FileEffect → List Ballot
  | .publish manifest => [manifest.rollup.maxPromised]
  | _ => []

namespace PromiseLog

def apply (l : PromiseLog) (effect : FileEffect) : PromiseLog where
  directory := l.directory.apply effect
  synced := l.synced ++ effect.syncs core l.directory
  marks := l.marks ++ effect.publishes

def applyAll (l : PromiseLog) (effects : List FileEffect) : PromiseLog :=
  effects.foldl (apply core) l

/-- Every ballot ever synced is durable, and in a clean run every mark is, and the marks ascend. -/
structure Guarded (clean : Prop) (l : PromiseLog) : Prop where
  synced : ∀ ballot ∈ l.synced, Durably core l.directory ballot
  marks : clean → ∀ ballot ∈ l.marks, Durably core l.directory ballot
  sorted : clean → l.marks.Pairwise (· ≤ ·)

def Along (clean : Prop) : PromiseLog → List FileEffect → Prop
  | l, [] => l.Guarded core clean
  | l, effect :: effects => l.Guarded core clean ∧ Along clean (l.apply core effect) effects

variable {core} {clean : Prop} {l : PromiseLog} {bound : Ballot}

theorem Along.append {xs ys : List FileEffect} (hxs : Along core clean l xs)
    (hys : Along core clean (l.applyAll core xs) ys) : Along core clean l (xs ++ ys) := by
  induction xs generalizing l with
  | nil => exact hys
  | cons effect xs ih => exact ⟨hxs.1, ih hxs.2 hys⟩

theorem Along.take {effects : List FileEffect} (h : Along core clean l effects) (n : ℕ) :
    (l.applyAll core (effects.take n)).Guarded core clean := by
  induction effects generalizing l n with
  | nil =>
    rw [List.take_nil]
    exact h
  | cons effect effects ih =>
    cases n with
    | zero => exact h.1
    | succ n => exact ih h.2 n

theorem Along.last {effects : List FileEffect} (h : Along core clean l effects) :
    (l.applyAll core effects).Guarded core clean := by
  have htake := h.take effects.length
  rwa [List.take_length] at htake

theorem applyAll_append (l : PromiseLog) (xs ys : List FileEffect) :
    l.applyAll core (xs ++ ys) = (l.applyAll core xs).applyAll core ys :=
  List.foldl_append

theorem directory_applyAll (l : PromiseLog) (effects : List FileEffect) :
    (l.applyAll core effects).directory = l.directory.applyAll effects := by
  induction effects generalizing l with
  | nil => rfl
  | cons effect effects ih => exact ih (l.apply core effect)

/-- An effect that syncs and publishes nothing and keeps every durable ballot. -/
theorem Guarded.keep (h : l.Guarded core clean) {effect : FileEffect}
    (hsyncs : effect.syncs core l.directory = []) (hpublishes : effect.publishes = [])
    (hkeep : ∀ ballot, Durably core l.directory ballot →
      Durably core (l.directory.apply effect) ballot) :
    (l.apply core effect).Guarded core clean := by
  have hsynced : (l.apply core effect).synced = l.synced := by
    rw [apply, hsyncs, List.append_nil]
  have hmarks : (l.apply core effect).marks = l.marks := by
    rw [apply, hpublishes, List.append_nil]
  refine ⟨?_, ?_, ?_⟩
  · rw [hsynced]
    exact fun ballot hb => hkeep ballot (h.synced ballot hb)
  · rw [hmarks]
    exact fun hclean ballot hb => hkeep ballot (h.marks hclean ballot hb)
  · rw [hmarks]
    exact h.sorted

theorem Guarded.sync (h : l.Guarded core clean) {name : ℕ} {m : ManifestFile}
    (hm : l.directory.manifest = some m) (hname : name ∈ m.names) :
    (l.apply core (.sync name)).Guarded core clean := by
  have hall : ∀ file : SegmentFile, ({ file with synced := file.records.length } :
      SegmentFile).syncedBallots core = file.ballots core := by
    intro file
    rw [SegmentFile.syncedBallots, List.take_length]
    rfl
  have hkeep : ∀ ballot, Durably core l.directory ballot →
      Durably core (l.directory.apply (.sync name)) ballot := by
    intro ballot hballot
    apply hballot.modify
    intro file _ b hb
    rw [hall]
    exact SegmentFile.mem_ballots_of_synced hb
  have hmarks : (l.apply core (.sync name)).marks = l.marks := List.append_nil _
  refine ⟨?_, ?_, ?_⟩
  · intro ballot hballot
    rcases List.mem_append.1 hballot with hold | hnew
    · exact hkeep ballot (h.synced ballot hold)
    · cases hfile : l.directory.files name with
      | none =>
        simp only [FileEffect.syncs, hfile, Option.map_none, Option.getD_none, List.not_mem_nil] at hnew
      | some file =>
        simp only [FileEffect.syncs, hfile, Option.map_some, Option.getD_some] at hnew
        refine ⟨m, hm, Or.inr ⟨name, hname, { file with synced := file.records.length }, ?_, ballot, ?_,
          le_rfl⟩⟩
        · simp only [apply, Directory.apply, Directory.modify, Function.update_self, hfile,
            Option.map_some]
        · rw [hall]
          exact hnew
  · rw [hmarks]
    exact fun hclean ballot hb => hkeep ballot (h.marks hclean ballot hb)
  · rw [hmarks]
    exact h.sorted

/-- Publishing a manifest that covers every ballot in the directory. -/
theorem Guarded.publish (h : l.Guarded core clean) {m : ManifestFile}
    (hbound : Bounded core l.directory m.rollup.maxPromised) :
    (l.apply core (.publish m)).Guarded core clean := by
  have hcovered : ∀ ballot, ballot ≤ m.rollup.maxPromised →
      Durably core (l.directory.apply (.publish m)) ballot :=
    fun ballot hle => ⟨m, rfl, Or.inl hle⟩
  refine ⟨?_, ?_, ?_⟩
  · intro ballot hballot
    rcases List.mem_append.1 hballot with hold | hnew
    · exact hcovered ballot ((h.synced ballot hold).le hbound)
    · exact absurd hnew List.not_mem_nil
  · intro hclean ballot hballot
    rcases List.mem_append.1 hballot with hold | hnew
    · exact hcovered ballot ((h.marks hclean ballot hold).le hbound)
    · rw [FileEffect.publishes, List.mem_singleton] at hnew
      exact hcovered ballot hnew.le
  · intro hclean
    refine List.pairwise_append.2 ⟨h.sorted hclean, List.pairwise_singleton _ _, ?_⟩
    intro ballot hballot last hlast
    rw [FileEffect.publishes, List.mem_singleton] at hlast
    rw [hlast]
    exact (h.marks hclean ballot hballot).le hbound

/-- A handle's effects keep every ballot guarded, and a handle it ends with runs. -/
structure Carries (core : CoreLib Durable) (clean : Prop) (l : PromiseLog)
    (outcome : List FileEffect × Except JournalError JournalHandle) : Prop where
  along : Along core clean l outcome.1
  running : ∀ h, outcome.2 = .ok h → Running core h (l.applyAll core outcome.1).directory

theorem Carries.append {effects effects' : List FileEffect} {h : JournalHandle}
    {result : Except JournalError JournalHandle} (hfirst : Carries core clean l (effects, .ok h))
    (hnext : Carries core clean (l.applyAll core effects) (effects', result)) :
    Carries core clean l (effects ++ effects', result) := by
  refine ⟨hfirst.along.append hnext.along, ?_⟩
  intro h' hh'
  rw [applyAll_append]
  exact hnext.running h' hh'

section Operations

variable {h : JournalHandle}

theorem carries_sync (hg : l.Guarded core clean) (hr : Running core h l.directory) :
    Carries core clean l (h.sync, .ok h) := by
  obtain ⟨m, hm, hactive⟩ := hr.active
  refine ⟨⟨hg, hg.sync hm (hactive ▸ List.mem_cons_self)⟩, ?_⟩
  intro h' hh'
  obtain rfl := Except.ok.inj hh'
  exact ⟨hr.bounded.modify _ fun file hfile => hr.bounded.files _ file hfile, m, hm, hactive⟩

theorem carries_startNext (hg : l.Guarded core clean) (hbound : Bounded core l.directory h.maxPromised)
    (digest : HashBytes) : Carries core clean l (h.startNext digest) := by
  rw [JournalHandle.startNext, JournalHandle.publishManifest]
  split
  · rename_i hpublished
    split at hpublished
    · refine ⟨hg, ?_⟩
      intro h' hno
      cases hno
    · cases hpublished
  · rename_i published hpublished
    split at hpublished
    · cases hpublished
    · obtain rfl := Except.ok.inj hpublished
      set m : ManifestFile := JournalHandle.manifestFile { h with generation := h.generation + 1 }
      have hpub := hg.publish (m := m) hbound
      have hbound' : Bounded core (l.apply core (.publish m)).directory h.maxPromised :=
        hbound.publish le_rfl
      refine ⟨⟨hg, hpub, hpub.keep rfl rfl ?_⟩, ?_⟩
      · intro ballot hballot
        exact hballot.of_covered hbound' rfl
      · intro h' hh'
        obtain rfl := Except.ok.inj hh'
        exact ⟨hbound'.create _ _, m, rfl, rfl⟩

theorem carries_rotate (hg : l.Guarded core clean) (hr : Running core h l.directory) :
    Carries core clean l h.rotate := by
  obtain ⟨m, hm, hactive⟩ := hr.active
  have hseal : (l.apply core (.seal h.activeFirstSlot (h.active.trailer h.chosenHint))).Guarded core
      clean := by
    apply hg.keep rfl rfl
    intro ballot hballot
    exact hballot.modify _ fun file _ => List.Subset.refl _
  have hbound : Bounded core (l.apply core (.seal h.activeFirstSlot
      (h.active.trailer h.chosenHint))).directory h.maxPromised :=
    hr.bounded.modify _ fun file hfile => hr.bounded.files _ file hfile
  have hname : h.activeFirstSlot ∈ m.names := hactive ▸ List.mem_cons_self
  have hsync := hseal.sync hm hname
  have hbound' := hbound.modify (f := fun file => { file with synced := file.records.length })
    h.activeFirstSlot fun file hfile => hbound.files _ file hfile
  have hnext := carries_startNext (h := h.listSealed h.active.header.firstGlobalSlot h.active.lastSlot
    (h.active.trailer h.chosenHint).segmentDigest) hsync hbound'
    (h.active.trailer h.chosenHint).segmentDigest
  exact ⟨⟨hg, hseal, hnext.along⟩, hnext.running⟩

theorem recordBallot_recordOf {write : Write} (hcanonical : write.Canonical core.createStop)
    (sequence : ℕ) : recordBallot core (recordOf sequence write) = write.ballot? := by
  have hdecode : decodeWrite core.createStop (recordOf sequence write).payload = .ok write :=
    decodeWrite_encodeWrite hcanonical
  rw [recordBallot, hdecode]

theorem maxPromised_appendRecord (h : JournalHandle) (write : Write) :
    (h.appendRecord write).maxPromised = raiseBallot h.maxPromised write := by
  rw [JournalHandle.appendRecord, raiseBallot]
  cases write.ballot? <;> rfl

theorem activeFirstSlot_appendRecord (h : JournalHandle) (write : Write) :
    (h.appendRecord write).activeFirstSlot = h.activeFirstSlot := by
  rw [JournalHandle.appendRecord]
  cases write.ballot? <;> rfl

theorem carries_appendRecord (hg : l.Guarded core clean) (hr : Running core h l.directory) {write : Write}
    (hcanonical : write.Canonical core.createStop) :
    Carries core clean l
      ([.append h.activeFirstSlot (recordOf h.nextSequence write)], .ok (h.appendRecord write)) := by
  obtain ⟨m, hm, hactive⟩ := hr.active
  refine ⟨⟨hg, hg.keep rfl rfl ?_⟩, ?_⟩
  · intro ballot hballot
    apply hballot.modify
    intro file _ b hb
    rw [SegmentFile.syncedBallots] at hb ⊢
    rw [List.take_append, List.filterMap_append]
    exact List.mem_append_left _ hb
  · intro h' hh'
    obtain rfl := Except.ok.inj hh'
    refine ⟨?_, m, hm, hactive.trans (activeFirstSlot_appendRecord h write).symm⟩
    have hbound : Bounded core l.directory (h.appendRecord write).maxPromised := by
      rw [maxPromised_appendRecord]
      exact hr.bounded.mono (le_raiseBallot _ _)
    apply hbound.modify
    intro file hfile b hb
    rw [SegmentFile.ballots, List.filterMap_append] at hb
    rcases List.mem_append.1 hb with hold | hnew
    · exact hbound.files _ file hfile b hold
    · obtain ⟨record, hrecord, hballot⟩ := List.mem_filterMap.1 hnew
      obtain rfl := List.mem_singleton.1 hrecord
      rw [recordBallot_recordOf hcanonical] at hballot
      rw [maxPromised_appendRecord, raiseBallot_of_ballot hballot]
      exact le_max_right _ _

theorem carries_appendWrite (hg : l.Guarded core clean) (hr : Running core h l.directory) {write : Write}
    (hcanonical : write.Canonical core.createStop) :
    Carries core clean l (h.appendWrite write) := by
  rw [JournalHandle.appendWrite]
  split
  · have hrotate := carries_rotate hg hr
    split
    · rename_i effects e heq
      rw [heq] at hrotate
      refine ⟨hrotate.along, ?_⟩
      intro h' hno
      cases hno
    · rename_i effects rotated heq
      rw [heq] at hrotate
      exact hrotate.append (carries_appendRecord hrotate.along.last (hrotate.running _ rfl) hcanonical)
  · exact carries_appendRecord hg hr hcanonical

theorem carries_appendWrites (hg : l.Guarded core clean) (hr : Running core h l.directory)
    {writes : List Write} (hcanonical : ∀ write ∈ writes, write.Canonical core.createStop) :
    Carries core clean l (h.appendWrites writes) := by
  induction writes generalizing h l with
  | nil =>
    refine ⟨hg, ?_⟩
    intro h' hh'
    obtain rfl := Except.ok.inj hh'
    exact hr
  | cons write writes ih =>
    have hone := carries_appendWrite hg hr (hcanonical write List.mem_cons_self)
    rw [JournalHandle.appendWrites]
    split
    · rename_i effects e heq
      rw [heq] at hone
      refine ⟨hone.along, ?_⟩
      intro h' hno
      cases hno
    · rename_i effects h₁ heq
      rw [heq] at hone
      exact hone.append (ih hone.along.last (hone.running _ rfl)
        fun w hw => hcanonical w (List.mem_cons_of_mem _ hw))

/-- Unlinking files once the manifest covers every ballot in the directory. -/
theorem carries_deleteAll (hg : l.Guarded core clean) {m : ManifestFile}
    (hm : l.directory.manifest = some m) (hbound : Bounded core l.directory m.rollup.maxPromised)
    (names : List ℕ) :
    Along core clean l (names.map FileEffect.delete) ∧
      Bounded core (l.applyAll core (names.map FileEffect.delete)).directory m.rollup.maxPromised ∧
      (l.applyAll core (names.map FileEffect.delete)).directory.manifest = some m := by
  induction names generalizing l with
  | nil => exact ⟨hg, hbound, hm⟩
  | cons name names ih =>
    have hkeep : (l.apply core (.delete name)).Guarded core clean :=
      hg.keep rfl rfl fun ballot hballot => hballot.of_covered hbound hm
    obtain ⟨halong, hrest⟩ := ih hkeep hm (hbound.delete name)
    exact ⟨⟨hg, halong⟩, hrest⟩

theorem carries_trimThrough (hg : l.Guarded core clean) (hr : Running core h l.directory) (floor : ℕ) :
    Along core clean l (h.trimThrough floor).1 ∧ ∀ any h', (h.trimThrough floor).2 = .ok (any, h') →
      Running core h' (l.applyAll core (h.trimThrough floor).1).directory := by
  rw [JournalHandle.trimThrough, JournalHandle.publishManifest]
  split
  · refine ⟨hg, ?_⟩
    intro any h' hok
    rw [Except.ok.injEq, Prod.mk.injEq] at hok
    obtain ⟨-, rfl⟩ := hok
    exact hr
  · split
    · rename_i hpublished
      split at hpublished
      · refine ⟨hg, ?_⟩
        intro any h' hno
        cases hno
      · cases hpublished
    · rename_i published hpublished
      split at hpublished
      · cases hpublished
      · obtain rfl := Except.ok.inj hpublished
        set kept := h.segments.dropWhile fun entry => decide (entry.lastSlot ≤ floor)
        set m : ManifestFile := JournalHandle.manifestFile
          { h with segments := kept, generation := h.generation + 1 }
        have hpub := hg.publish (m := m) hr.bounded
        have hbound : Bounded core (l.apply core (.publish m)).directory m.rollup.maxPromised :=
          hr.bounded.publish le_rfl
        obtain ⟨halong, hbound', hm⟩ := carries_deleteAll hpub rfl hbound
          ((h.removable floor).map SegmentEntry.firstSlot)
        rw [List.map_map] at halong hbound' hm
        refine ⟨⟨hg, halong⟩, ?_⟩
        intro any h' hok
        rw [Except.ok.injEq, Prod.mk.injEq] at hok
        obtain ⟨-, rfl⟩ := hok
        exact ⟨hbound', m, hm, rfl⟩

end Operations

end PromiseLog

end Effects

/-! ### Opening -/

/-- A greatest ballot raised from `a` to `b` by ballots. -/
structure Raised (ballots : List Ballot) (a b : Ballot) : Prop where
  le : a ≤ b
  bounds : ∀ ballot ∈ ballots, ballot ≤ b
  attained : b = a ∨ b ∈ ballots

theorem Raised.refl (a : Ballot) : Raised [] a a :=
  ⟨le_rfl, fun _ hno => absurd hno List.not_mem_nil, Or.inl rfl⟩

theorem Raised.trans {xs ys : List Ballot} {a b c : Ballot} (hab : Raised xs a b) (hbc : Raised ys b c) :
    Raised (xs ++ ys) a c := by
  refine ⟨hab.le.trans hbc.le, ?_, ?_⟩
  · intro ballot hballot
    rcases List.mem_append.1 hballot with hx | hy
    · exact (hab.bounds ballot hx).trans hbc.le
    · exact hbc.bounds ballot hy
  · rcases hbc.attained with rfl | hc
    · rcases hab.attained with rfl | hb
      · exact Or.inl rfl
      · exact Or.inr (List.mem_append_left _ hb)
    · exact Or.inr (List.mem_append_right _ hc)

theorem raised_raiseBallot (a : Ballot) (write : Write) :
    Raised write.ballot?.toList a (raiseBallot a write) := by
  cases h : write.ballot? with
  | none =>
    rw [raiseBallot_of_none h]
    exact Raised.refl a
  | some b =>
    rw [raiseBallot_of_ballot h]
    refine ⟨le_max_left _ _, ?_, ?_⟩
    · intro ballot hballot
      rw [Option.toList_some, List.mem_singleton] at hballot
      exact hballot ▸ le_max_right _ _
    · rcases le_total a b with hle | hle
      · exact Or.inr (by rw [max_eq_right hle, Option.toList_some, List.mem_singleton])
      · exact Or.inl (max_eq_left hle)

section Open

variable {Durable : Type} {core : CoreLib Durable} {d : Directory} {s s' : JournalReplay Durable}

theorem replayRecord_raises {record : SegmentRecord}
    (h : JournalReplay.replayRecord core s record = .ok s') :
    Raised (recordBallot core record).toList s.maxPromised s'.maxPromised := by
  rw [JournalReplay.replayRecord] at h
  split at h
  · cases h
  · cases hdecode : decodeWrite core.createStop record.payload with
    | error e =>
      rw [hdecode] at h
      cases h
    | ok write =>
      rw [hdecode] at h
      cases hfold : core.replayFold s.durable write with
      | none =>
        simp only [hfold] at h
        cases h
      | some durable =>
        simp only [hfold] at h
        obtain rfl := Except.ok.inj h
        rw [recordBallot, hdecode]
        exact raised_raiseBallot s.maxPromised write

theorem foldlM_raises {records : List SegmentRecord}
    (h : records.foldlM (JournalReplay.replayRecord core) s = .ok s') :
    Raised (records.filterMap (recordBallot core)) s.maxPromised s'.maxPromised := by
  induction records generalizing s with
  | nil =>
    obtain rfl := Except.ok.inj h
    exact Raised.refl _
  | cons record records ih =>
    rw [List.foldlM_cons] at h
    cases hone : JournalReplay.replayRecord core s record with
    | error e =>
      rw [hone] at h
      cases h
    | ok s₁ =>
      rw [hone] at h
      have hraised := (replayRecord_raises hone).trans (ih h)
      have hsplit : (record :: records).filterMap (recordBallot core) =
          (recordBallot core record).toList ++ records.filterMap (recordBallot core) := by
        cases hballot : recordBallot core record with
        | none => rw [List.filterMap_cons_none hballot, Option.toList_none, List.nil_append]
        | some b => rw [List.filterMap_cons_some hballot, Option.toList_some, List.singleton_append]
      rw [hsplit]
      exact hraised

/-- The ballots in the file a manifest row names. -/
def entryBallots (core : CoreLib Durable) (d : Directory) (entry : SegmentEntry) : List Ballot :=
  ((d.files entry.firstSlot).map (SegmentFile.ballots core)).getD []

theorem replaySealed_raises {databaseId : ℕ} {previous : Option HashBytes} {entry : SegmentEntry}
    (h : replaySealed core databaseId d.view.view previous s entry = .ok s') :
    Raised (entryBallots core d entry) s.maxPromised s'.maxPromised := by
  cases hfile : d.files entry.firstSlot with
  | none =>
    simp only [replaySealed, Directory.view, hfile, Option.map_none] at h
    cases h
  | some file =>
    cases htrailer : file.trailer with
    | none =>
      simp only [replaySealed, Directory.view, hfile, Option.map_some, SegmentFile.view, htrailer] at h
      cases h
    | some trailer =>
      simp only [replaySealed, Directory.view, hfile, Option.map_some, SegmentFile.view, htrailer, bind,
        Except.bind] at h
      split at h
      · cases h
      · split at h
        · cases h
        · split at h
          · cases h
          · rename_i durable hraise s₁ hfold
            obtain rfl := Except.ok.inj h
            have hraised := foldlM_raises hfold
            rw [entryBallots, hfile]
            exact hraised

theorem replayListed_raises {databaseId : ℕ} {previous : Option HashBytes} {entries : List SegmentEntry}
    (h : replayListed core databaseId d.view.view previous s entries = .ok s') :
    Raised (entries.flatMap (entryBallots core d)) s.maxPromised s'.maxPromised := by
  induction entries generalizing previous s with
  | nil =>
    obtain rfl := Except.ok.inj h
    exact Raised.refl _
  | cons entry entries ih =>
    rw [replayListed] at h
    cases hone : replaySealed core databaseId d.view.view previous s entry with
    | error e =>
      rw [hone] at h
      cases h
    | ok s₁ =>
      rw [hone] at h
      exact (replaySealed_raises hone).trans (ih h)

/-- Applying a promise makes it the promised ballot. -/
def CoreLib.KeepsPromise (core : CoreLib Durable) : Prop :=
  ∀ durable ballot next, core.applyPromise durable ballot = some next → core.promised next = ballot

theorem raisePromise_le (hcore : core.KeepsPromise) {durable next : Durable} {ballot : Ballot}
    (h : raisePromise core durable ballot = .ok next) : ballot ≤ core.promised next := by
  rw [raisePromise] at h
  split at h
  · cases happly : core.applyPromise durable ballot with
    | none =>
      rw [happly] at h
      cases h
    | some durable' =>
      rw [happly] at h
      obtain rfl := Except.ok.inj h
      exact (hcore durable ballot durable' happly).ge
  · rename_i hnot
    obtain rfl := Except.ok.inj h
    rw [Ballot.lessThan_iff] at hnot
    exact not_lt.1 hnot

/-- Replay raises the promise to every ballot it reads, and the acceptor with it. -/
theorem replayJournal_raises (hcore : core.KeepsPromise) {h : JournalHandle} {opened : Opened Durable}
    (hreplay : replayJournal core h d.view.view = .ok opened) :
    Raised (h.segments.flatMap (entryBallots core d) ++ h.active.records.filterMap (recordBallot core))
        h.maxPromised opened.handle.maxPromised ∧
      opened.handle.maxPromised ≤ core.promised opened.durable ∧
      opened.handle.activeFirstSlot = h.activeFirstSlot := by
  simp only [replayJournal, bind, Except.bind] at hreplay
  split at hreplay
  · cases hreplay
  · rename_i s₁ hlisted
    split at hreplay
    · cases hreplay
    · rename_i s₂ hactive
      split at hreplay
      · cases hreplay
      · rename_i durable hraise
        obtain rfl := Except.ok.inj hreplay
        exact ⟨(replayListed_raises hlisted).trans (foldlM_raises hactive),
          raisePromise_le hcore hraise, rfl⟩

/-! The active file as opening finds it: missing, refused, resumed or sealed. -/

inductive TakeOver (d : Directory) (h : JournalHandle) :
    List FileEffect → Except JournalError JournalHandle → Prop
  | missing (header : SegmentHeader) {h' : JournalHandle} : d.files h.activeFirstSlot = none →
    h'.segments = h.segments → h'.activeFirstSlot = h.activeFirstSlot →
    h'.maxPromised = h.maxPromised → h'.active.records = [] →
    TakeOver d h [.create h.activeFirstSlot header] (.ok h')
  | refused (e : JournalError) : TakeOver d h [] (.error e)
  | resumed {file : SegmentFile} {h' : JournalHandle} : d.files h.activeFirstSlot = some file →
    h'.segments = h.segments → h'.activeFirstSlot = h.activeFirstSlot →
    h'.maxPromised = h.maxPromised → h'.active.records = file.records →
    TakeOver d h [.truncate h.activeFirstSlot file.records] (.ok h')
  | listed {file : SegmentFile} (lastSlot : ℕ) (digest : HashBytes) :
    d.files h.activeFirstSlot = some file → file.trailer ≠ none →
    TakeOver d h
      [.publish (h.rolled h.activeFirstSlot lastSlot digest).manifestFile,
        .create (h.rolled h.activeFirstSlot lastSlot digest).activeFirstSlot
          (h.rolled h.activeFirstSlot lastSlot digest).active.header]
      (.ok (h.rolled h.activeFirstSlot lastSlot digest))

theorem SegmentWriter.records_adopt (header : SegmentHeader) (records : List SegmentRecord) :
    (SegmentWriter.adopt header records).records = records := by
  have hfold : ∀ (w : SegmentWriter), (records.foldl SegmentWriter.append w).records =
      w.records ++ records := by
    induction records with
    | nil => exact fun w => (List.append_nil _).symm
    | cons record records ih =>
      intro w
      rw [List.foldl_cons, ih]
      exact List.append_assoc _ _ _
  exact hfold _

theorem takeOver_adoptActive (d : Directory) (h : JournalHandle) :
    TakeOver d h (h.adoptActive d.view.view).1 (h.adoptActive d.view.view).2 := by
  cases hfile : d.files h.activeFirstSlot with
  | none =>
    have hview : d.view.view h.activeFirstSlot = none := by
      simp only [Directory.view, hfile, Option.map_none]
    simp only [JournalHandle.adoptActive, hview]
    exact .missing _ hfile rfl rfl rfl rfl
  | some file =>
    have hview : d.view.view h.activeFirstSlot = some file.view := by
      simp only [Directory.view, hfile, Option.map_some]
    cases htrailer : file.trailer with
    | none =>
      simp only [JournalHandle.adoptActive, hview, SegmentFile.view, htrailer, JournalHandle.resume]
      split
      · exact .refused _
      · exact .resumed hfile rfl rfl rfl (SegmentWriter.records_adopt _ _)
    | some trailer =>
      simp only [JournalHandle.adoptActive, hview, SegmentFile.view, htrailer]
      generalize houtcome : (h.listSealed h.activeFirstSlot trailer.lastGlobalSlot
        trailer.segmentDigest).startNext trailer.segmentDigest = outcome
      obtain ⟨effects, result⟩ := outcome
      cases result with
      | error e =>
        have heffects : effects = [] := by
          simp only [JournalHandle.startNext] at houtcome
          split at houtcome
          · exact (Prod.mk.inj houtcome).1.symm
          · cases (Prod.mk.inj houtcome).2
        rw [heffects]
        exact .refused e
      | ok h' =>
        obtain ⟨rfl, rfl⟩ := JournalHandle.startNext_eq_ok houtcome
        exact .listed _ _ hfile (by rw [htrailer]; exact Option.some_ne_none _)

/-- Opening finds nothing it could lose again: every ballot in the files is durable, and a sealed segment
the manifest does not list yet comes with a manifest that covers them. -/
structure CleanOpen (core : CoreLib Durable) (d : Directory) : Prop where
  present : ∀ m, d.manifest = some m → ∀ name ∈ m.names, ∀ file, d.files name = some file →
    ∀ ballot ∈ file.ballots core, Durably core d ballot
  unlisted : ∀ m, d.manifest = some m → ∀ file, d.files m.activeFirstSlot = some file →
    file.trailer ≠ none → ∀ name ∈ m.names, ∀ file, d.files name = some file →
    ∀ ballot ∈ file.ballots core, ballot ≤ m.rollup.maxPromised

/-- Opening files whose records are all on the disk and that are not sealed yet is clean. -/
theorem CleanOpen.of_synced (h : ∀ m, d.manifest = some m → ∀ name ∈ m.names, ∀ file,
    d.files name = some file → file.synced = file.records.length ∧ file.trailer = none) :
    CleanOpen core d where
  present m hm name hname file hfile ballot hballot := by
    refine ⟨m, hm, Or.inr ⟨name, hname, file, hfile, ballot, ?_, le_rfl⟩⟩
    rwa [SegmentFile.syncedBallots, (h m hm name hname file hfile).1, List.take_length]
  unlisted m hm file hfile htrailer :=
    absurd (h m hm _ List.mem_cons_self file hfile).2 htrailer

theorem contiguous_lt {entries : List SegmentEntry} {next : ℕ} (h : contiguous entries next = true) :
    firstListed entries next ≤ next ∧ ∀ entry ∈ entries, entry.firstSlot < next := by
  induction entries with
  | nil => exact ⟨le_rfl, fun _ hno => absurd hno List.not_mem_nil⟩
  | cons entry entries ih =>
    rw [contiguous, Bool.and_eq_true, Bool.and_eq_true, decide_eq_true_eq, decide_eq_true_eq] at h
    obtain ⟨⟨hrange, hnext⟩, hrest⟩ := h
    obtain ⟨hle, hlt⟩ := ih hrest
    have hfirst : entry.firstSlot < next := by omega
    refine ⟨hfirst.le, ?_⟩
    intro other hother
    rcases List.mem_cons.1 hother with rfl | hmem
    · exact hfirst
    · exact hlt other hmem

section Keep

variable {ballot : Ballot} {m : ManifestFile}

theorem Durably.sweep (h : Durably core d ballot) (hm : d.manifest = some m) :
    Durably core (d.apply (.sweep m.names)) ballot := by
  refine Durably.mono h rfl ?_
  intro m' hm' name hname file hfile
  obtain rfl := Option.some.inj (hm.symm.trans hm')
  refine ⟨file, ?_, List.Subset.refl _⟩
  simp only [Directory.apply, if_pos hname, hfile]

theorem Durably.create (h : Durably core d ballot) {name : ℕ} (hnone : d.files name = none)
    (header : SegmentHeader) : Durably core (d.apply (.create name header)) ballot := by
  refine Durably.mono h rfl ?_
  intro m' _ other _ file hfile
  have hne : other ≠ name := by
    rintro rfl
    rw [hnone] at hfile
    cases hfile
  refine ⟨file, ?_, List.Subset.refl _⟩
  simp only [Directory.apply, Function.update_of_ne hne, hfile]

theorem Durably.truncate (h : Durably core d ballot) {name : ℕ} {file : SegmentFile}
    (hfile : d.files name = some file) :
    Durably core (d.apply (.truncate name file.records)) ballot := by
  apply h.modify
  intro file' hfile'
  obtain rfl := Option.some.inj (hfile.symm.trans hfile')
  exact List.Subset.refl _

theorem Durably.publish {m' : ManifestFile} (h : Durably core d ballot) (hm : d.manifest = some m)
    (hrollup : m'.rollup.maxPromised = m.rollup.maxPromised) (hnames : m.names ⊆ m'.names) :
    Durably core (d.apply (.publish m')) ballot := by
  obtain ⟨m₀, hm₀, hle | ⟨name, hname, hfile⟩⟩ := h
  · obtain rfl := Option.some.inj (hm.symm.trans hm₀)
    exact ⟨m', rfl, Or.inl (hrollup ▸ hle)⟩
  · obtain rfl := Option.some.inj (hm.symm.trans hm₀)
    exact ⟨m', rfl, Or.inr ⟨name, hnames hname, hfile⟩⟩

end Keep

namespace PromiseLog

variable {clean : Prop} {l : PromiseLog} {m : ManifestFile}

/-- Publishing a manifest that keeps every durable ballot and covers every mark. -/
theorem Guarded.publish_kept (h : l.Guarded core clean)
    (hkeep : ∀ ballot, Durably core l.directory ballot →
      Durably core (l.directory.apply (.publish m)) ballot)
    (hmarks : clean → ∀ ballot ∈ l.marks, ballot ≤ m.rollup.maxPromised) :
    (l.apply core (.publish m)).Guarded core clean := by
  refine ⟨?_, ?_, ?_⟩
  · intro ballot hballot
    rcases List.mem_append.1 hballot with hold | hnew
    · exact hkeep ballot (h.synced ballot hold)
    · exact absurd hnew List.not_mem_nil
  · intro hclean ballot hballot
    rcases List.mem_append.1 hballot with hold | hnew
    · exact hkeep ballot (h.marks hclean ballot hold)
    · rw [FileEffect.publishes, List.mem_singleton] at hnew
      exact ⟨m, rfl, Or.inl hnew.le⟩
  · intro hclean
    refine List.pairwise_append.2 ⟨h.sorted hclean, List.pairwise_singleton _ _, ?_⟩
    intro ballot hballot last hlast
    rw [FileEffect.publishes, List.mem_singleton] at hlast
    rw [hlast]
    exact hmarks hclean ballot hballot

variable {rotationRecords : ℕ} {effects : List FileEffect} {result : Except JournalError JournalHandle}

theorem names_rolled (lastSlot : ℕ) (digest : HashBytes) :
    m.names ⊆ ((JournalHandle.ofManifest rotationRecords m).rolled m.activeFirstSlot lastSlot
      digest).manifestFile.names := by
  intro name hname
  rcases List.mem_cons.1 hname with rfl | hlisted
  · exact List.mem_cons_of_mem _ (List.mem_map.2 ⟨_, List.mem_append_right _ List.mem_cons_self, rfl⟩)
  · obtain ⟨entry, hentry, rfl⟩ := List.mem_map.1 hlisted
    exact List.mem_cons_of_mem _ (List.mem_map.2 ⟨entry, List.mem_append_left _ hentry, rfl⟩)

/-- Opening keeps every durable ballot, at each of its effects. -/
theorem along_takeOver (hg : l.Guarded core clean) (hm : l.directory.manifest = some m)
    (hvalid : contiguous m.segments m.activeFirstSlot = true)
    (htake : TakeOver l.directory (JournalHandle.ofManifest rotationRecords m) effects result)
    (hclean : clean → CleanOpen core l.directory) :
    Along core clean l (.sweep m.names :: effects) ∧
      ∀ ballot, Durably core l.directory ballot →
        Durably core (l.directory.applyAll (.sweep m.names :: effects)) ballot := by
  have hsweep : ∀ ballot, Durably core l.directory ballot →
      Durably core (l.directory.apply (.sweep m.names)) ballot :=
    fun ballot hballot => hballot.sweep hm
  have hswept : (l.apply core (.sweep m.names)).Guarded core clean := hg.keep rfl rfl hsweep
  have hactive : (l.directory.apply (.sweep m.names)).files m.activeFirstSlot =
      l.directory.files m.activeFirstSlot := if_pos List.mem_cons_self
  cases htake with
  | missing header hnone =>
    have hcreate : ∀ ballot, Durably core (l.directory.apply (.sweep m.names)) ballot →
        Durably core ((l.directory.apply (.sweep m.names)).apply (.create m.activeFirstSlot header))
          ballot := fun ballot hballot => hballot.create (hactive.trans hnone) header
    exact ⟨⟨hg, hswept, hswept.keep rfl rfl hcreate⟩, fun ballot hballot => hcreate _ (hsweep _ hballot)⟩
  | refused e => exact ⟨⟨hg, hswept⟩, hsweep⟩
  | @resumed file _ hfile =>
    have htruncate : ∀ ballot, Durably core (l.directory.apply (.sweep m.names)) ballot →
        Durably core ((l.directory.apply (.sweep m.names)).apply
          (.truncate m.activeFirstSlot file.records)) ballot :=
      fun ballot hballot => hballot.truncate (hactive.trans hfile)
    exact ⟨⟨hg, hswept, hswept.keep rfl rfl htruncate⟩,
      fun ballot hballot => htruncate _ (hsweep _ hballot)⟩
  | @listed file lastSlot digest hfile htrailer =>
    set h' := (JournalHandle.ofManifest rotationRecords m).rolled m.activeFirstSlot lastSlot digest
    have hpublish : ∀ ballot, Durably core (l.directory.apply (.sweep m.names)) ballot →
        Durably core ((l.directory.apply (.sweep m.names)).apply (.publish h'.manifestFile)) ballot :=
      fun ballot hballot => hballot.publish hm rfl (names_rolled lastSlot digest)
    have hmarks : clean → ∀ ballot ∈ (l.apply core (.sweep m.names)).marks,
        ballot ≤ h'.manifestFile.rollup.maxPromised := by
      intro hc ballot hballot
      have hsame : (l.apply core (.sweep m.names)).marks = l.marks := List.append_nil _
      rw [hsame] at hballot
      obtain ⟨m', hm', hle | ⟨name, hname, file', hfile', b, hb, hle⟩⟩ := hg.marks hc ballot hballot
      · obtain rfl := Option.some.inj (hm.symm.trans hm')
        exact hle
      · obtain rfl := Option.some.inj (hm.symm.trans hm')
        exact hle.trans ((hclean hc).unlisted m hm file hfile htrailer name hname file' hfile' b
          (SegmentFile.mem_ballots_of_synced hb))
    have hpublished := hswept.publish_kept hpublish hmarks
    have hfresh : ((l.directory.apply (.sweep m.names)).apply (.publish h'.manifestFile)).files
        h'.activeFirstSlot = none := by
      apply if_neg
      intro hmem
      have hnew : m.activeFirstSlot < h'.activeFirstSlot := Nat.lt_succ_of_le (le_max_right _ _)
      rcases List.mem_cons.1 hmem with heq | hlisted
      · omega
      · obtain ⟨entry, hentry, heq⟩ := List.mem_map.1 hlisted
        have hlt := (contiguous_lt hvalid).2 entry hentry
        omega
    have hcreate : ∀ ballot, Durably core ((l.directory.apply (.sweep m.names)).apply
          (.publish h'.manifestFile)) ballot →
        Durably core (((l.directory.apply (.sweep m.names)).apply (.publish h'.manifestFile)).apply
          (.create h'.activeFirstSlot h'.active.header)) ballot :=
      fun ballot hballot => hballot.create hfresh _
    exact ⟨⟨hg, hswept, hpublished, hpublished.keep rfl rfl hcreate⟩,
      fun ballot hballot => hcreate _ (hpublish _ (hsweep _ hballot))⟩

/-- The ballots replay reads after the active file was taken over. -/
def readBallots (core : CoreLib Durable) (d : Directory) (h : JournalHandle) : List Ballot :=
  h.segments.flatMap (entryBallots core d) ++ h.active.records.filterMap (recordBallot core)

theorem mem_entryBallots {entry : SegmentEntry} {ballot : Ballot} :
    ballot ∈ entryBallots core d entry ↔
      ∃ file, d.files entry.firstSlot = some file ∧ ballot ∈ file.ballots core := by
  rw [entryBallots]
  cases hfile : d.files entry.firstSlot with
  | none =>
    rw [Option.map_none, Option.getD_none]
    constructor
    · exact fun hno => absurd hno List.not_mem_nil
    · rintro ⟨_, hno, -⟩
      cases hno
  | some file =>
    rw [Option.map_some, Option.getD_some]
    constructor
    · exact fun hballot => ⟨file, rfl, hballot⟩
    · rintro ⟨file', hfile', hballot⟩
      obtain rfl := Option.some.inj hfile'
      exact hballot

theorem exists_names_iff {ballot : Ballot} :
    (∃ name ∈ m.names, ∃ file, d.files name = some file ∧ ballot ∈ file.ballots core) ↔
      (∃ file, d.files m.activeFirstSlot = some file ∧ ballot ∈ file.ballots core) ∨
        ballot ∈ m.segments.flatMap (entryBallots core d) := by
  simp only [ManifestFile.names, List.exists_mem_cons_iff, List.mem_map, exists_exists_and_eq_and,
    List.mem_flatMap, mem_entryBallots]

/-- The ballots in the files a manifest names are the ones replay reads. -/
theorem readBallots_takeOver {h' : JournalHandle}
    (htake : TakeOver d (JournalHandle.ofManifest rotationRecords m) effects (.ok h')) {ballot : Ballot} :
    ballot ∈ readBallots core d h' ↔
      ∃ name ∈ m.names, ∃ file, d.files name = some file ∧ ballot ∈ file.ballots core := by
  rw [exists_names_iff, readBallots]
  cases htake with
  | missing header hnone hsegments _ _ hrecords =>
    have hno : d.files m.activeFirstSlot = none := hnone
    rw [hsegments, hrecords, hno, List.filterMap_nil, List.append_nil]
    simp only [reduceCtorEq, false_and, exists_false, false_or]
    rfl
  | @resumed file _ hfile hsegments _ _ hrecords =>
    have hsome : d.files m.activeFirstSlot = some file := hfile
    rw [hsegments, hrecords, hsome, List.mem_append, or_comm]
    simp only [Option.some.injEq, exists_eq_left']
    rfl
  | @listed file lastSlot digest hfile htrailer =>
    have hsegments : ((JournalHandle.ofManifest rotationRecords m).rolled
        (JournalHandle.ofManifest rotationRecords m).activeFirstSlot lastSlot digest).segments =
        m.segments ++ [⟨m.activeFirstSlot, max lastSlot m.activeFirstSlot, digest⟩] := rfl
    have hrecords : ((JournalHandle.ofManifest rotationRecords m).rolled
        (JournalHandle.ofManifest rotationRecords m).activeFirstSlot lastSlot digest).active.records =
        [] := rfl
    rw [hsegments, hrecords, List.filterMap_nil, List.append_nil, List.flatMap_append, List.mem_append,
      or_comm, List.flatMap_singleton, mem_entryBallots]

/-- The directory of a journal that was opened with the greatest ballot `bound`. -/
theorem bounded_takeOver {h' : JournalHandle} {bound : Ballot} (hm : d.manifest = some m)
    (htake : TakeOver d (JournalHandle.ofManifest rotationRecords m) effects (.ok h'))
    (hrollup : m.rollup.maxPromised ≤ bound) (hread : ∀ ballot ∈ readBallots core d h', ballot ≤ bound) :
    Bounded core (d.applyAll (.sweep m.names :: effects)) bound ∧
      ∃ m', (d.applyAll (.sweep m.names :: effects)).manifest = some m' ∧
        m'.activeFirstSlot = h'.activeFirstSlot := by
  have hswept : Bounded core (d.apply (.sweep m.names)) bound := by
    refine ⟨?_, ?_⟩
    · intro m' hm'
      obtain rfl := Option.some.inj (hm.symm.trans hm')
      exact hrollup
    · intro name file hfile ballot hballot
      simp only [Directory.apply] at hfile
      split at hfile
      · rename_i hname
        exact hread ballot ((readBallots_takeOver htake).2 ⟨name, hname, file, hfile, hballot⟩)
      · cases hfile
  cases htake with
  | missing header _ _ hactive => exact ⟨hswept.create _ _, m, hm, hactive.symm⟩
  | @resumed file _ hfile _ hactive =>
    refine ⟨hswept.modify _ ?_, m, hm, hactive.symm⟩
    intro file' hfile'
    have hsame : (d.apply (.sweep m.names)).files m.activeFirstSlot = d.files m.activeFirstSlot :=
      if_pos List.mem_cons_self
    have hold : d.files m.activeFirstSlot = some file := hfile
    obtain rfl := Option.some.inj (hold.symm.trans (hsame.symm.trans hfile'))
    exact hswept.files _ _ hfile'
  | listed lastSlot digest =>
    have hpublished := hswept.publish (m := ((JournalHandle.ofManifest rotationRecords m).rolled
      m.activeFirstSlot lastSlot digest).manifestFile) hrollup
    exact ⟨hpublished.create _ _, _, rfl, rfl⟩

theorem maxPromised_takeOver {h' : JournalHandle}
    (htake : TakeOver d (JournalHandle.ofManifest rotationRecords m) effects (.ok h')) :
    h'.maxPromised = m.rollup.maxPromised := by
  cases htake with
  | missing _ _ _ _ hmax => exact hmax
  | resumed _ _ _ hmax => exact hmax
  | listed lastSlot digest => rfl

/-- **Opening.** It keeps every ballot guarded at each of its effects; a journal it returns has seen every
durable ballot and so has its acceptor; and after a clean open its greatest ballot is durable. -/
theorem openJournal_carries (hcore : core.KeepsPromise) (hg : l.Guarded core clean)
    (databaseId rotationRecords : ℕ) (hclean : clean → CleanOpen core l.directory) :
    Along core clean l (openJournal core databaseId rotationRecords l.directory.view).1 ∧
      ∀ opened, (openJournal core databaseId rotationRecords l.directory.view).2 = .ok opened →
        Running core opened.handle (l.applyAll core
          (openJournal core databaseId rotationRecords l.directory.view).1).directory ∧
        (∀ ballot, Durably core l.directory ballot → ballot ≤ core.promised opened.durable) ∧
        (clean → Durably core (l.applyAll core
          (openJournal core databaseId rotationRecords l.directory.view).1).directory
            opened.handle.maxPromised) := by
  cases hm : l.directory.manifest with
  | none =>
    have hview : l.directory.view.manifest = none := hm
    rw [openJournal, hview]
    refine ⟨hg, ?_⟩
    intro h' hno
    cases hno
  | some m =>
    have hview : l.directory.view.manifest = some m := hm
    rw [openJournal, hview]
    cases hload : loadManifest databaseId m with
    | error e =>
      simp only [hload]
      refine ⟨hg, ?_⟩
      intro h' hno
      cases hno
    | ok m' =>
      have hvalid : m' = m ∧ contiguous m.segments m.activeFirstSlot = true := by
        rw [loadManifest] at hload
        split at hload
        · rename_i hok
          obtain rfl := Except.ok.inj hload
          rw [ManifestFile.tableValid, Bool.and_eq_true] at hok
          exact ⟨rfl, hok.2.2⟩
        · cases hload
      obtain ⟨rfl, hvalid⟩ := hvalid
      simp only [hload]
      have htake := takeOver_adoptActive l.directory (JournalHandle.ofManifest rotationRecords m')
      generalize (JournalHandle.ofManifest rotationRecords m').adoptActive l.directory.view.view =
        outcome at htake ⊢
      obtain ⟨effects, result⟩ := outcome
      obtain ⟨halong, hkeep⟩ := along_takeOver hg hm hvalid htake hclean
      cases result with
      | error e =>
        refine ⟨halong, ?_⟩
        intro h' hno
        cases hno
      | ok h' =>
        refine ⟨halong, ?_⟩
        intro opened hopened
        obtain ⟨hraised, hpromised, hactive⟩ := replayJournal_raises hcore hopened
        have hraised' : Raised (readBallots core l.directory h') m'.rollup.maxPromised
            opened.handle.maxPromised := maxPromised_takeOver htake ▸ hraised
        obtain ⟨hbound, m₁, hm₁, hactive₁⟩ :=
          bounded_takeOver hm htake hraised'.le hraised'.bounds
        have hfinal : (l.applyAll core (.sweep m'.names :: effects)).directory =
            l.directory.applyAll (.sweep m'.names :: effects) := directory_applyAll l _
        refine ⟨⟨hfinal ▸ hbound, m₁, hfinal ▸ hm₁, hactive₁.trans hactive.symm⟩, ?_, ?_⟩
        · intro ballot hballot
          exact ((hkeep ballot hballot).le hbound).trans hpromised
        · intro hc
          have hheld : Durably core l.directory opened.handle.maxPromised := by
            rcases hraised'.attained with heq | hmem
            · exact ⟨m', hm, Or.inl heq.le⟩
            · obtain ⟨name, hname, file, hfile, hballot⟩ := (readBallots_takeOver htake).1 hmem
              exact (hclean hc).present m' hm name hname file hfile _ hballot
          exact hfinal ▸ hkeep _ hheld

end PromiseLog

end Open

/-! ### Runs -/

/-- Put a file in the place of another. -/
def Directory.replace (d : Directory) (name : ℕ) (file : SegmentFile) : Directory :=
  { d with files := Function.update d.files name (some file) }

/-- What a power loss does: bytes of the active segment that were never synced are gone, and what is left
is on the disk. -/
inductive Loses (d : Directory) : Directory → Prop
  | nothing : Loses d d
  | tail {m : ManifestFile} {file : SegmentFile} (kept : ℕ) (trailer : Option SegmentTrailer) :
    d.manifest = some m → d.files m.activeFirstSlot = some file → file.synced ≤ kept →
    (trailer = file.trailer ∨ trailer = none) →
    Loses d (d.replace m.activeFirstSlot
      ⟨file.header, file.records.take kept, trailer, (file.records.take kept).length⟩)

/-- A journal that may be running, with the history of its directory. `clean` says that every open so far
was clean. -/
structure PromiseSystem extends PromiseLog where
  handle : Option JournalHandle
  clean : Prop

section Runs

variable {Durable : Type} (core : CoreLib Durable) (databaseId : ℕ)

/-- An operation on a running journal: its effects, and the handle it returns if it succeeds. -/
inductive Operation (h : JournalHandle) : List FileEffect → Option JournalHandle → Prop
  | appendWrites {writes : List Write} : (∀ write ∈ writes, write.Canonical core.createStop) →
    Operation h (h.appendWrites writes).1 (h.appendWrites writes).2.toOption
  | rotate : Operation h h.rotate.1 h.rotate.2.toOption
  | trimThrough (floor : ℕ) :
    Operation h (h.trimThrough floor).1 ((h.trimThrough floor).2.toOption.map Prod.snd)
  | sync : Operation h h.sync (some h)
  | noteChosen (through : ℕ) : Operation h [] (some (h.noteChosen through))
  | noteTrimAnchor (decisionSlot through : ℕ) (historyHash : HashBytes) :
    Operation h [] (some (h.noteTrimAnchor decisionSlot through historyHash))

inductive PromiseStep : PromiseSystem → PromiseSystem → Prop
  | operate {s : PromiseSystem} {h h' : JournalHandle} {effects : List FileEffect} :
    s.handle = some h → Operation core h effects (some h') →
    PromiseStep s { s with
      toPromiseLog := s.toPromiseLog.applyAll core effects, handle := some h' }
  | crash {s : PromiseSystem} {h : JournalHandle} {effects : List FileEffect}
    {result : Option JournalHandle} {d : Directory} (done : ℕ) : s.handle = some h →
    Operation core h effects result →
    Loses (s.toPromiseLog.applyAll core (effects.take done)).directory d →
    PromiseStep s { s with
      toPromiseLog := { s.toPromiseLog.applyAll core (effects.take done) with directory := d }
      handle := none }
  | loses {s : PromiseSystem} {d : Directory} : s.handle = none → Loses s.directory d →
    PromiseStep s { s with directory := d }
  | openStops {s : PromiseSystem} (rotationRecords : ℕ) {d : Directory} (done : ℕ) : s.handle = none →
    Loses (s.toPromiseLog.applyAll core
      ((openJournal core databaseId rotationRecords s.directory.view).1.take done)).directory d →
    PromiseStep s
      { toPromiseLog := { s.toPromiseLog.applyAll core
          ((openJournal core databaseId rotationRecords s.directory.view).1.take done) with
            directory := d }
        handle := none
        clean := s.clean ∧ CleanOpen core s.directory }
  | opens {s : PromiseSystem} (rotationRecords : ℕ) {effects : List FileEffect}
    {opened : Opened Durable} : s.handle = none →
    openJournal core databaseId rotationRecords s.directory.view = (effects, .ok opened) →
    PromiseStep s
      { directory := (s.toPromiseLog.applyAll core effects).directory
        synced := (s.toPromiseLog.applyAll core effects).synced
        marks := (s.toPromiseLog.applyAll core effects).marks ++ [opened.handle.maxPromised]
        handle := some opened.handle
        clean := s.clean ∧ CleanOpen core s.directory }

def PromiseSystem.create (rotationRecords : ℕ) : PromiseSystem where
  directory := Directory.empty.applyAll (createJournal databaseId rotationRecords).1
  synced := []
  marks := [Ballot.zero]
  handle := some (createJournal databaseId rotationRecords).2
  clean := True

def PromiseReachable : PromiseSystem → Prop :=
  Reachable (fun s => ∃ rotationRecords, s = PromiseSystem.create databaseId rotationRecords)
    (PromiseStep core databaseId)

variable {core databaseId} {s s' : PromiseSystem}

/-- The directory guards its ballots, and a running journal has seen them. -/
structure PromiseSystem.Safe (core : CoreLib Durable) (s : PromiseSystem) : Prop where
  guarded : s.toPromiseLog.Guarded core s.clean
  running : ∀ h, s.handle = some h → Running core h s.directory

theorem Durably.loses {d d' : Directory} {ballot : Ballot} (h : Durably core d ballot)
    (hloses : Loses d d') : Durably core d' ballot := by
  cases hloses with
  | nothing => exact h
  | @tail m file kept trailer hm hfile hkept _ =>
    refine Durably.mono h rfl ?_
    intro m' hm' name hname file' hfile'
    by_cases heq : name = m.activeFirstSlot
    · subst heq
      obtain rfl := Option.some.inj (hfile.symm.trans hfile')
      refine ⟨_, Function.update_self _ _ _, ?_⟩
      intro b hb
      rw [SegmentFile.syncedBallots, List.mem_filterMap] at hb ⊢
      obtain ⟨record, hrecord, hballot⟩ := hb
      rw [List.take_length]
      exact ⟨record, (List.take_subset_take_left _ hkept) hrecord, hballot⟩
    · exact ⟨file', (Function.update_of_ne heq _ _).trans hfile', List.Subset.refl _⟩

namespace PromiseLog

variable {clean clean' : Prop} {l : PromiseLog}

theorem Guarded.imp (h : l.Guarded core clean) (himp : clean' → clean) : l.Guarded core clean' :=
  ⟨h.synced, fun hc => h.marks (himp hc), fun hc => h.sorted (himp hc)⟩

theorem Guarded.loses (h : l.Guarded core clean) {d : Directory} (hloses : Loses l.directory d) :
    ({ l with directory := d } : PromiseLog).Guarded core clean :=
  ⟨fun ballot hb => (h.synced ballot hb).loses hloses,
    fun hc ballot hb => (h.marks hc ballot hb).loses hloses, h.sorted⟩

/-- An operation keeps every ballot guarded, and the handle it returns runs. -/
theorem carries_operation (hg : l.Guarded core clean) {h : JournalHandle} (hr : Running core h l.directory)
    {effects : List FileEffect} {result : Option JournalHandle} (hop : Operation core h effects result) :
    Along core clean l effects ∧
      ∀ h', result = some h' → Running core h' (l.applyAll core effects).directory := by
  cases hop with
  | appendWrites hcanonical =>
    have hcarries := carries_appendWrites hg hr hcanonical
    exact ⟨hcarries.along, fun h' hok => hcarries.running h' (ok_of_toOption hok)⟩
  | rotate =>
    have hcarries := carries_rotate hg hr
    exact ⟨hcarries.along, fun h' hok => hcarries.running h' (ok_of_toOption hok)⟩
  | trimThrough floor =>
    obtain ⟨halong, hrunning⟩ := carries_trimThrough hg hr floor
    refine ⟨halong, ?_⟩
    intro h' hok
    obtain ⟨pair, hpair, rfl⟩ := Option.map_eq_some_iff.1 hok
    exact hrunning pair.1 pair.2 (ok_of_toOption hpair)
  | sync =>
    have hcarries := carries_sync hg hr
    exact ⟨hcarries.along, fun h' hok => hcarries.running h' (congrArg Except.ok (Option.some.inj hok))⟩
  | noteChosen through =>
    refine ⟨hg, ?_⟩
    intro h' hok
    obtain rfl := Option.some.inj hok
    exact ⟨hr.bounded, hr.active⟩
  | noteTrimAnchor decisionSlot through historyHash =>
    refine ⟨hg, ?_⟩
    intro h' hok
    obtain rfl := Option.some.inj hok
    rw [JournalHandle.noteTrimAnchor]
    split
    · exact hr
    · exact ⟨hr.bounded, hr.active⟩

end PromiseLog

open PromiseLog in
theorem PromiseStep.safe (hcore : core.KeepsPromise) (hstep : PromiseStep core databaseId s s')
    (h : s.Safe core) : s'.Safe core := by
  cases hstep with
  | @operate handle h' effects hhandle hop =>
    obtain ⟨halong, hrunning⟩ := carries_operation h.guarded (h.running _ hhandle) hop
    refine ⟨halong.last, ?_⟩
    intro h₁ hh₁
    obtain rfl := Option.some.inj hh₁
    exact hrunning _ rfl
  | crash done hhandle hop hloses =>
    obtain ⟨halong, -⟩ := carries_operation h.guarded (h.running _ hhandle) hop
    refine ⟨(halong.take done).loses hloses, ?_⟩
    intro h' hno
    cases hno
  | loses hhandle hloses =>
    refine ⟨h.guarded.loses hloses, ?_⟩
    intro h₁ hh₁
    rw [hhandle] at hh₁
    cases hh₁
  | @openStops rotationRecords d done hhandle hloses =>
    have hguarded : s.toPromiseLog.Guarded core (s.clean ∧ CleanOpen core s.directory) :=
      h.guarded.imp And.left
    obtain ⟨halong, -⟩ := openJournal_carries hcore hguarded databaseId rotationRecords
      And.right
    refine ⟨(halong.take done).loses hloses, ?_⟩
    intro h' hno
    cases hno
  | @opens rotationRecords effects opened hhandle hopen =>
    have hguarded : s.toPromiseLog.Guarded core (s.clean ∧ CleanOpen core s.directory) :=
      h.guarded.imp And.left
    obtain ⟨halong, hopened⟩ := openJournal_carries hcore hguarded databaseId rotationRecords
      And.right
    rw [hopen] at halong hopened
    obtain ⟨hrunning, -, hmark⟩ := hopened opened rfl
    have hlast := halong.last
    refine ⟨⟨hlast.synced, ?_, ?_⟩, ?_⟩
    · intro hc ballot hballot
      rcases List.mem_append.1 hballot with hold | hnew
      · exact hlast.marks hc ballot hold
      · rw [List.mem_singleton.1 hnew]
        exact hmark hc
    · intro hc
      refine List.pairwise_append.2 ⟨hlast.sorted hc, List.pairwise_singleton _ _, ?_⟩
      intro ballot hballot last hmem
      rw [List.mem_singleton.1 hmem]
      exact (hlast.marks hc ballot hballot).le hrunning.bounded
    · intro h₁ hh₁
      obtain rfl := Option.some.inj hh₁
      exact hrunning

theorem PromiseSystem.Safe.create (databaseId rotationRecords : ℕ) :
    (PromiseSystem.create databaseId rotationRecords).Safe core := by
  have hempty : Bounded core Directory.empty Ballot.zero := by
    constructor
    · intro m hm
      cases hm
    · intro name file hfile
      cases hfile
  have hbound : Bounded core (PromiseSystem.create databaseId rotationRecords).directory Ballot.zero :=
    Bounded.create (hempty.publish (m := (createJournal databaseId rotationRecords).2.manifestFile) le_rfl)
      _ _
  refine ⟨⟨fun _ hno => absurd hno List.not_mem_nil, ?_, fun _ => List.pairwise_singleton _ _⟩, ?_⟩
  · intro _ ballot hballot
    rw [List.mem_singleton.1 hballot]
    exact ⟨_, rfl, Or.inl le_rfl⟩
  · intro h hh
    obtain rfl := Option.some.inj hh
    exact ⟨hbound, _, rfl, rfl⟩

theorem PromiseReachable.safe (hcore : core.KeepsPromise) (h : PromiseReachable core databaseId s) :
    s.Safe core := by
  apply h.invariant
  · rintro s ⟨rotationRecords, rfl⟩
    exact PromiseSystem.Safe.create databaseId rotationRecords
  · exact fun s s' hs hstep => hstep.safe hcore hs

/-- **The promise survives.** In every run the acceptor an open returns has promised every ballot that was
ever synced. Where every open was clean, the greatest promised ballot never falls from one publish or
successful open to the next. -/
theorem PromiseReachable.never_promises_backwards (hcore : core.KeepsPromise)
    (h : PromiseReachable core databaseId s) :
    (∀ rotationRecords effects opened,
        openJournal core databaseId rotationRecords s.directory.view = (effects, .ok opened) →
        ∀ ballot ∈ s.synced, ballot ≤ core.promised opened.durable) ∧
      (s.clean → s.marks.Pairwise (· ≤ ·)) := by
  have hsafe := h.safe hcore
  refine ⟨?_, hsafe.guarded.sorted⟩
  intro rotationRecords effects opened hopen ballot hballot
  obtain ⟨-, hopened⟩ := PromiseLog.openJournal_carries hcore
    (hsafe.guarded.imp False.elim) databaseId rotationRecords False.elim
  rw [hopen] at hopened
  exact (hopened opened rfl).2.1 ballot (hsafe.guarded.synced ballot hballot)

end Runs

theorem replayLog_keepsPromise : replayLog.KeepsPromise := by
  intro durable ballot next h
  obtain rfl := Option.some.inj h
  rfl

theorem promise_canonical : ∀ write ∈ [Write.promise ⟨10, 0, 1⟩],
    write.Canonical replayLog.createStop := by
  intro write hwrite
  rw [List.mem_singleton.1 hwrite]
  exact ⟨by decide, by decide, by decide⟩

/-- A promise synced, a crash, an open that takes the promise over, and the open after that. -/
theorem PromiseReachable.never_promises_backwards_sample : ∃ s, PromiseReachable replayLog 7 s ∧
    s.synced = [⟨10, 0, 1⟩] ∧ s.marks = [Ballot.zero, ⟨10, 0, 1⟩] ∧ s.clean ∧ ∃ effects opened,
      openJournal replayLog 7 4 s.directory.view = (effects, .ok opened) ∧
      (∀ ballot ∈ s.synced, ballot ≤ replayLog.promised opened.durable) ∧ s.marks.Pairwise (· ≤ ·) := by
  have hcreated : PromiseReachable replayLog 7 (PromiseSystem.create 7 4) := .start ⟨4, rfl⟩
  have happended := hcreated.step (.operate rfl (.appendWrites promise_canonical))
  have hsynced := happended.step (.operate rfl .sync)
  have hstopped := hsynced.step (.crash 0 rfl .sync .nothing)
  have hopened := hstopped.step (.opens 4 rfl rfl)
  obtain ⟨hpromised, hsorted⟩ :=
    PromiseReachable.never_promises_backwards replayLog_keepsPromise hopened
  refine ⟨_, hopened, rfl, rfl, ?clean, _, _, rfl, hpromised 4 _ _ rfl, hsorted ?clean⟩
  refine ⟨trivial, CleanOpen.of_synced ?_⟩
  intro m hm name hname file hfile
  obtain rfl := Option.some.inj hm
  obtain rfl := List.mem_singleton.1 hname
  obtain rfl := Option.some.inj hfile
  exact ⟨rfl, rfl⟩

/-- **An unsynced promise is adopted and then lost.** The journal is closed with a promise in its active
segment that was never synced; the next open takes the promise over without syncing it; a power loss
removes it, and the open after that returns a lower promise. -/
theorem unsynced_promise_adopted_and_lost :
    ∃ s, PromiseReachable replayLog 7 s ∧ ¬ s.marks.Pairwise (· ≤ ·) := by
  have hcreated : PromiseReachable replayLog 7 (PromiseSystem.create 7 4) := .start ⟨4, rfl⟩
  have happended := hcreated.step (.operate rfl (.appendWrites promise_canonical))
  have hclosed := happended.step (.crash 0 rfl .sync .nothing)
  have hopened := hclosed.step (.opens 4 rfl rfl)
  have hlost := hopened.step (.crash 0 rfl .sync (.tail 0 none rfl rfl (Nat.zero_le _) (Or.inr rfl)))
  have hreopened := hlost.step (.opens 4 rfl rfl)
  refine ⟨_, hreopened, ?_⟩
  show ¬ List.Pairwise (· ≤ ·) [Ballot.zero, ⟨10, 0, 1⟩, Ballot.zero]
  decide

end Zaxonlite
