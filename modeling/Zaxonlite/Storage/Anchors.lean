import Zaxonlite.Storage.Journal

/-!
# Applied-state anchors and the trim record

`APPLIED.0` and `APPLIED.1` alternate as the durable statement of which slot the image holds; recovery
trusts the one with the greatest generation. `TRIM` records the adopted trim decision and the transfer
leases that cap deletion. Every one of these files is replaced atomically and synced, so a reader sees
the old or the new content and a power loss keeps what was published.
-/

namespace Zaxonlite

/-- One `APPLIED` record. -/
structure AppliedAnchor where
  generation : ℕ
  databaseId : ℕ
  globalSlot : ℕ
  configurationId : ℕ
  historyHash : HashBytes
  sqlitePageSize : ℕ
  sqlitePageCount : ℕ
  lastDataSlot : ℕ
  lastBatchId : ℕ
  lastChain : HashBytes
  deriving DecidableEq

/-- The two alternating files. -/
structure AppliedFiles where
  applied0 : Option AppliedAnchor
  applied1 : Option AppliedAnchor

namespace AppliedFiles

def none : AppliedFiles := ⟨Option.none, Option.none⟩

/-- The anchors of this database present in the two files. -/
def valid (files : AppliedFiles) (databaseId : ℕ) : List AppliedAnchor :=
  [files.applied0, files.applied1].filterMap fun file =>
    file.filter fun anchor => anchor.databaseId == databaseId

/-- `select`: the valid anchor with the greatest generation, the first file winning a tie. -/
def select (files : AppliedFiles) (databaseId : ℕ) : Option AppliedAnchor :=
  (files.valid databaseId).foldl
    (fun best anchor =>
      match best with
      | Option.none => some anchor
      | some b => if b.generation < anchor.generation then some anchor else some b) Option.none

/-- `publish`: replace the file of the anchor's generation parity. -/
def publish (files : AppliedFiles) (anchor : AppliedAnchor) : AppliedFiles :=
  if anchor.generation % 2 = 0 then { files with applied0 := some anchor }
  else { files with applied1 := some anchor }

/-- An anchor held by either file. -/
def Holds (files : AppliedFiles) (anchor : AppliedAnchor) : Prop :=
  files.applied0 = some anchor ∨ files.applied1 = some anchor

theorem holds_publish {files : AppliedFiles} {new anchor : AppliedAnchor}
    (h : (files.publish new).Holds anchor) : anchor = new ∨ files.Holds anchor := by
  unfold publish at h
  split at h
  · rcases h with h | h
    · exact Or.inl (Option.some.inj h).symm
    · exact Or.inr (Or.inr h)
  · rcases h with h | h
    · exact Or.inr (Or.inl h)
    · exact Or.inl (Option.some.inj h).symm

theorem holds_published (files : AppliedFiles) (new : AppliedAnchor) : (files.publish new).Holds new := by
  unfold publish
  split
  · exact Or.inl rfl
  · exact Or.inr rfl

theorem mem_valid {files : AppliedFiles} {databaseId : ℕ} {anchor : AppliedAnchor}
    (h : anchor ∈ files.valid databaseId) :
    files.Holds anchor ∧ anchor.databaseId = databaseId := by
  simp only [valid, List.mem_filterMap, List.mem_cons, List.not_mem_nil, or_false,
    Option.filter_eq_some_iff] at h
  obtain ⟨file, hfile, hsome, hdb⟩ := h
  refine ⟨?_, by simpa using hdb⟩
  rcases hfile with rfl | rfl
  · exact Or.inl hsome
  · exact Or.inr hsome

/-- What `select` returns is held by one of the files and belongs to the database. -/
theorem select_holds {files : AppliedFiles} {databaseId : ℕ} {anchor : AppliedAnchor}
    (h : files.select databaseId = some anchor) :
    files.Holds anchor ∧ anchor.databaseId = databaseId := by
  suffices hmem : ∀ (l : List AppliedAnchor) (best : Option AppliedAnchor),
      l.foldl (fun best anchor =>
        match best with
        | Option.none => some anchor
        | some b => if b.generation < anchor.generation then some anchor else some b) best
          = some anchor → anchor ∈ l ∨ best = some anchor by
    rcases hmem _ _ h with hin | hno
    · exact mem_valid hin
    · cases hno
  intro l
  induction l with
  | nil => exact fun best hbest => Or.inr hbest
  | cons a l ih =>
    intro best hbest
    rcases ih _ hbest with hin | hhead
    · exact Or.inl (List.mem_cons_of_mem a hin)
    · cases best with
      | none =>
        rw [← Option.some.inj hhead]
        exact Or.inl List.mem_cons_self
      | some b =>
        simp only at hhead
        split at hhead
        · rw [← Option.some.inj hhead]
          exact Or.inl List.mem_cons_self
        · exact Or.inr hhead

/-- No anchor of the database has a greater generation than the selected one. -/
theorem generation_le_select {files : AppliedFiles} {databaseId : ℕ} {selected anchor : AppliedAnchor}
    (h : files.select databaseId = some selected) (hholds : files.Holds anchor)
    (hdb : anchor.databaseId = databaseId) : anchor.generation ≤ selected.generation := by
  obtain ⟨file0, file1⟩ := files
  rcases hholds with rfl | rfl
  · cases file1 with
    | none =>
      simp [select, valid, Option.filter, hdb] at h
      exact h ▸ le_rfl
    | some other =>
      by_cases hother : other.databaseId = databaseId
      · simp only [select, valid, List.filterMap_cons, Option.filter, hdb, hother, beq_self_eq_true,
          if_true, List.filterMap_nil, List.foldl_cons, List.foldl_nil] at h
        split at h
        · rename_i hlt
          exact (Option.some.inj h) ▸ hlt.le
        · exact (Option.some.inj h) ▸ le_rfl
      · simp [select, valid, Option.filter, hdb, hother] at h
        exact h ▸ le_rfl
  · cases file0 with
    | none =>
      simp [select, valid, Option.filter, hdb] at h
      exact h ▸ le_rfl
    | some other =>
      by_cases hother : other.databaseId = databaseId
      · simp only [select, valid, List.filterMap_cons, Option.filter, hdb, hother, beq_self_eq_true,
          if_true, List.filterMap_nil, List.foldl_cons, List.foldl_nil] at h
        split at h
        · exact (Option.some.inj h) ▸ le_rfl
        · rename_i hge
          exact (Option.some.inj h) ▸ Nat.le_of_not_lt hge
      · simp [select, valid, Option.filter, hdb, hother] at h
        exact h ▸ le_rfl

/-- An anchor of a greater generation than any other is the one selected. -/
theorem select_publish {files : AppliedFiles} {new : AppliedAnchor}
    (hgen : ∀ anchor, files.Holds anchor → anchor.generation < new.generation) :
    (files.publish new).select new.databaseId = some new := by
  obtain ⟨file0, file1⟩ := files
  unfold publish
  split
  · cases file1 with
    | none => simp [select, valid, Option.filter]
    | some old =>
      have hlt := hgen old (Or.inr rfl)
      by_cases hdb : old.databaseId = new.databaseId
      · simp [select, valid, Option.filter, hdb, Nat.not_lt_of_lt hlt]
      · simp [select, valid, Option.filter, hdb]
  · cases file0 with
    | none => simp [select, valid, Option.filter]
    | some old =>
      have hlt := hgen old (Or.inl rfl)
      by_cases hdb : old.databaseId = new.databaseId
      · simp [select, valid, Option.filter, hdb, hlt]
      · simp [select, valid, Option.filter, hdb]

end AppliedFiles

/-! ### The trim record -/

/-- An active transfer lease. -/
structure Lease where
  leaseId : ℕ
  receiverId : ℕ
  baseSlot : ℕ
  expiryTicksLeft : ℕ
  deriving DecidableEq

def maxLeases : ℕ := 4

/-- `trim.State`: the adopted decision and the active leases. -/
structure TrimState where
  decisionSlot : ℕ
  throughSlot : ℕ
  historyHash : HashBytes
  configurationId : ℕ
  leases : List Lease
  deriving DecidableEq

namespace TrimState

def initial : TrimState where
  decisionSlot := 0
  throughSlot := 0
  historyHash := Journal.zeroHash
  configurationId := 0
  leases := []

inductive Adoption where
  | adopt
  | ignoreReplay
  | ignoreStale
  | ignoreDuplicate
  | diverged
  deriving DecidableEq

/-- `classify`: a chosen trim against the adopted one. -/
def classify (state : TrimState) (decisionSlot : ℕ) (record : TrimRecord) : Adoption :=
  if decisionSlot = state.decisionSlot then
    if record.throughSlot = state.throughSlot ∧ record.configurationId = state.configurationId ∧
        record.historyHash = state.historyHash then .ignoreReplay
    else .diverged
  else if decisionSlot < state.decisionSlot then .ignoreStale
  else if record.throughSlot < state.throughSlot then .ignoreStale
  else if record.throughSlot = state.throughSlot then
    if record.configurationId = state.configurationId ∧ record.historyHash = state.historyHash then
      .ignoreDuplicate
    else .diverged
  else .adopt

def adopt (state : TrimState) (decisionSlot : ℕ) (record : TrimRecord) : TrimState :=
  { state with
    decisionSlot := decisionSlot
    throughSlot := record.throughSlot
    historyHash := record.historyHash
    configurationId := record.configurationId }

/-- `trackLease`: remember a lease; a known one or one past the bound is dropped. -/
def trackLease (state : TrimState) (lease : TransferLease) : Option TrimState :=
  if state.leases.any (fun held => held.leaseId == lease.leaseId) then none
  else if maxLeases ≤ state.leases.length then none
  else some { state with leases := state.leases ++
    [{ leaseId := lease.leaseId, receiverId := lease.receiverId, baseSlot := lease.baseSlot,
       expiryTicksLeft := lease.expiresAfterLeaderTicks }] }

/-- `releaseLease`: the last lease takes the released one's place. -/
def releaseLease (state : TrimState) (leaseId : ℕ) : Option TrimState :=
  match state.leases.findIdx? (fun held => held.leaseId == leaseId) with
  | none => none
  | some index =>
    match state.leases.getLast? with
    | none => none
    | some last => some { state with leases := (state.leases.set index last).dropLast }

/-- The core's anchor for the adopted decision. -/
def anchor (state : TrimState) : TrimAnchor where
  trimId := state.decisionSlot
  chosenTrimSlot := state.throughSlot
  historyHash := state.historyHash

end TrimState

/-- `deleteFloor`: the chosen trim, the local durable state, the retention cutoff and every lease base
each cap what may be unlinked. -/
def deleteFloor (chosenTrim durableStateSlot : ℕ) (retentionCutoff : Option ℕ)
    (leases : List Lease) : ℕ :=
  leases.foldl (fun floor lease => min floor lease.baseSlot)
    (match retentionCutoff with
    | some cutoff => min (min chosenTrim durableStateSlot) cutoff
    | none => min chosenTrim durableStateSlot)

theorem deleteFloor_le (chosenTrim durableStateSlot : ℕ) (retentionCutoff : Option ℕ)
    (leases : List Lease) :
    deleteFloor chosenTrim durableStateSlot retentionCutoff leases ≤
      min chosenTrim durableStateSlot := by
  have hfold : ∀ (l : List Lease) (start : ℕ),
      l.foldl (fun floor lease => min floor lease.baseSlot) start ≤ start := by
    intro l
    induction l with
    | nil => exact fun start => le_rfl
    | cons lease l ih => exact fun start => le_trans (ih _) (min_le_left _ _)
  refine le_trans (hfold leases _) ?_
  cases retentionCutoff with
  | none => exact le_rfl
  | some cutoff => exact min_le_left _ _

end Zaxonlite
