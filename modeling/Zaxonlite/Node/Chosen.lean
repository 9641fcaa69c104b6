import Zaxonlite.Node.Recovery
import Zaxonlite.Storage.Captured

/-!
# The chosen log and what it folds to

The log assigns one entry to every slot. What a data replica is for is to hold the fold of a prefix of
it: the image bytes, the batch chain cursor, the last batch, and the history anchor. `ChosenLog` is a
log whose every batch extends the chain before it and names a valid payload, so the fold is defined at
every slot; a log that ends somewhere is continued with noops.
-/

namespace Zaxonlite

/-- `page_size` of a database this node created. -/
def defaultPageSize : ℕ := 4096

/-- What a prefix of the log folds to. -/
@[ext] structure Materialized where
  image : File
  lastChain : HashBytes
  lastDataSlot : ℕ
  lastBatchId : ℕ
  historyHash : HashBytes
  configuration : ℕ

namespace Materialized

def genesis (databaseId : ℕ) : Materialized where
  image := File.empty
  lastChain := genesisChain databaseId
  lastDataSlot := 0
  lastBatchId := 0
  historyHash := History.genesis databaseId
  configuration := 1

/-- Advance the history anchor and the configuration over an entry. -/
def note (databaseId : ℕ) (s : Materialized) (slot : ℕ) (entry : Entry) : Materialized :=
  { s with
    historyHash := History.advance s.historyHash databaseId s.configuration slot entry
    configuration := nextConfiguration s.configuration entry }

def install (s : Materialized) (slot : ℕ) (batch : TransactionBatch) (view : PayloadView) :
    Materialized :=
  { s with
    image := s.image.execAll view.applyPayload
    lastChain := batch.resultChainHash
    lastDataSlot := slot
    lastBatchId := batch.batchId }

section Fields

variable (databaseId : ℕ) (s : Materialized) (slot : ℕ) (entry : Entry)

@[simp] theorem note_image : (s.note databaseId slot entry).image = s.image := rfl
@[simp] theorem note_lastChain : (s.note databaseId slot entry).lastChain = s.lastChain := rfl
@[simp] theorem note_lastDataSlot : (s.note databaseId slot entry).lastDataSlot = s.lastDataSlot := rfl
@[simp] theorem note_lastBatchId : (s.note databaseId slot entry).lastBatchId = s.lastBatchId := rfl
@[simp] theorem note_historyHash : (s.note databaseId slot entry).historyHash =
    History.advance s.historyHash databaseId s.configuration slot entry := rfl
@[simp] theorem note_configuration : (s.note databaseId slot entry).configuration =
    nextConfiguration s.configuration entry := rfl

end Fields

/-- Fold one entry; undefined when a batch does not extend the state. -/
def step (databaseId : ℕ) (payloads : PayloadStore) (s : Materialized) (slot : ℕ) :
    Entry → Option Materialized
  | .command (.transactionBatch batch) =>
    if checkChainBase databaseId s.lastChain s.lastDataSlot batch then
      match loadBatch databaseId defaultPageSize payloads batch with
      | .ok view =>
        some ((s.install slot batch view).note databaseId slot (.command (.transactionBatch batch)))
      | .error _ => none
    else none
  | entry => some (s.note databaseId slot entry)

/-- Fold the entries of slots `1..n` from the empty file and the genesis hashes. -/
def fold (databaseId : ℕ) (payloads : PayloadStore) (entries : ℕ → Entry) :
    ℕ → Option Materialized
  | 0 => some (genesis databaseId)
  | n + 1 => (fold databaseId payloads entries n).bind fun s =>
    s.step databaseId payloads (n + 1) (entries (n + 1))

end Materialized

/-- A log whose every batch is a valid extension, with the payloads it names. -/
structure ChosenLog (databaseId : ℕ) where
  entry : ℕ → Entry
  payloads : PayloadStore
  valid : ∀ n, (Materialized.fold databaseId payloads entry n).isSome

namespace ChosenLog

variable {databaseId : ℕ} (L : ChosenLog databaseId)

/-- The fold of slots `1..n`. -/
def state (n : ℕ) : Materialized :=
  (Materialized.fold databaseId L.payloads L.entry n).get (L.valid n)

@[simp] theorem state_zero : L.state 0 = Materialized.genesis databaseId := rfl

theorem fold_eq (n : ℕ) :
    Materialized.fold databaseId L.payloads L.entry n = some (L.state n) :=
  (Option.some_get (L.valid n)).symm

theorem step_state (n : ℕ) :
    (L.state n).step databaseId L.payloads (n + 1) (L.entry (n + 1)) = some (L.state (n + 1)) := by
  have h := L.fold_eq (n + 1)
  rwa [Materialized.fold, L.fold_eq n, Option.bind_some] at h

/-- The page changes of the batch at a slot, none for other entries. -/
def ops (slot : ℕ) : List FileOp :=
  match L.entry slot with
  | .command (.transactionBatch batch) =>
    match loadBatch databaseId defaultPageSize L.payloads batch with
    | .ok view => view.applyPayload
    | .error _ => []
  | _ => []

theorem settled_ops (slot : ℕ) : Settled (L.ops slot) := by
  unfold ops
  split
  · split
    · exact PayloadView.settled_applyPayload _
    · exact Or.inl rfl
  · exact Or.inl rfl

/-- A chosen batch extends the fold before it and its payload validates. -/
theorem state_succ_batch {n : ℕ} {batch : TransactionBatch}
    (h : L.entry (n + 1) = .command (.transactionBatch batch)) :
    checkChainBase databaseId (L.state n).lastChain (L.state n).lastDataSlot batch = true ∧
      ∃ view, loadBatch databaseId defaultPageSize L.payloads batch = .ok view ∧
        L.ops (n + 1) = view.applyPayload ∧
        L.state (n + 1) = ((L.state n).install (n + 1) batch view).note databaseId (n + 1)
          (L.entry (n + 1)) := by
  have hstep := L.step_state n
  rw [h, Materialized.step] at hstep
  split at hstep
  · rename_i hcheck
    refine ⟨hcheck, ?_⟩
    cases hload : loadBatch databaseId defaultPageSize L.payloads batch with
    | error e =>
      rw [hload] at hstep
      cases hstep
    | ok view =>
      rw [hload] at hstep
      refine ⟨view, rfl, ?_, ?_⟩
      · simp only [ops, h, hload]
      · rw [h]
        exact (Option.some.inj hstep).symm
  · cases hstep

/-- Any other entry only advances the history anchor and the configuration. -/
theorem state_succ_other {n : ℕ}
    (h : ∀ batch, L.entry (n + 1) ≠ .command (.transactionBatch batch)) :
    L.ops (n + 1) = [] ∧
      L.state (n + 1) = (L.state n).note databaseId (n + 1) (L.entry (n + 1)) := by
  have hstep := L.step_state n
  cases hentry : L.entry (n + 1) with
  | stop stop =>
    rw [hentry] at hstep
    exact ⟨by simp only [ops, hentry], (Option.some.inj hstep).symm⟩
  | command cmd =>
    rw [hentry] at hstep
    cases cmd with
    | transactionBatch batch => exact absurd hentry (h batch)
    | noop => exact ⟨by simp only [ops, hentry], (Option.some.inj hstep).symm⟩
    | readBarrier nonce => exact ⟨by simp only [ops, hentry], (Option.some.inj hstep).symm⟩
    | trim record => exact ⟨by simp only [ops, hentry], (Option.some.inj hstep).symm⟩
    | transferLease lease => exact ⟨by simp only [ops, hentry], (Option.some.inj hstep).symm⟩
    | leaseComplete leaseId => exact ⟨by simp only [ops, hentry], (Option.some.inj hstep).symm⟩

theorem image_succ (n : ℕ) : (L.state (n + 1)).image = (L.state n).image.execAll (L.ops (n + 1)) := by
  by_cases h : ∃ batch, L.entry (n + 1) = .command (.transactionBatch batch)
  · obtain ⟨batch, hbatch⟩ := h
    obtain ⟨-, view, -, hops, hstate⟩ := L.state_succ_batch hbatch
    rw [hstate, hops, Materialized.note_image, Materialized.install]
  · push Not at h
    obtain ⟨hops, hstate⟩ := L.state_succ_other h
    rw [hstate, hops, Materialized.note_image, File.execAll_nil]

theorem configuration_succ (n : ℕ) : (L.state (n + 1)).configuration =
    nextConfiguration (L.state n).configuration (L.entry (n + 1)) := by
  by_cases h : ∃ batch, L.entry (n + 1) = .command (.transactionBatch batch)
  · obtain ⟨batch, hbatch⟩ := h
    obtain ⟨-, view, -, -, hstate⟩ := L.state_succ_batch hbatch
    rw [hstate, Materialized.note_configuration, Materialized.install]
  · push Not at h
    rw [(L.state_succ_other h).2, Materialized.note_configuration]

theorem historyHash_succ (n : ℕ) : (L.state (n + 1)).historyHash =
    History.advance (L.state n).historyHash databaseId (L.state n).configuration (n + 1)
      (L.entry (n + 1)) := by
  by_cases h : ∃ batch, L.entry (n + 1) = .command (.transactionBatch batch)
  · obtain ⟨batch, hbatch⟩ := h
    obtain ⟨-, view, -, -, hstate⟩ := L.state_succ_batch hbatch
    rw [hstate, Materialized.note_historyHash, Materialized.install]
  · push Not at h
    rw [(L.state_succ_other h).2, Materialized.note_historyHash]

theorem lastBatchId_of_no_data {n : ℕ} (h : (L.state n).lastDataSlot = 0) {k : ℕ} (hk : k ≤ n) :
    (L.state k).lastDataSlot = 0 ∧ (L.state k).lastBatchId = 0 := by
  induction n generalizing k with
  | zero =>
    obtain rfl : k = 0 := Nat.le_zero.1 hk
    exact ⟨rfl, rfl⟩
  | succ n ih =>
    by_cases hbatch : ∃ batch, L.entry (n + 1) = .command (.transactionBatch batch)
    · obtain ⟨batch, hentry⟩ := hbatch
      obtain ⟨-, view, -, -, hstate⟩ := L.state_succ_batch hentry
      rw [hstate, Materialized.note_lastDataSlot, Materialized.install] at h
      exact absurd h (Nat.succ_ne_zero n)
    · push Not at hbatch
      have hstate := (L.state_succ_other hbatch).2
      rw [hstate, Materialized.note_lastDataSlot] at h
      rcases Nat.lt_or_ge k (n + 1) with hlt | hge
      · exact ih h (Nat.le_of_lt_succ hlt)
      · obtain rfl := le_antisymm hk hge
        rw [hstate, Materialized.note_lastDataSlot, Materialized.note_lastBatchId]
        exact ih h le_rfl

/-! ### Stretches of the log -/

/-- The page changes of slots `a + 1..b`. -/
def hist (a b : ℕ) : List FileOp :=
  (List.range' (a + 1) (b - a)).flatMap L.ops

@[simp] theorem hist_self (a : ℕ) : L.hist a a = [] := by
  simp [hist]

theorem hist_succ {a b : ℕ} (h : a ≤ b) : L.hist a (b + 1) = L.hist a b ++ L.ops (b + 1) := by
  have hlen : b + 1 - a = b - a + 1 := by omega
  rw [hist, hlen, List.range'_concat, List.flatMap_append, hist]
  have hlast : a + 1 + 1 * (b - a) = b + 1 := by omega
  simp only [List.flatMap_cons, List.flatMap_nil, List.append_nil, hlast]

theorem settled_hist (a b : ℕ) : Settled (L.hist a b) := by
  rcases Nat.le_total b a with h | h
  · left
    simp [hist, Nat.sub_eq_zero_of_le h]
  · induction b, h using Nat.le_induction with
    | base =>
      left
      exact hist_self L a
    | succ b hab ih =>
      rw [hist_succ L hab]
      exact ih.append (L.settled_ops (b + 1))

theorem mem_hist {a b : ℕ} {op : FileOp} :
    op ∈ L.hist a b ↔ ∃ s, a < s ∧ s ≤ b ∧ op ∈ L.ops s := by
  simp only [hist, List.mem_flatMap, List.mem_range'_1]
  constructor
  · rintro ⟨s, ⟨hlo, hhi⟩, hop⟩
    exact ⟨s, hlo, by omega, hop⟩
  · rintro ⟨s, hlo, hhi, hop⟩
    exact ⟨s, ⟨hlo, by omega⟩, hop⟩

theorem hist_subset {a a' b b' : ℕ} (ha : a' ≤ a) (hb : b ≤ b') : L.hist a b ⊆ L.hist a' b' := by
  intro op hop
  obtain ⟨s, hlo, hhi, hmem⟩ := L.mem_hist.1 hop
  exact L.mem_hist.2 ⟨s, lt_of_le_of_lt ha hlo, le_trans hhi hb, hmem⟩

theorem image_eq {a b : ℕ} (h : a ≤ b) :
    (L.state b).image = (L.state a).image.execAll (L.hist a b) := by
  induction b, h using Nat.le_induction with
  | base => rw [hist_self, File.execAll_nil]
  | succ b hab ih => rw [image_succ, ih, hist_succ L hab, File.execAll_append]

/-- A file between two folds: the fold at `lo` with some changes of slots `lo + 1..hi` made. -/
def Between (lo hi : ℕ) (f : File) : Prop :=
  ∃ done, done ⊆ L.hist lo hi ∧ f = (L.state lo).image.execAll done

theorem Between.mono_lo {L : ChosenLog databaseId} {lo lo' hi : ℕ} {f : File}
    (h : L.Between lo hi f) (hle : lo' ≤ lo) (hhi : lo ≤ hi) : L.Between lo' hi f := by
  obtain ⟨done, hsub, rfl⟩ := h
  refine ⟨L.hist lo' lo ++ done, ?_, ?_⟩
  · rw [List.append_subset]
    exact ⟨L.hist_subset le_rfl hhi, fun op hop => L.hist_subset hle le_rfl (hsub hop)⟩
  · rw [File.execAll_append, ← L.image_eq hle]

/-- **Replaying the stretch over a file between its ends gives the fold at its end.** -/
theorem Between.replay {L : ChosenLog databaseId} {lo hi : ℕ} {f : File} (h : L.Between lo hi f)
    (hle : lo ≤ hi) : f.execAll (L.hist lo hi) = (L.state hi).image := by
  obtain ⟨done, hsub, rfl⟩ := h
  rw [File.execAll_replay (L.settled_hist lo hi) hsub, ← L.image_eq hle]

/-! ### Logs with one batch -/

/-- A batch captured over the genesis state validates against its own payload. -/
theorem loadBatch_build {payloads : PayloadStore} {payload : List UInt8} {view : PayloadView}
    (hload : payloads.load (Sha256.hash payload) = some payload)
    (hparse : PayloadView.parse payload = .ok view) (hdb : view.databaseId = databaseId)
    (hcount : view.transactionCount = 1) (hpage : view.pageSize = defaultPageSize)
    (batchId baseDataSlot : ℕ) (baseChainHash : HashBytes) :
    loadBatch databaseId defaultPageSize payloads
      (.build databaseId batchId baseDataSlot baseChainHash payload view.frameCount) = .ok view := by
  simp [loadBatch, TransactionBatch.build, hload, validateBatchPayload, hparse, hdb, hcount, hpage]

/-- A payload a log of this database can carry. -/
structure Carried (databaseId : ℕ) (payload : List UInt8) (view : PayloadView) : Prop where
  parse : PayloadView.parse payload = .ok view
  database : view.databaseId = databaseId
  count : view.transactionCount = 1
  pageSize : view.pageSize = defaultPageSize

/-- The batch captured over the genesis state. -/
def firstBatch (databaseId batchId : ℕ) (payload : List UInt8) (view : PayloadView) :
    TransactionBatch :=
  .build databaseId batchId 0 (genesisChain databaseId) payload view.frameCount

/-- One batch at slot one, noops after it. -/
def firstEntries (databaseId batchId : ℕ) (payload : List UInt8) (view : PayloadView) (s : ℕ) :
    Entry :=
  if s = 1 then .command (.transactionBatch (firstBatch databaseId batchId payload view))
  else .command .noop

theorem load_put_empty (payload : List UInt8) :
    (PayloadStore.empty.put payload).load (Sha256.hash payload) = some payload := by
  simp [PayloadStore.put, PayloadStore.contains, PayloadStore.load, PayloadStore.empty]

theorem Carried.valid {payload : List UInt8} {view : PayloadView}
    (h : Carried databaseId payload view) (batchId n : ℕ) :
    (Materialized.fold databaseId (PayloadStore.empty.put payload)
      (firstEntries databaseId batchId payload view) n).isSome := by
  induction n with
  | zero => rfl
  | succ n ih =>
    obtain ⟨s, hs⟩ := Option.isSome_iff_exists.1 ih
    rw [Materialized.fold, hs, Option.bind_some]
    by_cases hn : n = 0
    · subst hn
      obtain rfl : Materialized.genesis databaseId = s := Option.some.inj hs
      have hbase : checkChainBase databaseId (genesisChain databaseId) 0
          (firstBatch databaseId batchId payload view) = true := by
        simp only [checkChainBase, firstBatch, chainValid_build, Bool.and_true]
        simp [TransactionBatch.build]
      have hload := loadBatch_build (load_put_empty payload) h.parse h.database h.count h.pageSize
        batchId 0 (genesisChain databaseId)
      simp only [firstEntries, Materialized.step, Materialized.genesis, hbase, if_true]
      rw [firstBatch, hload]
      rfl
    · have hne : n + 1 ≠ 1 := by omega
      simp only [firstEntries, if_neg hne, Materialized.step, Option.isSome_some]

def ofPayload {payload : List UInt8} {view : PayloadView} (h : Carried databaseId payload view)
    (batchId : ℕ) : ChosenLog databaseId where
  entry := firstEntries databaseId batchId payload view
  payloads := PayloadStore.empty.put payload
  valid := h.valid batchId

theorem carried_captured (t : CapturedTransaction) (hdb : databaseId < 256 ^ 16)
    (hpage : t.frames.pageSize = defaultPageSize) :
    Carried databaseId (t.payload databaseId) (t.view databaseId) :=
  ⟨parse_payload t hdb, rfl, rfl, hpage⟩

theorem ops_ofPayload {payload : List UInt8} {view : PayloadView} (h : Carried databaseId payload view)
    (batchId : ℕ) {s : ℕ} (hs : s ≠ 1) : (ofPayload h batchId).ops s = [] := by
  simp only [ops, ofPayload, firstEntries, if_neg hs]

theorem ops_ofPayload_one {payload : List UInt8} {view : PayloadView}
    (h : Carried databaseId payload view) (batchId : ℕ) :
    (ofPayload h batchId).ops 1 = view.applyPayload := by
  have hload := loadBatch_build (load_put_empty payload) h.parse h.database h.count h.pageSize batchId 0
    (genesisChain databaseId)
  simp only [ops, ofPayload, firstEntries, if_true, firstBatch, hload]

end ChosenLog

end Zaxonlite
