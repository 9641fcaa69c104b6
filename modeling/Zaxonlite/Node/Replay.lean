import Zaxonlite.Node.Chosen

/-!
# Replay

The streaming pass of `materializeFromJournal` applies exactly the contiguous run of journaled commits
above its base, each once and in slot order, although the records arrive in any order the consensus
window allows. The ring never loses a record that is still needed: two slots above the applied one
share a cell only if they are a window apart. On the way the image holds what it held at the start plus
changes of slots in the run, which is what a crash inside the pass leaves behind.
-/

namespace Zaxonlite

open Program Contiguous

variable {databaseId : ℕ}

namespace ChosenLog

variable (L : ChosenLog databaseId)

/-- The changes of slots `a + 1..b`, each with its slot. -/
def stamped (a b : ℕ) : List (ℕ × FileOp) :=
  (List.range' (a + 1) (b - a)).flatMap fun s => (L.ops s).map fun op => (s, op)

@[simp] theorem stamped_self (a : ℕ) : L.stamped a a = [] := by
  simp [stamped]

theorem stamped_succ {a b : ℕ} (h : a ≤ b) :
    L.stamped a (b + 1) = L.stamped a b ++ (L.ops (b + 1)).map fun op => (b + 1, op) := by
  have hlen : b + 1 - a = b - a + 1 := by omega
  have hlast : a + 1 + 1 * (b - a) = b + 1 := by omega
  rw [stamped, hlen, List.range'_concat, List.flatMap_append, stamped]
  simp only [List.flatMap_cons, List.flatMap_nil, List.append_nil, hlast]

theorem map_snd_stamped (a b : ℕ) : (L.stamped a b).map Prod.snd = L.hist a b := by
  simp [stamped, hist, List.map_flatMap, Function.comp_def]

/-- The pair is a change of its slot, and the slot lies in the stretch. -/
def Stamp (lo hi : ℕ) (p : ℕ × FileOp) : Prop :=
  lo < p.1 ∧ p.1 ≤ hi ∧ p.2 ∈ L.ops p.1

theorem stamp_of_mem_stamped {a b : ℕ} {p : ℕ × FileOp} (h : p ∈ L.stamped a b) :
    L.Stamp a b p := by
  simp only [stamped, List.mem_flatMap, List.mem_range'_1, List.mem_map] at h
  obtain ⟨s, ⟨hlo, hhi⟩, op, hop, rfl⟩ := h
  have hs : s ≤ b := by omega
  exact ⟨hlo, hs, hop⟩

theorem Stamp.mono {L : ChosenLog databaseId} {lo lo' hi hi' : ℕ} {p : ℕ × FileOp}
    (h : L.Stamp lo hi p) (hlo : lo' ≤ lo) (hhi : hi ≤ hi') : L.Stamp lo' hi' p :=
  ⟨lt_of_le_of_lt hlo h.1, le_trans h.2.1 hhi, h.2.2⟩

/-- A store holds, under the hash the batch at this slot names, the payload of the log. -/
def Stored (store : PayloadStore) (slot : ℕ) : Prop :=
  ∀ batch, L.entry slot = .command (.transactionBatch batch) →
    store.load batch.payloadHash = L.payloads.load batch.payloadHash

theorem Stored.loadBatch_eq {L : ChosenLog databaseId} {store : PayloadStore} {slot : ℕ}
    (h : L.Stored store slot) {batch : TransactionBatch}
    (hentry : L.entry slot = .command (.transactionBatch batch)) (pageSize : ℕ) :
    loadBatch databaseId pageSize store batch = loadBatch databaseId pageSize L.payloads batch := by
  simp only [loadBatch, h batch hentry]

theorem payload_of_batch {slot : ℕ} {batch : TransactionBatch} (hpos : 0 < slot)
    (hentry : L.entry slot = .command (.transactionBatch batch)) :
    ∃ bytes, L.payloads.load batch.payloadHash = some bytes := by
  obtain ⟨n, rfl⟩ := Nat.exists_eq_succ_of_ne_zero (Nat.pos_iff_ne_zero.1 hpos)
  obtain ⟨-, view, hload, -⟩ := L.state_succ_batch hentry
  unfold loadBatch at hload
  cases hpayload : L.payloads.load batch.payloadHash with
  | none =>
    rw [hpayload] at hload
    cases hload
  | some bytes => exact ⟨bytes, rfl⟩

theorem Stored.put {L : ChosenLog databaseId} {store : PayloadStore} {slot : ℕ}
    (h : L.Stored store slot) (hpos : 0 < slot) (bytes : List UInt8) :
    L.Stored (store.put bytes) slot := by
  intro batch hentry
  obtain ⟨stored, hstored⟩ := L.payload_of_batch hpos hentry
  rw [hstored]
  exact PayloadStore.load_put_of_load ((h batch hentry).trans hstored) bytes

end ChosenLog

/-! ### The volatile cursors -/

/-- The node with its cursors moved to a fold. The batch identity is one that a batch sets, so a fold
without one leaves it as it was. -/
def Node.atState (n : Node) (s : Materialized) (slot : ℕ) (pending : Bool) : Node :=
  { n with
    appliedSlot := slot
    lastChain := s.lastChain
    lastDataSlot := s.lastDataSlot
    lastBatchId := if s.lastDataSlot = 0 then n.lastBatchId else s.lastBatchId
    historyHash := s.historyHash
    membershipChangePending := pending }

/-- The node's cursors are those of the fold of slots `1..slot`. -/
structure Node.CursorsAt (L : ChosenLog databaseId) (n : Node) (slot : ℕ) : Prop where
  applied : n.appliedSlot = slot
  lastChain : n.lastChain = (L.state slot).lastChain
  lastDataSlot : n.lastDataSlot = (L.state slot).lastDataSlot
  lastBatchId : n.lastBatchId = (L.state slot).lastBatchId
  historyHash : n.historyHash = (L.state slot).historyHash

theorem Node.CursorsAt.atState_eq {L : ChosenLog databaseId} {n : Node} {slot : ℕ}
    (h : n.CursorsAt L slot) : n = n.atState (L.state slot) slot n.membershipChangePending := by
  have hbatch : (if (L.state slot).lastDataSlot = 0 then n.lastBatchId
      else (L.state slot).lastBatchId) = n.lastBatchId := by
    rw [← h.lastBatchId, ite_self]
  rw [Node.atState, hbatch, ← h.lastChain, ← h.lastDataSlot, ← h.historyHash, ← h.applied]

/-! ### The trail -/

/-- Every disk the trail gained satisfies `S`. -/
def Machine.Grew (S : Disk → Prop) (m m' : Machine) : Prop :=
  ∀ d ∈ m'.trail, d ∈ m.trail ∨ S d

theorem Machine.Grew.refl (S : Disk → Prop) (m : Machine) : Machine.Grew S m m :=
  fun _ => Or.inl

theorem Machine.Grew.trans {S : Disk → Prop} {m m' m'' : Machine} (h : Machine.Grew S m m')
    (h' : Machine.Grew S m' m'') : Machine.Grew S m m'' := fun d hd =>
  (h' d hd).elim (h d) Or.inr

theorem Machine.Grew.emit {S : Disk → Prop} {m m' : Machine} {d : Disk} {n : Node}
    (h : Machine.Grew S m m') (hd : S d) :
    Machine.Grew S m { node := n, disk := d, trail := m'.trail ++ [d] } := by
  intro d' hd'
  rcases List.mem_append.1 hd' with hold | hnew
  · exact h d' hold
  · rw [List.mem_singleton] at hnew
    exact Or.inr (hnew ▸ hd)

theorem Machine.Grew.mono {S S' : Disk → Prop} {m m' : Machine} (h : Machine.Grew S m m')
    (himp : ∀ d, S d → S' d) : Machine.Grew S' m m' := fun d hd =>
  (h d hd).imp_right (himp d)

def Disk.withImage (d : Disk) (image : Image) : Disk :=
  { d with image := some image }

/-- The image with further changes pending. -/
def Image.extend (image : Image) (extra : List (ℕ × FileOp)) : Image :=
  { image with pending := image.pending ++ extra }

@[simp] theorem Image.extend_nil (image : Image) : image.extend [] = image := by
  simp [Image.extend]

theorem Image.extend_extend (image : Image) (xs ys : List (ℕ × FileOp)) :
    (image.extend xs).extend ys = image.extend (xs ++ ys) := by
  simp [Image.extend]

theorem Image.content_extend (image : Image) (extra : List (ℕ × FileOp)) :
    (image.extend extra).content = image.content.execAll (extra.map Prod.snd) := by
  simp only [Image.content, Image.extend, List.map_append, File.execAll_append]

/-- Applying a payload's changes leaves a growing image behind at every crash point. -/
theorem wp_applyPayloadOps {S : Disk → Prop} {slot : ℕ} {ops : List FileOp} {m : Machine}
    {d : Disk} {image : Image} {Q : Unit → Machine → Prop} {E : NodeError → Machine → Prop}
    (hdisk : m.disk = d.withImage image)
    (hS : ∀ done, done ⊆ ops → S (d.withImage (image.extend (done.map fun op => (slot, op)))))
    (hQ : ∀ trail, Machine.Grew S m ⟨m.node, m.disk, trail⟩ →
      Q () ⟨m.node, d.withImage (image.extend (ops.map fun op => (slot, op))), trail⟩) :
    wp (applyPayloadOps slot ops) Q E m := by
  refine wp_mono (Q := fun _ m' => m'.node = m.node ∧ Machine.Grew S m m' ∧
      m'.disk = d.withImage (image.extend (ops.map fun op => (slot, op)))) (E := fun _ _ => False)
    ?_ ?_ (fun _ _ h => h.elim)
  · refine wp_forM (fun pre m' => m'.node = m.node ∧ Machine.Grew S m m' ∧
      m'.disk = d.withImage (image.extend (pre.map fun op => (slot, op)))) ops m ?_ ?_
    · exact ⟨rfl, Machine.Grew.refl S m, by rw [hdisk, List.map_nil, Image.extend_nil]⟩
    · rintro pre op post m' rfl ⟨hnode, hgrew, hd⟩
      have hnext : m'.disk.changeImage slot op =
          d.withImage (image.extend ((pre ++ [op]).map fun op => (slot, op))) := by
        rw [hd, List.map_append, ← Image.extend_extend]
        rfl
      rw [wp_emit]
      refine ⟨hnode, hgrew.emit ?_, hnext⟩
      rw [hnext]
      exact hS _ (fun x hx => by simp only [List.mem_append, List.mem_cons] at hx ⊢; tauto)
  · rintro ⟨⟩ ⟨node, disk, trail⟩ ⟨hnode, hgrew, hd⟩
    simp only at hnode hd
    subst hnode hd
    exact hQ trail hgrew

/-! ### One replayed commit -/

/-- A disk a crash inside the pass can leave: further changes of slots in the run. -/
def ReplayDisk (L : ChosenLog databaseId) (base last : ℕ) (d₀ : Disk) (image₀ : Image) (d : Disk) :
    Prop :=
  ∃ extra, (∀ p ∈ extra, L.Stamp base last p) ∧ d = d₀.withImage (image₀.extend extra)

structure ReplayStart where
  node : Node
  disk : Disk
  image : Image

/-- The pass has applied the run through slot `k`. -/
structure ReplayedTo (L : ChosenLog databaseId) (base last : ℕ) (start : ReplayStart) (m₀ : Machine)
    (k : ℕ) (m : Machine) : Prop where
  node : ∃ pending, m.node = start.node.atState (L.state k) k pending
  disk : m.disk = start.disk.withImage (start.image.extend (L.stamped base k))
  grew : m₀.Grew (ReplayDisk L base last start.disk start.image) m

section Commit

variable {L : ChosenLog databaseId} {base last k : ℕ} {start : ReplayStart} {m₀ m : Machine}

theorem ReplayedTo.appliedSlot (h : ReplayedTo L base last start m₀ k m) :
    m.node.appliedSlot = k := by
  obtain ⟨pending, hnode⟩ := h.node
  rw [hnode]
  rfl

/-- Replaying the next chosen entry advances every cursor to the next fold. -/
theorem wp_applyReplayCommit (hdb : start.node.identity.databaseId = databaseId)
    (hpage : start.node.pageSize = defaultPageSize) (hstored : L.Stored start.disk.store (k + 1))
    (hbase : base ≤ k) (hlast : k < last) (h : ReplayedTo L base last start m₀ k m) :
    wp (applyReplayCommit (k + 1) (L.entry (k + 1)) (L.state k).configuration)
      (fun cursor m' => cursor = (L.state (k + 1)).configuration ∧
        ReplayedTo L base last start m₀ (k + 1) m') (fun _ _ => False) m := by
  obtain ⟨⟨pending, hnode⟩, hdisk, hgrew⟩ := h
  have hstamp := L.stamped_succ hbase
  simp only [applyReplayCommit, applyEntryToImage, wp_bind, wp_get]
  by_cases hbatch : ∃ batch, L.entry (k + 1) = .command (.transactionBatch batch)
  · obtain ⟨batch, hentry⟩ := hbatch
    obtain ⟨hcheck, view, hload, hops, hstate⟩ := L.state_succ_batch hentry
    have hcheck' : checkChainBase m.node.identity.databaseId m.node.lastChain m.node.lastDataSlot
        batch = true := by
      rw [hnode]
      simpa only [Node.atState, hdb] using hcheck
    have hload' : loadBatch m.node.identity.databaseId m.node.pageSize m.disk.store batch
        = .ok view := by
      rw [hnode, hdisk]
      simp only [Node.atState, Disk.withImage, hdb, hpage]
      rw [hstored.loadBatch_eq hentry, hload]
    rw [hentry]
    simp only [hcheck', hload', not_true_eq_false, if_false, wp_bind]
    refine wp_applyPayloadOps (S := ReplayDisk L base last start.disk start.image) hdisk
      (fun done hdone => ?_) (fun trail hgrew' => ?_)
    · refine ⟨L.stamped base k ++ done.map fun op => (k + 1, op), ?_, by rw [Image.extend_extend]⟩
      intro p hp
      rcases List.mem_append.1 hp with hp | hp
      · exact (L.stamp_of_mem_stamped hp).mono le_rfl hlast.le
      · obtain ⟨op, hop, rfl⟩ := List.mem_map.1 hp
        exact ⟨Nat.lt_succ_of_le hbase, hlast, hops ▸ hdone hop⟩
    · simp only [wp_setNode, wp_bind, wp_pure]
      refine ⟨?_, ⟨pending, ?_⟩, ?_, hgrew.trans hgrew'⟩
      · rw [L.configuration_succ, hentry]
      · rw [hnode, hstate, hentry]
        simp only [Node.advanceChain, Node.atState, hdb, Materialized.note_lastDataSlot,
          Materialized.install, Nat.succ_ne_zero, if_false]
        rfl
      · rw [hstamp, hops, ← Image.extend_extend]
  · push Not at hbatch
    obtain ⟨hops, hstate⟩ := L.state_succ_other hbatch
    have hgoal : ∀ flag : Bool,
        (nextConfiguration (L.state k).configuration (L.entry (k + 1)) =
            (L.state (k + 1)).configuration) ∧
          ReplayedTo L base last start m₀ (k + 1)
            ⟨{ (start.node.atState (L.state k) k flag) with
                historyHash := History.advance (L.state k).historyHash
                  start.node.identity.databaseId (L.state k).configuration (k + 1) (L.entry (k + 1))
                appliedSlot := k + 1 }, m.disk, m.trail⟩ := by
      intro flag
      refine ⟨(L.configuration_succ k).symm, ⟨flag, ?_⟩, ?_, hgrew⟩
      · rw [hstate]
        simp only [Node.atState, hdb, Materialized.note_historyHash, Materialized.note_lastChain,
          Materialized.note_lastDataSlot, Materialized.note_lastBatchId]
        rfl
      · rw [hstamp, hops, List.map_nil, List.append_nil]
        exact hdisk
    cases hentry : L.entry (k + 1) with
    | stop stop =>
      rw [hentry] at hgoal
      simp only [wp_setNode, wp_bind, wp_pure]
      rw [hnode]
      by_cases hstop : stop.configurationId > start.node.identity.configurationId
      · simpa only [Node.withApplied, Node.atState, hstop, if_true] using hgoal true
      · simpa only [Node.withApplied, Node.atState, hstop, if_false] using hgoal pending
    | command cmd =>
      rw [hentry] at hgoal
      cases cmd with
      | transactionBatch batch => exact absurd hentry (hbatch batch)
      | _ =>
        simp only [wp_setNode, wp_bind, wp_pure]
        rw [hnode]
        exact hgoal pending

end Commit

/-! ### The park ring -/

/-- The ring over the slots seen so far: every seen slot above the applied one is in its cell with its
value, and what is in a cell was seen. -/
structure RingKeeps (value : ℕ → Entry) (known : List ℕ) (k : ℕ) (r : Replay) : Prop where
  kept : ∀ s ∈ known, k < s → r.parked (s % windowSlots) = ⟨s, value s⟩
  seen : ∀ i, (r.parked i).slot ≠ 0 →
    (r.parked i).slot ∈ known ∧ (r.parked i).value = value (r.parked i).slot

/-- A rule for the commits of slots `base + 1..last`: each leads from what holds of the cursor and the
machine after its predecessor to what holds after it, or to a failure. -/
structure PassRule (value : ℕ → Entry) (base last : ℕ) (At : ℕ → ℕ → Machine → Prop)
    (E : NodeError → Machine → Prop) : Prop where
  applied : ∀ {k cursor : ℕ} {m : Machine}, At k cursor m → m.node.appliedSlot = k
  commit : ∀ {k cursor : ℕ} {m : Machine}, base ≤ k → k + 1 ≤ last → At k cursor m →
    wp (applyReplayCommit (k + 1) (value (k + 1)) cursor) (At (k + 1)) E m

/-- The pass has applied the run through `k` with the ring in step. -/
structure PassAt (value : ℕ → Entry) (At : ℕ → ℕ → Machine → Prop) (known : List ℕ) (k : ℕ)
    (r : Replay) (m : Machine) : Prop where
  replayed : At k r.configCursor m
  ring : RingKeeps value known k r

section Ring

variable {value : ℕ → Entry} {base last k : ℕ} {m : Machine} {known : List ℕ} {r : Replay}
  {At : ℕ → ℕ → Machine → Prop} {E : NodeError → Machine → Prop}

theorem RingKeeps.clear (h : RingKeeps value known k r) (cursor : ℕ)
    (hbound : ∀ s ∈ known, s ≤ k + windowSlots) :
    RingKeeps value known (k + 1)
      { configCursor := cursor
        parked := Function.update r.parked ((k + 1) % windowSlots)
          { r.parked ((k + 1) % windowSlots) with slot := 0 } } := by
  constructor
  · intro s hs hlt
    have hne : s % windowSlots ≠ (k + 1) % windowSlots :=
      mod_ne_of_lt hlt (by have := hbound s hs; omega)
    simp only [Function.update_of_ne hne]
    exact h.kept s hs (by omega)
  · intro i hi
    by_cases hcell : i = (k + 1) % windowSlots
    · subst hcell
      simp at hi
    · simp only [Function.update_of_ne hcell] at hi ⊢
      exact h.seen i hi

/-- Parking a slot above the applied one leaves every other seen slot in its cell. -/
theorem RingKeeps.park (h : RingKeeps value known k r) {slot : ℕ}
    (hbound : ∀ s ∈ known, s ≤ k + windowSlots) (hlt : k < slot) (hslot : slot ≤ k + windowSlots) :
    RingKeeps value (known ++ [slot]) k
      { r with parked := Function.update r.parked (slot % windowSlots) ⟨slot, value slot⟩ } := by
  constructor
  · intro s hs hk
    by_cases hsame : s = slot
    · subst hsame
      simp
    · have hold : s ∈ known := by
        rcases List.mem_append.1 hs with hs | hs
        · exact hs
        · exact absurd (List.mem_singleton.1 hs) hsame
      have hcell : s % windowSlots ≠ slot % windowSlots := by
        have := hbound s hold
        rcases Nat.lt_or_gt_of_ne hsame with hlt' | hgt'
        · exact (mod_ne_of_lt hlt' (by omega)).symm
        · exact mod_ne_of_lt hgt' (by omega)
      simp only [Function.update_of_ne hcell]
      exact h.kept s hold hk
  · intro i hi
    by_cases hcell : i = slot % windowSlots
    · subst hcell
      simp
    · simp only [Function.update_of_ne hcell] at hi ⊢
      obtain ⟨hmem, hvalue⟩ := h.seen i hi
      exact ⟨List.mem_append_left _ hmem, hvalue⟩

theorem RingKeeps.pass (h : RingKeeps value known k r) {slot : ℕ} (hle : slot ≤ k) :
    RingKeeps value (known ++ [slot]) k r := by
  constructor
  · intro s hs hlt
    rcases List.mem_append.1 hs with hs | hs
    · exact h.kept s hs hlt
    · rw [List.mem_singleton] at hs
      omega
  · intro i hi
    obtain ⟨hmem, hvalue⟩ := h.seen i hi
    exact ⟨List.mem_append_left _ hmem, hvalue⟩

theorem RingKeeps.advance (h : RingKeeps value known k r) (cursor : ℕ) {k' : ℕ} (hle : k ≤ k') :
    RingKeeps value known k' { r with configCursor := cursor } :=
  ⟨fun s hs hlt => h.kept s hs (by omega), h.seen⟩

/-- Draining applies the rest of the run that is parked. -/
theorem wp_drainParked (hrule : PassRule value base last At E) (hlast : runEnd known base ≤ last)
    (fuel : ℕ) (hfuel : runEnd known base ≤ k + fuel) (hbase : base ≤ k)
    (hrun : ∀ s, base < s → s ≤ k → s ∈ known) (hbound : ∀ s ∈ known, s ≤ k + windowSlots)
    (h : PassAt value At known k r m) :
    wp (drainParked fuel r)
      (fun r' m' => PassAt value At known (runEnd known base) r' m') E m := by
  induction fuel generalizing k r m with
  | zero =>
    have hk : k = runEnd known base := le_antisymm (le_runEnd hrun) (by omega)
    rw [drainParked, wp_pure]
    rwa [← hk]
  | succ fuel ih =>
    simp only [drainParked, wp_bind, wp_get, hrule.applied h.replayed]
    rw [wp_ite]
    constructor
    · intro hcell
      rw [wp_pure]
      -- The next slot is not parked, so it was never seen and the run ends here.
      have hnot : k + 1 ∉ known := fun hmem =>
        hcell (by rw [h.ring.kept (k + 1) hmem (Nat.lt_succ_self k)])
      rwa [runEnd_eq ⟨hbase, hrun, hnot⟩]
    · intro hcell
      rw [not_not] at hcell
      obtain ⟨hmem, hvalue⟩ := h.ring.seen ((k + 1) % windowSlots) (by rw [hcell]; omega)
      rw [hcell] at hmem hvalue
      have hrun' : ∀ s, base < s → s ≤ k + 1 → s ∈ known := by
        intro s hlo hhi
        rcases Nat.lt_or_ge s (k + 1) with hlt | hge
        · exact hrun s hlo (by omega)
        · exact (le_antisymm hhi hge) ▸ hmem
      have hk : k + 1 ≤ last := le_trans (le_runEnd hrun') hlast
      rw [wp_bind, hvalue]
      refine wp_mono (hrule.commit hbase hk h.replayed) ?_ (fun _ _ hfail => hfail)
      intro cursor m' hreplayed
      refine ih (by omega) (by omega) hrun' (fun s hs => by have := hbound s hs; omega) ?_
      exact ⟨hreplayed, hvalue ▸ h.ring.clear cursor hbound⟩

theorem wp_replayRecord (hrule : PassRule value base last At E) {write : Write}
    (hvalue : ∀ s v, write = .commit s v → base < s → v = value s)
    (hwindow : InWindow windowSlots base (known ++ write.commitSlot?.toList))
    (hlast : runEnd (known ++ write.commitSlot?.toList) base ≤ last)
    (h : PassAt value At known (runEnd known base) r m) :
    wp (replayRecord r write)
      (fun r' m' => PassAt value At (known ++ write.commitSlot?.toList)
        (runEnd (known ++ write.commitSlot?.toList) base) r' m') E m := by
  cases write with
  | promise ballot => simpa [replayRecord, Write.commitSlot?] using h
  | accept ballot slot value => simpa [replayRecord, Write.commitSlot?] using h
  | trimAnchor anchor => simpa [replayRecord, Write.commitSlot?] using h
  | commit slot v =>
    simp only [Write.commitSlot?, Option.toList_some] at hwindow hlast ⊢
    have hbase := base_le_runEnd known base
    have hslot : slot ≤ runEnd known base + windowSlots := hwindow.bound
    have hbound : ∀ s ∈ known, s ≤ runEnd known base + windowSlots := fun s hs =>
      hwindow.of_append.le_of_mem hs
    simp only [replayRecord, wp_bind, wp_get, hrule.applied h.replayed]
    rw [wp_ite]
    constructor
    · intro hle
      rw [wp_pure, runEnd_append_ne (by omega)]
      exact ⟨h.replayed, h.ring.pass hle⟩
    · intro hgt
      obtain rfl := hvalue slot v rfl (by omega)
      rw [wp_ite]
      constructor
      · rintro rfl
        have hrun : ∀ s, base < s → s ≤ runEnd known base + 1 →
            s ∈ known ++ [runEnd known base + 1] := by
          intro s hlo hhi
          rw [List.mem_append, List.mem_singleton]
          rcases Nat.lt_or_ge s (runEnd known base + 1) with hlt | hge
          · exact Or.inl (mem_of_le_runEnd hlo (by omega))
          · exact Or.inr (le_antisymm hhi hge)
        have hk : runEnd known base + 1 ≤ last := le_trans (le_runEnd hrun) hlast
        have hall : ∀ s ∈ known ++ [runEnd known base + 1],
            s ≤ runEnd known base + windowSlots := by
          intro s hs
          rcases List.mem_append.1 hs with hs | hs
          · exact hbound s hs
          · rw [List.mem_singleton] at hs
            omega
        rw [wp_bind]
        refine wp_mono (hrule.commit hbase hk h.replayed) ?_ (fun _ _ hfail => hfail)
        intro cursor m' hreplayed
        have hnext := (h.ring.advance cursor (Nat.le_succ _)).pass (le_refl (runEnd known base + 1))
        refine wp_drainParked hrule hlast windowSlots ?_ (by omega) hrun
          (fun s hs => by have := hall s hs; omega) ⟨hreplayed, hnext⟩
        rcases Nat.lt_or_ge base (runEnd (known ++ [runEnd known base + 1]) base) with hlt | hge
        · have := hall _ (mem_of_le_runEnd hlt le_rfl)
          omega
        · omega
      · intro hne
        rw [if_pos (by omega), wp_pure, runEnd_append_ne (by omega)]
        exact ⟨h.replayed, h.ring.park hbound (by omega) hslot⟩

end Ring

/-! ### The streaming pass -/

/-- The pass applies exactly the contiguous run, by whatever rule its commits follow. -/
theorem wp_recordPass {value : ℕ → Entry} {base : ℕ} {m : Machine} {records : List Write} {cursor : ℕ}
    {At : ℕ → ℕ → Machine → Prop} {E : NodeError → Machine → Prop}
    (hrule : PassRule value base (runEnd (commitSlots records) base) At E)
    (hvalue : ∀ s v, Write.commit s v ∈ records → base < s → v = value s)
    (hwindow : InWindow windowSlots base (commitSlots records)) (hstart : At base cursor m) :
    wp (records.foldlM replayRecord (Replay.start cursor))
      (fun r m' => At (runEnd (commitSlots records) base) r.configCursor m') E m := by
  refine wp_mono (wp_foldlM (fun pre r m' => PassAt value At (commitSlots pre)
    (runEnd (commitSlots pre) base) r m') records (Replay.start cursor) m ?_ ?_)
    (fun _ m' h => h.replayed) (fun _ _ hfail => hfail)
  · exact ⟨hstart, ⟨fun s hs => absurd hs (by simp [commitSlots]), fun i hi => absurd rfl hi⟩⟩
  · rintro pre write post r m' hsplit hpass
    have hcat : commitSlots (pre ++ [write]) = commitSlots pre ++ write.commitSlot?.toList := by
      rw [commitSlots_append, commitSlots_singleton]
    have hpre : commitSlots records = commitSlots (pre ++ [write]) ++ commitSlots post := by
      rw [← commitSlots_append, hsplit]
      simp
    rw [hcat]
    refine wp_replayRecord hrule (fun s v hw hlo => ?_) ?_ ?_ hpass
    · exact hvalue s v (by rw [hsplit, hw]; simp) hlo
    · rw [← hcat]
      exact (hpre ▸ hwindow).of_append
    · rw [← hcat, hpre]
      exact runEnd_mono_known base (List.subset_append_left _ _)

/-- The commits of slots `a + 1..b` applied one after the other. -/
def replayInOrder (value : ℕ → Entry) (a b cursor : ℕ) : Op ℕ :=
  (List.range' (a + 1) (b - a)).foldlM (fun cursor slot => applyReplayCommit slot (value slot) cursor)
    cursor

theorem wp_applyReplayCommit_applied (slot : ℕ) (value : Entry) (cursor : ℕ) (m : Machine) :
    wp (applyReplayCommit slot value cursor) (fun _ m' => m'.node.appliedSlot = slot)
      (fun _ _ => True) m := by
  rw [applyReplayCommit, wp_bind]
  refine wp_mono (wp_and (wp_self _ m) (wp_self _ m)) ?_ (fun _ _ _ => trivial)
  intro _ m' _
  rfl

theorem replayInOrder_succ {value : ℕ → Entry} {a b : ℕ} (h : a ≤ b) (cursor : ℕ) :
    replayInOrder value a (b + 1) cursor =
      (replayInOrder value a b cursor >>= fun cursor => applyReplayCommit (b + 1) (value (b + 1)) cursor) := by
  have hlen : b + 1 - a = b - a + 1 := by omega
  have hlast : a + 1 + 1 * (b - a) = b + 1 := by omega
  rw [replayInOrder, hlen, List.range'_concat, List.foldlM_append, replayInOrder, hlast]
  simp only [List.foldlM_cons, List.foldlM_nil, bind_pure]

theorem replayInOrder_error {value : ℕ → Entry} {a b b' cursor : ℕ} {m m' : Machine} {e : NodeError}
    (hab : a ≤ b) (hle : b ≤ b') (h : replayInOrder value a b cursor m = .error e m') :
    replayInOrder value a b' cursor m = .error e m' := by
  induction b', hle using Nat.le_induction with
  | base => exact h
  | succ b' hle ih =>
    rw [replayInOrder_succ (hab.trans hle)]
    exact bind_of_error ih _

/-- **Window-ring replay is ordered replay.** Whatever order the window let the records arrive in, with
whatever duplicates, the streaming pass does what applying the slots of the contiguous run one after the
other does: the same writes in the same order, the same cursor, and the same error where one fails. -/
theorem recordPass_eq_inOrder {value : ℕ → Entry} {base cursor : ℕ} {m : Machine} {records : List Write}
    (happlied : m.node.appliedSlot = base)
    (hvalue : ∀ s v, Write.commit s v ∈ records → base < s → v = value s)
    (hwindow : InWindow windowSlots base (commitSlots records)) :
    (do
      let r ← records.foldlM replayRecord (Replay.start cursor)
      pure r.configCursor : Op ℕ) m =
      replayInOrder value base (runEnd (commitSlots records) base) cursor m := by
  have hrule : PassRule value base (runEnd (commitSlots records) base)
      (fun k cursor' m' => m'.node.appliedSlot = k ∧
        replayInOrder value base k cursor m = .ok cursor' m')
      (fun e m' => replayInOrder value base (runEnd (commitSlots records) base) cursor m =
        .error e m') := by
    constructor
    · intro k cursor' m' h
      exact h.1
    · rintro k cursor' m' hbase hlast ⟨-, hok⟩
      have hnext : replayInOrder value base (k + 1) cursor m =
          applyReplayCommit (k + 1) (value (k + 1)) cursor' m' := by
        rw [replayInOrder_succ hbase]
        exact bind_of_ok hok _
      refine wp_mono (wp_and (wp_self _ m') (wp_applyReplayCommit_applied _ _ _ m')) ?_ ?_
      · rintro cursor'' m'' ⟨hself, happlied'⟩
        exact ⟨happlied', hnext.trans hself⟩
      · rintro e m'' ⟨hself, -⟩
        exact replayInOrder_error (Nat.le_succ_of_le hbase) hlast (hnext.trans hself)
  have hstart : replayInOrder value base base cursor m = .ok cursor m := by
    rw [replayInOrder, Nat.sub_self]
    rfl
  have hpass := wp_recordPass hrule hvalue hwindow ⟨happlied, hstart⟩
  rw [wp] at hpass
  cases hrun : records.foldlM replayRecord (Replay.start cursor) m with
  | ok r m' =>
    rw [hrun] at hpass
    rw [bind_of_ok hrun]
    exact hpass.2.symm
  | error e m' =>
    rw [hrun] at hpass
    rw [bind_of_error hrun]
    exact hpass.symm

/-- Slot two is journaled before slot one, and once more after it. -/
def reorderedRecords : List Write :=
  [.commit 2 (.command (.readBarrier 5)), .commit 1 (.command .noop), .commit 2 (.command (.readBarrier 5))]

def reorderedValue (slot : ℕ) : Entry :=
  if slot = 2 then .command (.readBarrier 5) else .command .noop

theorem recordPass_eq_inOrder_reordered :
    (do
      let r ← reorderedRecords.foldlM replayRecord (Replay.start 1)
      pure r.configCursor : Op ℕ) ⟨Node.boot ⟨⟨1, 1, 1⟩, .dataVoter, true, 0⟩, Disk.blank 8, []⟩ =
      replayInOrder reorderedValue 0 (runEnd (commitSlots reorderedRecords) 0) 1
        ⟨Node.boot ⟨⟨1, 1, 1⟩, .dataVoter, true, 0⟩, Disk.blank 8, []⟩ :=
  recordPass_eq_inOrder rfl (by
    intro s v hmem _
    simp only [reorderedRecords, List.mem_cons, Write.commit.injEq, List.not_mem_nil, or_false] at hmem
    rcases hmem with ⟨rfl, rfl⟩ | ⟨rfl, rfl⟩ | ⟨rfl, rfl⟩ <;> rfl) (by
    intro pre s post hsplit
    have hslots : commitSlots reorderedRecords = [2, 1, 2] := rfl
    have hmem : s ∈ [2, 1, 2] := by
      rw [← hslots, hsplit]
      simp
    have hle : s ≤ 2 := by
      simp only [List.mem_cons, List.not_mem_nil, or_false] at hmem
      omega
    rw [windowSlots]
    omega)

/-! ### Replay of a chosen log -/

/-- A rule for the commits of a run: each leads from what holds after its predecessor to what holds after
it, or to a failure. -/
structure ReplayRule (L : ChosenLog databaseId) (base last : ℕ) (At : ℕ → Machine → Prop)
    (E : NodeError → Machine → Prop) : Prop where
  applied : ∀ {k : ℕ} {m : Machine}, At k m → m.node.appliedSlot = k
  commit : ∀ {k : ℕ} {m : Machine}, base ≤ k → k + 1 ≤ last → At k m →
    wp (applyReplayCommit (k + 1) (L.entry (k + 1)) (L.state k).configuration)
      (fun cursor m' => cursor = (L.state (k + 1)).configuration ∧ At (k + 1) m') E m

/-- What the pass relies on to end without error: the database, its page size, and the payloads of the
run. -/
structure Replayable (L : ChosenLog databaseId) (base last : ℕ) (start : ReplayStart) : Prop where
  database : start.node.identity.databaseId = databaseId
  pageSize : start.node.pageSize = defaultPageSize
  stored : ∀ s, base < s → s ≤ last → L.Stored start.disk.store s

/-- The pass over chosen records ends where the rule leads. -/
theorem wp_replayPass_of {L : ChosenLog databaseId} {base : ℕ} {m : Machine} {records : List Write}
    {cursor : ℕ} {At : ℕ → Machine → Prop} {E : NodeError → Machine → Prop}
    (hrule : ReplayRule L base (runEnd (commitSlots records) base) At E)
    (hchosen : ∀ s v, Write.commit s v ∈ records → v = L.entry s)
    (hwindow : InWindow windowSlots base (commitSlots records))
    (hcursor : base < runEnd (commitSlots records) base → cursor = (L.state base).configuration)
    (hstart : At base m) :
    wp (records.foldlM replayRecord (Replay.start cursor))
      (fun _ m' => At (runEnd (commitSlots records) base) m') E m := by
  have hpass : PassRule L.entry base (runEnd (commitSlots records) base)
      (fun k cursor m => At k m ∧
        (k < runEnd (commitSlots records) base → cursor = (L.state k).configuration)) E := by
    constructor
    · intro k cursor m h
      exact hrule.applied h.1
    · intro k cursor m hbase hlast h
      rw [h.2 hlast]
      refine wp_mono (hrule.commit hbase hlast h.1) ?_ (fun _ _ hfail => hfail)
      rintro cursor' m' ⟨rfl, hnext⟩
      exact ⟨hnext, fun _ => rfl⟩
  refine wp_mono (wp_recordPass hpass (fun s v hmem _ => hchosen s v hmem) hwindow ⟨hstart, hcursor⟩)
    ?_ (fun _ _ hfail => hfail)
  intro r m' h
  exact h.1

/-- **The pass applies exactly the contiguous run.** -/
theorem wp_replayPass {L : ChosenLog databaseId} {base : ℕ} {start : ReplayStart} {m : Machine}
    {records : List Write} {cursor : ℕ}
    (hcan : Replayable L base (runEnd (commitSlots records) base) start)
    (hchosen : ∀ s v, Write.commit s v ∈ records → v = L.entry s)
    (hwindow : InWindow windowSlots base (commitSlots records))
    (hcursor : base < runEnd (commitSlots records) base → cursor = (L.state base).configuration)
    (hstart : ReplayedTo L base (runEnd (commitSlots records) base) start m base m) :
    wp (records.foldlM replayRecord (Replay.start cursor))
      (fun _ m' => ReplayedTo L base (runEnd (commitSlots records) base) start m
        (runEnd (commitSlots records) base) m') (fun _ _ => False) m := by
  have hrule : ReplayRule L base (runEnd (commitSlots records) base)
      (ReplayedTo L base (runEnd (commitSlots records) base) start m) (fun _ _ => False) := by
    refine ⟨fun h => h.appliedSlot, fun hbase hlast h => ?_⟩
    exact wp_applyReplayCommit hcan.database hcan.pageSize
      (hcan.stored _ (Nat.lt_succ_of_le hbase) hlast) hbase hlast h
  exact wp_replayPass_of hrule hchosen hwindow hcursor hstart

end Zaxonlite
