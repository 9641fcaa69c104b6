import Zaxonlite.Registry.Valid

/-!
# Registries over whole histories

A lineage is a bootstrap followed by any number of checkpoint rollovers and replacements. Its fences
only move up, so an identity that a replacement retired stays retired, and an operation that was decided
once is never fresh again, whether the ring still holds it or not.
-/

namespace Zaxonlite

namespace Decided

/-! ### One step -/

section Step

variable {d d' : Decided} {q : ReplacementRequest}

theorem sortNodes_perm (nodes : List NodeRecord) : (sortNodes nodes).Perm nodes :=
  List.mergeSort_perm _ _

theorem sortNodes_ascending {nodes : List NodeRecord} (h : nodes.Pairwise fun a b => a.id ≠ b.id) :
    (sortNodes nodes).Pairwise fun a b => a.id < b.id := by
  have hle : (sortNodes nodes).Pairwise fun a b => decide (a.id ≤ b.id) = true :=
    List.pairwise_mergeSort (fun a b c hab hbc => by
      rw [decide_eq_true_eq] at hab hbc ⊢
      exact le_trans hab hbc) (fun a b => by
      rw [Bool.or_eq_true, decide_eq_true_eq, decide_eq_true_eq]
      exact le_total _ _) nodes
  have hne : (sortNodes nodes).Pairwise fun a b => a.id ≠ b.id :=
    (List.Perm.pairwise_iff (fun hab => Ne.symm hab) (sortNodes_perm nodes)).2 h
  refine (hle.and hne).imp fun {a b} hab => ?_
  rw [decide_eq_true_eq] at hab
  exact lt_of_le_of_ne hab.1 hab.2

/-- Replacing a record that is there changes one place. -/
theorem replaceNode_split {old : ℕ} {nodes : List NodeRecord} (new : NodeRecord)
    (h : ∃ r ∈ nodes, r.id = old) :
    ∃ front r back, nodes = front ++ r :: back ∧ r.id = old ∧
      replaceNode old new nodes = front ++ new :: back := by
  induction nodes with
  | nil =>
    obtain ⟨r, hr, -⟩ := h
    exact absurd hr List.not_mem_nil
  | cons record rest ih =>
    by_cases heq : record.id = old
    · exact ⟨[], record, rest, rfl, heq, by simp [replaceNode, heq]⟩
    · obtain ⟨r, hr, hid⟩ := h
      have hrest : ∃ r ∈ rest, r.id = old := by
        rcases List.mem_cons.1 hr with rfl | hr
        · exact absurd hid heq
        · exact ⟨r, hr, hid⟩
      obtain ⟨front, r', back, hsplit, hid', hreplace⟩ := ih hrest
      refine ⟨record :: front, r', back, by rw [hsplit, List.cons_append], hid', ?_⟩
      rw [replaceNode, if_neg heq, hreplace, List.cons_append]

/-- What `validateRequest` calls fresh. -/
structure Fresh (d : Decided) (q : ReplacementRequest) : Prop where
  above : ∀ r ∈ d.operations, r.operationId < q.operationId
  current : q.expectedConfigurationId = d.configurationId
  voter : ∃ r ∈ d.nodes, r.id = q.oldNodeId ∧ r.role = .dataVoter
  unallocated : d.highestAllocatedNodeId < q.newNodeId
  endpoint : validEndpoint q.newEndpoint = true
  unshared : ∀ r ∈ d.nodes, r.id = q.oldNodeId ∨ r.endpoint ≠ q.newEndpoint
  voters : 3 ≤ d.voterCount
  room : d.configurationId ≠ maxU64

theorem lookupOperation_eq_none (h : d.lookupOperation q = .ok none) (hvalid : Valid d) :
    ∀ r ∈ d.operations, r.operationId < q.operationId := by
  unfold lookupOperation at h
  split at h
  · split at h <;> cases h
  · split at h
    · rename_i hnewest
      rw [newestOperation, List.getLast?_eq_none_iff] at hnewest
      rw [hnewest]
      exact fun _ hno => absurd hno List.not_mem_nil
    · rename_i last hnewest
      split at h
      · cases h
      · split at h
        · cases h
        · rename_i hlt
          rw [newestOperation] at hnewest
          intro r hr
          obtain ⟨front, last', hsplit⟩ : ∃ front last', d.operations = front ++ [last'] :=
            ⟨_, _, (List.dropLast_append_getLast (List.ne_nil_of_mem hr)).symm⟩
          have hasc := hvalid.operations.ascending
          rw [hsplit, List.getLast?_concat, Option.some.injEq] at hnewest
          rw [hsplit] at hr hasc
          subst hnewest
          rcases List.mem_append.1 hr with hfront | hlast
          · exact lt_trans ((List.pairwise_append.1 hasc).2.2 r hfront last' (by simp))
              (not_le.1 hlt)
          · rw [List.mem_singleton] at hlast
            exact hlast ▸ not_le.1 hlt

theorem admitRequest_eq_ok : d.admitRequest q = .ok () ↔
    q.expectedConfigurationId = d.configurationId ∧ (d.findNode q.oldNodeId).isSome = true ∧
      (∀ r ∈ d.findNode q.oldNodeId, r.role = .dataVoter) ∧ d.highestAllocatedNodeId ≠ maxU32 ∧
      d.highestAllocatedNodeId < q.newNodeId ∧ validEndpoint q.newEndpoint = true ∧
      (∀ r ∈ d.nodes, r.id = q.oldNodeId ∨ r.endpoint ≠ q.newEndpoint) ∧ 3 ≤ d.voterCount ∧
      d.configurationId ≠ maxU64 := by
  simp only [admitRequest, validateEndpoint, seq_eq_ok, check_eq_ok, decide_eq_true_eq,
    List.all_eq_true, Bool.or_eq_true]
  cases hfind : d.findNode q.oldNodeId <;> simp

theorem validateRequest_eq_fresh :
    d.validateRequest q = .ok .fresh ↔ d.lookupOperation q = .ok none ∧ d.admitRequest q = .ok () := by
  unfold validateRequest
  cases hlookup : d.lookupOperation q with
  | error e => simp [bind, Except.bind]
  | ok found =>
    cases found with
    | some disposition =>
      have hretry : disposition ≠ .fresh := by
        rintro rfl
        unfold lookupOperation at hlookup
        split at hlookup
        · split at hlookup
          · cases hlookup
          · cases hlookup
        · split at hlookup
          · cases hlookup
          · split at hlookup
            · cases hlookup
            · split at hlookup <;> cases hlookup
      simp [bind, Except.bind, pure, Except.pure, hretry]
    | none =>
      cases hadmit : d.admitRequest q with
      | error e => simp [bind, Except.bind]
      | ok u => simp [bind, Except.bind, pure, Except.pure]

theorem fresh_of_validateRequest (hvalid : Valid d) (h : d.validateRequest q = .ok .fresh) :
    Fresh d q := by
  obtain ⟨hlookup, hadmit⟩ := validateRequest_eq_fresh.1 h
  obtain ⟨hcurrent, hsome, hrole, -, hnew, hendpoint, hfree, hvoters, hroom⟩ :=
    admitRequest_eq_ok.1 hadmit
  obtain ⟨r, hr⟩ := Option.isSome_iff_exists.1 hsome
  refine ⟨lookupOperation_eq_none hlookup hvalid, hcurrent, ⟨r, List.mem_of_find?_eq_some hr, ?_,
    hrole r hr⟩, hnew, hendpoint, hfree, hvoters, hroom⟩
  simpa using List.find?_some hr

/-- The record a decided replacement adds. -/
def joining (q : ReplacementRequest) : NodeRecord :=
  ⟨q.newNodeId, .dataVoter, q.newEndpoint⟩

/-- The table after a replacement, as a permutation of the old one with one record exchanged. -/
theorem Fresh.exchange (h : Fresh d q) (hvalid : Valid d) :
    ∃ front r back, d.nodes = front ++ r :: back ∧ r.id = q.oldNodeId ∧ r.role = .dataVoter ∧
      (∀ s ∈ front ++ back, s ∈ d.nodes ∧ s.id ≠ q.oldNodeId) ∧
      (d.replaced q (joining q)).nodes.Perm (joining q :: (front ++ back)) := by
  obtain ⟨r, hr, hid, hrole⟩ := h.voter
  obtain ⟨front, r', back, hsplit, hid', hreplace⟩ := replaceNode_split (joining q) ⟨r, hr, hid⟩
  have hasc := hvalid.nodes.ascending
  have hothers : ∀ s ∈ front ++ back, s ∈ d.nodes ∧ s.id ≠ q.oldNodeId := by
    rw [hsplit, List.pairwise_append, List.pairwise_cons] at hasc
    obtain ⟨-, ⟨hback, -⟩, hfront⟩ := hasc
    intro s hs
    rw [hsplit]
    rcases List.mem_append.1 hs with hs | hs
    · refine ⟨List.mem_append_left _ hs, ?_⟩
      have := hfront s hs r' List.mem_cons_self
      omega
    · refine ⟨List.mem_append_right _ (List.mem_cons_of_mem _ hs), ?_⟩
      have := hback s hs
      omega
  have hsame : r' = r := by
    by_contra hne
    rw [hsplit] at hr
    have hmem : r ∈ front ++ back := by
      rcases List.mem_append.1 hr with hr | hr
      · exact List.mem_append_left _ hr
      · rcases List.mem_cons.1 hr with rfl | hr
        · exact absurd rfl hne
        · exact List.mem_append_right _ hr
    exact (hothers r hmem).2 hid
  refine ⟨front, r', back, hsplit, hid', hsame ▸ hrole, hothers, ?_⟩
  have hperm := sortNodes_perm (replaceNode q.oldNodeId (joining q) d.nodes)
  refine hperm.trans ?_
  rw [hreplace]
  exact List.perm_middle

theorem Fresh.valid (h : Fresh d q) (hvalid : Valid d) : Valid (d.replaced q (joining q)) := by
  obtain ⟨front, r, back, hsplit, hid, hrole, hothers, hperm⟩ := h.exchange hvalid
  have hold := hvalid.nodes
  have hmem : ∀ s, s ∈ (d.replaced q (joining q)).nodes ↔ s = joining q ∨ s ∈ front ++ back :=
    fun s => by rw [hperm.mem_iff, List.mem_cons]
  have hkept : ∀ s ∈ front ++ back, s.id < q.newNodeId := fun s hs =>
    lt_of_le_of_lt (hold.fenced s (hothers s hs).1) h.unallocated
  have hsub : (front ++ back).Sublist d.nodes := by
    rw [hsplit]
    exact (List.Sublist.refl front).append (List.sublist_cons_self r back)
  have hcount : ∀ p : NodeRecord → Bool, p (joining q) = p r →
      (d.replaced q (joining q)).nodes.countP p = d.nodes.countP p := by
    intro p hp
    have hnew : (joining q :: (front ++ back)).countP p = (r :: (front ++ back)).countP p := by
      rw [List.countP_cons, List.countP_cons, hp]
    have hback : d.nodes.Perm (r :: (front ++ back)) := hsplit ▸ List.perm_middle
    rw [hperm.countP_eq, hback.countP_eq, hnew]
  have hsymm : ∀ {a b : NodeRecord}, a.id ≠ b.id → b.id ≠ a.id := fun hab => hab.symm
  have hids : (joining q :: (front ++ back)).Pairwise fun a b => a.id ≠ b.id := by
    refine List.pairwise_cons.2 ⟨fun s hs => ?_, (hold.ascending.sublist hsub).imp fun hab => hab.ne⟩
    exact (hkept s hs).ne'
  have hlength : (d.replaced q (joining q)).nodes.length = d.nodes.length := by
    rw [hperm.length_eq, hsplit]
    simp only [List.length_cons, List.length_append]
    omega
  refine ⟨hvalid.database, Nat.succ_ne_zero _, Nat.lt_succ_self _, hlength ▸ hvalid.count, ?_, ?_, ?_, ?_⟩
  · refine ⟨fun s hs => ?_, ?_, fun s hs => ?_, fun s hs => ?_, ?_⟩
    · rcases (hmem s).1 hs with rfl | hs
      · exact lt_of_le_of_lt (Nat.zero_le _) h.unallocated
      · exact hold.id_pos s (hothers s hs).1
    · refine sortNodes_ascending ?_
      have hraw := (sortNodes_perm (replaceNode q.oldNodeId (joining q) d.nodes)).symm.trans hperm
      exact (List.Perm.pairwise_iff hsymm hraw).2 hids
    · rcases (hmem s).1 hs with rfl | hs
      · exact le_rfl
      · exact (hkept s hs).le
    · rcases (hmem s).1 hs with rfl | hs
      · exact h.endpoint
      · exact hold.endpoints s (hothers s hs).1
    · refine (List.Perm.pairwise_iff (fun hab => hab.symm) hperm).2
        (List.pairwise_cons.2 ⟨fun s hs => ?_, hold.distinct.sublist hsub⟩)
      exact ((h.unshared s (hothers s hs).1).resolve_left (hothers s hs).2).symm
  · have hvoters : (d.replaced q (joining q)).voterCount = d.voterCount :=
      hcount _ (by simp only [joining, hrole])
    exact hvoters ▸ hvalid.voters
  · rw [hcount _ (by simp only [joining, hrole])]
    exact hvalid.campaigners
  · have hops : (d.replaced q (joining q)).operations =
        (d.operations ++ [d.operationOf q]).drop (d.ring.count + 1 - ringSize) :=
      d.ring.toList_push _
    have hall : OperationsValid (d.configurationId + 1) (d.operations ++ [d.operationOf q]) := by
      refine ⟨List.pairwise_append.2 ⟨hvalid.operations.ascending, List.pairwise_singleton _ _,
        fun a ha b hb => ?_⟩, fun s hs => ?_⟩
      · rw [List.mem_singleton] at hb
        exact hb ▸ h.above a ha
      · rcases List.mem_append.1 hs with hs | hs
        · have := hvalid.operations.results s hs
          omega
        · rw [List.mem_singleton] at hs
          rw [hs]
          exact ⟨Nat.succ_pos _, le_rfl⟩
    rw [hops]
    exact ⟨hall.ascending.sublist (List.drop_sublist _ _),
      fun s hs => hall.results s (List.mem_of_mem_drop hs)⟩

/-- **`successor` applies exactly the fresh requests**, and what it returns is valid. -/
theorem successor_eq_ok (hvalid : Valid d) :
    d.successor q = .ok d' ↔ d.validateRequest q = .ok .fresh ∧ d' = d.replaced q (joining q) := by
  have hrun : d.validateRequest q = .ok .fresh → d.successor q = .ok (d.replaced q (joining q)) := by
    intro hfresh
    have hf := fresh_of_validateRequest hvalid hfresh
    have hinit : NodeRecord.init q.newNodeId .dataVoter q.newEndpoint = .ok (joining q) := by
      have hpos : q.newNodeId ≠ 0 := by
        have := hf.unallocated
        omega
      simp [NodeRecord.init, validateEndpoint, check, hpos, hf.endpoint, joining, bind, Except.bind,
        pure, Except.pure]
    have hok := validate_eq_ok.2 (hf.valid hvalid)
    simp only [successor, hfresh, hinit, bind, Except.bind, pure, Except.pure, hok]
  constructor
  · intro h
    cases hreq : d.validateRequest q with
    | error e =>
      rw [successor, hreq] at h
      cases h
    | ok disposition =>
      cases disposition with
      | retry result =>
        rw [successor, hreq] at h
        cases h
      | fresh =>
        rw [hrun hreq] at h
        exact ⟨rfl, (Except.ok.inj h).symm⟩
  · rintro ⟨hfresh, rfl⟩
    exact hrun hfresh

/-- The registry of a checkpoint rollover, before it is validated. -/
def rolledOver (d : Decided) : Decided :=
  { d with
    predecessorConfigurationId := d.configurationId
    configurationId := d.configurationId + 1 }

theorem Valid.rolledOver (h : Valid d) : Valid d.rolledOver := by
  refine ⟨h.database, Nat.succ_ne_zero _, Nat.lt_succ_self _, h.count, h.nodes, h.voters, h.campaigners,
    ⟨h.operations.ascending, fun r hr => ?_⟩⟩
  have hresult := h.operations.results r hr
  exact ⟨hresult.1, le_trans hresult.2 (Nat.le_succ _)⟩

theorem checkpointSuccessor_eq_ok (hvalid : Valid d) :
    d.checkpointSuccessor = .ok d' ↔ d.configurationId ≠ maxU64 ∧ d' = d.rolledOver := by
  have hok := validate_eq_ok.2 hvalid.rolledOver
  rw [checkpointSuccessor, check_bind_eq_ok, decide_eq_true_eq]
  refine and_congr_right fun _ => ?_
  change (validate d.rolledOver >>= fun _ => pure d.rolledOver) = .ok d' ↔ _
  rw [seq_eq_ok]
  constructor
  · rintro ⟨-, h⟩
    exact (Except.ok.inj h).symm
  · rintro rfl
    exact ⟨hok, rfl⟩

end Step

/-! ### A small cluster -/

section Sample

def sampleVoters : List NodeRecord :=
  [⟨1, .dataVoter, asciiBytes "a:1"⟩, ⟨2, .dataVoter, asciiBytes "b:1"⟩,
    ⟨3, .dataVoter, asciiBytes "c:1"⟩]

def sampleRegistry : Decided where
  databaseId := 7
  configurationId := 1
  predecessorConfigurationId := 0
  highestAllocatedNodeId := 3
  nodes := sampleVoters
  ring := RingBuffer.empty ⟨0, 0, 0, 0, Vector.replicate 32 0, 0⟩ ringSize_pos

/-- Replace the second voter. -/
def sampleRequest : ReplacementRequest where
  operationId := 1
  expectedConfigurationId := 1
  oldNodeId := 2
  newNodeId := 4
  newEndpoint := asciiBytes "d:1"
  operationId_le := by decide
  oldNodeId_le := by decide
  newNodeId_le := by decide

theorem sortNodes_sampleVoters : sortNodes sampleVoters = sampleVoters :=
  List.mergeSort_of_pairwise (by decide)

theorem sampleRegistry_valid : Valid sampleRegistry := by
  refine validate_eq_ok.1 ?_
  decide

theorem bootstrapAt_sample : bootstrapAt 7 1 sampleVoters = .ok sampleRegistry := by
  rw [bootstrapAt, sortNodes_sampleVoters]
  rfl

theorem successor_sample : sampleRegistry.successor sampleRequest =
    .ok (sampleRegistry.replaced sampleRequest (joining sampleRequest)) :=
  (successor_eq_ok sampleRegistry_valid).2 ⟨by decide, rfl⟩

end Sample

/-! ### Whole histories -/

/-- A bootstrap at `configurationId` followed by successful steps: the registries passed on the way, the
replacements decided there, and the registry reached. -/
inductive Lineage (databaseId configurationId : ℕ) (records : List NodeRecord) :
    List Decided → List (Decided × ReplacementRequest) → Decided → Prop
  | bootstrap {d : Decided} (h : bootstrapAt databaseId configurationId records = .ok d) :
    Lineage databaseId configurationId records [] [] d
  | replace {past : List Decided} {decided : List (Decided × ReplacementRequest)} {d d' : Decided}
    {q : ReplacementRequest} (h : Lineage databaseId configurationId records past decided d)
    (hstep : d.successor q = .ok d') :
    Lineage databaseId configurationId records (past ++ [d]) (decided ++ [(d, q)]) d'
  | checkpoint {past : List Decided} {decided : List (Decided × ReplacementRequest)} {d d' : Decided}
    (h : Lineage databaseId configurationId records past decided d)
    (hstep : d.checkpointSuccessor = .ok d') :
    Lineage databaseId configurationId records (past ++ [d]) decided d'

namespace Lineage

variable {databaseId configurationId : ℕ} {records : List NodeRecord} {past : List Decided}
  {decided : List (Decided × ReplacementRequest)} {d : Decided}

theorem bootstrapAt_eq_ok (h : bootstrapAt databaseId configurationId records = .ok d) :
    Valid d ∧ d.configurationId = configurationId ∧ d.nodes = sortNodes records ∧ d.operations = [] := by
  rw [bootstrapAt, check_bind_eq_ok, check_bind_eq_ok, check_bind_eq_ok, seq_eq_ok] at h
  obtain ⟨-, -, -, hok, h⟩ := h
  obtain rfl := Except.ok.inj h
  exact ⟨validate_eq_ok.1 hok, rfl, rfl, rfl⟩

theorem valid_last (h : Lineage databaseId configurationId records past decided d) : Valid d := by
  induction h with
  | bootstrap h => exact (bootstrapAt_eq_ok h).1
  | replace _ hstep ih =>
    obtain ⟨hfresh, rfl⟩ := (successor_eq_ok ih).1 hstep
    exact (fresh_of_validateRequest ih hfresh).valid ih
  | checkpoint _ hstep ih =>
    obtain ⟨-, rfl⟩ := (checkpointSuccessor_eq_ok ih).1 hstep
    exact ih.rolledOver

/-- An invariant of the registry reached holds of every registry on the way. -/
theorem forall_mem {P : Decided → Prop} (h : Lineage databaseId configurationId records past decided d)
    (hlast : ∀ past decided d, Lineage databaseId configurationId records past decided d → P d) :
    ∀ e ∈ past ++ [d], P e := by
  have hstep : ∀ {past : List Decided} {e' : Decided}, (∀ e ∈ past, P e) → P e' →
      ∀ e ∈ past ++ [e'], P e := by
    intro past e' hpast he' e he
    rcases List.mem_append.1 he with he | he
    · exact hpast e he
    · rw [List.mem_singleton] at he
      exact he ▸ he'
  induction h with
  | bootstrap h => exact hstep (fun _ hno => absurd hno List.not_mem_nil) (hlast _ _ _ (.bootstrap h))
  | replace h hs ih => exact hstep ih (hlast _ _ _ (.replace h hs))
  | checkpoint h hs ih => exact hstep ih (hlast _ _ _ (.checkpoint h hs))

/-- One more registry, one configuration on. -/
theorem configurations_concat {past : List Decided} {d d' : Decided}
    (hpast : (past ++ [d]).map Decided.configurationId = List.range' configurationId (past.length + 1))
    (hlast : d.configurationId = configurationId + past.length)
    (hnext : d'.configurationId = d.configurationId + 1) :
    (past ++ [d] ++ [d']).map Decided.configurationId =
        List.range' configurationId ((past ++ [d]).length + 1) ∧
      d'.configurationId = configurationId + (past ++ [d]).length := by
  rw [List.length_append, List.length_singleton, hnext, hlast]
  refine ⟨?_, rfl⟩
  have hrange : List.range' configurationId (past.length + 1 + 1) =
      List.range' configurationId (past.length + 1) ++ [configurationId + 1 * (past.length + 1)] :=
    List.range'_concat
  rw [List.map_append, hpast, hrange, List.map_singleton, hnext, hlast, Nat.one_mul, Nat.add_assoc]

theorem configurations (h : Lineage databaseId configurationId records past decided d) :
    (past ++ [d]).map Decided.configurationId = List.range' configurationId (past.length + 1) ∧
      d.configurationId = configurationId + past.length := by
  induction h with
  | bootstrap h => simp [(bootstrapAt_eq_ok h).2.1]
  | replace h hstep ih =>
    obtain ⟨-, rfl⟩ := (successor_eq_ok h.valid_last).1 hstep
    exact configurations_concat ih.1 ih.2 rfl
  | checkpoint h hstep ih =>
    obtain ⟨-, rfl⟩ := (checkpointSuccessor_eq_ok h.valid_last).1 hstep
    exact configurations_concat ih.1 ih.2 rfl

/-- A list that ascends stays so with an upper bound at its end. -/
theorem pairwise_concat_of_le {past : List Decided} {d d' : Decided}
    (hpast : (past ++ [d]).Pairwise fun a b => a.highestAllocatedNodeId ≤ b.highestAllocatedNodeId)
    (hle : d.highestAllocatedNodeId ≤ d'.highestAllocatedNodeId) :
    (past ++ [d] ++ [d']).Pairwise fun a b => a.highestAllocatedNodeId ≤ b.highestAllocatedNodeId := by
  refine List.pairwise_append.2 ⟨hpast, List.pairwise_singleton _ _, fun a ha b hb => ?_⟩
  rw [List.mem_singleton] at hb
  subst hb
  rcases List.mem_append.1 ha with ha | ha
  · exact le_trans ((List.pairwise_append.1 hpast).2.2 a ha d (List.mem_singleton_self d)) hle
  · rw [List.mem_singleton] at ha
    exact ha ▸ hle

theorem fence (h : Lineage databaseId configurationId records past decided d) :
    (past ++ [d]).Pairwise fun a b => a.highestAllocatedNodeId ≤ b.highestAllocatedNodeId := by
  induction h with
  | bootstrap => exact List.pairwise_singleton _ _
  | replace h hstep ih =>
    obtain ⟨hfresh, rfl⟩ := (successor_eq_ok h.valid_last).1 hstep
    exact pairwise_concat_of_le ih (fresh_of_validateRequest h.valid_last hfresh).unallocated.le
  | checkpoint h hstep ih =>
    obtain ⟨-, rfl⟩ := (checkpointSuccessor_eq_ok h.valid_last).1 hstep
    exact pairwise_concat_of_le ih le_rfl

theorem fence_le (h : Lineage databaseId configurationId records past decided d) {e : Decided}
    (he : e ∈ past ++ [d]) : e.highestAllocatedNodeId ≤ d.highestAllocatedNodeId := by
  rcases List.mem_append.1 he with he | he
  · exact (List.pairwise_append.1 h.fence).2.2 e he d (List.mem_singleton_self d)
  · rw [List.mem_singleton] at he
    exact (congrArg highestAllocatedNodeId he).le

theorem fresh_of_mem (h : Lineage databaseId configurationId records past decided d)
    {p : Decided × ReplacementRequest} (hp : p ∈ decided) : p.1 ∈ past ∧ Valid p.1 ∧ Fresh p.1 p.2 := by
  induction h with
  | bootstrap => exact absurd hp List.not_mem_nil
  | replace h hstep ih =>
    rcases List.mem_append.1 hp with hp | hp
    · exact ⟨List.mem_append_left _ (ih hp).1, (ih hp).2⟩
    · rw [List.mem_singleton] at hp
      subst hp
      have hfresh := ((successor_eq_ok h.valid_last).1 hstep).1
      exact ⟨List.mem_append_right _ (List.mem_singleton_self _), h.valid_last,
        fresh_of_validateRequest h.valid_last hfresh⟩
  | checkpoint _ _ ih => exact ⟨List.mem_append_left _ (ih hp).1, (ih hp).2⟩

/-- The identity a replacement retires was allocated before it. -/
theorem retired_le (h : Lineage databaseId configurationId records past decided d)
    {p : Decided × ReplacementRequest} (hp : p ∈ decided) :
    p.2.oldNodeId ≤ d.highestAllocatedNodeId := by
  obtain ⟨hpast, hvalid, hfresh⟩ := h.fresh_of_mem hp
  obtain ⟨r, hr, hid, -⟩ := hfresh.voter
  exact hid ▸ le_trans (hvalid.nodes.fenced r hr) (h.fence_le (List.mem_append_left _ hpast))

theorem retired_last (h : Lineage databaseId configurationId records past decided d) :
    ∀ p ∈ decided, ∀ r ∈ d.nodes, r.id ≠ p.2.oldNodeId := by
  induction h with
  | bootstrap => exact fun _ hno => absurd hno List.not_mem_nil
  | @replace past decided d d' q h hstep ih =>
    obtain ⟨hfresh, rfl⟩ := (successor_eq_ok h.valid_last).1 hstep
    have hf := fresh_of_validateRequest h.valid_last hfresh
    obtain ⟨front, _, back, -, -, -, hothers, hperm⟩ := hf.exchange h.valid_last
    intro p hp r hr
    -- the newcomer is above the fence, and with it above every retired identity
    have hbelow : p.2.oldNodeId ≤ d.highestAllocatedNodeId := by
      rcases List.mem_append.1 hp with hp | hp
      · exact h.retired_le hp
      · rw [List.mem_singleton] at hp
        obtain ⟨s, hs, hid, -⟩ := hf.voter
        exact hp ▸ hid ▸ h.valid_last.nodes.fenced s hs
    rcases List.mem_cons.1 (hperm.mem_iff.1 hr) with rfl | hr
    · have := hf.unallocated
      exact (lt_of_le_of_lt hbelow this).ne'
    · rcases List.mem_append.1 hp with hp | hp
      · exact ih p hp r (hothers r hr).1
      · rw [List.mem_singleton] at hp
        exact hp ▸ (hothers r hr).2
  | checkpoint h hstep ih =>
    obtain ⟨-, rfl⟩ := (checkpointSuccessor_eq_ok h.valid_last).1 hstep
    exact ih

theorem configuration_le (h : Lineage databaseId configurationId records past decided d) {e : Decided}
    (he : e ∈ past ++ [d]) : e.configurationId ≤ d.configurationId := by
  obtain ⟨hall, hlast⟩ := h.configurations
  have hmem := hall ▸ List.mem_map_of_mem he
  rw [List.mem_range'_1] at hmem
  omega

theorem retired (h : Lineage databaseId configurationId records past decided d) :
    ∀ p ∈ decided, ∀ e ∈ past ++ [d], p.1.configurationId < e.configurationId →
      ∀ r ∈ e.nodes, r.id ≠ p.2.oldNodeId := by
  induction h with
  | bootstrap => exact fun _ hno => absurd hno List.not_mem_nil
  | replace h hstep ih =>
    intro p hp e he hlt
    rcases List.mem_append.1 he with he | he
    · rcases List.mem_append.1 hp with hp | hp
      · exact ih p hp e he hlt
      · rw [List.mem_singleton] at hp
        subst hp
        exact absurd hlt (not_lt.2 (h.configuration_le he))
    · rw [List.mem_singleton] at he
      exact he ▸ (h.replace hstep).retired_last p hp
  | checkpoint h hstep ih =>
    intro p hp e he hlt
    rcases List.mem_append.1 he with he | he
    · exact ih p hp e he hlt
    · rw [List.mem_singleton] at he
      exact he ▸ (h.checkpoint hstep).retired_last p hp

theorem roles (h : Lineage databaseId configurationId records past decided d) :
    (d.nodes.map NodeRecord.role).Perm (records.map NodeRecord.role) := by
  induction h with
  | bootstrap h =>
    rw [(bootstrapAt_eq_ok h).2.2.1]
    exact (sortNodes_perm records).map _
  | @replace _ _ _ _ q h hstep ih =>
    obtain ⟨hfresh, rfl⟩ := (successor_eq_ok h.valid_last).1 hstep
    obtain ⟨front, r, back, hsplit, -, hrole, -, hperm⟩ :=
      (fresh_of_validateRequest h.valid_last hfresh).exchange h.valid_last
    have hjoin : (joining q).role = r.role := hrole.symm
    refine (hperm.map _).trans (List.Perm.trans ?_ ih)
    rw [hsplit, List.map_cons, hjoin, ← List.map_cons]
    exact (List.perm_middle.map _).symm
  | checkpoint h hstep ih =>
    obtain ⟨-, rfl⟩ := (checkpointSuccessor_eq_ok h.valid_last).1 hstep
    exact ih

def outcomes (decided : List (Decided × ReplacementRequest)) : List OperationRecord :=
  decided.map fun p => p.1.operationOf p.2

/-- What is above the newest end of an ascending history is above all of it. -/
theorem above_history {l : List OperationRecord} {id : ℕ}
    (hasc : l.Pairwise fun a b => a.operationId < b.operationId)
    (hnewest : ∀ r ∈ l.drop (l.length - ringSize), r.operationId < id) :
    ∀ r ∈ l, r.operationId < id := by
  intro r hr
  obtain ⟨front, last, rfl⟩ : ∃ front last, l = front ++ [last] :=
    ⟨_, _, (List.dropLast_append_getLast (List.ne_nil_of_mem hr)).symm⟩
  have hkept : (front ++ [last]).length - ringSize ≤ front.length := by
    rw [List.length_append, List.length_singleton, ringSize]
    omega
  have hlast : last.operationId < id := by
    refine hnewest last ?_
    rw [List.drop_append_of_le_length hkept]
    exact List.mem_append_right _ (List.mem_singleton_self last)
  rcases List.mem_append.1 hr with hfront | hr
  · exact lt_trans ((List.pairwise_append.1 hasc).2.2 r hfront last (List.mem_singleton_self last)) hlast
  · rw [List.mem_singleton] at hr
    exact hr ▸ hlast

/-- The ring is the newest end of what was decided, and operation ids only go up. -/
theorem operations_eq (h : Lineage databaseId configurationId records past decided d) :
    d.operations = (outcomes decided).drop (decided.length - ringSize) ∧
      (outcomes decided).Pairwise fun a b => a.operationId < b.operationId := by
  have hlength : ∀ l : List (Decided × ReplacementRequest), (outcomes l).length = l.length :=
    fun l => List.length_map _
  induction h with
  | bootstrap h =>
    rw [(bootstrapAt_eq_ok h).2.2.2]
    exact ⟨rfl, List.Pairwise.nil⟩
  | @replace past decided d d' q h hstep ih =>
    obtain ⟨hfresh, rfl⟩ := (successor_eq_ok h.valid_last).1 hstep
    have hf := fresh_of_validateRequest h.valid_last hfresh
    obtain ⟨hops, hasc⟩ := ih
    rw [← hlength] at hops
    have hsplit : outcomes (decided ++ [(d, q)]) = outcomes decided ++ [d.operationOf q] :=
      List.map_append
    constructor
    · rw [hsplit, List.length_append, List.length_singleton, ← hlength]
      exact d.ring.toList_push_newest _ hops
    · rw [hsplit]
      refine List.pairwise_append.2 ⟨hasc, List.pairwise_singleton _ _, fun a ha b hb => ?_⟩
      rw [List.mem_singleton] at hb
      subst hb
      exact above_history hasc (hops ▸ hf.above) a ha
  | checkpoint h hstep ih =>
    obtain ⟨-, rfl⟩ := (checkpointSuccessor_eq_ok h.valid_last).1 hstep
    exact ih

/-- **Decided membership never reuses an identity.** Along every lineage the registries validate, their
configurations are consecutive, the fence only rises and bounds every id ever present, an id retired by
a replacement is absent from every later registry, the roles stay those of the bootstrap, and the ring
holds the newest replacements in ascending order. -/
theorem identities (h : Lineage databaseId configurationId records past decided d) :
    (∀ e ∈ past ++ [d], e.validate = .ok ()) ∧
      (past ++ [d]).map Decided.configurationId = List.range' configurationId (past.length + 1) ∧
      ((past ++ [d]).Pairwise fun a b => a.highestAllocatedNodeId ≤ b.highestAllocatedNodeId) ∧
      (∀ e ∈ past ++ [d], ∀ r ∈ e.nodes, r.id ≤ d.highestAllocatedNodeId) ∧
      (∀ p ∈ decided, (∃ r ∈ p.1.nodes, r.id = p.2.oldNodeId) ∧ ∀ e ∈ past ++ [d],
        p.1.configurationId < e.configurationId → ∀ r ∈ e.nodes, r.id ≠ p.2.oldNodeId) ∧
      (∀ e ∈ past ++ [d], (e.nodes.map NodeRecord.role).Perm (records.map NodeRecord.role) ∧
        e.voterCount = records.countP fun record => record.role.capabilities.votes) ∧
      d.operations = (outcomes decided).drop (decided.length - ringSize) ∧
      d.ring.count = min ringSize decided.length ∧
      d.operations.Pairwise fun a b => a.operationId < b.operationId := by
  have hvalid : ∀ e ∈ past ++ [d], Valid e := h.forall_mem fun _ _ _ hl => hl.valid_last
  have hroles : ∀ e ∈ past ++ [d], (e.nodes.map NodeRecord.role).Perm (records.map NodeRecord.role) :=
    h.forall_mem fun _ _ _ hl => hl.roles
  obtain ⟨hops, -⟩ := h.operations_eq
  refine ⟨fun e he => validate_eq_ok.2 (hvalid e he), h.configurations.1, h.fence, ?_, ?_, ?_, hops, ?_,
    h.valid_last.operations.ascending⟩
  · intro e he r hr
    exact le_trans ((hvalid e he).nodes.fenced r hr) (h.fence_le he)
  · intro p hp
    obtain ⟨r, hr, hid, -⟩ := (h.fresh_of_mem hp).2.2.voter
    exact ⟨⟨r, hr, hid⟩, h.retired p hp⟩
  · intro e he
    have hcount := (hroles e he).countP_eq fun role => role.capabilities.votes
    rw [List.countP_map, List.countP_map] at hcount
    exact ⟨hroles e he, hcount⟩
  · have hlength := congrArg List.length hops
    rw [operations, RingBuffer.length_toList, List.length_drop, outcomes, List.length_map] at hlength
    omega

theorem sample : Lineage 7 1 sampleVoters [sampleRegistry] [(sampleRegistry, sampleRequest)]
    (sampleRegistry.replaced sampleRequest (joining sampleRequest)) :=
  (Lineage.bootstrap bootstrapAt_sample).replace successor_sample

theorem identities_sample :
    (∃ r ∈ sampleRegistry.nodes, r.id = 2) ∧
      ∀ r ∈ (sampleRegistry.replaced sampleRequest (joining sampleRequest)).nodes, r.id ≠ 2 := by
  obtain ⟨-, -, -, -, hretired, -⟩ := sample.identities
  obtain ⟨hpresent, hlater⟩ := hretired _ (List.mem_singleton_self _)
  exact ⟨hpresent, hlater _ (List.mem_append_right _ (List.mem_singleton_self _)) (Nat.lt_succ_self 1)⟩

/-! ### Operations are decided once -/

theorem validateRequest_of_retained {q : ReplacementRequest} {r : OperationRecord} (hvalid : Valid d)
    (hr : r ∈ d.operations) (hid : r.operationId = q.operationId) :
    d.validateRequest q =
      if r.requestDigest = q.digestOf then .ok (.retry r.resultConfigurationId)
      else .error .operationConflict := by
  have hfind : d.operations.find? (fun record => record.operationId = q.operationId) = some r := by
    cases hfound : d.operations.find? fun record => record.operationId = q.operationId with
    | none =>
      rw [List.find?_eq_none] at hfound
      exact absurd hid (by simpa using hfound r hr)
    | some r' =>
      have hid' : r'.operationId = q.operationId := by simpa using List.find?_some hfound
      have hnodup : (d.operations.map OperationRecord.operationId).Nodup :=
        List.pairwise_map.2 (hvalid.operations.ascending.imp fun hlt => hlt.ne)
      rw [List.inj_on_of_nodup_map hnodup hr (List.mem_of_find?_eq_some hfound) (hid.trans hid'.symm)]
  rw [validateRequest, lookupOperation, hfind]
  dsimp only
  split_ifs <;> rfl

theorem not_fresh_of_le {q : ReplacementRequest} {r : OperationRecord} (hvalid : Valid d)
    (hr : r ∈ d.operations) (hle : q.operationId ≤ r.operationId) :
    d.validateRequest q ≠ .ok .fresh := by
  intro hfresh
  have habove := (fresh_of_validateRequest hvalid hfresh).above r hr
  omega

theorem not_fresh_of_decided (h : Lineage databaseId configurationId records past decided d)
    {q : ReplacementRequest} {p : Decided × ReplacementRequest} (hp : p ∈ decided)
    (hid : p.2.operationId = q.operationId) : d.validateRequest q ≠ .ok .fresh := by
  intro hfresh
  obtain ⟨hops, hasc⟩ := h.operations_eq
  have hlength : (outcomes decided).length = decided.length := List.length_map _
  have habove := (fresh_of_validateRequest h.valid_last hfresh).above
  rw [hops, ← hlength] at habove
  have hlt := above_history hasc habove (p.1.operationOf p.2) (List.mem_map_of_mem hp)
  exact absurd hid hlt.ne

/-- **Replacement operations are decided at most once.** A retained operation answers its own request
with its result and any other request under its id with a conflict; a request under an id decided
before, or not above the newest one, is never fresh; so no id is applied twice. -/
theorem decides_once (h : Lineage databaseId configurationId records past decided d)
    (q : ReplacementRequest)
    (collisionFree : ∀ p ∈ decided, q.digestOf = p.2.digestOf → q = p.2) :
    (∀ r ∈ d.operations, r.operationId = q.operationId →
        ∃ p ∈ decided, r = p.1.operationOf p.2 ∧
          d.validateRequest q =
            if q = p.2 then .ok (.retry r.resultConfigurationId) else .error .operationConflict) ∧
      ((∃ p ∈ decided, p.2.operationId = q.operationId) ∨
          (∃ newest ∈ d.newestOperation, q.operationId ≤ newest.operationId) →
        d.validateRequest q ≠ .ok .fresh ∧ ∀ d', d.successor q ≠ .ok d') ∧
      (decided.map fun p => p.2.operationId).Nodup := by
  have hvalid := h.valid_last
  obtain ⟨hops, hasc⟩ := h.operations_eq
  refine ⟨fun r hr hid => ?_, fun hknown => ?_, ?_⟩
  · obtain ⟨p, hp, hrecord⟩ := List.mem_map.1 (List.mem_of_mem_drop (hops ▸ hr))
    refine ⟨p, hp, hrecord.symm, ?_⟩
    have hsame : r.requestDigest = q.digestOf ↔ q = p.2 := by
      rw [← hrecord]
      constructor
      · intro hdigest
        exact collisionFree p hp hdigest.symm
      · intro heq
        rw [heq]
        rfl
    rw [validateRequest_of_retained hvalid hr hid]
    simp only [hsame]
  · have hnot : d.validateRequest q ≠ .ok .fresh := by
      rcases hknown with ⟨p, hp, hid⟩ | ⟨newest, hnewest, hle⟩
      · exact h.not_fresh_of_decided hp hid
      · exact not_fresh_of_le hvalid (List.mem_of_getLast? hnewest) hle
    exact ⟨hnot, fun d' hstep => hnot ((successor_eq_ok hvalid).1 hstep).1⟩
  · have hmap : (decided.map fun p => p.2.operationId) =
        (outcomes decided).map OperationRecord.operationId := by
      rw [outcomes, List.map_map]
      rfl
    rw [hmap]
    exact List.pairwise_map.2 (hasc.imp fun hlt => hlt.ne)

theorem decides_once_sample :
    (sampleRegistry.replaced sampleRequest (joining sampleRequest)).validateRequest sampleRequest =
      .ok (.retry 2) := by
  have hsame : ∀ p ∈ [(sampleRegistry, sampleRequest)],
      sampleRequest.digestOf = p.2.digestOf → sampleRequest = p.2 := by
    intro p hp _
    rw [List.mem_singleton.1 hp]
  have hops := sample.operations_eq.1
  have hretained : sampleRegistry.operationOf sampleRequest ∈
      (sampleRegistry.replaced sampleRequest (joining sampleRequest)).operations := by
    rw [hops]
    exact List.mem_singleton_self _
  obtain ⟨p, hp, -, hanswer⟩ := (sample.decides_once sampleRequest hsame).1 _ hretained rfl
  rw [hanswer, List.mem_singleton.1 hp, if_pos rfl]
  rfl

end Lineage

end Decided

end Zaxonlite
