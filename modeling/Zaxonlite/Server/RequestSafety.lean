import Zaxonlite.Server.ReadSafety

/-!
# Requests in range

A request brings texts that fit a frame, so its statements can be bound. The conditions of the writes and the
reads meet in `TurnSafe`, which is what a turn needs and all it needs. A turn keeps what the server relies on
and moves its request on: to a later phase, or, while its time lasts, no further than it was.
-/

namespace Zaxonlite

namespace Rpc

open Checked

variable {R : Type}

/-! ### The condition -/

/-- The read of a request, whichever operation it is. -/
def requestRead (request : Request R) (planSql : List UInt8) : Option (Level × Statement R) :=
  if request.op = asciiBytes "query" then
    if 1024 * 1024 < (request.sql.getD []).length then none else queryRead request
  else if request.op = asciiBytes "search" then searchRead request planSql
  else none

def requestLevel (request : Request R) : Option Level :=
  (requestRead request []).map Prod.fst

/-- **The condition on a turn**, in the state before it. -/
def TurnSafe (o : Options) (waiters : ℕ) (s : State) : Phase R → Prop
  | .received _ => o.idleTimeoutMs = 0 ∨ s.tickCount * o.tickMs + o.idleTimeoutMs < 2 ^ 64
  | .dispatched request =>
    ∀ level, requestLevel request = some level → LeaderReadSafe waiters s level request.freshnessMs
  | .bootstrapping _ => GateSafe waiters s (.schema : Write R)
  | .bootstrapped request => ∀ write, requestWrite request = some write → GateSafe waiters s write
  | .queued write _ _ => GateSafe waiters s write
  | .frontier write _ _ => WriteSafe s write
  | .readFrontier level freshnessMs _ _ => ReadSafe s level freshnessMs
  | _ => True

section Turns

variable {o : Options} {s : State} {a : Answers} {waiters : ℕ}

/-! ### Statements of a request -/

theorem decodeWireParam_bound {param : WireParam R} {value : Prepared.Value R}
    (hparam : ∀ bytes, param.v = some bytes → bytes.length < 2 ^ 26)
    (h : decodeWireParam param = some value) {bytes : List UInt8}
    (hvalue : value = .text bytes ∨ value = .blob bytes) : bytes.length < 2 ^ 31 := by
  rw [decodeWireParam] at h
  split at h
  · cases h
    simp at hvalue
  · split at h
    · obtain ⟨i, -, rfl⟩ := Option.map_eq_some_iff.1 h
      simp at hvalue
    · split at h
      · obtain ⟨r, -, rfl⟩ := Option.map_eq_some_iff.1 h
        simp at hvalue
      · split at h
        · obtain ⟨text, htext, rfl⟩ := Option.map_eq_some_iff.1 h
          have hsame : text = bytes := by simpa using hvalue
          have hlength := hparam text htext
          rw [← hsame]
          omega
        · split at h
          · obtain ⟨blob, hblob, rfl⟩ := Option.map_eq_some_iff.1 h
            obtain ⟨encoded, hencoded, hdecode⟩ := Option.bind_eq_some_iff.1 hblob
            have hsame : blob = bytes := by simpa using hvalue
            have hlength := hparam encoded hencoded
            have hshorter := Base64.length_decode_le hdecode
            rw [← hsame]
            omega
          · cases h

theorem mem_of_mapM {α β : Type} {f : α → Option β} {xs : List α} {ys : List β} (h : xs.mapM f = some ys) :
    ∀ y ∈ ys, ∃ x ∈ xs, f x = some y := by
  induction xs generalizing ys with
  | nil =>
    cases h
    intro y hy
    cases hy
  | cons x xs ih =>
    rw [List.mapM_cons] at h
    obtain ⟨y₁, hy₁, h⟩ := Option.bind_eq_some_iff.1 h
    obtain ⟨ys₁, hys₁, h⟩ := Option.bind_eq_some_iff.1 h
    cases h
    intro y hy
    cases List.mem_cons.1 hy with
    | inl heq => exact ⟨x, List.mem_cons_self, heq ▸ hy₁⟩
    | inr hmem =>
      obtain ⟨x', hx', hf⟩ := ih hys₁ y hmem
      exact ⟨x', List.mem_cons_of_mem x hx', hf⟩

theorem decodeWireParams_bound {params : List (WireParam R)} {values : List (Prepared.Value R)}
    (hparams : ∀ param ∈ params, ∀ bytes, param.v = some bytes → bytes.length < 2 ^ 26)
    (h : decodeWireParams params = some values) : BoundValues values := by
  intro value hvalue bytes hbytes
  obtain ⟨param, hparam, hdecode⟩ := mem_of_mapM h value hvalue
  exact decodeWireParam_bound (hparams param hparam) hdecode hbytes

theorem framed_params_getD {request : Request R} (h : request.Framed) :
    ∀ param ∈ request.params.getD [], ∀ bytes, param.v = some bytes → bytes.length < 2 ^ 26 := by
  cases hparams : request.params with
  | none =>
    intro param hparam
    cases hparam
  | some params => exact h.params params hparams

theorem execStatement_bound {request : Request R} (hframed : request.Framed) {sql : List UInt8}
    (hsql : request.sql = some sql) {typed : Bool} {statement : Statement R}
    (h : execStatement request sql typed = some statement) : statement.Bound := by
  have hlength : sql.length < 2 ^ 31 := by
    have hframe := hframed.sql sql hsql
    omega
  rw [execStatement] at h
  split at h
  · cases h
    refine ⟨hlength, ?_⟩
    intro rows hrows
    cases hrows
  · split at h
    · cases h
    · rename_i batch hbatch _
      split at h
      · cases h
      · obtain ⟨rows, hrows, rfl⟩ := Option.map_eq_some_iff.1 h
        refine ⟨hlength, ?_⟩
        intro rows' hsome values hvalues
        cases hsome
        obtain ⟨params, hparams, hdecode⟩ := mem_of_mapM hrows values hvalues
        exact decodeWireParams_bound (hframed.paramBatch batch hbatch params hparams) hdecode
    · obtain ⟨values, hvalues, rfl⟩ := Option.map_eq_some_iff.1 h
      refine ⟨hlength, ?_⟩
      intro rows' hsome row hrow
      cases hsome
      rw [List.mem_singleton.1 hrow]
      exact decodeWireParams_bound (framed_params_getD hframed) hvalues

theorem requestWrite_bound {request : Request R} (hframed : request.Framed) {write : Write R}
    (h : requestWrite request = some write) : write.Bound := by
  rw [requestWrite] at h
  split at h
  · obtain ⟨sql, hsql, h⟩ := Option.bind_eq_some_iff.1 h
    obtain ⟨typed, -, h⟩ := Option.bind_eq_some_iff.1 h
    obtain ⟨statement, hstatement, h⟩ := Option.bind_eq_some_iff.1 h
    cases h
    exact execStatement_bound hframed hsql hstatement
  · obtain ⟨retain, -, rfl⟩ := Option.map_eq_some_iff.1 h
    trivial

theorem queryRead_bound {request : Request R} (hframed : request.Framed) {level : Level}
    {statement : Statement R} (h : queryRead request = some (level, statement)) : statement.Bound := by
  obtain ⟨sql, hsql, h⟩ := Option.bind_eq_some_iff.1 h
  obtain ⟨values, hvalues, h⟩ := Option.bind_eq_some_iff.1 h
  obtain ⟨level', -, h⟩ := Option.bind_eq_some_iff.1 h
  obtain ⟨typed, -, h⟩ := Option.bind_eq_some_iff.1 h
  cases h
  have hframe := hframed.sql sql hsql
  refine ⟨by show sql.length < 2 ^ 31; omega, ?_⟩
  intro rows hsome row hrow
  cases hsome
  rw [List.mem_singleton.1 hrow]
  exact decodeWireParams_bound (framed_params_getD hframed) hvalues

theorem searchRead_bound {request : Request R} (hframed : request.Framed) {planSql : List UInt8}
    (hplan : planSql.length < 2 ^ 31) {level : Level} {statement : Statement R}
    (h : searchRead request planSql = some (level, statement)) : statement.Bound := by
  obtain ⟨counts, -, h⟩ := Option.bind_eq_some_iff.1 h
  obtain ⟨level', -, h⟩ := Option.bind_eq_some_iff.1 h
  obtain ⟨typed, -, h⟩ := Option.bind_eq_some_iff.1 h
  cases h
  refine ⟨hplan, ?_⟩
  intro rows hsome row hrow
  cases hsome
  rw [List.mem_singleton.1 hrow]
  intro value hvalue bytes hbytes
  rw [searchValues] at hvalue
  cases List.mem_append.1 hvalue with
  | inl htexts =>
    obtain ⟨text, htext, rfl⟩ := List.mem_map.1 htexts
    have hlength := hframed.text text (Option.mem_toList.1 htext)
    have hsame : text = bytes := by simpa using hbytes
    rw [← hsame]
    omega
  | inr hrest =>
    cases List.mem_append.1 hrest with
    | inl hblobs =>
      obtain ⟨blob, hblob, rfl⟩ := List.mem_map.1 hblobs
      obtain ⟨encoded, hencoded, hdecode⟩ := Option.bind_eq_some_iff.1 (Option.mem_toList.1 hblob)
      have hlength := hframed.embedding encoded hencoded
      have hshorter := Base64.length_decode_le hdecode
      have hsame : blob = bytes := by simpa using hbytes
      rw [← hsame]
      omega
    | inr hcounts =>
      simp only [List.mem_cons, List.not_mem_nil, or_false] at hcounts
      cases hcounts with
      | inl heq =>
        rw [heq] at hbytes
        simp at hbytes
      | inr heq =>
        rw [heq] at hbytes
        simp at hbytes

theorem requestRead_bound {request : Request R} (hframed : request.Framed) {planSql : List UInt8}
    (hplan : planSql.length < 2 ^ 31) {level : Level} {statement : Statement R}
    (h : requestRead request planSql = some (level, statement)) : statement.Bound := by
  rw [requestRead] at h
  split at h
  · split at h
    · cases h
    · exact queryRead_bound hframed h
  · split at h
    · exact searchRead_bound hframed hplan h
    · cases h

theorem requestLevel_of_requestRead {request : Request R} {planSql : List UInt8} {level : Level}
    {statement : Statement R} (h : requestRead request planSql = some (level, statement)) :
    requestLevel request = some level := by
  rw [requestLevel]
  rw [requestRead] at h ⊢
  split at h
  · split at h
    · cases h
    · rename_i hquery hlength
      rw [if_pos hquery, if_neg hlength, h]
      rfl
  · split at h
    · rename_i hquery hsearch
      rw [if_neg hquery, if_pos hsearch]
      obtain ⟨counts, hcounts, h⟩ := Option.bind_eq_some_iff.1 h
      obtain ⟨level', hlevel, h⟩ := Option.bind_eq_some_iff.1 h
      obtain ⟨typed, htyped, h⟩ := Option.bind_eq_some_iff.1 h
      cases h
      rw [searchRead, hcounts, hlevel, htyped]
      rfl
    · cases h

/-! ### Operations -/

theorem succeeds_opRead (h : InRange o s) {request : Request R} (hframed : request.Framed)
    (hsafe : ∀ level, requestLevel request = some level → LeaderReadSafe waiters s level request.freshnessMs)
    {read : Option (Level × Statement R)}
    (hread : ∀ pair, read = some pair → requestRead request a.planSql = some pair) :
    Succeeds (opRead o waiters s a request read) := by
  cases read with
  | none => exact succeeds_ok _
  | some pair =>
    obtain ⟨level, statement⟩ := pair
    have hrequest := hread _ rfl
    exact succeeds_runReadQuery h (requestRead_bound hframed a.plan_lt hrequest)
      (hsafe level (requestLevel_of_requestRead hrequest))

theorem succeeds_waitTurn (h : InRange o s) (minApplied : ℕ) (needLeader : Bool) (timeoutMs start : ℕ) :
    Succeeds (waitTurn o s minApplied needLeader timeoutMs start : Except Trap (State × Phase R)) := by
  rw [waitTurn]
  split
  · exact succeeds_ok _
  · split
    · exact succeeds_ok _
    · exact succeeds_timed h start (timeoutMs ≤ ·) _ _

theorem succeeds_opWait (h : InRange o s) (request : Request R) : Succeeds (opWait o s request) := by
  have hslot : (request.applied.map UInt64.toNat).getD 0 < 2 ^ 64 := by
    cases request.applied with
    | none => exact Nat.two_pow_pos 64
    | some applied => exact applied.toNat_lt
  rw [opWait, cast_of_lt hslot, ok_bind]
  exact succeeds_waitTurn h _ _ _ _

/-- A fresh replacement has a configuration id above the decided one. -/
theorem configurationId_lt (h : InRange o s) {decided : Decided} (hdecided : s.decided = some decided)
    {replacement : ReplacementRequest} (hfresh : decided.validateRequest replacement = .ok .fresh) :
    decided.configurationId + 1 < 2 ^ 64 := by
  have hle := h.configuration decided hdecided
  obtain ⟨-, -, -, -, -, -, -, -, hne⟩ :=
    Decided.admitRequest_eq_ok.1 (Decided.validateRequest_eq_fresh.1 hfresh).2
  rw [maxU64] at hle hne
  omega

theorem succeeds_prepareReplacement (h : InRange o s) {decided : Decided} (hdecided : s.decided = some decided)
    (replacement : ReplacementRequest) : Succeeds (prepareReplacement a decided replacement) := by
  rw [prepareReplacement]
  split
  · rename_i hfresh
    split
    · exact succeeds_ok _
    · rw [add_of_lt (configurationId_lt h hdecided hfresh)]
      exact succeeds_ok _
  · exact succeeds_ok _

theorem succeeds_replaceVoterLocked (h : InRange o s) (replacement : ReplacementRequest) :
    Succeeds (replaceVoterLocked s a replacement) := by
  rw [replaceVoterLocked]
  split
  · exact succeeds_ok _
  · rename_i decided hdecided
    split
    · exact succeeds_ok _
    · exact succeeds_ok _
    · rename_i hfresh
      have hadd : Checked.add Trap.integerOverflow 64 decided.configurationId 1 =
          .ok (decided.configurationId + 1) :=
        add_of_lt (configurationId_lt h hdecided hfresh)
      split
      · exact succeeds_ok _
      · split
        · exact succeeds_ok _
        · rw [hadd]
          exact succeeds_ok _
        · apply (succeeds_prepareReplacement h hdecided replacement).bind
          intro prepared _
          cases prepared with
          | true =>
            rw [if_pos rfl, hadd]
            exact succeeds_ok _
          | false => exact succeeds_ok _

theorem succeeds_ensureSchemaForWrite (request : Request R) : Succeeds (ensureSchemaForWrite s a request) := by
  rw [ensureSchemaForWrite]
  split
  · exact succeeds_ok _
  · split
    · exact succeeds_ok _
    · exact succeeds_ok _

theorem succeeds_dispatch (h : InRange o s) {request : Request R} (hframed : request.Framed)
    (hsafe : TurnSafe o waiters s (.dispatched request)) : Succeeds (dispatch o waiters s a request) := by
  rw [dispatch]
  cases a.refusal with
  | some reply => exact succeeds_ok _
  | none =>
    show Succeeds (if request.op = asciiBytes "exec" then _ else _)
    split
    · rw [opExec]
      split
      · exact succeeds_ok _
      · exact succeeds_ensureSchemaForWrite request
    · split
      · rename_i hquery
        rw [opQuery]
        split
        · exact succeeds_ok _
        · rename_i hlength
          apply succeeds_opRead h hframed hsafe
          intro pair hpair
          rw [requestRead, if_pos hquery, if_neg hlength, hpair]
      · rename_i hquery
        split
        · rename_i hsearch
          rw [opSearch]
          apply succeeds_opRead h hframed hsafe
          intro pair hpair
          rw [requestRead, if_neg hquery, if_pos hsearch, hpair]
        · split
          · exact succeeds_opWait h request
          · split
            · rw [opExpireSessions]
              split
              · exact succeeds_ok _
              · exact succeeds_ensureSchemaForWrite request
            · split
              · rw [opReplaceVoter]
                split
                · exact succeeds_ok _
                · rename_i replacement _
                  apply (succeeds_replaceVoterLocked h replacement).bind
                  intro reply _
                  exact succeeds_ok _
              · exact succeeds_ok _

theorem leaderReadSafe_of_dispatch (h : InRange o s) (ha : a.Smooth) {request : Request R}
    (hturn : Succeeds (dispatch o waiters s a request)) : TurnSafe o waiters s (.dispatched request) := by
  intro level hlevel
  rw [requestLevel] at hlevel
  obtain ⟨pair, hread, hfst⟩ := Option.map_eq_some_iff.1 hlevel
  obtain ⟨level', statement⟩ := pair
  cases hfst
  rw [dispatch, ha.refusal] at hturn
  have hexec : request.op ≠ asciiBytes "exec" := by
    intro hop
    rw [requestRead, hop] at hread
    simp [asciiBytes] at hread
  rw [requestRead] at hread
  split at hread
  · rename_i hquery
    split at hread
    · cases hread
    · rename_i hlength
      simp only [if_neg hexec, if_pos hquery, opQuery, if_neg hlength, opRead, hread] at hturn
      exact leaderReadSafe_of_runReadQuery h hturn
  · rename_i hquery
    split at hread
    · rename_i hsearch
      simp only [if_neg hexec, if_neg hquery, if_pos hsearch, opSearch, opRead, ha.planSql, hread] at hturn
      exact leaderReadSafe_of_runReadQuery h hturn
    · cases hread

/-! ### Turns -/

def After.Bound : After R → Prop
  | .reply => True
  | .resume request => request.Framed

/-- The statements and requests a phase holds can be bound. -/
def Phase.Bound : Phase R → Prop
  | .received request | .dispatched request | .bootstrapping request | .bootstrapped request => request.Framed
  | .queued write after _ | .frontier write after _ => write.Bound ∧ after.Bound
  | .committing after _ => after.Bound
  | .readFrontier _ _ statement _ | .fence statement _ => statement.Bound
  | _ => True

theorem succeeds_resume (h : InRange o s) {request : Request R} (hframed : request.Framed)
    (hsafe : TurnSafe o waiters s (.bootstrapped request)) : Succeeds (resume o waiters s a request) := by
  rw [resume]
  cases hwrite : requestWrite request with
  | none => exact succeeds_ok _
  | some write => exact succeeds_runWrite h (requestWrite_bound hframed hwrite) (hsafe write hwrite) .reply

theorem turnSafe_of_resume (h : InRange o s) (ha : a.Smooth) {request : Request R}
    (hturn : Succeeds (resume o waiters s a request)) : TurnSafe o waiters s (.bootstrapped request) := by
  intro write hwrite
  rw [resume, hwrite] at hturn
  exact gateSafe_of_runWrite h ha hturn

/-- **A safe turn reaches its end.** -/
theorem succeeds_turn (h : InRange o s) {p : Phase R} (hp : p.Bound) (hsafe : TurnSafe o waiters s p) :
    Succeeds (turn o waiters s a p) := by
  cases p with
  | idle => exact succeeds_ok _
  | received request =>
    apply ((succeeds_noteConnectionActivity h).2 hsafe).bind
    intro _ _
    exact succeeds_ok _
  | dispatched request => exact succeeds_dispatch h hp hsafe
  | bootstrapping request =>
    have hschema : (Write.schema : Write R).Bound := trivial
    exact succeeds_runWrite h hschema hsafe (.resume request)
  | bootstrapped request => exact succeeds_resume h hp hsafe
  | queued write after start => exact succeeds_queueTurn h hp.1 hsafe after start
  | frontier write after start => exact succeeds_frontierTurn h hp.1 hsafe after start
  | committing after start => exact succeeds_outcomeTurn h after start
  | readFrontier level freshnessMs statement start => exact succeeds_readFrontierTurn h hp hsafe start
  | fence statement start => exact succeeds_fenceTurn h hp start
  | waiting minApplied needLeader timeoutMs start => exact succeeds_waitTurn h minApplied needLeader timeoutMs start
  | replied reply => exact succeeds_ok _

theorem turnSafe_of_turn (h : InRange o s) (ha : a.Smooth) {p : Phase R}
    (hturn : Succeeds (turn o waiters s a p)) : TurnSafe o waiters s p := by
  cases p with
  | received request =>
    obtain ⟨deadline, hdeadline, -⟩ := hturn.of_bind
    exact (succeeds_noteConnectionActivity h).1 ⟨deadline, hdeadline⟩
  | dispatched request => exact leaderReadSafe_of_dispatch h ha hturn
  | bootstrapping request => exact gateSafe_of_runWrite h ha hturn
  | bootstrapped request => exact turnSafe_of_resume h ha hturn
  | queued write after start => exact gateSafe_of_queueTurn h ha hturn
  | frontier write after start => exact writeSafe_of_frontierTurn h ha hturn
  | readFrontier level freshnessMs statement start => exact readSafe_of_readFrontierTurn h hturn
  | idle => trivial
  | committing after start => trivial
  | fence statement start => trivial
  | waiting minApplied needLeader timeoutMs start => trivial
  | replied reply => trivial

end Turns

end Rpc

end Zaxonlite
