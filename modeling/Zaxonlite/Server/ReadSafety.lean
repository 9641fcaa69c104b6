import Zaxonlite.Server.WriteSafety

/-!
# Reads in range

A read binds its values, counts its rows and asks for the age of the last contact, none of which can leave
its range. Only a fence takes an id of its own, and only a read at the leader waits for the frontier.
-/

namespace Zaxonlite

namespace Rpc

open Checked

variable {R : Type}

/-! ### The condition -/

/-- The slot above the applied one exists, and behind the inherited prefix a fence has an id left. -/
def ReadSafe (s : State) (level : Level) (freshnessMs : Option UInt64) : Prop :=
  s.Serving →
    s.appliedSlot + 1 < 2 ^ 64 ∧
      (s.leaderBase ≤ s.appliedSlot + 1 → freshnessMs = none → level = .linearizable → s.single = false →
        s.nextFenceId + 1 < 2 ^ 64)

/-- A read that goes to the leader, before it waits. -/
def LeaderReadSafe (waiters : ℕ) (s : State) (level : Level) (freshnessMs : Option UInt64) : Prop :=
  level ≠ .any → FrontierRoom waiters s ∧ ReadSafe s level freshnessMs

section Turns

variable {o : Options} {s : State} {a : Answers} {waiters : ℕ}

/-! ### Reads -/

theorem succeeds_chargeRows (limit : ℕ) {used rows : ℕ} (h : used + rows < 2 ^ 64) :
    Succeeds (chargeRows limit used rows) := by
  induction rows generalizing used with
  | zero => exact succeeds_ok _
  | succ rows ih =>
    rw [chargeRows]
    split
    · exact succeeds_ok _
    · rw [add_of_lt (by omega), ok_bind]
      exact ih (by omega)

theorem succeeds_readRows {statement : Statement R} (hstatement : statement.Bound) :
    Succeeds (readRows o a statement) := by
  rw [readRows]
  cases a.read with
  | some reply => exact succeeds_ok _
  | none =>
    have hrows : ∀ values ∈ statement.rows.getD [], BoundValues values := by
      cases hr : statement.rows with
      | none =>
        intro values hvalues
        cases hvalues
      | some rows => exact hstatement.2 rows hr
    apply (succeeds_prepareRows hstatement.1 hrows).bind
    intro _ _
    have hcount := a.rows.toNat_lt
    have hcharged : Succeeds (chargeRows o.maxQueryRows 0 a.rows.toNat) :=
      succeeds_chargeRows o.maxQueryRows (by omega)
    apply hcharged.bind
    intro charged _
    cases charged with
    | none => exact succeeds_ok _
    | some _ => exact succeeds_ok _

theorem succeeds_readRows_reply {statement : Statement R} (hstatement : statement.Bound) :
    Succeeds (do
      let reply ← readRows o a statement
      (pure (s, .replied reply) : Except Trap (State × Phase R))) := by
  apply (succeeds_readRows hstatement).bind
  intro reply _
  exact succeeds_ok _

theorem succeeds_fenceTurn (h : InRange o s) {statement : Statement R} (hstatement : statement.Bound)
    (start : ℕ) : Succeeds (fenceTurn o s a statement start) := by
  rw [fenceTurn]
  cases a.outcome with
  | pending =>
    show Succeeds (if s.failed then _ else _)
    split
    · exact succeeds_ok _
    · exact succeeds_timed h start (opTimeoutMs < ·) _ _
  | conflict => exact succeeds_ok _
  | succeeded =>
    show Succeeds (if s.failed then _ else _)
    split
    · exact succeeds_ok _
    · exact succeeds_readRows_reply hstatement

theorem succeeds_openFence (h : InRange o s) (statement : Statement R) :
    Succeeds (openFence s statement) ↔ (s.failed = false → s.nextFenceId + 1 < 2 ^ 64) := by
  rw [openFence]
  cases s.failed with
  | true =>
    constructor
    · intro _ hfalse
      cases hfalse
    · intro _
      exact succeeds_ok _
  | false =>
    rw [if_neg Bool.false_ne_true, sub_of_le h.base, ok_bind]
    constructor
    · intro hsucceeds _
      obtain ⟨next, hnext, -⟩ := hsucceeds.of_bind
      exact succeeds_add.1 ⟨next, hnext⟩
    · intro hroom
      rw [add_of_lt (hroom rfl)]
      exact succeeds_ok _

theorem succeeds_checkFreshness (h : InRange o s) (freshnessMs : Option UInt64) :
    Succeeds (checkFreshness o s freshnessMs) := by
  cases freshnessMs with
  | none => exact succeeds_ok _
  | some maximum =>
    show Succeeds (if s.voter then _ else _)
    split
    · exact succeeds_ok _
    · cases s.learnerLastContactTick with
      | none => exact succeeds_ok _
      | some contact =>
        exact succeeds_timed h contact
          (fun elapsed => maximum.toNat < elapsed ∨ s.appliedSlot < s.observedLeaderDecided) _ _

/-- The ids a read asks for. -/
def FenceRoom (s : State) (level : Level) (freshnessMs : Option UInt64) : Prop :=
  s.failed = false → freshnessMs = none → level = .linearizable → s.single = false →
    s.nextFenceId + 1 < 2 ^ 64

theorem succeeds_serveRead (h : InRange o s) {statement : Statement R} (hstatement : statement.Bound)
    {level : Level} {freshnessMs : Option UInt64} (hroom : FenceRoom s level freshnessMs) :
    Succeeds (serveRead o s a level freshnessMs statement) := by
  rw [serveRead]
  split
  · exact succeeds_ok _
  · rename_i hfreshness
    apply (succeeds_checkFreshness h freshnessMs).bind
    intro stale _
    cases stale with
    | some reply => exact succeeds_ok _
    | none =>
      show Succeeds (if level = .linearizable ∧ s.single = false then _ else _)
      split
      · rename_i hlinear
        apply (succeeds_openFence h statement).2
        intro hfailed
        cases freshnessMs with
        | none => exact hroom hfailed rfl hlinear.1 hlinear.2
        | some maximum =>
          rw [hlinear.1] at hfreshness
          exact absurd ⟨rfl, Level.noConfusion⟩ hfreshness
      · exact succeeds_readRows_reply hstatement

theorem fenceRoom_of_serveRead (h : InRange o s) {statement : Statement R} {level : Level}
    {freshnessMs : Option UInt64} (hserve : Succeeds (serveRead o s a level freshnessMs statement)) :
    FenceRoom s level freshnessMs := by
  intro hfailed hnone hlevel hsingle
  cases hnone
  cases hlevel
  have hopen : Succeeds (openFence s statement) := by
    rw [serveRead, hsingle] at hserve
    exact hserve
  exact (succeeds_openFence h statement).1 hopen hfailed

theorem succeeds_readFrontierTurn (h : InRange o s) {statement : Statement R} (hstatement : statement.Bound)
    {level : Level} {freshnessMs : Option UInt64} (hsafe : ReadSafe s level freshnessMs) (start : ℕ) :
    Succeeds (readFrontierTurn o s a level freshnessMs statement start) := by
  rw [readFrontierTurn]
  apply ((succeeds_awaitReady h s.leaderBase start).2 fun hs => (hsafe hs).1).bind
  intro result hresult
  cases result with
  | refused error =>
    cases error
    all_goals exact succeeds_ok _
  | wait => exact succeeds_ok _
  | ready =>
    obtain ⟨hserving, hle⟩ := awaitReady_eq_ready hresult
    apply succeeds_serveRead h hstatement
    intro _
    exact (hsafe hserving).2 hle

theorem readSafe_of_readFrontierTurn (h : InRange o s) {statement : Statement R} {level : Level}
    {freshnessMs : Option UInt64} {start : ℕ}
    (hturn : Succeeds (readFrontierTurn o s a level freshnessMs statement start)) :
    ReadSafe s level freshnessMs := by
  intro hserving
  rw [readFrontierTurn] at hturn
  obtain ⟨result, hresult, hrest⟩ := hturn.of_bind
  have hroom := (succeeds_awaitReady h _ start).1 ⟨result, hresult⟩ hserving
  refine ⟨hroom, fun hle => ?_⟩
  rw [awaitReady_ready hserving hroom hle] at hresult
  cases hresult
  exact fenceRoom_of_serveRead h hrest hserving.1

theorem succeeds_runReadQuery (h : InRange o s) {statement : Statement R} (hstatement : statement.Bound)
    {level : Level} {freshnessMs : Option UInt64} (hsafe : LeaderReadSafe waiters s level freshnessMs) :
    Succeeds (runReadQuery o waiters s a level freshnessMs statement) := by
  rw [runReadQuery]
  split
  · exact succeeds_ok _
  · rename_i hfailed
    split
    · exact succeeds_ok _
    · rename_i hleader
      split
      · rename_i hlevel
        have hserving : s.Serving :=
          ⟨Bool.eq_false_iff.2 hfailed, (Bool.not_eq_false _).mp fun hl => hleader ⟨hlevel, hl⟩⟩
        obtain ⟨hroom, hread⟩ := hsafe hlevel
        rw [add_of_lt (hroom hserving), ok_bind]
        exact succeeds_readFrontierTurn h hstatement hread s.tickCount
      · rename_i hany
        apply succeeds_serveRead h hstatement
        intro _ _ hlevel
        rw [hlevel] at hany
        exact absurd Level.noConfusion hany

theorem leaderReadSafe_of_runReadQuery (h : InRange o s) {statement : Statement R} {level : Level}
    {freshnessMs : Option UInt64}
    (hturn : Succeeds (runReadQuery o waiters s a level freshnessMs statement)) :
    LeaderReadSafe waiters s level freshnessMs := by
  intro hlevel
  by_cases hserving : s.Serving
  · rw [runReadQuery, hserving.1, hserving.2] at hturn
    rw [if_neg Bool.false_ne_true, if_neg (by simp), if_pos hlevel] at hturn
    obtain ⟨w, hw, hrest⟩ := hturn.of_bind
    exact ⟨fun _ => succeeds_add.1 ⟨w, hw⟩, readSafe_of_readFrontierTurn h hrest⟩
  · exact ⟨fun hs => absurd hs hserving, fun hs => absurd hs hserving⟩

end Turns

end Rpc

end Zaxonlite
