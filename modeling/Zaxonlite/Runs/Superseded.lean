import Zaxonlite.Runs.Membership

/-!
# Superseded replacements

A leader records the replacement it proposes, and the record goes with the operation it names. A leader
that is deposed keeps its record while another operation is decided; the record then turns every later
request away, unless the handovers that complete are those of the recorded operations.
-/

namespace Zaxonlite

open Program Run

/-! ### The record of a request -/

/-- A record of the node's configuration, or of a later one. -/
def RecordCurrent (dir : DataDirectory) : Prop :=
  ∀ r ∈ dir.pending, dir.identity.configurationId ≤ r.request.expectedConfigurationId

/-- The handover the pump would complete is that of the recorded operation, if one is recorded. -/
def OwnRecord (options : Host.OpenOptions) (h : Host) : Prop :=
  ∀ sign slot parsed, h.isReconfigured = some (sign, slot) → Survives options sign.members →
    parseStopMetadata sign.metadata = .ok parsed → leftover h.directory.pending parsed = none

/-- The crash is not between the identity file of a handover and the deletion of its record. -/
def CleanCrash (s : Server) (dir : DataDirectory) : Prop :=
  dir.identity ≠ s.node.directory.identity → dir.pending = none

/-- A server started on a directory at rest, with no request recorded. -/
def StartsUnrecorded (options : Host.OpenOptions) (s : Server) : Prop :=
  ∃ d dir, AtRest options d dir ∧ dir.pending = none ∧ Restarts options dir s

/-- A leader with no stop sign about refuses a fresh request over the record of a configuration that is
past. -/
def Blocked (s : Server) (q : ReplacementRequest) : Prop :=
  s.node.core.leads = true ∧ s.node.core.pendingStop = none ∧ s.node.isReconfigured = none ∧
    ∃ d r, s.node.decidedRegistry = some d ∧ d.validateRequest q = .ok .fresh ∧
      s.node.directory.pending = some r ∧
      r.request.expectedConfigurationId < d.configurationId ∧
      ∃ busy proposal, (s.node.replaceVoterLocked q busy proposal).1 = .rejected .operationPending ∨
        (s.node.replaceVoterLocked q busy proposal).1 = .rejected (.registry .operationConflict)

section Records

variable {options : Host.OpenOptions} {d : Decided} {s t : Server} {dir dir' : DataDirectory}
  {q : ReplacementRequest}

/-- A leader with nothing recorded proposes a fresh request, and records it. -/
theorem Live.records {h : Host} (hlive : Live options d h) (hleads : h.core.leads = true)
    (hwrites : options.role.capabilities.servesWrites = true) (hhealthy : h.fatalStorageError = false)
    (hunrecorded : h.directory.pending = none) (hfresh : d.validateRequest q = .ok .fresh) :
    (h.replaceVoterLocked q none (.ok ())).2.directory.pending = some ⟨q, .proposed⟩ := by
  have hanswer : h.answerReplacement d q = none := by
    rw [Host.answerReplacement, hfresh, hleads, hunrecorded]
    rfl
  have hadmit : wp (Host.admitReplacement q) (fun decided h' => decided = d ∧ h' = h) (fun _ _ => False)
      h := by
    rw [Host.admitReplacement, wp_bind, wp_get, wp_bind, wp_failIf, hlive.role, hwrites]
    refine ⟨fun hno => absurd hno Bool.false_ne_true, fun _ => ?_⟩
    rw [wp_bind, wp_failIf, hhealthy]
    refine ⟨fun hno => absurd hno Bool.false_ne_true, fun _ => ?_⟩
    rw [hlive.registry, hunrecorded]
    show wp (Host.freshRequest d q) _ _ h
    rw [Host.freshRequest, wp_bind, wp_ofRegistry_ok hfresh]
    exact ⟨rfl, rfl⟩
  have hwp : wp (Host.prepareReplacement q none (.ok ()))
      (fun _ h' => h'.directory.pending = some ⟨q, .proposed⟩) (fun _ _ => False) h := by
    rw [Host.prepareReplacement.eq_def, wp_bind]
    refine wp_mono hadmit ?_ (fun _ _ hno => hno)
    rintro decided h' ⟨rfl, rfl⟩
    dsimp only
    rw [wp_bind, persistPendingOperation, wp_save, wp_bind,
      wp_ofRegistry_ok ((Decided.successor_eq_ok hlive.kept.valid).2 ⟨hfresh, rfl⟩)]
    rfl
  obtain ⟨_, h', hrun, hrecord⟩ := eq_ok_of_wp hwp
  rw [Host.replaceVoterLocked, hlive.registry]
  dsimp only
  rw [hanswer]
  dsimp only
  rw [hrun]
  exact hrecord

/-- The record of another operation turns a fresh request away. -/
theorem rejected_of_record {h : Host} {r : PendingOperation} {busy : Option MemberError}
    {proposal : Except MemberError Unit} (hregistry : h.decidedRegistry = some d)
    (hfresh : d.validateRequest q = .ok .fresh) (hleads : h.core.leads = true)
    (hpending : h.directory.pending = some r) (hother : r.request.operationId ≠ q.operationId) :
    (h.replaceVoterLocked q busy proposal).1 = .rejected .operationPending := by
  have hmatch : r.matchesRequest q = false :=
    decide_eq_false fun heq => hother (by rw [heq])
  have hanswer : h.answerReplacement d q = some (.rejected .operationPending) := by
    rw [Host.answerReplacement, hfresh, hleads, hpending]
    dsimp only
    rw [hmatch, Bool.not_true, if_neg Bool.false_ne_true, Bool.not_false, if_pos rfl, if_neg hother]
  rw [Host.replaceVoterLocked, hregistry]
  dsimp only
  rw [hanswer]

theorem RecordCurrent.sameButRecord (h : RecordCurrent dir) (hsame : SameButRecord dir dir') :
    RecordCurrent dir' := by
  obtain ⟨pending, hrecords, rfl⟩ := hsame
  intro r hr
  obtain ⟨r', hr', hrequest⟩ := hrecords r hr
  rw [hrequest]
  exact h r' hr'

theorem RecordCurrent.records (hkept : Kept options d dir) (h : Records d q dir dir') :
    RecordCurrent dir' := by
  obtain ⟨hfresh, phase, rfl⟩ := h
  intro r hr
  obtain rfl := Option.some.inj hr
  rw [(Decided.fresh_of_validateRequest hkept.valid hfresh).current]
  exact hkept.behind

theorem RecordCurrent.settles (h : RecordCurrent s.node.directory) (hown : OwnRecord options s.node)
    (hsettles : Settles options d s t) : RecordCurrent t.node.directory := by
  cases hsettles with
  | idle _ => exact h
  | removed _ _ => exact h
  | handed hstop hstays hnext hfinished =>
    intro r hr
    rw [hfinished.record, hown _ _ _ hstop hstays hnext.parse] at hr
    cases hr

theorem RecordCurrent.crashPoint (hs : SoundOn options d s) (h : RecordCurrent s.node.directory)
    (hpoint : CrashPoint s dir) (hclean : CleanCrash s dir) : RecordCurrent dir := by
  by_cases hidentity : dir.identity = s.node.directory.identity
  · cases hpoint with
    | between => exact h
    | pumping hmem =>
      have hsettles := hs.settles
      generalize s.settled = t at hsettles hmem
      cases hsettles with
      | idle _ => exact absurd hmem List.not_mem_nil
      | removed _ _ => exact absurd hmem List.not_mem_nil
      | handed hstop hstays hnext hfinished =>
        intro r hr
        rw [hidentity]
        rcases hfinished.records dir hmem with hno | hnone | hsame
        · exact absurd hno List.not_mem_nil
        · rw [hnone] at hr
          cases hr
        · exact h r (hsame ▸ hr)
    | requesting hmem =>
      have hlive := hs.withTrail.live
      rcases (requested_replaceVoterLocked hlive.registry _ _ _).trail dir hmem with hno | hrecords
      · exact absurd hno List.not_mem_nil
      · exact .records hlive.kept hrecords
  · intro r hr
    rw [hclean hidentity] at hr
    cases hr

theorem RecordCurrent.step (hs : SoundOn options d s) (h : RecordCurrent s.node.directory)
    (hstep : MemberStep options (OwnRecord options) CleanCrash s t) : RecordCurrent t.node.directory := by
  cases hstep with
  | decide _ => exact h
  | stop _ _ _ _ => exact h
  | elect _ _ => exact h
  | anchor _ => exact h
  | request q busy proposal =>
    have hlive := hs.withTrail.live
    rcases (requested_replaceVoterLocked hlive.registry q busy proposal).directory with hsame | hrecords
    · rw [Server.requested, hsame]
      exact h
    · exact .records hlive.kept hrecords
  | pump hown =>
    rw [Server.pump_node]
    exact h.settles hown hs.settles
  | rebuild hrebuild =>
    rw [Server.node_of_rebuildTransport hrebuild]
    exact h
  | frame configuration missing =>
    rw [Server.onEnvelopeFrame_node]
    exact h
  | payload _ => exact h
  | restart hpoint hclean hrestart =>
    obtain ⟨d', hkept⟩ := hs.crashPoint hpoint
    exact (h.crashPoint hs hpoint hclean).sameButRecord (hkept.soundOn hrestart).2.1

/-- **A superseded replacement blocks nothing while handovers complete the recorded operation**, and no
crash falls between the identity file of a handover and the deletion of its record. -/
theorem superseded_never_blocks
    (h : Reachable (StartsUnrecorded options) (MemberStep options (OwnRecord options) CleanCrash) s)
    (q : ReplacementRequest) : ¬Blocked s q := by
  have hinv : ∃ d, SoundOn options d s ∧ RecordCurrent s.node.directory := by
    refine h.invariant (I := fun s => ∃ d, SoundOn options d s ∧ RecordCurrent s.node.directory) ?_ ?_
    · rintro s ⟨d, dir, hrest, hunrecorded, hrestart⟩
      obtain ⟨hs, hsame, -⟩ := hrest.kept.soundOn hrestart
      have hcurrent : RecordCurrent dir := by
        intro r hr
        rw [hunrecorded] at hr
        cases hr
      exact ⟨d, hs, hcurrent.sameButRecord hsame⟩
    · rintro s t ⟨d, hs, hcurrent⟩ hstep
      obtain ⟨d', hs'⟩ := hs.step hstep
      exact ⟨d', hs', hcurrent.step hs hstep⟩
  obtain ⟨d, hs, hcurrent⟩ := hinv
  rintro ⟨-, -, hnone, d', r, hregistry, -, hpending, hpast, -⟩
  obtain rfl := Option.some.inj (hs.live.registry.symm.trans hregistry)
  have hle := hcurrent r hpending
  rw [hs.live.identity_of_none hnone] at hle
  omega

end Records

section Sample

open Decided

variable {pumps : Host → Prop} {crashes : Server → DataDirectory → Prop}

/-- The operation that wins against `sampleRequest`: it replaces the third voter. -/
def winningRequest : ReplacementRequest where
  operationId := 2
  expectedConfigurationId := 1
  oldNodeId := 3
  newNodeId := 4
  newEndpoint := asciiBytes "e:1"
  operationId_le := Nat.le_of_ble_eq_true rfl
  oldNodeId_le := Nat.le_of_ble_eq_true rfl
  newNodeId_le := Nat.le_of_ble_eq_true rfl

def laterRequest : ReplacementRequest where
  operationId := 3
  expectedConfigurationId := 2
  oldNodeId := 2
  newNodeId := 5
  newEndpoint := asciiBytes "f:1"
  operationId_le := Nat.le_of_ble_eq_true rfl
  oldNodeId_le := Nat.le_of_ble_eq_true rfl
  newNodeId_le := Nat.le_of_ble_eq_true rfl

theorem laterRequest_fresh : (sampleRegistry.replaced winningRequest (joining winningRequest)).validateRequest
    laterRequest = .ok .fresh := by
  have hnodes : sortNodes (replaceNode 3 (joining winningRequest) sampleVoters) =
      [⟨1, .dataVoter, asciiBytes "a:1"⟩, ⟨2, .dataVoter, asciiBytes "b:1"⟩,
        ⟨4, .dataVoter, asciiBytes "e:1"⟩] :=
    List.mergeSort_of_pairwise (by decide)
  have hnext : sampleRegistry.replaced winningRequest (joining winningRequest) =
      ⟨7, 2, 1, 4, [⟨1, .dataVoter, asciiBytes "a:1"⟩, ⟨2, .dataVoter, asciiBytes "b:1"⟩,
        ⟨4, .dataVoter, asciiBytes "e:1"⟩], sampleRegistry.ring.push
          (sampleRegistry.operationOf winningRequest)⟩ := by
    rw [← hnodes]
    rfl
  rw [hnext]
  decide

/-- A leader that has proposed the sample request. -/
theorem exists_recorded : ∃ s,
    Reachable (StartsUnrecorded sampleOptions) (MemberStep sampleOptions pumps crashes) s ∧
      SoundOn sampleOptions sampleRegistry s ∧ s.node.isReconfigured = none ∧
      s.node.directory.pending = some ⟨sampleRequest, .proposed⟩ := by
  obtain ⟨s, hrestart⟩ := exists_sampleServer
  obtain ⟨hs, hnone, hunrecorded⟩ := sampleServer_sound hrestart
  obtain ⟨-, -, hhealthy⟩ := sampleDirectory_atRest.kept.soundOn hrestart
  let lead : Server := { s with node := { s.node with
    core := { s.node.core with leads := true, pendingStop := none } } }
  have hlead : MemberStep sampleOptions pumps crashes s lead := .elect true none
  have hrequest : MemberStep sampleOptions pumps crashes lead (lead.requested sampleRequest none (.ok ())) :=
    .request sampleRequest none (.ok ())
  have hsound : SoundOn sampleOptions sampleRegistry lead := by
    obtain ⟨h1, h2, h3, h4, h5, h6, h7, h8, h9, h10⟩ := hs.live
    exact ⟨⟨h1, h2, h3, h4, h5, h6, h7, h8, h9, h10⟩, hs.transport, hs.retired⟩
  have hlive := hsound.withTrail.live
  obtain ⟨hlive', hsame⟩ := hlive.requested
    (requested_replaceVoterLocked hlive.registry sampleRequest none (.ok ()))
  obtain ⟨d', hsound'⟩ := hsound.step hrequest
  obtain rfl := Option.some.inj (hsound'.live.registry.symm.trans hlive'.registry)
  refine ⟨_, .step (.step (.start ⟨_, _, sampleDirectory_atRest, rfl, hrestart⟩) hlead) hrequest, hsound',
    hsame.trans hnone, ?_⟩
  exact hlive.records rfl rfl hhealthy hunrecorded (by decide)

/-- The pump of a leader that lost to another operation, or won. -/
theorem exists_pumped {q : ReplacementRequest} (hfresh : sampleRegistry.validateRequest q = .ok .fresh)
    (hother : 1 ≠ q.oldNodeId)
    (hpumps : ∀ h : Host, h.directory.pending = some ⟨sampleRequest, .proposed⟩ →
      (∀ sign slot, h.isReconfigured = some (sign, slot) →
        Proposes sampleRegistry q (sampleRegistry.replaced q (joining q)) sign) → pumps h) :
    ∃ s parsed,
      Reachable (StartsUnrecorded sampleOptions) (MemberStep sampleOptions pumps crashes) s ∧
      SoundOn sampleOptions (sampleRegistry.replaced q (joining q)) s ∧ s.node.isReconfigured = none ∧
      parsed.seed = some q.seed ∧
      s.node.directory.pending = leftover (some ⟨sampleRequest, .proposed⟩) parsed := by
  obtain ⟨s, hreach, hs, hnone, hrecord⟩ := @exists_recorded pumps crashes
  obtain ⟨sign, hproposes⟩ := exists_proposes hfresh
  obtain ⟨hstep, hstop⟩ := @SoundOn.stops pumps crashes s q sign hs hnone hproposes
  obtain ⟨parsed, hleads, hseed, -⟩ := hproposes.leadsTo .refl hs.live.kept.self
  have hstays := sample_survives hproposes hother
  have hstopped : SoundOn sampleOptions sampleRegistry { s with node := s.node.decidesStop sign } := by
    obtain ⟨d, hsound⟩ := hs.step hstep
    obtain rfl := Option.some.inj (hsound.live.registry.symm.trans hs.live.registry)
    exact hsound
  have hpump : MemberStep sampleOptions pumps crashes { s with node := s.node.decidesStop sign }
      ({ s with node := s.node.decidesStop sign } : Server).pump := by
    refine .pump (hpumps _ hrecord ?_)
    intro sign' slot' hstop'
    obtain ⟨rfl, rfl⟩ := Prod.mk.inj (Option.some.inj (hstop.symm.trans hstop'))
    exact hproposes
  obtain ⟨node, -, hsettled, hfinished⟩ := hstopped.settled_of_survives hstop hstays hleads
  have hnode : ({ s with node := s.node.decidesStop sign } : Server).pump.node = node := by
    rw [Server.pump_node, hsettled]
  obtain ⟨d, hsound⟩ := hstopped.step hpump
  have hregistry := hsound.live.registry
  rw [hnode, hfinished.live.registry] at hregistry
  obtain rfl := Option.some.inj hregistry
  refine ⟨_, parsed, .step (.step hreach hstep) hpump, hsound, ?_, hseed, ?_⟩
  · rw [hnode]
    exact hfinished.settled
  · rw [hnode, hfinished.record, ← hrecord]
    rfl

theorem superseded_never_blocks_sample : ∃ s,
    Reachable (StartsUnrecorded sampleOptions)
      (MemberStep sampleOptions (OwnRecord sampleOptions) CleanCrash) s ∧
    s.node.identity.configurationId = 2 ∧ ∀ q, ¬Blocked s q := by
  obtain ⟨s, -, hreach, hs, hnone, -⟩ := @exists_pumped (OwnRecord sampleOptions) CleanCrash sampleRequest
    (by decide) (by decide) (by
      intro h hrecord hproposes sign slot parsed hstop _ hparse
      have hself : Registered sampleOptions sampleRegistry := sampleDirectory_atRest.self
      obtain ⟨parsed', hleads, hseed, -⟩ := (hproposes sign slot hstop).leadsTo .refl hself
      obtain rfl := Except.ok.inj (hparse.symm.trans hleads.parse)
      rw [leftover, hrecord, hseed]
      rfl)
  refine ⟨s, hreach, ?_, superseded_never_blocks hreach⟩
  rw [hs.live.identity, hs.live.identity_of_none hnone]
  rfl

/-- **The record of a deposed leader blocks every later request.** The leader proposes and records one
operation, another is decided and handed over, and the leader is elected again. -/
theorem superseded_blocks : ∃ s, Reachable (StartsUnrecorded sampleOptions) (MemberRun sampleOptions) s ∧
    Blocked s laterRequest := by
  obtain ⟨s, parsed, hreach, hs, hnone, hseed, hrecord⟩ := @exists_pumped (fun _ => True) (fun _ _ => True)
    winningRequest (by decide) (by decide) fun _ _ _ => trivial
  have hpending : s.node.directory.pending = some ⟨sampleRequest, .proposed⟩ := by
    rw [hrecord, leftover, hseed]
    rfl
  refine ⟨_, .step hreach (.elect true none), rfl, rfl, hnone, _, _, hs.live.registry, laterRequest_fresh,
    hpending, by decide, none, .ok (), .inl ?_⟩
  exact rejected_of_record hs.live.registry laterRequest_fresh rfl hpending (by decide)

end Sample

end Zaxonlite
