import Zaxonlite.Lib.Run
import Zaxonlite.Node.CrashPoints

/-!
# Membership changes over whole runs

Leaders come and go, stop signs are decided, handovers complete, and the process crashes between any two
writes. Wherever it crashes in a handover, opening and pumping again ends where the uninterrupted
handover does.
-/

namespace Zaxonlite

open Program Run

/-! ### The system -/

/-- A stop sign some leader proposed. -/
def Proposed (sign : StopSign) : Prop :=
  ∃ e q next, Proposes e q next sign

theorem Proposed.readable {sign : StopSign} (h : Proposed sign) :
    ∃ parsed, parseStopMetadata sign.metadata = .ok parsed := by
  obtain ⟨e, q, next, h⟩ := h
  have hvalid := Decided.validate_eq_ok.1 h.valid
  obtain ⟨text, hrender, hparse, -⟩ := Decided.rebuilds_of_fresh hvalid h.fresh
  obtain ⟨-, rfl⟩ := (Decided.successor_eq_ok hvalid).1 h.successor
  obtain rfl : text = sign.metadata := Option.some.inj (hrender.symm.trans h.metadata)
  exact ⟨_, hparse⟩

/-- A directory between two handovers. -/
structure AtRest (options : Host.OpenOptions) (d : Decided) (dir : DataDirectory) : Prop where
  pointer : dir.pointer = some d.configurationId
  blob : dir.blobs d.configurationId = some d
  valid : d.validate = .ok ()
  database : d.databaseId = dir.identity.databaseId
  configuration : dir.identity.configurationId = d.configurationId
  nodeId : dir.identity.nodeId = options.nodeId
  role : dir.role = options.role
  self : Registered options d
  join : dir.join = none
  started : 1 < dir.identity.configurationId → 0 < dir.decidedThrough
  stopped : ∀ sign slot, dir.stop = some (sign, slot) → sign.configurationId ≤ d.configurationId

namespace Host

/-- The journal decides one more slot. -/
def decides (h : Host) : Host :=
  { h with
    directory := { h.directory with decidedThrough := h.directory.decidedThrough + 1 }
    appliedSlot := h.appliedSlot + 1 }

/-- The slot holds a stop sign. -/
def decidesStop (h : Host) (sign : StopSign) : Host :=
  { h.decides with
    directory := { h.decides.directory with stop := some (sign, h.directory.decidedThrough + 1) }
    membershipChangePending := true }

end Host

/-- The directories a crash leaves behind: between two operations, inside the pump, or inside a request. -/
inductive CrashPoint (s : Server) : DataDirectory → Prop
  | between : CrashPoint s s.node.directory
  | pumping {dir : DataDirectory} : dir ∈ s.settled.node.trail → CrashPoint s dir
  | requesting {dir : DataDirectory} {q : ReplacementRequest} {busy : Option MemberError}
      {proposal : Except MemberError Unit} : dir ∈ (s.requested q busy proposal).node.trail → CrashPoint s dir

/-- A process started on a directory. -/
def Restarts (options : Host.OpenOptions) (dir : DataDirectory) (t : Server) : Prop :=
  ∃ pendingStop fallback node, (∀ sign ∈ pendingStop, Proposed sign) ∧
    Host.openNode options pendingStop (Host.booted dir) = .ok () node ∧ Server.start node fallback = .ok t

section System

variable (options : Host.OpenOptions) (pumps : Host → Prop) (crashes : Server → DataDirectory → Prop)

/-- One step of a server and its process. Nothing is decided beyond a stop sign; a stop sign comes from
a leader that holds the node's registry, or one the node lags behind by rollovers. -/
inductive MemberStep : Server → Server → Prop
  | decide {s : Server} : s.node.isReconfigured = none → MemberStep s { s with node := s.node.decides }
  | stop {s : Server} {d e next : Decided} {q : ReplacementRequest} {sign : StopSign} :
      s.node.isReconfigured = none → s.node.decidedRegistry = some d →
      Relation.ReflTransGen Decided.RollsOver d e → Proposes e q next sign →
      MemberStep s { s with node := s.node.decidesStop sign }
  | elect {s : Server} (leads : Bool) (pendingStop : Option StopSign) :
      MemberStep s { s with node := { s.node with
        core := { s.node.core with leads := leads, pendingStop := pendingStop } } }
  | anchor {s : Server} (slot : ℕ) :
      MemberStep s { s with node := { s.node with
        directory := { s.node.directory with anchorSlot := slot }, durableStateSlot := slot } }
  | request {s : Server} (q : ReplacementRequest) (busy : Option MemberError)
      (proposal : Except MemberError Unit) : MemberStep s (s.requested q busy proposal)
  | pump {s : Server} : pumps s.node → MemberStep s s.pump
  | rebuild {s s' : Server} {fallback : List PeerAddress} : s.rebuildTransport fallback = .ok s' →
      MemberStep s s'
  | frame {s : Server} (configuration : ℕ) (missing : Bool) :
      MemberStep s (s.onEnvelopeFrame configuration missing)
  | payload {s : Server} (count : ℕ) : MemberStep s (s.onPayloadData count)
  | restart {s t : Server} {dir : DataDirectory} : CrashPoint s dir → crashes s dir →
      Restarts options dir t → MemberStep s t

def StartsAtRest (s : Server) : Prop :=
  ∃ d dir, AtRest options d dir ∧ Restarts options dir s

end System

/-! ### The invariant -/

/-- A node that is what its directory says; while identity and registry disagree the transport is in
the registry's configuration and nothing is held; a retired server is one the stop sign removed. -/
structure SoundOn (options : Host.OpenOptions) (d : Decided) (s : Server) : Prop where
  live : Live options d s.node
  transport : s.node.identity.configurationId ≠ d.configurationId →
    s.transportConfigurationId = d.configurationId ∧ s.held = 0
  retired : s.retired = true → ∃ sign slot, s.node.isReconfigured = some (sign, slot) ∧
    ¬Survives options sign.members

section Sound

variable {options : Host.OpenOptions} {d next : Decided} {s t : Server} {dir : DataDirectory}
  {sign : StopSign} {slot : ℕ} {pumps : Host → Prop} {crashes : Server → DataDirectory → Prop}

theorem AtRest.kept (h : AtRest options d dir) : Kept options d dir := by
  refine ⟨h.pointer, h.blob, Decided.validate_eq_ok.1 h.valid, h.database, h.nodeId, h.role, h.self, h.join,
    h.started, h.configuration.le, ?_, ?_⟩
  · intro sign slot hstop habove
    have hle := h.stopped sign slot hstop
    rw [h.configuration] at habove
    omega
  · intro hlt
    rw [h.configuration] at hlt
    exact absurd hlt (lt_irrefl _)

theorem generation_configuration {c : ℕ} {fallback : List PeerAddress} {generation : MemberGeneration}
    (h : buildMemberGeneration (some d) c fallback = .ok generation) :
    generation.configurationId = d.configurationId := by
  rw [buildMemberGeneration] at h
  cases hmembers : memberAddresses d.nodes with
  | error e =>
    rw [hmembers] at h
    cases h
  | ok members =>
    rw [hmembers] at h
    cases h
    rfl

theorem Kept.soundOn (hkept : Kept options d dir) (h : Restarts options dir t) :
    SoundOn options d t ∧ SameButRecord dir t.node.directory ∧ t.node.fatalStorageError = false := by
  obtain ⟨pendingStop, fallback, node, -, hopen, hstart⟩ := h
  have hwp := hkept.wp_openNode pendingStop
  rw [wp, hopen] at hwp
  obtain ⟨hlive, hsame, -, hhealthy⟩ := hwp
  rw [Server.start, hlive.registry] at hstart
  cases hgeneration : buildMemberGeneration (some d) node.identity.configurationId fallback with
  | error e =>
    rw [hgeneration] at hstart
    cases hstart
  | ok generation =>
    rw [hgeneration] at hstart
    cases hstart
    refine ⟨⟨hlive, fun _ => ⟨generation_configuration hgeneration, rfl⟩, ?_⟩, hsame, hhealthy⟩
    intro hno
    cases hno

/-! ### One step -/

theorem Live.identity_of_none {h : Host} (hlive : Live options d h) (hnone : h.isReconfigured = none) :
    h.directory.identity.configurationId = d.configurationId := by
  rcases hlive.kept.behind.lt_or_eq with hlt | heq
  · obtain ⟨sign, slot, hstop, hconf, -⟩ := hlive.kept.interrupted hlt
    have hsome := hlive.isReconfigured_eq.2 ⟨hstop, hconf ▸ hlt⟩
    rw [hnone] at hsome
    cases hsome
  · exact heq

theorem Live.leadsTo {h : Host} (hlive : Live options d h)
    (hstop : h.isReconfigured = some (sign, slot)) :
    ∃ next parsed, LeadsTo options d next sign parsed := by
  obtain ⟨hsign, habove⟩ := hlive.isReconfigured_eq.1 hstop
  exact (hlive.kept.stopped sign slot hsign habove).2.2

theorem Live.withTrail {h : Host} (hlive : Live options d h) (trail : List DataDirectory)
    (htrail : ∀ dir ∈ trail, ∃ d', Kept options d' dir) : Live options d { h with trail := trail } :=
  ⟨hlive.kept, htrail, hlive.identity, hlive.role, hlive.registry, hlive.join, hlive.members, hlive.core,
    hlive.applied, hlive.pending⟩

theorem Live.decides {h : Host} (hlive : Live options d h) (hnone : h.isReconfigured = none) :
    Live options d h.decides := by
  have hconf := hlive.identity_of_none hnone
  refine ⟨⟨hlive.kept.pointer, hlive.kept.blob, hlive.kept.valid, hlive.kept.database, hlive.kept.nodeId,
    hlive.kept.role, hlive.kept.self, hlive.kept.join, fun _ => Nat.succ_pos _, hlive.kept.behind, ?_, ?_⟩,
    hlive.trail, hlive.identity, hlive.role, hlive.registry, hlive.join, hlive.members, hlive.core, ?_,
    hlive.pending⟩
  · intro sign slot hstop habove
    have hsome := hlive.isReconfigured_eq.2 ⟨hstop, habove⟩
    rw [hnone] at hsome
    cases hsome
  · exact hlive.kept.interrupted
  · show h.appliedSlot + 1 = h.directory.decidedThrough + 1
    rw [hlive.applied]

/-- A decided stop sign leads to the proposer's next registry. -/
theorem Live.decidesStop {h : Host} {e : Decided} {q : ReplacementRequest} (hlive : Live options d h)
    (hnone : h.isReconfigured = none) (hlag : Relation.ReflTransGen Decided.RollsOver d e)
    (hproposes : Proposes e q next sign) : Live options d (h.decidesStop sign) := by
  have hconf := hlive.identity_of_none hnone
  obtain ⟨parsed, hleads, -, habove⟩ := hproposes.leadsTo hlag hlive.kept.self
  refine ⟨⟨hlive.kept.pointer, hlive.kept.blob, hlive.kept.valid, hlive.kept.database, hlive.kept.nodeId,
    hlive.kept.role, hlive.kept.self, hlive.kept.join, fun _ => Nat.succ_pos _, hlive.kept.behind, ?_, ?_⟩,
    hlive.trail, hlive.identity, hlive.role, hlive.registry, hlive.join, hlive.members, hlive.core, ?_, ?_⟩
  · intro sign' slot' hstop _
    obtain ⟨rfl, rfl⟩ := Prod.mk.inj (Option.some.inj hstop)
    exact ⟨rfl, Nat.succ_pos _, next, parsed, hleads⟩
  · intro hlt
    exact absurd hconf hlt.ne
  · show h.appliedSlot + 1 = h.directory.decidedThrough + 1
    rw [hlive.applied]
  · have hcore : h.core.configurationId < sign.configurationId := by
      rw [hlive.core, hlive.identity, hconf, ← hleads.configuration]
      exact habove
    have hreported : (h.decidesStop sign).isReconfigured = some (sign, h.directory.decidedThrough + 1) :=
      Option.filter_eq_some_iff.2 ⟨rfl, decide_eq_true hcore⟩
    rw [hreported]
    rfl

def Records (d : Decided) (q : ReplacementRequest) (dir dir' : DataDirectory) : Prop :=
  d.validateRequest q = .ok .fresh ∧ ∃ phase, dir' = { dir with pending := some ⟨q, phase⟩ }

/-- What a request leaves: the record at most has changed, to that of a fresh request. -/
structure Requested (d : Decided) (q : ReplacementRequest) (h h' : Host) : Prop where
  directory : h'.directory = h.directory ∨ Records d q h.directory h'.directory
  trail : ∀ dir ∈ h'.trail, dir ∈ h.trail ∨ Records d q h.directory dir
  rest : h' = { h with directory := h'.directory, trail := h'.trail }

theorem Requested.refl (d : Decided) (q : ReplacementRequest) (h : Host) : Requested d q h h :=
  ⟨.inl rfl, fun _ hdir => .inl hdir, rfl⟩

theorem Requested.persist {q : ReplacementRequest} {h h' : Host} (hr : Requested d q h h')
    (hfresh : d.validateRequest q = .ok .fresh) (phase : PendingPhase) :
    Requested d q h { h' with
      directory := { h'.directory with pending := some ⟨q, phase⟩ }
      trail := h'.trail ++ [{ h'.directory with pending := some ⟨q, phase⟩ }] } := by
  have hnew : Records d q h.directory { h'.directory with pending := some ⟨q, phase⟩ } := by
    refine ⟨hfresh, phase, ?_⟩
    rcases hr.directory with hsame | ⟨-, phase', hsame⟩
    · rw [hsame]
    · rw [hsame]
  refine ⟨.inr hnew, fun dir hdir => ?_, ?_⟩
  · rcases List.mem_append.1 hdir with hdir | hdir
    · exact hr.trail dir hdir
    · rw [List.mem_singleton.1 hdir]
      exact .inr hnew
  · rw [hr.rest]

theorem wp_freshRequest {h : Host} (q : ReplacementRequest) :
    wp (Host.freshRequest d q)
      (fun decided h' => h' = h ∧ decided = d ∧ d.validateRequest q = .ok .fresh) (fun _ h' => h' = h) h := by
  rw [Host.freshRequest, wp_bind]
  cases hanswer : d.validateRequest q with
  | error e => rw [wp_ofRegistry_error rfl]
  | ok answer =>
    rw [wp_ofRegistry_ok rfl]
    cases answer with
    | fresh => exact ⟨rfl, rfl, rfl⟩
    | retry result => exact rfl

theorem wp_admitReplacement {h : Host} (hregistry : h.decidedRegistry = some d) (q : ReplacementRequest) :
    wp (Host.admitReplacement q)
      (fun decided h' => h' = h ∧ decided = d ∧ d.validateRequest q = .ok .fresh) (fun _ h' => h' = h) h := by
  rw [Host.admitReplacement, wp_bind, wp_get]
  rw [wp_bind, wp_failIf]
  refine ⟨fun _ => rfl, fun _ => ?_⟩
  rw [wp_bind, wp_failIf]
  refine ⟨fun _ => rfl, fun _ => ?_⟩
  rw [hregistry]
  cases hpending : h.directory.pending with
  | none => exact wp_freshRequest q
  | some pending =>
    dsimp only
    rw [wp_bind, wp_failIf]
    refine ⟨fun _ => rfl, fun _ => ?_⟩
    rw [wp_bind, wp_failIf]
    exact ⟨fun _ => rfl, fun _ => wp_freshRequest q⟩

theorem wp_prepareReplacement {h : Host} (hregistry : h.decidedRegistry = some d) (q : ReplacementRequest)
    (busy : Option MemberError) (proposal : Except MemberError Unit) :
    wp (Host.prepareReplacement q busy proposal) (fun _ => Requested d q h) (fun _ => Requested d q h) h := by
  rw [Host.prepareReplacement.eq_def, wp_bind]
  refine wp_mono (wp_admitReplacement hregistry q) ?_ (fun _ h' heq => heq ▸ .refl d q h)
  rintro decided h' ⟨rfl, rfl, hfresh⟩
  cases busy with
  | some e => exact .refl _ _ _
  | none =>
    have hfirst := (Requested.refl decided q h').persist hfresh .prepared
    dsimp only
    rw [wp_bind, persistPendingOperation, wp_save, wp_bind]
    cases hsuccessor : decided.successor q with
    | error e =>
      rw [wp_ofRegistry_error rfl]
      exact hfirst
    | ok next =>
      rw [wp_ofRegistry_ok rfl]
      cases proposal with
      | error e => exact hfirst
      | ok u => exact hfirst.persist hfresh .proposed

theorem requested_replaceVoterLocked {h : Host} (hregistry : h.decidedRegistry = some d)
    (q : ReplacementRequest) (busy : Option MemberError) (proposal : Except MemberError Unit) :
    Requested d q h (h.replaceVoterLocked q busy proposal).2 := by
  rw [Host.replaceVoterLocked, hregistry]
  dsimp only
  cases h.answerReplacement d q with
  | some outcome => exact .refl d q h
  | none =>
    have hwp := wp_prepareReplacement hregistry q busy proposal
    dsimp only
    rw [wp] at hwp
    cases hrun : Host.prepareReplacement q busy proposal h with
    | ok u h' =>
      rw [hrun] at hwp
      exact hwp
    | error e h' =>
      rw [hrun] at hwp
      exact hwp

theorem Live.requested {h h' : Host} {q : ReplacementRequest} (hlive : Live options d h)
    (hr : Requested d q h h') : Live options d h' ∧ h'.isReconfigured = h.isReconfigured := by
  have hkept : Kept options d h'.directory := by
    rcases hr.directory with hsame | ⟨-, phase, hsame⟩
    · rw [hsame]
      exact hlive.kept
    · rw [hsame]
      exact hlive.kept.withPending _
  have hidentity : h'.directory.identity = h.directory.identity := by
    rcases hr.directory with hsame | ⟨-, phase, hsame⟩ <;> rw [hsame]
  have hdecided : h'.directory.decidedThrough = h.directory.decidedThrough := by
    rcases hr.directory with hsame | ⟨-, phase, hsame⟩ <;> rw [hsame]
  have hstop : h'.directory.stop = h.directory.stop := by
    rcases hr.directory with hsame | ⟨-, phase, hsame⟩ <;> rw [hsame]
  have hsign : h'.isReconfigured = h.isReconfigured := by
    rw [Host.isReconfigured, hstop, hr.rest]
    rfl
  refine ⟨⟨hkept, fun dir hdir => ?_, ?_, ?_, ?_, ?_, ?_, ?_, ?_, ?_⟩, hsign⟩
  · rcases hr.trail dir hdir with hdir | ⟨-, phase, rfl⟩
    · exact hlive.trail dir hdir
    · exact ⟨d, hlive.kept.withPending _⟩
  · rw [hidentity, hr.rest]
    exact hlive.identity
  · rw [hr.rest]
    exact hlive.role
  · rw [hr.rest]
    exact hlive.registry
  · rw [hr.rest]
    exact hlive.join
  · rw [hr.rest]
    exact hlive.members
  · rw [hr.rest]
    exact hlive.core
  · rw [hdecided, hr.rest]
    exact hlive.applied
  · rw [hsign, ← hlive.pending, hr.rest]

/-- What the node's part of the pump comes to. -/
inductive Settles (options : Host.OpenOptions) (d : Decided) (s : Server) : Server → Prop
  | idle : s.node.isReconfigured = none ∨ s.retired = true →
      Settles options d s { s with node := { s.node with trail := [] } }
  | removed {sign : StopSign} {slot : ℕ} : s.node.isReconfigured = some (sign, slot) →
      ¬Survives options sign.members →
      Settles options d s { s with node := { s.node with trail := [] }, retired := true }
  | handed {next : Decided} {sign : StopSign} {slot : ℕ} {parsed : StopMetadata} {node : Host} :
      s.node.isReconfigured = some (sign, slot) → Survives options sign.members →
      LeadsTo options d next sign parsed →
      Finished options next sign slot parsed { s.node with trail := [] } node →
      Settles options d s { s with node := node }

/-- The pump of a survivor hands over. -/
theorem SoundOn.settled_of_survives {parsed : StopMetadata} (hs : SoundOn options d s)
    (hstop : s.node.isReconfigured = some (sign, slot)) (hstays : Survives options sign.members)
    (hnext : LeadsTo options d next sign parsed) :
    ∃ node, Host.settle { s.node with trail := [] } = .ok () node ∧ s.settled = { s with node := node } ∧
      Finished options next sign slot parsed { s.node with trail := [] } node := by
  have hactive : s.retired = false := by
    rw [← Bool.not_eq_true]
    intro hretired
    obtain ⟨sign', slot', hstop', hgone⟩ := hs.retired hretired
    obtain ⟨rfl, rfl⟩ := Prod.mk.inj (Option.some.inj (hstop.symm.trans hstop'))
    exact hgone hstays
  have hlive := hs.live.withTrail [] fun _ hno => absurd hno List.not_mem_nil
  obtain ⟨_, node, hrun, hfinished⟩ := eq_ok_of_wp (hlive.wp_settle hnext hstop hstays
    fun _ hno => absurd hno List.not_mem_nil)
  refine ⟨node, hrun, ?_, hfinished⟩
  rw [Server.settled, hactive, if_neg Bool.false_ne_true, hrun]

theorem SoundOn.settles (hs : SoundOn options d s) : Settles options d s s.settled := by
  cases hretired : s.retired with
  | true =>
    rw [Server.settled, if_pos hretired]
    exact .idle (.inr hretired)
  | false =>
    have hlive := hs.live.withTrail [] fun _ hno => absurd hno List.not_mem_nil
    cases hstop : s.node.isReconfigured with
    | none =>
      have hidle : s.settled = { s with node := { s.node with trail := [] } } := by
        have hwp : wp Host.settle (fun _ h' => h' = { s.node with trail := [] })
            (fun e h' => h' = { s.node with trail := [] } ∧ e ≠ .node .retiredByReconfiguration)
            { s.node with trail := [] } := by
          have hnone : ({ s.node with trail := [] } : Host).isReconfigured = none := hstop
          rw [Host.settle, wp_bind, wp_get, wp_ite]
          refine ⟨fun _ => ?_, fun _ => rfl⟩
          rw [Host.completeMembershipChange, wp_bind, wp_get, hnone]
          exact ⟨rfl, by decide⟩
        rw [Server.settled, hretired, if_neg Bool.false_ne_true]
        rw [wp] at hwp
        cases hrun : Host.settle { s.node with trail := [] } with
        | ok u node =>
          rw [hrun] at hwp
          rw [show node = _ from hwp]
        | error e node =>
          rw [hrun] at hwp
          obtain ⟨rfl, hother⟩ := hwp
          dsimp only
          rw [decide_eq_false hother]
      rw [hidle]
      exact .idle (.inl hstop)
    | some stop =>
      obtain ⟨sign, slot⟩ := stop
      obtain ⟨next, parsed, hnext⟩ := hs.live.leadsTo hstop
      by_cases hstays : Survives options sign.members
      · obtain ⟨node, -, hsettled, hfinished⟩ := hs.settled_of_survives hstop hstays hnext
        rw [hsettled]
        exact .handed hstop hstays hnext hfinished
      · have hrun := hlive.settle_of_removed hnext hstop hstays
        rw [Server.settled, hretired, if_neg Bool.false_ne_true, hrun]
        exact .removed hstop hstays

theorem SoundOn.withTrail (hs : SoundOn options d s) :
    SoundOn options d { s with node := { s.node with trail := [] } } :=
  ⟨hs.live.withTrail [] fun _ hno => absurd hno List.not_mem_nil, hs.transport, hs.retired⟩

/-- A node that has handed over is in the configuration of its registry. -/
theorem Finished.soundOn {parsed : StopMetadata} {before node : Host} (hs : SoundOn options d s)
    (hstop : s.node.isReconfigured = some (sign, slot)) (hstays : Survives options sign.members)
    (h : Finished options next sign slot parsed before node) :
    SoundOn options next { s with node := node } := by
  refine ⟨h.live, fun hne => absurd h.handed.identity hne, fun hretired => ?_⟩
  obtain ⟨sign', slot', hstop', hgone⟩ := hs.retired hretired
  obtain ⟨rfl, rfl⟩ := Prod.mk.inj (Option.some.inj (hstop.symm.trans hstop'))
  exact absurd hstays hgone

/-- Another transport configuration does no harm where identity and registry agree. -/
theorem SoundOn.entered (hs : SoundOn options d s)
    (hagree : s.node.identity.configurationId = d.configurationId) :
    SoundOn options d s.enterConfigurationLocked := by
  rw [Server.enterConfigurationLocked]
  split
  · exact hs
  · exact ⟨hs.live, fun hne => absurd hagree hne, hs.retired⟩

/-- The node's part of the pump keeps the invariant, and moves the identity to the registry only. -/
theorem Settles.soundOn (hs : SoundOn options d s) (h : Settles options d s t) :
    ∃ d', SoundOn options d' t ∧ (t.node.identity.configurationId ≠ s.node.identity.configurationId →
      t.node.identity.configurationId = d'.configurationId) := by
  cases h with
  | idle _ => exact ⟨d, hs.withTrail, fun hne => absurd rfl hne⟩
  | removed hstop hgone =>
    exact ⟨d, ⟨hs.withTrail.live, hs.transport, fun _ => ⟨_, _, hstop, hgone⟩⟩, fun hne => absurd rfl hne⟩
  | handed hstop hstays hnext hfinished =>
    exact ⟨_, hfinished.soundOn hs hstop hstays, fun _ => hfinished.handed.identity⟩

theorem SoundOn.pump (hs : SoundOn options d s) : ∃ d', SoundOn options d' s.pump := by
  obtain ⟨d', hsound, hagree⟩ := hs.settles.soundOn hs
  rw [Server.pump]
  split
  · rename_i hne
    exact ⟨d', hsound.entered (hagree hne)⟩
  · exact ⟨d', hsound⟩

theorem SoundOn.crashPoint (hs : SoundOn options d s) (h : CrashPoint s dir) :
    ∃ d', Kept options d' dir := by
  cases h with
  | between => exact ⟨d, hs.live.kept⟩
  | pumping hmem =>
    obtain ⟨d', hsound, -⟩ := hs.settles.soundOn hs
    exact hsound.live.trail dir hmem
  | requesting hmem =>
    have hlive := hs.withTrail.live
    exact (hlive.requested (requested_replaceVoterLocked hlive.registry _ _ _)).1.trail dir hmem

theorem SoundOn.step (hs : SoundOn options d s) (h : MemberStep options pumps crashes s t) :
    ∃ d', SoundOn options d' t := by
  cases h with
  | decide hnone =>
    refine ⟨d, hs.live.decides hnone, hs.transport, fun hretired => ?_⟩
    obtain ⟨sign, slot, hstop, -⟩ := hs.retired hretired
    rw [hnone] at hstop
    cases hstop
  | stop hnone hregistry hlag hproposes =>
    obtain rfl := Option.some.inj (hs.live.registry.symm.trans hregistry)
    refine ⟨_, hs.live.decidesStop hnone hlag hproposes, hs.transport, fun hretired => ?_⟩
    obtain ⟨sign, slot, hstop, -⟩ := hs.retired hretired
    rw [hnone] at hstop
    cases hstop
  | elect leads pendingStop =>
    obtain ⟨h1, h2, h3, h4, h5, h6, h7, h8, h9, h10⟩ := hs.live
    exact ⟨d, ⟨h1, h2, h3, h4, h5, h6, h7, h8, h9, h10⟩, hs.transport, hs.retired⟩
  | anchor slot =>
    obtain ⟨h1, h2, h3, h4, h5, h6, h7, h8, h9, h10⟩ := hs.live
    exact ⟨d, ⟨h1.withAnchor slot, h2, h3, h4, h5, h6, h7, h8, h9, h10⟩, hs.transport, hs.retired⟩
  | request q busy proposal =>
    have hlive := hs.withTrail.live
    have hrequested := requested_replaceVoterLocked hlive.registry q busy proposal
    obtain ⟨hlive', hsame⟩ := hlive.requested hrequested
    have hidentity : (s.requested q busy proposal).node.identity = s.node.identity := by
      rw [Server.requested, hrequested.rest]
    refine ⟨d, hlive', fun hne => hs.transport (hidentity ▸ hne), fun hretired => ?_⟩
    obtain ⟨sign, slot, hstop, hgone⟩ := hs.retired hretired
    exact ⟨sign, slot, hsame.trans hstop, hgone⟩
  | pump _ => exact hs.pump
  | rebuild hrebuild =>
    rw [Server.rebuildTransport, hs.live.registry] at hrebuild
    dsimp only at hrebuild
    split at hrebuild
    · cases hrebuild
      exact ⟨d, hs⟩
    · cases hgeneration : buildMemberGeneration (some d) s.node.identity.configurationId _ with
      | error e =>
        rw [hgeneration] at hrebuild
        cases hrebuild
      | ok generation =>
        rw [hgeneration] at hrebuild
        cases hrebuild
        exact ⟨d, hs.live, fun hne => ⟨generation_configuration hgeneration, (hs.transport hne).2⟩,
          hs.retired⟩
  | frame configuration missing =>
    rw [Server.onEnvelopeFrame]
    split
    · rename_i hgate
      refine ⟨d, hs.live, fun hne => ?_, hs.retired⟩
      obtain ⟨htransport, -⟩ := hs.transport hne
      rw [Bool.and_eq_true, Server.stepsEnvelope, Bool.and_eq_true, Bool.and_eq_true, decide_eq_true_eq,
        decide_eq_true_eq] at hgate
      exact absurd (hgate.1.1.2.trans htransport) hne
    · exact ⟨d, hs⟩
  | payload count =>
    refine ⟨d, hs.live, fun hne => ?_, hs.retired⟩
    obtain ⟨htransport, hheld⟩ := hs.transport hne
    refine ⟨htransport, ?_⟩
    show s.held - count = 0
    rw [hheld, Nat.zero_sub]
  | restart hpoint _ hrestart =>
    obtain ⟨d', hkept⟩ := hs.crashPoint hpoint
    exact ⟨d', (hkept.soundOn hrestart).1⟩

/-- **Every server a run comes to is sound.** -/
theorem soundOn_of_reachable (h : Reachable (StartsAtRest options) (MemberStep options pumps crashes) s) :
    ∃ d, SoundOn options d s := by
  refine h.invariant (I := fun s => ∃ d, SoundOn options d s) ?_ ?_
  · rintro s ⟨d, dir, hrest, hrestart⟩
    exact ⟨d, (hrest.kept.soundOn hrestart).1⟩
  · rintro s t ⟨d, hs⟩ hstep
    exact hs.step hstep

/-! ### Crash atomicity -/

theorem Server.pump_node (s : Server) : s.pump.node = s.settled.node := by
  rw [Server.pump]
  split
  · rw [Server.enterConfigurationLocked]
    split <;> rfl
  · rfl

/-- A server in the middle of a handover: identity and registry are in different configurations. -/
def Server.Disagrees (s : Server) : Prop :=
  ∃ d, s.node.decidedRegistry = some d ∧ s.node.identity.configurationId ≠ d.configurationId

/-- A server that sends no envelope and steps none, on arrival or once its payload is there. -/
structure Server.Silent (s : Server) : Prop where
  sends : s.sendsEnvelopes = false
  steps : ∀ configuration, s.stepsEnvelope configuration = false
  held : s.held = 0

theorem SoundOn.silent (hs : SoundOn options d s) (h : s.Disagrees) : s.Silent := by
  obtain ⟨d', hregistry, hne⟩ := h
  obtain rfl := Option.some.inj (hs.live.registry.symm.trans hregistry)
  obtain ⟨htransport, hheld⟩ := hs.transport hne
  have hgate : decide (s.node.identity.configurationId = s.transportConfigurationId) = false := by
    rw [htransport]
    exact decide_eq_false hne
  refine ⟨hgate, fun configuration => ?_, hheld⟩
  rw [Server.stepsEnvelope, hgate, Bool.and_false, Bool.false_and]

/-- Opening the directory and pumping ends in the configuration of `next`. -/
def Recovers (options : Host.OpenOptions) (next : Decided) (dir : DataDirectory) : Prop :=
  ∀ pendingStop, (∀ sign ∈ pendingStop, Proposed sign) →
    ∃ node, Host.openNode options pendingStop (Host.booted dir) = .ok () node ∧
      (∃ node', Host.settle node = .ok () node' ∧ HandedTo next node') ∧
      ∀ fallback t, Server.start node fallback = .ok t → HandedTo next t.pump.node

theorem OnTheWay.sameButRecord {parsed : StopMetadata} {dir' : DataDirectory}
    (h : OnTheWay options next sign slot parsed dir) (hsame : SameButRecord dir dir') :
    OnTheWay options next sign slot parsed dir' := by
  obtain ⟨d, hkept, hleads, hstop, hor⟩ := h
  have hkept' := hkept.sameButRecord hsame
  obtain ⟨pending, -, rfl⟩ := hsame
  exact ⟨d, hkept', hleads, hstop, hor⟩

/-- A server on the way pumps to the end of it. -/
theorem SoundOn.pump_handedTo {parsed : StopMetadata} (hs : SoundOn options d s)
    (hnext : LeadsTo options d next sign parsed) (hstays : Survives options sign.members)
    (hor : s.node.isReconfigured = some (sign, slot) ∨ s.node.isReconfigured = none ∧ d = next) :
    HandedTo next s.pump.node := by
  rw [Server.pump_node]
  rcases hor with hstop | ⟨hnone, rfl⟩
  · obtain ⟨node, -, hsettled, hfinished⟩ := hs.settled_of_survives hstop hstays hnext
    rw [hsettled]
    exact hfinished.handed
  · have hsettles := hs.settles
    generalize s.settled = t at hsettles ⊢
    cases hsettles with
    | idle _ => exact hs.withTrail.live.handedTo (hs.live.identity_of_none hnone)
    | removed hstop _ =>
      rw [hnone] at hstop
      cases hstop
    | handed hstop _ _ _ =>
      rw [hnone] at hstop
      cases hstop

theorem OnTheWay.recovers {parsed : StopMetadata} (h : OnTheWay options next sign slot parsed dir)
    (hstays : Survives options sign.members) : Recovers options next dir := by
  intro pendingStop hproposed
  have hway := h
  obtain ⟨d, hkept, hleads, hstop, hor⟩ := h
  have hwp := hkept.wp_openNode pendingStop
  obtain ⟨_, node, hopen, hlive, hsame, hpath, -⟩ := eq_ok_of_wp (wp_mono hwp (fun _ _ hpost => hpost)
    fun _ _ herror => by
      obtain ⟨sign', hsign', hunread⟩ := herror
      obtain ⟨parsed', hparsed'⟩ := (hproposed sign' hsign').readable
      exact hunread parsed' hparsed')
  have hdir : node.directory.stop = some (sign, slot) ∧
      node.directory.identity.configurationId = dir.identity.configurationId := by
    obtain ⟨pending, -, hdir⟩ := hsame
    rw [hdir]
    exact ⟨hstop, rfl⟩
  have hreported : node.isReconfigured = some (sign, slot) ∨
      node.isReconfigured = none ∧ d = next := by
    rcases hor with habove | ⟨rfl, hconf⟩
    · exact .inl (hlive.isReconfigured_eq.2 ⟨hdir.1, hdir.2 ▸ habove⟩)
    · refine .inr ⟨?_, rfl⟩
      rw [Host.isReconfigured, hdir.1, hlive.core, hlive.identity, hdir.2, hconf, hleads.configuration,
        Option.filter_some]
      simp
  refine ⟨node, hopen, ?_, fun fallback t hstart => ?_⟩
  · rcases hreported with hsome | ⟨hnone, rfl⟩
    · obtain ⟨_, node', hrun, hfinished⟩ := eq_ok_of_wp (hlive.wp_settle hleads hsome hstays
        fun dir' hmem => hway.sameButRecord (hpath dir' hmem))
      exact ⟨node', hrun, hfinished.handed⟩
    · have hwp' : wp Host.settle (fun _ h' => h' = node) (fun _ _ => False) node := by
        rw [Host.settle, wp_bind, wp_get, wp_ite, hlive.pending, hnone]
        exact ⟨fun hno => absurd hno Bool.false_ne_true, fun _ => rfl⟩
      obtain ⟨_, node', hrun, rfl⟩ := eq_ok_of_wp hwp'
      exact ⟨node', hrun, hlive.handedTo (hlive.identity_of_none hnone)⟩
  · have hrestart : Restarts options dir t := ⟨pendingStop, fallback, node, hproposed, hopen, hstart⟩
    have hsound := (hkept.soundOn hrestart).1
    have hnode : t.node = node := by
      rw [Server.start] at hstart
      cases hgeneration : buildMemberGeneration node.decidedRegistry node.identity.configurationId
          fallback with
      | error e =>
        rw [hgeneration] at hstart
        cases hstart
      | ok generation =>
        rw [hgeneration] at hstart
        cases hstart
        rfl
    exact hsound.pump_handedTo hleads hstays (hnode ▸ hreported)

/-- The three files a handover advances. -/
structure SameFiles (dir dir' : DataDirectory) : Prop where
  blobs : dir'.blobs = dir.blobs
  pointer : dir'.pointer = dir.pointer
  identity : dir'.identity = dir.identity

theorem SameFiles.trans {dir₁ dir₂ dir₃ : DataDirectory} (h : SameFiles dir₁ dir₂)
    (h' : SameFiles dir₂ dir₃) : SameFiles dir₁ dir₃ :=
  ⟨h'.blobs.trans h.blobs, h'.pointer.trans h.pointer, h'.identity.trans h.identity⟩

/-- A removed voter, with the stop sign that removed it. -/
structure SealedBy (options : Host.OpenOptions) (d : Decided) (sign : StopSign) (slot : ℕ)
    (before : DataDirectory) (s : Server) : Prop where
  sound : SoundOn options d s
  stop : s.node.isReconfigured = some (sign, slot)
  files : SameFiles before s.node.directory

section Sealed

variable {before : DataDirectory}

theorem SealedBy.settled (hs : SealedBy options d sign slot before s)
    (hgone : ¬Survives options sign.members) : s.settled.node = { s.node with trail := [] } := by
  have hsettles := hs.sound.settles
  generalize s.settled = t at hsettles ⊢
  cases hsettles with
  | idle _ => rfl
  | removed _ _ => rfl
  | handed hstop hstays _ _ =>
    obtain ⟨rfl, rfl⟩ := Prod.mk.inj (Option.some.inj (hs.stop.symm.trans hstop))
    exact absurd hstays hgone

/-- Wherever a removed voter crashes, the record at most has changed. -/
theorem SealedBy.crashPoint (hs : SealedBy options d sign slot before s)
    (hgone : ¬Survives options sign.members) (h : CrashPoint s dir) :
    ∃ pending, dir = { s.node.directory with pending := pending } := by
  cases h with
  | between => exact ⟨_, rfl⟩
  | pumping hmem =>
    rw [hs.settled hgone] at hmem
    exact absurd hmem List.not_mem_nil
  | requesting hmem =>
    have hlive := hs.sound.withTrail.live
    rcases (requested_replaceVoterLocked hlive.registry _ _ _).trail dir hmem with hno | ⟨-, phase, rfl⟩
    · exact absurd hno List.not_mem_nil
    · exact ⟨_, rfl⟩

theorem Server.node_of_rebuildTransport {fallback : List PeerAddress}
    (h : s.rebuildTransport fallback = .ok t) : t.node = s.node := by
  unfold Server.rebuildTransport at h
  split at h
  · cases h
    rfl
  · split at h
    · cases h
      rfl
    · cases hgeneration : buildMemberGeneration s.node.decidedRegistry s.node.identity.configurationId
          fallback with
      | error e =>
        rw [hgeneration] at h
        cases h
      | ok generation =>
        rw [hgeneration] at h
        cases h
        rfl

theorem Server.onEnvelopeFrame_node (s : Server) (configuration : ℕ) (missing : Bool) :
    (s.onEnvelopeFrame configuration missing).node = s.node := by
  rw [Server.onEnvelopeFrame]
  split <;> rfl

theorem SealedBy.step (hs : SealedBy options d sign slot before s)
    (hgone : ¬Survives options sign.members) (h : MemberStep options pumps crashes s t) :
    SealedBy options d sign slot before t := by
  obtain ⟨hsign, habove⟩ := hs.sound.live.isReconfigured_eq.1 hs.stop
  have hkeep : ∀ d', SoundOn options d' t → t.node.decidedRegistry = s.node.decidedRegistry →
      t.node.isReconfigured = s.node.isReconfigured →
      SameFiles s.node.directory t.node.directory → SealedBy options d sign slot before t := by
    intro d' hsound hregistry hreported hfiles
    obtain rfl : d' = d := by
      have hsame := hsound.live.registry.symm.trans (hregistry.trans hs.sound.live.registry)
      exact Option.some.inj hsame
    exact ⟨hsound, hreported.trans hs.stop, hs.files.trans hfiles⟩
  obtain ⟨d', hsound⟩ := hs.sound.step h
  cases h with
  | decide hnone =>
    rw [hs.stop] at hnone
    cases hnone
  | stop hnone _ _ _ =>
    rw [hs.stop] at hnone
    cases hnone
  | elect leads pendingStop => exact hkeep d' hsound rfl rfl ⟨rfl, rfl, rfl⟩
  | anchor slot => exact hkeep d' hsound rfl rfl ⟨rfl, rfl, rfl⟩
  | request q busy proposal =>
    have hlive := hs.sound.withTrail.live
    have hrequested := requested_replaceVoterLocked hlive.registry q busy proposal
    obtain ⟨-, hsame⟩ := hlive.requested hrequested
    refine hkeep d' hsound ?_ hsame ?_
    · rw [Server.requested, hrequested.rest]
    · rcases hrequested.directory with hdir | ⟨-, phase, hdir⟩
      · rw [Server.requested, hdir]
        exact ⟨rfl, rfl, rfl⟩
      · rw [Server.requested, hdir]
        exact ⟨rfl, rfl, rfl⟩
  | pump _ =>
    have hnode : s.pump.node = { s.node with trail := [] } := by
      rw [Server.pump_node, hs.settled hgone]
    refine hkeep d' hsound ?_ ?_ ?_
    · rw [hnode]
    · rw [hnode]
      rfl
    · rw [hnode]
      exact ⟨rfl, rfl, rfl⟩
  | rebuild hrebuild =>
    have hnode := Server.node_of_rebuildTransport hrebuild
    refine hkeep d' hsound ?_ ?_ ?_
    · rw [hnode]
    · rw [hnode]
    · rw [hnode]
      exact ⟨rfl, rfl, rfl⟩
  | frame configuration missing =>
    have hnode := s.onEnvelopeFrame_node configuration missing
    refine hkeep d' hsound ?_ ?_ ?_
    · rw [hnode]
    · rw [hnode]
    · rw [hnode]
      exact ⟨rfl, rfl, rfl⟩
  | payload count => exact hkeep d' hsound rfl rfl ⟨rfl, rfl, rfl⟩
  | restart hpoint _ hrestart =>
    obtain ⟨pending, rfl⟩ := hs.crashPoint hgone hpoint
    obtain ⟨hsound', ⟨pending', -, hdir⟩, -⟩ := (hs.sound.live.kept.withPending pending).soundOn hrestart
    refine ⟨hsound', hsound'.live.isReconfigured_eq.2 ?_, hs.files.trans ?_⟩
    · rw [hdir]
      exact ⟨hsign, habove⟩
    · rw [hdir]
      exact ⟨rfl, rfl, rfl⟩

end Sealed

/-- The membership runs of a node, with no condition on its pumps and crashes. -/
abbrev MemberRun (options : Host.OpenOptions) : Server → Server → Prop :=
  MemberStep options (fun _ => True) fun _ _ => True

/-- **A membership handover is crash-atomic.** In every server a run comes to: a survivor's pump hands
over to a next registry, and so do opening and pumping after a crash before it or at any point inside it;
a removed voter advances none of the three files, however the run goes on; and while identity and registry
disagree no envelope is sent or stepped. -/
theorem handover_crash_atomic (h : Reachable (StartsAtRest options) (MemberRun options) s) :
    (∀ sign slot, s.node.isReconfigured = some (sign, slot) → Survives options sign.members →
      ∃ next, HandedTo next s.pump.node ∧ ∀ dir, dir = s.node.directory ∨ dir ∈ s.pump.node.trail →
        Recovers options next dir) ∧
    (∀ sign slot, s.node.isReconfigured = some (sign, slot) → ¬Survives options sign.members →
      ∀ t, Relation.ReflTransGen (MemberRun options) s t →
        SameFiles s.node.directory t.node.directory) ∧
    (s.Disagrees → s.Silent) := by
  obtain ⟨d, hs⟩ := soundOn_of_reachable h
  refine ⟨?_, ?_, hs.silent⟩
  · intro sign slot hstop hstays
    obtain ⟨next, parsed, hnext⟩ := hs.live.leadsTo hstop
    obtain ⟨hsign, habove⟩ := hs.live.isReconfigured_eq.1 hstop
    obtain ⟨node, -, hsettled, hfinished⟩ := hs.settled_of_survives hstop hstays hnext
    refine ⟨next, hs.pump_handedTo hnext hstays (.inl hstop), fun dir hdir => ?_⟩
    rcases hdir with rfl | hdir
    · have hway : OnTheWay options next sign slot parsed s.node.directory :=
        ⟨d, hs.live.kept, hnext, hsign, .inl habove⟩
      exact hway.recovers hstays
    · rw [Server.pump_node, hsettled] at hdir
      exact (hfinished.path dir hdir).recovers hstays
  · intro sign slot hstop hgone t hrun
    have hsealed : SealedBy options d sign slot s.node.directory t := by
      induction hrun with
      | refl => exact ⟨hs, hstop, rfl, rfl, rfl⟩
      | tail _ hstep ih => exact ih.step hgone hstep
    exact hsealed.files

end Sound

/-! ### A run of one node -/

section Sample

open Decided

/-- The first voter of the small cluster. -/
def sampleOptions : Host.OpenOptions := ⟨1, .dataVoter, [1, 2, 3], some 7, none⟩

def sampleDirectory : DataDirectory where
  blobs := Function.update (fun _ => none) 1 (some sampleRegistry)
  pointer := some 1
  identity := ⟨7, 1, 1⟩
  role := .dataVoter
  join := none
  pending := none
  stop := none
  decidedThrough := 0
  anchorSlot := 0

theorem sampleDirectory_atRest : AtRest sampleOptions sampleRegistry sampleDirectory := by
  refine ⟨rfl, ?_, by decide, rfl, rfl, rfl, rfl, ?_, rfl, ?_, ?_⟩
  · show Function.update (fun _ => none) 1 (some sampleRegistry) 1 = some sampleRegistry
    exact Function.update_self _ _ _
  · exact ⟨⟨1, .dataVoter, asciiBytes "a:1"⟩, List.mem_cons_self, rfl, rfl⟩
  · intro hno
    exact absurd hno (by decide)
  · intro sign slot hno
    cases hno

theorem exists_proposes {q : ReplacementRequest} (hfresh : sampleRegistry.validateRequest q = .ok .fresh) :
    ∃ sign, Proposes sampleRegistry q (sampleRegistry.replaced q (joining q)) sign := by
  obtain ⟨text, hrender, -⟩ := rebuilds_of_fresh sampleRegistry_valid hfresh
  exact ⟨⟨_, _, text⟩, validate_eq_ok.2 sampleRegistry_valid, hfresh,
    (successor_eq_ok sampleRegistry_valid).2 ⟨hfresh, rfl⟩, rfl, rfl, hrender⟩

theorem exists_sampleServer : ∃ s, Restarts sampleOptions sampleDirectory s := by
  have hkept := sampleDirectory_atRest.kept
  obtain ⟨_, node, hopen, hlive, -⟩ := eq_ok_of_wp (wp_mono (hkept.wp_openNode none)
    (fun _ _ hpost => hpost) fun _ _ herror => by
      obtain ⟨sign, hno, -⟩ := herror
      cases hno)
  have haddressable : Addressable (sampleRegistry.nodes.map NodeRecord.endpoint) :=
    addressable_of_parse [([97], 1), ([98], 1), ([99], 1)] (by decide) (by decide)
  obtain ⟨generation, hgeneration, -⟩ :=
    (@startable_iff _ node.identity.configurationId []).2 haddressable
  refine ⟨⟨node, generation, generation.configurationId, false, 0⟩, none, [], node, ?_, hopen, ?_⟩
  · intro sign hno
    cases hno
  · rw [Server.start, hlive.registry, hgeneration]
    rfl

variable {pumps : Host → Prop} {crashes : Server → DataDirectory → Prop}

/-- A stop sign decided on a sample server is reported. -/
theorem SoundOn.stops {s : Server} {q : ReplacementRequest} {sign : StopSign}
    (hs : SoundOn sampleOptions sampleRegistry s) (hnone : s.node.isReconfigured = none)
    (hproposes : Proposes sampleRegistry q (sampleRegistry.replaced q (joining q)) sign) :
    MemberStep sampleOptions pumps crashes s { s with node := s.node.decidesStop sign } ∧
      (s.node.decidesStop sign).isReconfigured =
        some (sign, s.node.directory.decidedThrough + 1) := by
  refine ⟨.stop hnone hs.live.registry .refl hproposes, ?_⟩
  have hlive := hs.live.decidesStop hnone .refl hproposes
  have hsome : (s.node.decidesStop sign).isReconfigured.isSome = true := hlive.pending.symm
  obtain ⟨stop, hstop⟩ := Option.isSome_iff_exists.1 hsome
  obtain ⟨sign', slot'⟩ := stop
  have hdir : (s.node.decidesStop sign).directory.stop =
      some (sign, s.node.directory.decidedThrough + 1) := rfl
  have hsame := (hlive.isReconfigured_eq.1 hstop).1
  rw [hdir] at hsame
  rw [hstop, hsame]

theorem sample_survives {q : ReplacementRequest} {sign : StopSign}
    (hproposes : Proposes sampleRegistry q (sampleRegistry.replaced q (joining q)) sign)
    (hother : 1 ≠ q.oldNodeId) : Survives sampleOptions sign.members := by
  intro _
  have hfresh := fresh_of_validateRequest sampleRegistry_valid hproposes.fresh
  have hmem : (⟨1, .dataVoter, asciiBytes "a:1"⟩ : NodeRecord) ∈ sampleRegistry.nodes :=
    List.mem_cons_self
  rw [hproposes.members, voterIds]
  exact List.mem_map.2 ⟨_, List.mem_filter.2
    ⟨mem_nodes_replaced sampleRegistry_valid hfresh hmem hother, rfl⟩, rfl⟩

theorem sampleServer_sound {s : Server} (h : Restarts sampleOptions sampleDirectory s) :
    SoundOn sampleOptions sampleRegistry s ∧ s.node.isReconfigured = none ∧
      s.node.directory.pending = none := by
  obtain ⟨hs, ⟨pending, hrecords, hdir⟩, -⟩ := sampleDirectory_atRest.kept.soundOn h
  refine ⟨hs, ?_, ?_⟩
  · rw [Host.isReconfigured, hdir]
    rfl
  · rw [hdir]
    cases hpending : pending with
    | none => rfl
    | some r =>
      obtain ⟨r', hno, -⟩ := hrecords r hpending
      cases hno

/-- The crash falls between the pointer and the identity. -/
theorem handover_crash_atomic_sample : ∃ s next sign slot,
    Reachable (StartsAtRest sampleOptions) (MemberRun sampleOptions) s ∧
      s.node.isReconfigured = some (sign, slot) ∧ Survives sampleOptions sign.members ∧
      HandedTo next s.pump.node ∧ ∃ dir ∈ s.pump.node.trail, dir.pointer = some next.configurationId ∧
        dir.identity = s.node.directory.identity ∧ Recovers sampleOptions next dir := by
  obtain ⟨s, hrestart⟩ := exists_sampleServer
  obtain ⟨hs, hnone, -⟩ := sampleServer_sound hrestart
  obtain ⟨sign, hproposes⟩ := exists_proposes
    (show sampleRegistry.validateRequest sampleRequest = .ok .fresh by decide)
  obtain ⟨hstep, hstop⟩ := hs.stops hnone hproposes
  have hreach : Reachable (StartsAtRest sampleOptions) (MemberRun sampleOptions)
      { s with node := s.node.decidesStop sign } :=
    .step (.start ⟨_, _, sampleDirectory_atRest, hrestart⟩) hstep
  have hstays : Survives sampleOptions sign.members := sample_survives hproposes (by decide)
  obtain ⟨next, hhanded, hrecovers⟩ := (handover_crash_atomic hreach).1 _ _ hstop hstays
  obtain ⟨d, hs⟩ := soundOn_of_reachable hreach
  obtain ⟨next', parsed, hnext⟩ := hs.live.leadsTo hstop
  obtain ⟨node, -, hsettled, hfinished⟩ := hs.settled_of_survives hstop hstays hnext
  have hnode : ({ s with node := s.node.decidesStop sign } : Server).pump.node = node := by
    rw [Server.pump_node, hsettled]
  obtain rfl : next = next' :=
    Option.some.inj (hhanded.registry.symm.trans (hnode ▸ hfinished.handed.registry))
  have hpassed := hfinished.passed
  rw [← hnode] at hpassed
  exact ⟨_, next, _, _, hreach, hstop, hstays, hhanded, _, hpassed, rfl, rfl, hrecovers _ (.inr hpassed)⟩

end Sample

end Zaxonlite
