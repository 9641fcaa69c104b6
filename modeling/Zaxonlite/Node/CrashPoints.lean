import Zaxonlite.Node.Membership

/-!
# The crash points of a handover

A node is in one configuration by its identity file and in one by its registry pointer. The handover
moves the pointer first, so a crash in between leaves the identity behind, with the stop sign still
reported. Every directory on the way opens, to a node that knows which registry it is led to.
-/

namespace Zaxonlite

open Program

/-! ### Executing host operations -/

section Rules

variable {α : Type} {Q : α → Host → Prop} {E : MemberError → Host → Prop} {h : Host}

@[simp] theorem wp_save (f : DataDirectory → DataDirectory) (Q : Unit → Host → Prop)
    (E : MemberError → Host → Prop) (h : Host) :
    wp (save f) Q E h ↔ Q () { h with directory := f h.directory, trail := h.trail ++ [f h.directory] } :=
  Iff.rfl

@[simp] theorem wp_setHost (f : Host → Host) (Q : Unit → Host → Prop) (E : MemberError → Host → Prop)
    (h : Host) : wp (setHost f) Q E h ↔ Q () (f h) :=
  Iff.rfl

@[simp] theorem wp_failIf (c : Bool) (e : MemberError) (Q : Unit → Host → Prop)
    (E : MemberError → Host → Prop) (h : Host) :
    wp (failIf c e) Q E h ↔ (c = true → E e h) ∧ (c = false → Q () h) := by
  rw [failIf, wp_ite, wp_throw, wp_pure, Bool.not_eq_true]

theorem wp_ofRegistry_ok {x : Except RegistryError α} {a : α} (hx : x = .ok a) :
    wp (ofRegistry x) Q E h ↔ Q a h := by
  rw [hx]
  rfl

theorem wp_ofRegistry_error {x : Except RegistryError α} {e : RegistryError} (hx : x = .error e) :
    wp (ofRegistry x) Q E h ↔ E (.registry e) h := by
  rw [hx]
  rfl

theorem wp_ofMember_ok {x : Except MemberError α} {a : α} (hx : x = .ok a) :
    wp (Host.ofMember x) Q E h ↔ Q a h := by
  rw [hx]
  rfl

end Rules

/-! ### Registries a stop sign leads to -/

/-- A node's own record. -/
def Registered (options : Host.OpenOptions) (d : Decided) : Prop :=
  ∃ r ∈ d.nodes, r.id = options.nodeId ∧ r.role = options.role

/-- The node is no voter that `members` leaves out. -/
def Survives (options : Host.OpenOptions) (members : List ℕ) : Prop :=
  options.role.capabilities.votes = true → options.nodeId ∈ members

theorem contains_voterIds {options : Host.OpenOptions} {d : Decided} (hvalid : Decided.Valid d)
    (hself : Registered options d) :
    d.voterIds.contains options.nodeId = options.role.capabilities.votes := by
  obtain ⟨r, hr, hid, hrole⟩ := hself
  rw [Bool.eq_iff_iff, List.contains_iff_mem, Decided.voterIds, List.mem_map]
  constructor
  · rintro ⟨r', hr', hid'⟩
    obtain ⟨hmem, hvotes⟩ := List.mem_filter.1 hr'
    have hnodup : (d.nodes.map NodeRecord.id).Nodup :=
      List.pairwise_map.2 (hvalid.nodes.ascending.imp fun hlt => hlt.ne)
    have hsame : r' = r := List.inj_on_of_nodup_map hnodup hmem hr (hid'.trans hid.symm)
    rw [← hrole, ← hsame]
    exact hvotes
  · intro hvotes
    exact ⟨r, List.mem_filter.2 ⟨hr, by rw [hrole]; exact hvotes⟩, hid⟩

/-- The stop sign of a leader that holds `e` for a fresh request. -/
structure Proposes (e : Decided) (q : ReplacementRequest) (next : Decided) (sign : StopSign) : Prop where
  valid : e.validate = .ok ()
  fresh : e.validateRequest q = .ok .fresh
  successor : e.successor q = .ok next
  configuration : sign.configurationId = next.configurationId
  members : sign.members = next.voterIds
  metadata : renderStopMetadata next.digest q = some sign.metadata

/-- What a node that holds `d` makes of a stop sign: the registry `next`, also when it holds that already.
-/
structure LeadsTo (options : Host.OpenOptions) (d next : Decided) (sign : StopSign)
    (parsed : StopMetadata) : Prop where
  parse : parseStopMetadata sign.metadata = .ok parsed
  rebuild : d.reconstructNextRegistry parsed sign.configurationId = .ok next
  again : next.reconstructNextRegistry parsed sign.configurationId = .ok next
  configuration : next.configurationId = sign.configurationId
  members : sign.members = next.voterIds
  valid : Decided.Valid next
  database : next.databaseId = d.databaseId
  stays : Survives options next.voterIds → Registered options next

section LeadsTo

variable {options : Host.OpenOptions} {d e next : Decided} {q : ReplacementRequest} {sign : StopSign}
  {parsed : StopMetadata}

theorem LeadsTo.held (h : LeadsTo options d next sign parsed) : LeadsTo options next next sign parsed :=
  ⟨h.parse, h.again, h.again, h.configuration, h.members, h.valid, rfl, h.stays⟩

theorem LeadsTo.eq_of_configuration (h : LeadsTo options d next sign parsed)
    (hconf : next.configurationId = d.configurationId) : next = d := by
  have hrebuild := h.rebuild
  rw [Decided.reconstructNextRegistry, if_pos (hconf.symm.trans h.configuration)] at hrebuild
  split at hrebuild
  · exact (Except.ok.inj hrebuild).symm
  · cases hrebuild

theorem nodes_of_rollsOver (h : Relation.ReflTransGen Decided.RollsOver d e) :
    e.nodes = d.nodes ∧ e.databaseId = d.databaseId := by
  induction h with
  | refl => exact ⟨rfl, rfl⟩
  | tail _ hstep ih =>
    rw [hstep.eq]
    exact ih

theorem mem_nodes_replaced {r : NodeRecord} (hvalid : Decided.Valid e) (hfresh : Decided.Fresh e q)
    (hr : r ∈ e.nodes) (hne : r.id ≠ q.oldNodeId) : r ∈ (e.replaced q (Decided.joining q)).nodes := by
  obtain ⟨front, old, back, hsplit, hold, -, -, hperm⟩ := hfresh.exchange hvalid
  refine hperm.mem_iff.2 (List.mem_cons_of_mem _ ?_)
  rw [hsplit] at hr
  rcases List.mem_append.1 hr with hr | hr
  · exact List.mem_append_left _ hr
  · rcases List.mem_cons.1 hr with rfl | hr
    · exact absurd hold hne
    · exact List.mem_append_right _ hr

theorem registered_successor (hvalid : Decided.Valid e) (hfresh : Decided.Fresh e q)
    (hself : Registered options e)
    (hstays : Survives options (e.replaced q (Decided.joining q)).voterIds) :
    Registered options (e.replaced q (Decided.joining q)) := by
  obtain ⟨r, hr, hid, hrole⟩ := hself
  obtain ⟨front, old, back, hsplit, hold, holdRole, hothers, hperm⟩ := hfresh.exchange hvalid
  have hne : r.id ≠ q.oldNodeId := by
    intro heq
    have hvotes : options.role.capabilities.votes = true := by
      have hsame : r = old := by
        have hnodup : (e.nodes.map NodeRecord.id).Nodup :=
          List.pairwise_map.2 (hvalid.nodes.ascending.imp fun hlt => hlt.ne)
        refine List.inj_on_of_nodup_map hnodup hr ?_ (heq.trans hold.symm)
        rw [hsplit]
        exact List.mem_append_right _ List.mem_cons_self
      rw [← hrole, hsame, holdRole]
      rfl
    have hmember := hstays hvotes
    rw [Decided.voterIds, List.mem_map] at hmember
    obtain ⟨r', hr', hid'⟩ := hmember
    have hmem := hperm.mem_iff.1 (List.mem_filter.1 hr').1
    rcases List.mem_cons.1 hmem with rfl | hmem
    · have hfence := hvalid.nodes.fenced r hr
      have hnew := hfresh.unallocated
      have hjoin : (Decided.joining q).id = q.newNodeId := rfl
      omega
    · exact (hothers r' hmem).2 (hid'.trans (hid.symm.trans heq))
  exact ⟨r, mem_nodes_replaced hvalid hfresh hr hne, hid, hrole⟩

/-- **A decided replacement leads every node that holds the proposer's registry, or lags behind it by
rollovers, to the proposer's next registry.** -/
theorem Proposes.leadsTo (h : Proposes e q next sign) (hlag : Relation.ReflTransGen Decided.RollsOver d e)
    (hself : Registered options d) :
    ∃ parsed, LeadsTo options d next sign parsed ∧ parsed.seed = some q.seed ∧
      d.configurationId < next.configurationId := by
  have hvalid := Decided.validate_eq_ok.1 h.valid
  have hfresh := Decided.fresh_of_validateRequest hvalid h.fresh
  obtain ⟨text, hrender, hparse, hlagging, hagain⟩ := Decided.rebuilds_of_fresh hvalid h.fresh
  obtain ⟨-, rfl⟩ := (Decided.successor_eq_ok hvalid).1 h.successor
  obtain rfl : text = sign.metadata := Option.some.inj (hrender.symm.trans h.metadata)
  have hconf : (e.replaced q (Decided.joining q)).configurationId = e.configurationId + 1 := rfl
  obtain ⟨hnodes, hdatabase⟩ := nodes_of_rollsOver hlag
  have hle := (Decided.fastForward_of_rollsOver hlag).1
  have hsign : sign.configurationId = e.configurationId + 1 := h.configuration.trans hconf
  refine ⟨_, ⟨hparse, ?_, ?_, h.configuration.symm, h.members, hfresh.valid hvalid, hdatabase, ?_⟩,
    rfl, by omega⟩
  · rw [hsign]
    exact hlagging d hlag
  · rw [hsign]
    exact hagain
  · intro hstays
    have hself' : Registered options e := by
      obtain ⟨r, hr, hrest⟩ := hself
      exact ⟨r, hnodes ▸ hr, hrest⟩
    exact registered_successor hvalid hfresh hself' hstays

end LeadsTo

/-! ### Directories a node opens from -/

/-- What every crash point keeps: the pointer names a stored, valid registry the node is in; the identity
is in its configuration, or behind it with the stop sign that names it still decided; and a stop sign
above the identity leads on from it. -/
structure Kept (options : Host.OpenOptions) (d : Decided) (dir : DataDirectory) : Prop where
  pointer : dir.pointer = some d.configurationId
  blob : dir.blobs d.configurationId = some d
  valid : Decided.Valid d
  database : d.databaseId = dir.identity.databaseId
  nodeId : dir.identity.nodeId = options.nodeId
  role : dir.role = options.role
  self : Registered options d
  join : dir.join = none
  started : 1 < dir.identity.configurationId → 0 < dir.decidedThrough
  behind : dir.identity.configurationId ≤ d.configurationId
  stopped : ∀ sign slot, dir.stop = some (sign, slot) →
    dir.identity.configurationId < sign.configurationId →
      slot = dir.decidedThrough ∧ 0 < slot ∧ ∃ next parsed, LeadsTo options d next sign parsed
  interrupted : dir.identity.configurationId < d.configurationId →
    ∃ sign slot, dir.stop = some (sign, slot) ∧ sign.configurationId = d.configurationId ∧
      Survives options sign.members

section Kept

variable {options : Host.OpenOptions} {d next : Decided} {dir : DataDirectory} {sign : StopSign}
  {slot : ℕ} {parsed : StopMetadata}

theorem Kept.withPending (h : Kept options d dir) (pending : Option PendingOperation) :
    Kept options d { dir with pending := pending } :=
  ⟨h.pointer, h.blob, h.valid, h.database, h.nodeId, h.role, h.self, h.join, h.started, h.behind,
    h.stopped, h.interrupted⟩

theorem Kept.withAnchor (h : Kept options d dir) (slot : ℕ) :
    Kept options d { dir with anchorSlot := slot } :=
  ⟨h.pointer, h.blob, h.valid, h.database, h.nodeId, h.role, h.self, h.join, h.started, h.behind,
    h.stopped, h.interrupted⟩

theorem Kept.storeBlob (h : Kept options d dir) (hnext : LeadsTo options d next sign parsed) :
    Kept options d { dir with blobs := Function.update dir.blobs next.configurationId (some next) } := by
  refine ⟨h.pointer, ?_, h.valid, h.database, h.nodeId, h.role, h.self, h.join, h.started, h.behind,
    h.stopped, h.interrupted⟩
  by_cases hconf : next.configurationId = d.configurationId
  · rw [hnext.eq_of_configuration hconf]
    exact Function.update_self _ _ _
  · exact (Function.update_of_ne (fun heq => hconf heq.symm) _ _).trans h.blob

/-- The pointer moves to the next registry; the stop sign still leads there. -/
theorem Kept.activatePointer (h : Kept options d dir) (hnext : LeadsTo options d next sign parsed)
    (hstop : dir.stop = some (sign, slot))
    (habove : dir.identity.configurationId < sign.configurationId)
    (hstays : Survives options sign.members) :
    Kept options next
      { dir with
        blobs := Function.update dir.blobs next.configurationId (some next)
        pointer := some next.configurationId } := by
  obtain ⟨hslot, hpos, -⟩ := h.stopped sign slot hstop habove
  refine ⟨rfl, Function.update_self _ _ _, hnext.valid, hnext.database.trans h.database, h.nodeId, h.role,
    hnext.stays (hnext.members ▸ hstays), h.join, h.started, ?_, ?_, ?_⟩
  · show dir.identity.configurationId ≤ next.configurationId
    rw [hnext.configuration]
    exact habove.le
  · intro sign' slot' hstop' _
    obtain ⟨rfl, rfl⟩ := Prod.mk.inj (Option.some.inj (hstop.symm.trans hstop'))
    exact ⟨hslot, hpos, next, parsed, hnext.held⟩
  · exact fun _ => ⟨sign, slot, hstop, hnext.configuration.symm, hstays⟩

/-- The identity takes the configuration of the registry. -/
theorem Kept.writeIdentity (h : Kept options d dir) (hpos : 0 < dir.decidedThrough)
    (hstop : ∀ sign slot, dir.stop = some (sign, slot) → sign.configurationId ≤ d.configurationId) :
    Kept options d
      { dir with identity := { dir.identity with configurationId := d.configurationId } } := by
  refine ⟨h.pointer, h.blob, h.valid, h.database, h.nodeId, h.role, h.self, h.join, fun _ => hpos, le_rfl,
    ?_, fun hlt => absurd hlt (lt_irrefl _)⟩
  intro sign slot hsign habove
  exact absurd (hstop sign slot hsign) (not_le.2 habove)

theorem Kept.loadRegistry (h : Kept options d dir) : dir.loadRegistry = .ok (some d) := by
  rw [DataDirectory.loadRegistry, h.pointer]
  dsimp only
  rw [h.blob]
  dsimp only
  rw [if_neg (not_not.2 rfl)]

end Kept

/-- A running node that is what its directory says. -/
structure Live (options : Host.OpenOptions) (d : Decided) (h : Host) : Prop where
  kept : Kept options d h.directory
  trail : ∀ dir ∈ h.trail, ∃ d', Kept options d' dir
  identity : h.identity = h.directory.identity
  role : h.role = options.role
  registry : h.decidedRegistry = some d
  join : h.joinDescriptor = none
  members : h.members = d.voterIds
  core : h.core.configurationId = h.identity.configurationId
  applied : h.appliedSlot = h.directory.decidedThrough
  pending : h.membershipChangePending = h.isReconfigured.isSome

section Live

variable {options : Host.OpenOptions} {d next : Decided} {h : Host} {sign : StopSign} {slot : ℕ}
  {parsed : StopMetadata}

/-- What a node reports is the stop sign of its directory, above its identity. -/
theorem Live.isReconfigured_eq (hlive : Live options d h) : h.isReconfigured = some (sign, slot) ↔
    h.directory.stop = some (sign, slot) ∧
      h.directory.identity.configurationId < sign.configurationId := by
  rw [Host.isReconfigured, hlive.core, hlive.identity]
  simp only [Option.filter_eq_some_iff, decide_eq_true_eq]

/-- A record under another phase. -/
def RecordsOf (before after : Option PendingOperation) : Prop :=
  ∀ r ∈ after, ∃ r' ∈ before, r.request = r'.request

/-- A directory that differs in the record at most, and there in its phase or its absence. -/
def SameButRecord (dir dir' : DataDirectory) : Prop :=
  ∃ pending, RecordsOf dir.pending pending ∧ dir' = { dir with pending := pending }

theorem SameButRecord.refl (dir : DataDirectory) : SameButRecord dir dir :=
  ⟨dir.pending, fun r hr => ⟨r, hr, rfl⟩, rfl⟩

structure Repaired (h h' : Host) : Prop where
  directory : SameButRecord h.directory h'.directory
  trail : ∀ dir ∈ h'.trail, SameButRecord h.directory dir
  rest : h' = { h with directory := h'.directory, trail := h'.trail }

/-- The core reports a stop sign whose text nobody wrote. -/
def Host.Misread (h : Host) : Prop :=
  ∃ sign ∈ h.core.pendingStop, ∀ parsed, parseStopMetadata sign.metadata ≠ .ok parsed

theorem wp_reconcilePendingOperation (htrail : h.trail = []) :
    wp Host.reconcilePendingOperation (fun _ => Repaired h) (fun _ _ => h.Misread) h := by
  have hsame : Repaired h h := by
    refine ⟨.refl _, fun dir hdir => ?_, rfl⟩
    rw [htrail] at hdir
    exact absurd hdir List.not_mem_nil
  have hsave : ∀ pending, RecordsOf h.directory.pending pending →
      wp (save fun dir => { dir with pending := pending }) (fun _ => Repaired h)
        (fun _ _ => h.Misread) h := by
    intro pending hrecords
    rw [wp_save]
    refine ⟨⟨pending, hrecords, rfl⟩, fun dir hdir => ?_, rfl⟩
    simp only [htrail, List.nil_append, List.mem_singleton] at hdir
    exact ⟨pending, hrecords, hdir⟩
  rw [Host.reconcilePendingOperation, wp_bind, wp_get]
  cases hpending : h.directory.pending with
  | none => exact hsame
  | some pending =>
    dsimp only
    rw [wp_ite]
    refine ⟨fun _ => hsame, fun _ => ?_⟩
    cases hstop : h.core.pendingStop with
    | none => exact hsame
    | some sign =>
      dsimp only
      rw [wp_bind]
      cases hparse : parseStopMetadata sign.metadata with
      | error e =>
        rw [wp_ofRegistry_error rfl]
        refine ⟨sign, hstop, fun parsed heq => ?_⟩
        rw [hparse] at heq
        cases heq
      | ok parsed =>
        rw [wp_ofRegistry_ok rfl]
        have hclear := hsave none fun r hr => by cases hr
        cases parsed.seed with
        | none => exact hclear
        | some seed =>
          dsimp only
          rw [wp_ite]
          refine ⟨fun _ => hclear, fun _ => hsave _ ?_⟩
          intro r hr
          obtain rfl := Option.some.inj hr
          exact ⟨pending, hpending, rfl⟩

theorem Repaired.isReconfigured_eq {h' : Host} (hrepaired : Repaired h h') :
    h'.isReconfigured = h.isReconfigured := by
  obtain ⟨pending, -, hdir⟩ := hrepaired.directory
  rw [hrepaired.rest, Host.isReconfigured, Host.isReconfigured, hdir]

theorem Kept.sameButRecord {dir dir' : DataDirectory} (hkept : Kept options d dir)
    (hsame : SameButRecord dir dir') : Kept options d dir' := by
  obtain ⟨pending, -, rfl⟩ := hsame
  exact hkept.withPending pending

theorem Live.repaired {h' : Host} (hlive : Live options d h) (hrepaired : Repaired h h') :
    Live options d h' := by
  have hrest := hrepaired.rest
  have hsame := hrepaired.isReconfigured_eq
  obtain ⟨pending, hrecords, hdir⟩ := hrepaired.directory
  refine ⟨hlive.kept.sameButRecord hrepaired.directory,
    fun dir hmem => ⟨d, hlive.kept.sameButRecord (hrepaired.trail dir hmem)⟩, ?_, ?_, ?_, ?_, ?_, ?_, ?_, ?_⟩
  · rw [hrest, hdir]
    exact hlive.identity
  · rw [hrest]
    exact hlive.role
  · rw [hrest]
    exact hlive.registry
  · rw [hrest]
    exact hlive.join
  · rw [hrest]
    exact hlive.members
  · rw [hrest]
    exact hlive.core
  · rw [hrest, hdir]
    exact hlive.applied
  · rw [hsame, ← hlive.pending, hrest]

/-- **A kept directory opens.** The node comes up with the registry the pointer names, and reports the stop
sign that is above its identity. -/
theorem Kept.wp_openNode {dir : DataDirectory} (hkept : Kept options d dir) (pendingStop : Option StopSign) :
    wp (Host.openNode options pendingStop)
      (fun _ h' => Live options d h' ∧ SameButRecord dir h'.directory ∧
        (∀ dir' ∈ h'.trail, SameButRecord dir dir') ∧ h'.fatalStorageError = false)
      (fun _ _ => ∃ sign ∈ pendingStop, ∀ parsed, parseStopMetadata sign.metadata ≠ .ok parsed)
      (Host.booted dir) := by
  have hself := contains_voterIds hkept.valid hkept.self
  have hslots : (options.role.capabilities.campaigns && options.role.capabilities.materializes &&
      decide (1 < dir.identity.configurationId) && true && dir.decidedThrough == 0) = false := by
    by_cases hone : 1 < dir.identity.configurationId
    · have hpos := hkept.started hone
      rw [beq_eq_false_iff_ne.2 hpos.ne', Bool.and_false]
    · rw [decide_eq_false hone, Bool.and_false, Bool.false_and, Bool.false_and]
  have hload : (Host.booted dir).directory.loadRegistry = .ok (some d) := hkept.loadRegistry
  rw [Host.openNode, wp_bind, wp_get, wp_bind, wp_ofMember_ok hload]
  simp only [wp_failIf, Host.checkIdentity, wp_bind, wp_get, Host.openRegistry, Host.booted, hkept.join,
    hkept.nodeId, hkept.role, hkept.database, hself, wp_pure, wp_setHost, Option.any_none, Option.any_some,
    Option.isSome_none, Option.isNone_none, ne_eq, not_true_eq_false, decide_false, bne_self_eq_false,
    Bool.false_and, Bool.and_false, reduceCtorEq, false_implies, true_and, forall_const, hslots]
  refine wp_mono (wp_reconcilePendingOperation rfl) (fun _ h' hrepaired => ?_) (fun _ _ herror => herror)
  refine ⟨Live.repaired ?_ hrepaired, hrepaired.directory, hrepaired.trail, ?_⟩
  · exact ⟨hkept, fun _ hno => absurd hno List.not_mem_nil, rfl, rfl, rfl, rfl, rfl, rfl, rfl, rfl⟩
  · rw [hrepaired.rest]

/-! ### Handing over -/

/-- The end of a handover, in memory and on disk. -/
structure HandedTo (next : Decided) (h : Host) : Prop where
  identity : h.identity.configurationId = next.configurationId
  registry : h.decidedRegistry = some next
  members : h.members = next.voterIds
  file : h.directory.identity.configurationId = next.configurationId
  loaded : h.directory.loadRegistry = .ok (some next)

theorem Live.handedTo (hlive : Live options next h)
    (hconf : h.directory.identity.configurationId = next.configurationId) : HandedTo next h :=
  ⟨by rw [hlive.identity, hconf], hlive.registry, hlive.members, hconf, hlive.kept.loadRegistry⟩

/-- The directory after each of the three writes. -/
def DataDirectory.afterBlob (dir : DataDirectory) (next : Decided) : DataDirectory :=
  { dir with blobs := Function.update dir.blobs next.configurationId (some next) }

def DataDirectory.afterPointer (dir : DataDirectory) (next : Decided) : DataDirectory :=
  { dir.afterBlob next with pointer := some next.configurationId }

def DataDirectory.afterIdentity (dir : DataDirectory) (next : Decided) : DataDirectory :=
  { dir.afterPointer next with
    identity := { dir.identity with configurationId := next.configurationId } }

/-- The record a handover leaves: one of another operation than the metadata names. -/
def leftover (pending : Option PendingOperation) (parsed : StopMetadata) : Option PendingOperation :=
  pending.filter fun r => parsed.seed.all fun seed => r.request.operationId ≠ seed.operationId

/-- Where an install ends, but for the record of the operation. -/
structure Installed (options : Host.OpenOptions) (before : DataDirectory) (next : Decided) (h : Host) :
    Prop where
  identity : h.identity = h.directory.identity
  role : h.role = options.role
  registry : h.decidedRegistry = some next
  join : h.joinDescriptor = none
  members : h.members = next.voterIds
  core : h.core.configurationId = next.configurationId
  applied : h.appliedSlot = before.decidedThrough
  directory : ∃ anchor pending, h.directory =
    { before.afterIdentity next with anchorSlot := anchor, pending := pending } ∧
      (pending = none ∨ pending = before.pending)

variable {before : DataDirectory} {P : DataDirectory → Prop}

/-- An install that keeps or drops the record. -/
structure Recorded (options : Host.OpenOptions) (before : DataDirectory) (next : Decided)
    (parsed : StopMetadata) (P : DataDirectory → Prop) (h : Host) : Prop where
  installed : Installed options before next h
  passed : before.afterPointer next ∈ h.trail
  trail : ∀ dir ∈ h.trail, P dir
  record : h.directory.pending = leftover before.pending parsed

/-- Only the record of the operation that was completed goes. -/
theorem wp_clearCompleted (hin : Installed options before next h)
    (hpassed : before.afterPointer next ∈ h.trail) (htrail : ∀ dir ∈ h.trail, P dir)
    (hpending : h.directory.pending = before.pending) (hclear : P { h.directory with pending := none }) :
    wp (Host.clearCompleted parsed) (fun _ => Recorded options before next parsed P) (fun _ _ => False)
      h := by
  obtain ⟨anchor, record, hdir, -⟩ := hin.directory
  rw [Host.clearCompleted, wp_bind, wp_get]
  cases hrecord : h.directory.pending with
  | none =>
    refine ⟨hin, hpassed, htrail, ?_⟩
    rw [leftover, ← hpending, hrecord]
    rfl
  | some pending =>
    have hkeep : (parsed.seed.all fun seed => pending.request.operationId ≠ seed.operationId) = true →
        Recorded options before next parsed P h := by
      intro hother
      refine ⟨hin, hpassed, htrail, ?_⟩
      rw [leftover, ← hpending, hrecord, Option.filter_some, if_pos hother]
    cases hseed : parsed.seed with
    | none => exact hkeep (by rw [hseed]; rfl)
    | some seed =>
      dsimp only
      rw [wp_ite]
      constructor
      · intro hsame
        rw [clearPendingOperation, wp_save]
        refine ⟨⟨hin.identity, hin.role, hin.registry, hin.join, hin.members, hin.core, hin.applied,
          anchor, none, ?_, .inl rfl⟩, List.mem_append_left _ hpassed, ?_, ?_⟩
        · show ({ h.directory with pending := none } : DataDirectory) = _
          rw [hdir]
        · intro dir hmem
          rcases List.mem_append.1 hmem with hmem | hmem
          · exact htrail dir hmem
          · rw [List.mem_singleton.1 hmem]
            exact hclear
        · rw [leftover, ← hpending, hrecord, hseed, Option.filter_some, Option.all_some,
            decide_eq_false (not_not.2 hsame), if_neg Bool.false_ne_true]
      · intro hne
        exact hkeep (by rw [hseed, Option.all_some, decide_eq_true hne])

/-- **A handover runs through.** Its crash points are the directory after the blob, after the pointer,
after the identity, and from there on with a new anchor or without the record. -/
theorem wp_install (hlive : Live options d h)
    (hvotes : next.voterIds.contains options.nodeId = options.role.capabilities.votes)
    (htrail : ∀ dir ∈ h.trail, P dir) (hblob : P (h.directory.afterBlob next))
    (hpointer : P (h.directory.afterPointer next))
    (hidentity : ∀ anchor, P { h.directory.afterIdentity next with anchorSlot := anchor })
    (hclear : ∀ anchor, P { h.directory.afterIdentity next with anchorSlot := anchor, pending := none }) :
    wp (Host.install next parsed)
      (fun _ h' => Recorded options h.directory next parsed P h' ∧ h'.membershipChangePending = false)
      (fun _ _ => False) h := by
  have hwritten : ({ h.directory.afterPointer next with
      identity := { h.identity with configurationId := next.configurationId } } : DataDirectory) =
      h.directory.afterIdentity next := by
    rw [hlive.identity]
    rfl
  have hcheck : (next.voterIds.contains h.identity.nodeId != h.role.capabilities.votes) = false := by
    rw [hlive.identity, hlive.kept.nodeId, hlive.role, hvotes, bne_self_eq_false]
  have hpath : ∀ dir ∈ h.trail ++ [h.directory.afterBlob next] ++ [h.directory.afterPointer next] ++
      [{ h.directory.afterPointer next with
        identity := { h.identity with configurationId := next.configurationId } }], P dir := by
    intro dir hmem
    simp only [List.mem_append, List.mem_singleton, hwritten] at hmem
    rcases hmem with ((hmem | rfl) | rfl) | rfl
    · exact htrail dir hmem
    · exact hblob
    · exact hpointer
    · exact hidentity h.directory.anchorSlot
  have hpassed : h.directory.afterPointer next ∈ h.trail ++ [h.directory.afterBlob next] ++
      [h.directory.afterPointer next] ++ [{ h.directory.afterPointer next with
        identity := { h.identity with configurationId := next.configurationId } }] := by
    simp only [List.mem_append, List.mem_singleton, true_or, or_true]
  have hflag : ∀ h₁, Recorded options h.directory next parsed P h₁ →
      Recorded options h.directory next parsed P { h₁ with membershipChangePending := false } := by
    intro h₁ hrec
    obtain ⟨⟨h1, h2, h3, h4, h5, h6, h7, h8⟩, hpassed, hpath, hrecord⟩ := hrec
    exact ⟨⟨h1, h2, h3, h4, h5, h6, h7, h8⟩, hpassed, hpath, hrecord⟩
  simp only [Host.install, storeBlob, activatePointer, writeIdentity, Host.adoptDecidedMembers,
    Host.continueOnConfiguration, wp_bind, wp_get, wp_save, wp_setHost, wp_failIf, hcheck,
    reduceCtorEq, false_implies, true_and, forall_const, wp_ite]
  constructor
  · intro _
    simp only [Host.createStateAnchor, wp_bind, wp_get, wp_save, wp_setHost]
    refine wp_mono (@wp_clearCompleted options next _ parsed h.directory P
      ⟨rfl, hlive.role, rfl, hlive.join, rfl, rfl, hlive.applied, h.appliedSlot, h.directory.pending, ?_,
        .inr rfl⟩ (List.mem_append_left _ hpassed) ?_ rfl ?_) (fun _ h₁ hrec => ⟨hflag h₁ hrec, rfl⟩) (fun _ _ hno => hno)
    · rw [← hwritten]
      rfl
    · intro dir hmem
      rcases List.mem_append.1 hmem with hmem | hmem
      · exact hpath dir hmem
      · rw [List.mem_singleton.1 hmem]
        have hanchor := hidentity h.appliedSlot
        rw [← hwritten] at hanchor
        exact hanchor
    · have hgone := hclear h.appliedSlot
      rw [← hwritten] at hgone
      exact hgone
  · intro _
    refine wp_mono (@wp_clearCompleted options next _ parsed h.directory P
      ⟨rfl, hlive.role, rfl, hlive.join, rfl, rfl, hlive.applied, h.directory.anchorSlot,
        h.directory.pending, ?_, .inr rfl⟩ hpassed hpath rfl ?_) (fun _ h₁ hrec => ⟨hflag h₁ hrec, rfl⟩)
      (fun _ _ hno => hno)
    · rw [← hwritten]
      rfl
    · have hgone := hclear h.directory.anchorSlot
      rw [← hwritten] at hgone
      exact hgone

/-- A crash point of a handover: a directory that has not written the identity yet, with the stop sign to
complete, or one that has, with the registry in place. -/
def OnTheWay (options : Host.OpenOptions) (next : Decided) (sign : StopSign) (slot : ℕ)
    (parsed : StopMetadata) (dir : DataDirectory) : Prop :=
  ∃ d, Kept options d dir ∧ LeadsTo options d next sign parsed ∧ dir.stop = some (sign, slot) ∧
    (dir.identity.configurationId < sign.configurationId ∨
      d = next ∧ dir.identity.configurationId = next.configurationId)

theorem OnTheWay.kept {dir : DataDirectory} (hway : OnTheWay options next sign slot parsed dir) :
    ∃ d, Kept options d dir := by
  obtain ⟨d, hkept, -⟩ := hway
  exact ⟨d, hkept⟩

/-- What a handover makes of a node. -/
structure Finished (options : Host.OpenOptions) (next : Decided) (sign : StopSign) (slot : ℕ)
    (parsed : StopMetadata) (before h : Host) : Prop where
  live : Live options next h
  handed : HandedTo next h
  settled : h.isReconfigured = none
  passed : before.directory.afterPointer next ∈ h.trail
  path : ∀ dir ∈ h.trail, OnTheWay options next sign slot parsed dir
  records : ∀ dir ∈ h.trail, dir ∈ before.trail ∨ dir.pending = none ∨
    dir.pending = before.directory.pending
  record : h.directory.pending = leftover before.directory.pending parsed

/-- What an install makes of a node whose directory leads on. -/
theorem Live.wp_install (hlive : Live options d h) (hnext : LeadsTo options d next sign parsed)
    (hstop : h.directory.stop = some (sign, slot))
    (habove : h.directory.identity.configurationId < sign.configurationId)
    (hstays : Survives options sign.members)
    (htrail : ∀ dir ∈ h.trail, OnTheWay options next sign slot parsed dir) :
    wp (Host.install next parsed) (fun _ => Finished options next sign slot parsed h)
      (fun _ _ => False) h := by
  obtain ⟨hslot, hpos, -⟩ := hlive.kept.stopped sign slot hstop habove
  have hself : Registered options next := hnext.stays (hnext.members ▸ hstays)
  have hpointer := hlive.kept.activatePointer hnext hstop habove hstays
  have hidentity : Kept options next (h.directory.afterIdentity next) := by
    refine hpointer.writeIdentity (hslot ▸ hpos) fun sign' slot' hstop' => ?_
    obtain ⟨rfl, rfl⟩ := Prod.mk.inj (Option.some.inj (hstop.symm.trans hstop'))
    exact hnext.configuration.ge
  refine wp_mono (Zaxonlite.wp_install (P := fun dir => OnTheWay options next sign slot parsed dir ∧
    (dir ∈ h.trail ∨ dir.pending = none ∨ dir.pending = h.directory.pending)) hlive
    (contains_voterIds hnext.valid hself) ?_ ?_ ?_ ?_ ?_) (fun _ h' hrec => ?_) (fun _ _ hno => hno)
  · exact fun dir hmem => ⟨htrail dir hmem, .inl hmem⟩
  · exact ⟨⟨d, hlive.kept.storeBlob hnext, hnext, hstop, .inl habove⟩, .inr (.inr rfl)⟩
  · exact ⟨⟨next, hpointer, hnext.held, hstop, .inl habove⟩, .inr (.inr rfl)⟩
  · exact fun anchor => ⟨⟨next, hidentity.withAnchor anchor, hnext.held, hstop, .inr ⟨rfl, rfl⟩⟩,
      .inr (.inr rfl)⟩
  · exact fun anchor => ⟨⟨next, (hidentity.withAnchor anchor).withPending none, hnext.held, hstop,
      .inr ⟨rfl, rfl⟩⟩, .inr (.inl rfl)⟩
  · obtain ⟨⟨hin, hpassed, hpath, hrecord⟩, hflag⟩ := hrec
    obtain ⟨anchor, pending, hdir, -⟩ := hin.directory
    have hconf : h'.directory.identity.configurationId = next.configurationId := by
      rw [hdir]
      rfl
    have hnone : h'.isReconfigured = none := by
      have hsame : h'.directory.stop = some (sign, slot) := by
        rw [hdir]
        exact hstop
      rw [Host.isReconfigured, hsame, hin.core, Option.filter_some, ← hnext.configuration]
      simp
    have hlive' : Live options next h' := by
      refine ⟨?_, fun dir hmem => (hpath dir hmem).1.kept, hin.identity, hin.role, hin.registry, hin.join,
        hin.members, ?_, ?_, ?_⟩
      · rw [hdir]
        exact (hidentity.withAnchor anchor).withPending pending
      · rw [hin.core, hin.identity, hconf]
      · rw [hin.applied, hdir]
        rfl
      · rw [hflag, hnone]
        rfl
    exact ⟨hlive', hlive'.handedTo hconf, hnone, hpassed, fun dir hmem => (hpath dir hmem).1,
      fun dir hmem => (hpath dir hmem).2, hrecord⟩

/-- **The pump completes a stop a survivor reports.** -/
theorem Live.wp_settle (hlive : Live options d h) (hnext : LeadsTo options d next sign parsed)
    (hstop : h.isReconfigured = some (sign, slot)) (hstays : Survives options sign.members)
    (htrail : ∀ dir ∈ h.trail, OnTheWay options next sign slot parsed dir) :
    wp Host.settle (fun _ => Finished options next sign slot parsed h) (fun _ _ => False) h := by
  obtain ⟨hsign, habove⟩ := hlive.isReconfigured_eq.1 hstop
  obtain ⟨hslot, -⟩ := hlive.kept.stopped sign slot hsign habove
  have hpending : h.membershipChangePending = true := by
    rw [hlive.pending, hstop]
    rfl
  have hready : decide (h.appliedSlot < slot) = false := by
    rw [hlive.applied, hslot]
    exact decide_eq_false (lt_irrefl _)
  have hmember : (h.role.capabilities.votes && !sign.members.contains h.identity.nodeId) = false := by
    rw [hlive.role, hlive.identity, hlive.kept.nodeId]
    cases hvotes : options.role.capabilities.votes with
    | false => exact Bool.false_and _
    | true =>
      rw [Bool.true_and, Bool.not_eq_false', List.contains_iff_mem]
      exact hstays hvotes
  rw [Host.settle, wp_bind, wp_get, if_pos hpending, Host.completeMembershipChange, wp_bind, wp_get, hstop]
  dsimp only
  rw [wp_bind, wp_failIf, hready]
  refine ⟨fun hno => absurd hno Bool.false_ne_true, fun _ => ?_⟩
  rw [wp_bind, wp_ofRegistry_ok hnext.parse, wp_bind, wp_failIf, hmember, hlive.registry]
  refine ⟨fun hno => absurd hno Bool.false_ne_true, fun _ => ?_⟩
  dsimp only
  rw [wp_bind, wp_ofRegistry_ok hnext.rebuild]
  exact hlive.wp_install hnext hsign habove hstays htrail

theorem Live.settle_of_removed (hlive : Live options d h) (hnext : LeadsTo options d next sign parsed)
    (hstop : h.isReconfigured = some (sign, slot)) (hgone : ¬Survives options sign.members) :
    Host.settle h = .error (.node .retiredByReconfiguration) h := by
  obtain ⟨hsign, habove⟩ := hlive.isReconfigured_eq.1 hstop
  obtain ⟨hslot, -⟩ := hlive.kept.stopped sign slot hsign habove
  have hpending : h.membershipChangePending = true := by
    rw [hlive.pending, hstop]
    rfl
  have hready : decide (h.appliedSlot < slot) = false := by
    rw [hlive.applied, hslot]
    exact decide_eq_false (lt_irrefl _)
  obtain ⟨hvotes, hout⟩ := Classical.not_imp.1 hgone
  have hmember : (h.role.capabilities.votes && !sign.members.contains h.identity.nodeId) = true := by
    rw [hlive.role, hlive.identity, hlive.kept.nodeId, hvotes, Bool.true_and, Bool.not_eq_true',
      ← Bool.not_eq_true, List.contains_iff_mem]
    exact hout
  have hwp : wp Host.settle (fun _ _ => False)
      (fun e h' => e = .node .retiredByReconfiguration ∧ h' = h) h := by
    rw [Host.settle, wp_bind, wp_get, if_pos hpending, Host.completeMembershipChange, wp_bind, wp_get,
      hstop]
    dsimp only
    rw [wp_bind, wp_failIf, hready]
    refine ⟨fun hno => absurd hno Bool.false_ne_true, fun _ => ?_⟩
    rw [wp_bind, wp_ofRegistry_ok hnext.parse, wp_bind, wp_failIf, hmember]
    exact ⟨fun _ => ⟨rfl, rfl⟩, fun hno => absurd hno.symm Bool.false_ne_true⟩
  obtain ⟨e, h', herror, rfl, rfl⟩ := eq_error_of_wp hwp
  exact herror

end Live

end Zaxonlite
