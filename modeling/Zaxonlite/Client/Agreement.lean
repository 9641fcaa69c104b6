import Zaxonlite.Client.Transactions
import Zaxonlite.Node.LiveRebuild
import Zaxonlite.Runs.Frames

/-!
# When live and one-shot transactions agree

Past the admission nothing tells the two ways apart. `beginLive` makes fewer checks than `writeRequest`: it asks
neither for the storage cap nor for the proposal frontier, so what `execTransaction` is refused for can be written
in several calls.
-/

namespace Zaxonlite

namespace Transactions

open Program

variable {E : Engine}

/-! ### The condition -/

/-- The log takes no more entries. -/
def Sealed (status : LogStatus) (n : Node) : Prop :=
  (n.membershipChangePending || status.stopPending) = true

/-- Nothing below the next slot is undecided, if the node leads. -/
def Ready (status : LogStatus) (n : Node) : Prop :=
  (status.isLeader && !n.proposalFrontierSettled status) = false

/-- The checks only `writeRequest` makes refuse nothing that `beginLive` lets pass, and those before the check for an
open live transaction do not come first. -/
def Unbypassed (status : LogStatus) (m : Machine) : Prop :=
  if m.node.liveTransaction then
    m.node.fatalStorageError = false ∧ status.overCap = false ∧ ¬ RebuildFails m ∧ ¬ Sealed status (due m) ∧
      Ready status (due m) ∧ (due m).captureBatchId = none
  else
    m.node.fatalStorageError = true ∨
      status.overCap = false ∧ (RebuildFails m ∨ Sealed status (due m) ∨ Ready status (due m))

/-- `beginLive` rebuilds the image first. -/
def Rebuilds (m : Machine) : Prop :=
  m.node.capabilities.servesWrites = true ∧ m.node.liveTransaction = false ∧
    m.node.fatalStorageError = false ∧ m.node.needsResync = true

/-! ### The rebuild -/

section SameChecks

variable {n n' : Node} {status : LogStatus}

theorem sealed_iff_of_same (h : SameChecks n n') : Sealed status n ↔ Sealed status n' := by
  rw [Sealed, Sealed, h.pending]

theorem ready_iff_of_same (h : SameChecks n n') : Ready status n ↔ Ready status n' := by
  rw [Ready, Ready, Node.proposalFrontierSettled, Node.proposalFrontierSettled, h.slot]

theorem contents_leaves {p : Progress} {m m' : Machine} (h : Leaves p m m') :
    contents m' = (p.image, m.disk.journal, m.disk.store) := by
  rw [contents, h.live, h.journal, h.store]

theorem contents_resyncImage_eq_iff (m : Machine) :
    contents (finalState resyncImage m) = contents m ↔ m.rebuilt.1.image = m.disk.live := by
  have hleft : contents (finalState resyncImage m) = (m.rebuilt.1.image, m.disk.journal, m.disk.store) := by
    refine finalState_of_wp (P := fun m' => contents m' = (m.rebuilt.1.image, m.disk.journal, m.disk.store)) ?_
    exact wp_mono (wp_resyncImage_rebuilt m) (fun _ _ h => contents_leaves h.2.toLeaves) fun _ _ h =>
      contents_leaves h.2
  rw [hleft, contents]
  exact ⟨fun h => congrArg Prod.fst h, fun h => by rw [h]⟩

end SameChecks

/-! ### Up to the first statement -/

section Admission

variable {a : Answers} {l : LiveNode}

/-- A node that works and takes entries, and the same node with a live transaction open. -/
structure Opens (stopPending : Bool) (l l' : LiveNode) : Prop where
  idle : l.machine.node.liveTransaction = false
  working : l.machine.node.fatalStorageError = false
  taking : stopPending = false
  same : l' = { l with machine := { l.machine with node := { l.machine.node with liveTransaction := true } } }

section Refuse

variable {β : Type} {R : LiveNode → LiveNode → Prop} {f g : Unit → LiveOp β} {x : LiveOp β} {l' : LiveNode}
  {c : Bool} {e : NodeError}

theorem alike_refuse_left (hc : c = false) (h : Alike R (f ()) x l l') :
    Alike R (refuseLive c e >>= f) x l l' := by
  refine alike_of_wp_left ?_
  rw [wp_refuseLive, hc]
  exact ⟨nofun, fun _ => h⟩

theorem alike_refuse_right (hc : c = false) (h : Alike R x (f ()) l l') :
    Alike R x (refuseLive c e >>= f) l l' := by
  refine alike_of_wp_right ?_
  rw [wp_refuseLive, hc]
  exact ⟨nofun, fun _ => h⟩

theorem alike_refuse (h : c = false → Alike R (f ()) (g ()) l l') :
    Alike R (refuseLive c e >>= f) (refuseLive c e >>= g) l l' := by
  cases c with
  | false => exact alike_refuse_left rfl (alike_refuse_right rfl (h rfl))
  | true => rfl

theorem alike_get {f g : LiveNode → LiveOp β} (h : Alike R (f l) (g l') l l') :
    Alike R (get >>= f) (get >>= g) l l' :=
  alike_of_wp_left (alike_of_wp_right h)

end Refuse

/-- The admission of a write and that of a live transaction run alike where the checks only one of them makes refuse
nothing. -/
theorem alike_admission (hsingle : l.machine.node.single = true)
    (hserves : l.machine.node.capabilities.servesWrites = true)
    (hidle : l.machine.node.liveTransaction = false) (hpass : Unbypassed a.status l.machine) :
    Alike (Opens a.status.stopPending) (admitLive a.status) (beginLiveTransaction a.status.stopPending) l l := by
  rw [Unbypassed, hidle, if_neg Bool.false_ne_true] at hpass
  have hone : (!l.machine.node.single) = false := congrArg not hsingle
  have hwriter : (!l.machine.node.capabilities.servesWrites) = false := congrArg not hserves
  refine alike_get ?_
  cases hfailed : l.machine.node.fatalStorageError with
  | true =>
    simp only [Alike, wp_bind, wp_refuseLive, hone, hwriter, hidle, true_implies, Bool.true_eq_false,
      Bool.false_eq_true, false_implies, true_and, and_true]
  | false =>
    obtain ⟨hcap, hready⟩ := hpass.resolve_left (hfailed ▸ Bool.false_ne_true)
    refine alike_refuse_left rfl (alike_refuse_left hcap ?_)
    refine alike_refuse_right hone (alike_refuse_right hwriter (alike_refuse_right hidle (alike_refuse_right rfl ?_)))
    have hrebuild := alike_self (x := doLive l.machine.node.needsResync resyncLive) (s := l)
      (R := fun l₁ l₂ => l₁ = l₂ ∧ (Sealed a.status l₁.machine.node ∨ Ready a.status l₁.machine.node) ∧
        l₁.machine.node.liveTransaction = false ∧ l₁.machine.node.fatalStorageError = false) fun _ l₁ hok => by
          have h := wp_rebuild l
          simp only [wp, hok] at h
          obtain ⟨hends, hsame, hopen, hstanding, -⟩ := h
          refine ⟨rfl, ?_, hopen.trans hidle, (congrArg Prod.fst hstanding).trans hfailed⟩
          exact (hready.resolve_left hends).imp (sealed_iff_of_same hsame).2 (ready_iff_of_same hsame).2
    refine hrebuild.bind fun _ l₁ l₂ h => ?_
    obtain ⟨rfl, hpassed, hidle₁, hworks⟩ := h
    refine alike_get (alike_refuse fun hopen => ?_)
    have hready₁ := hpassed.resolve_left fun hsealed => by
      rw [Sealed, hopen] at hsealed
      cases hsealed
    refine alike_refuse_left hready₁ ?_
    have hopening := alike_self (x := openLive) (s := l₁)
      (R := fun l₂ l₃ => l₂ = l₃ ∧ l₂.machine.node.liveTransaction = false ∧
        l₂.machine.node.fatalStorageError = false) fun _ l₂ hok => by
          have h := wp_openLive_node l₁
          simp only [wp, hok] at h
          exact ⟨rfl, h.1.trans hidle₁, (congrArg Prod.fst h.2.1).trans hworks⟩
    refine hopening.bind fun _ l₂ l₃ h => ?_
    obtain ⟨rfl, hidle₂, hworks₂⟩ := h
    refine alike_get (alike_refuse fun _ => ?_)
    simp only [Alike, wp_refuseLive, wp_onMachine, wp_setNode, hidle₂, Bool.false_eq_true, false_implies, true_and,
      true_implies]
    exact ⟨hidle₂, hworks₂, (Bool.or_eq_false_iff.1 hopen).2, rfl⟩

theorem alike_onNode_of {α : Type} {R : LiveNode → LiveNode → Prop} {x y : LiveOp α} {s t : Session E}
    (h : Alike R x y s.node t.node) :
    Alike (fun s' t' => ∃ l l', R l l' ∧ s' = { s with node := l } ∧ t' = { t with node := l' }) (onNode x)
      (onNode y) s t := by
  simp only [Alike, wp_onNode]
  refine wp_mono h (fun _ l h' => wp_mono h' (fun _ l' h'' => ⟨h''.1, l, l', h''.2, rfl, rfl⟩) fun _ _ hno => hno)
    fun _ _ h' => wp_mono h' (fun _ _ hno => hno) fun _ _ heq => congrArg _ heq

/-- Past the admission nothing tells the two ways apart. -/
theorem alike_writing {s : Session E} {statements : List Statement} (hsingle : s.node.machine.node.single = true)
    (hserves : s.node.machine.node.capabilities.servesWrites = true)
    (hidle : s.node.machine.node.liveTransaction = false) (hpass : Unbypassed a.status s.node.machine) :
    Alike (fun s₁ s₂ => s₁.node = s₂.node) (writePrepared statements a) (liveTransaction statements a) s s := by
  have hlive : liveTransaction (E := E) statements a =
      (onNode (beginLiveTransaction a.status.stopPending) >>= fun _ =>
        modify (fun s => { s.begun with liveChangesBase := s.totalChanges, liveBatchId := a.batchId }) >>= fun _ =>
          (statements.forM fun statement => liveExec statement >>= fun _ => pure ()) >>= fun _ =>
            commitLive a.status.stopPending a.run a.core) := by
    simp only [liveTransaction, beginLive, bind_assoc]
  rw [hlive]
  refine (alike_onNode_of (alike_admission hsingle hserves hidle hpass)).bind fun _ s₁ s₂ h => ?_
  obtain ⟨l, l', hopens, rfl, rfl⟩ := h
  obtain ⟨hidle, hworking, htaking, rfl⟩ := hopens
  refine alike_of_wp_left (alike_of_wp_right ?_)
  rw [wp_modify]
  refine alike_of_wp_left ?_
  rw [wp_get, alike_onError_left]
  have hbegun : Begun s.totalChanges a.batchId ({ s with node := l } : Session E).begun
      (({ s with node := l } : Session E).begun.entered s.totalChanges a.batchId) := ⟨hidle, hworking, rfl⟩
  refine (hbegun.alike_statements statements).bind fun _ s' t' h => ?_
  exact h.alike_commit htaking a.run a.core

end Admission

/-! ### What `beginLive` changes -/

section Trace

variable {a : Answers} {l : LiveNode}

theorem live_createImage (d : Disk) : d.createImage.live = d.live := by
  obtain ⟨image, hcreate⟩ := createImage_eq d
  have hwal : d.createImage.walOps = d.walOps := by
    rw [hcreate]
    rfl
  rw [Disk.live, Disk.live, content_createImage, hwal]

theorem contents_createImage (m : Machine) : contents { m with disk := m.disk.createImage } = contents m := by
  obtain ⟨image, hcreate⟩ := createImage_eq m.disk
  rw [contents, live_createImage, hcreate]
  rfl

theorem keeps_contents_openLive : Keeps (fun l : LiveNode => contents l.machine) openLive := by
  have hwriter : Keeps contents ensureWriter := by
    refine keeps_get.bind fun m => (keeps_refuseIf _ _).bind fun _ => keeps_doIf _ ?_
    exact (keeps_emit contents_createImage).bind fun _ => keeps_setNode fun _ => rfl
  refine keeps_get.bind fun _ => (keeps_onMachine hwriter).bind fun _ => ?_
  exact Keeps.ite (keeps_modify fun _ => rfl) (keeps_pure ())

/-- Before a transaction is live, a rebuild of the image is all that changes anything. -/
theorem wp_beginLiveTransaction_contents {stopPending : Bool} {c : File × Journal × PayloadStore}
    (hsingle : l.machine.node.single = true) (hidle : ¬ Rebuilds l.machine → contents l.machine = c)
    (hrebuilds : Rebuilds l.machine → contents (finalState resyncImage l.machine) = c) :
    wp (beginLiveTransaction stopPending) (fun _ l' => contents l'.machine = c)
      (fun _ l' => contents l'.machine = c) l := by
  have hkeeps : Keeps (fun l : LiveNode => contents l.machine) (do
      let s ← get
      refuseLive (s.machine.node.membershipChangePending || stopPending) .logSealed
      openLive
      let s ← get
      refuseLive s.machine.node.captureBatchId.isSome .writeInFlight
      onMachine (setNode fun n => { n with liveTransaction := true })) := by
    refine keeps_get.bind fun _ => (keeps_onMachine (keeps_refuseIf _ _)).bind fun _ => ?_
    refine keeps_contents_openLive.bind fun _ => keeps_get.bind fun _ => ?_
    exact (keeps_onMachine (keeps_refuseIf _ _)).bind fun _ => keeps_onMachine (keeps_setNode fun _ => rfl)
  have hrest {l₁ : LiveNode} (h : contents l₁.machine = c) :=
    wp_mono (hkeeps l₁) (fun _ _ h' => h'.trans h) fun _ _ h' => h'.trans h
  rw [beginLiveTransaction, wp_bind, wp_get, wp_bind, wp_refuseLive, hsingle]
  refine ⟨fun hno => absurd hno Bool.false_ne_true, fun _ => ?_⟩
  rw [wp_bind, wp_refuseLive]
  refine ⟨fun hno => hidle fun h => ?_, fun hserves => ?_⟩
  · rw [h.1] at hno
    cases hno
  rw [wp_bind, wp_refuseLive]
  refine ⟨fun hopen => hidle fun h => Bool.false_ne_true (h.2.1.symm.trans hopen), fun hclosed => ?_⟩
  rw [wp_bind, wp_refuseLive]
  refine ⟨fun hfailed => hidle fun h => Bool.false_ne_true (h.2.2.1.symm.trans hfailed), fun hworks => ?_⟩
  rw [wp_bind, wp_doLive]
  refine ⟨fun hneeds => ?_, fun hnone => hrest (hidle fun h => Bool.false_ne_true (hnone.symm.trans h.2.2.2))⟩
  have hdue := hrebuilds ⟨(Bool.not_eq_false' _).mp hserves, hclosed, hworks, hneeds⟩
  rw [finalState] at hdue
  simp only [resyncLive, wp_bind, wp_modify, wp_onMachine]
  refine wp_mono (wp_self resyncImage l.machine) (fun _ m h => hrest ?_) fun _ m h => ?_
  · rwa [h] at hdue
  · rwa [h] at hdue

theorem contents_beginLive {s : Session E} {stopPending : Bool} {batchId : ℕ}
    {c : File × Journal × PayloadStore} (hsingle : s.node.machine.node.single = true)
    (hidle : ¬ Rebuilds s.node.machine → contents s.node.machine = c)
    (hrebuilds : Rebuilds s.node.machine → contents (finalState resyncImage s.node.machine) = c) :
    (finalState (beginLive stopPending batchId) s).contents = c := by
  refine finalState_of_wp (P := fun s' : Session E => s'.contents = c) ?_
  simp only [beginLive, wp_bind, wp_onNode, wp_modify]
  exact wp_beginLiveTransaction_contents hsingle hidle hrebuilds

/-- A transaction that is rolled back leaves no trace unless its `beginLive` rebuilt an image that was not what the
log says. -/
theorem leavesNoTrace_iff {s : Session E} (hsingle : s.node.machine.node.single = true) :
    LeavesNoTrace a s ↔
      (Rebuilds s.node.machine → s.node.machine.rebuilt.1.image = s.node.machine.disk.live) := by
  rw [← contents_resyncImage_eq_iff]
  constructor
  · intro h hrebuilds
    have hleft := (contents_abandoned a.status.stopPending a.batchId [] true s).symm.trans (h [] true)
    exact (contents_beginLive hsingle (absurd hrebuilds) fun _ => rfl).symm.trans hleft
  · intro h calls rolledBack
    exact (contents_abandoned _ _ _ _ _).trans (contents_beginLive hsingle (fun _ => rfl) h)

end Trace

/-! ### What refuses only one of them -/

section Refusals

variable {a : Answers} {s : Session E} {statements : List Statement} {l : LiveNode}

/-- The errors of the builder, of the storage cap and of an unsettled frontier. -/
def OneShotOnly : SessionError → Prop
  | .build _ => True
  | .live (.node e) => e = .recoveryRetentionExceeded ∨ e = .leaderNotReady
  | _ => False

theorem raises_of_admitting {α : Type} {x : LiveOp α} (h : Raises AdmittingLive x) :
    Raises (fun e => ¬ OneShotOnly (.live e)) x := by
  refine fun l => wp_mono (h l) (fun _ _ _ => trivial) fun e _ he => ?_
  rcases e with e | _ | _ | _
  · rintro (rfl | rfl)
    · exact he (by decide)
    · exact he (by decide)
  all_goals exact id

theorem raises_onNode {α : Type} {x : LiveOp α} (h : Raises (fun e => ¬ OneShotOnly (.live e)) x) :
    Raises (fun e => ¬ OneShotOnly e) (onNode (E := E) x) := by
  intro s
  rw [wp_onNode]
  exact h s.node

theorem raises_refuse {c : Bool} {e : NodeError} (h : ¬ OneShotOnly (.live (.node e))) :
    Raises (fun e => ¬ OneShotOnly e) (refuse (E := E) c e) := by
  intro s
  rw [wp_refuse]
  exact ⟨fun _ => h, fun _ => trivial⟩

theorem raises_beginLiveTransaction (stopPending : Bool) :
    Raises (fun e => ¬ OneShotOnly (.live e)) (beginLiveTransaction stopPending) := by
  have hrefuse {c : Bool} {e : NodeError} (h : ¬ (e = .recoveryRetentionExceeded ∨ e = .leaderNotReady)) :
      Raises (fun e => ¬ OneShotOnly (.live e)) (refuseLive c e) := by
    intro l
    rw [wp_refuseLive]
    exact ⟨fun _ => h, fun _ => trivial⟩
  have hrebuild (c : Bool) : Raises (fun e => ¬ OneShotOnly (.live e)) (doLive c resyncLive) := by
    refine Raises.ite ((raises_modify _).bind fun _ => ?_) (raises_pure ())
    exact raises_of_admitting (raises_onMachine raises_resyncImage)
  have hopen : Raises (fun e => ¬ OneShotOnly (.live e)) openLive := by
    intro l
    refine wp_mono (wp_openLive_node l) (fun _ _ _ => trivial) fun e _ h => ?_
    have hwriter : ¬ (NodeError.roleCannotWrite = .recoveryRetentionExceeded ∨
      NodeError.roleCannotWrite = .leaderNotReady) := by decide
    rw [h.1.1]
    exact hwriter
  refine raises_get.bind fun _ => (hrefuse (by decide)).bind fun _ => (hrefuse (by decide)).bind fun _ => ?_
  refine (hrefuse (by decide)).bind fun _ => (hrefuse (by decide)).bind fun _ => (hrebuild _).bind fun _ => ?_
  refine raises_get.bind fun _ => (hrefuse (by decide)).bind fun _ => hopen.bind fun _ => raises_get.bind fun _ => ?_
  exact (hrefuse (by decide)).bind fun _ => fun l => trivial

theorem raises_step (statement : Statement) :
    Raises (fun e => ¬ OneShotOnly e) (step (E := E) statement) := by
  intro s
  simp only [step, wp_bind, wp_get]
  cases s.transaction with
  | none => exact id
  | some current =>
    dsimp only
    cases E.execute statement current.state with
    | none =>
      simp only [wp_bind, wp_ite, wp_modify, wp_throw]
      exact ⟨fun _ => id, fun _ => id⟩
    | some next => trivial

theorem raises_liveTransaction (statements : List Statement) (a : Answers) :
    Raises (fun e => ¬ OneShotOnly e) (liveTransaction (E := E) statements a) := by
  have hseal (batchId : ℕ) (changes : ℤ) :
      Raises (fun e => ¬ OneShotOnly e) (sealTransaction (E := E) batchId changes a.run a.core) := by
    refine raises_get.bind fun s => ?_
    cases s.transaction with
    | none => exact raises_throw id
    | some current =>
      exact (raises_modify _).bind fun _ => raises_onNode (raises_of_admitting (raises_sealLive _ a.run a.core))
  have hrefuse {c : Bool} {e : NodeError} (h : ¬ (e = .recoveryRetentionExceeded ∨ e = .leaderNotReady)) :
      Raises (fun e => ¬ OneShotOnly e) (refuse (E := E) c e) := raises_refuse h
  have hexec (statement : Statement) :
      Raises (fun e => ¬ OneShotOnly e) (liveExec (E := E) statement >>= fun _ => pure ()) := by
    refine Raises.bind (raises_get.bind fun _ => (hrefuse (by decide)).bind fun _ => ?_) fun _ => raises_pure ()
    refine (hrefuse (by decide)).bind fun _ => (raises_step statement).onError.bind fun _ => ?_
    exact raises_get.bind fun _ => raises_pure _
  refine Raises.bind ?_ fun _ => (Raises.forM hexec statements).bind fun _ => ?_
  · exact (raises_onNode (raises_beginLiveTransaction _)).bind fun _ => raises_modify _
  · have hclosed : Raises (fun e => ¬ OneShotOnly (.live e))
        (onMachine (setNode fun n => { n with liveTransaction := false })) :=
      raises_of_admitting (raises_onMachine (raises_modify _))
    refine raises_get.bind fun s => (hrefuse (by decide)).bind fun _ => (hrefuse (by decide)).bind fun _ => ?_
    refine (hrefuse (by decide)).bind fun _ => (raises_onNode hclosed).bind fun _ => Raises.onError ?_
    refine Raises.bind (raises_get.bind fun s => ?_) fun _ => hseal _ _
    exact (raises_pure _).ite (raises_throw id)

/-- The checks that only `writeRequest` makes refuse on their own. -/
theorem wp_admitLive_bypassed (status : LogStatus) (hworks : l.machine.node.fatalStorageError = false)
    (h : status.overCap = true ∨
      ¬ RebuildFails l.machine ∧ ¬ Sealed status (due l.machine) ∧ ¬ Ready status (due l.machine)) :
    wp (admitLive status) (fun _ _ => False) (fun e _ => OneShotOnly (.live e)) l := by
  rw [admitLive, wp_bind, wp_get, wp_bind, wp_refuseLive, hworks]
  refine ⟨fun hno => absurd hno Bool.false_ne_true, fun _ => ?_⟩
  rw [wp_bind, wp_refuseLive]
  refine ⟨fun _ => Or.inl rfl, fun hbelow => ?_⟩
  obtain ⟨hends, hopen, hbehind⟩ := h.resolve_left (hbelow ▸ Bool.false_ne_true)
  rw [wp_bind]
  refine wp_mono (wp_rebuild l) (fun _ l₁ h₁ => ?_) fun _ _ h₁ => absurd h₁.1.2 hends
  obtain ⟨-, hsame, -⟩ := h₁
  rw [← sealed_iff_of_same hsame, Sealed, Bool.not_eq_true] at hopen
  rw [← ready_iff_of_same hsame, Ready, Bool.not_eq_false] at hbehind
  rw [wp_bind, wp_get, wp_bind, wp_refuseLive, hopen]
  refine ⟨fun hno => absurd hno Bool.false_ne_true, fun _ => ?_⟩
  rw [wp_bind, wp_refuseLive, hbehind]
  exact ⟨fun _ => Or.inr rfl, fun hno => absurd hno.symm Bool.false_ne_true⟩

/-- With a live transaction open, a write is refused for it if nothing refuses earlier. -/
theorem wp_admitLive_open (status : LogStatus) (hserves : l.machine.node.capabilities.servesWrites = true)
    (hlive : l.machine.node.liveTransaction = true) :
    wp (admitLive status) (fun _ _ => False)
      (fun e _ => e = .node .transactionOpen ↔ Unbypassed status l.machine) l := by
  rw [Unbypassed, if_pos hlive, admitLive, wp_bind, wp_get, wp_bind, wp_refuseLive]
  refine ⟨fun hfailed => iff_of_false (by decide) fun h => Bool.false_ne_true (h.1.symm.trans hfailed), fun hworks => ?_⟩
  rw [wp_bind, wp_refuseLive]
  refine ⟨fun hcap => iff_of_false (by decide) fun h => Bool.false_ne_true (h.2.1.symm.trans hcap), fun hbelow => ?_⟩
  rw [wp_bind]
  refine wp_mono (wp_rebuild l) (fun _ l₁ h₁ => ?_) fun e _ h₁ => iff_of_false ?_ fun h => h.2.2.1 h₁.1.2
  · obtain ⟨hends, hsame, hopen₁, hstanding₁, -⟩ := h₁
    rw [wp_bind, wp_get, wp_bind, wp_refuseLive, ← sealed_iff_of_same hsame, ← ready_iff_of_same hsame, ← hsame.capture]
    refine ⟨fun hsealed => iff_of_false (by decide) fun h => h.2.2.2.1 hsealed, fun hopen => ?_⟩
    rw [wp_bind, wp_refuseLive]
    refine ⟨fun hbehind => iff_of_false (by decide) fun h => Bool.false_ne_true (h.2.2.2.2.1.symm.trans hbehind),
      fun hready => ?_⟩
    rw [wp_bind]
    refine wp_mono (wp_openLive_node l₁) (fun _ l₂ h₂ => ?_) fun e _ h₂ => ?_
    · obtain ⟨hopen₂, -, hcapture⟩ := h₂
      rw [wp_bind, wp_get, wp_bind, wp_refuseLive, wp_refuseLive, hcapture]
      refine ⟨fun hcaptured => iff_of_false (by decide) fun h => ?_, fun hnone => ⟨fun _ => iff_of_true rfl ?_,
        fun hidle => ?_⟩⟩
      · rw [h.2.2.2.2.2] at hcaptured
        cases hcaptured
      · refine ⟨hworks, hbelow, hends, fun hsealed => ?_, hready, ?_⟩
        · exact Bool.false_ne_true (hopen.symm.trans hsealed)
        · exact Option.isNone_iff_eq_none.1 (Option.isSome_eq_false_iff.1 hnone)
      · exact Bool.false_ne_true (hidle.symm.trans (hopen₂.trans (hopen₁.trans hlive)))
    · have hserves₁ := congrArg (fun standing => standing.2.2.servesWrites) hstanding₁
      exact absurd (h₂.1.2.symm.trans (hserves₁.trans hserves)) Bool.false_ne_true
  · rintro rfl
    exact h₁.1.1 (by decide)

end Refusals

/-! ### When they agree -/

section Agreement

variable {a : Answers} {s : Session E} {statements : List Statement}

theorem wp_oneShot_of_not_fits (h : ¬ Fits statements) :
    wp (oneShot statements a) (fun _ _ => False) (fun e _ => OneShotOnly e) s := by
  cases hbuild : Builder.build statements with
  | ok t => exact absurd (build_eq_ok.1 hbuild).1 h
  | error e =>
    rw [oneShot, hbuild]
    trivial

/-- A list the builder takes is executed unless it is empty. -/
theorem wp_oneShot (h : Fits statements) (Q : ℕ → Session E → Prop) (Err : SessionError → Session E → Prop) :
    wp (oneShot statements a) Q Err s ↔
      (s.node.machine.node.capabilities.servesWrites = false → Err (.live (.node .roleCannotWrite)) s) ∧
        (s.node.machine.node.capabilities.servesWrites = true →
          (statements = [] → Err (.build .emptyTransaction) s) ∧
            (statements ≠ [] → wp (writePrepared statements a) Q Err s)) := by
  have hmark : wp (ofBuild (Builder.markFinished ⟨statements, (statements.map Statement.addedBytes).sum, false⟩))
      (fun t s' => wp (writePrepared t.statements a) Q Err s') Err s ↔
        (statements = [] → Err (.build .emptyTransaction) s) ∧
          (statements ≠ [] → wp (writePrepared statements a) Q Err s) := by
    rw [Builder.markFinished, if_neg Bool.false_ne_true]
    split
    · next hempty => exact ⟨fun hErr => ⟨fun _ => hErr, fun hne => absurd hempty hne⟩, fun hboth => hboth.1 hempty⟩
    · next hne => exact ⟨fun hrun => ⟨fun hempty => absurd hempty hne, fun _ => hrun⟩, fun hboth => hboth.2 hne⟩
  rw [oneShot, build_eq_ok.2 ⟨h, rfl⟩, wp_bind, ofBuild, wp_pure, execTransaction, wp_bind, wp_get, wp_bind,
    wp_refuse, wp_bind, hmark, Bool.not_eq_true', Bool.not_eq_false']

/-- A second live transaction is refused. -/
theorem wp_liveTransaction_open (hsingle : s.node.machine.node.single = true)
    (hserves : s.node.machine.node.capabilities.servesWrites = true)
    (hlive : s.node.machine.node.liveTransaction = true) (Q : ℕ → Session E → Prop)
    (Err : SessionError → Session E → Prop) :
    wp (liveTransaction statements a) Q Err s ↔ Err (.live (.node .transactionOpen)) s := by
  simp only [liveTransaction, beginLive, beginLiveTransaction, wp_bind, wp_onNode, wp_get, wp_refuseLive, hsingle,
    hserves, hlive, Bool.not_true, Bool.false_eq_true, Bool.true_eq_false, false_implies, true_implies, true_and,
    and_true]

/-- The frontier, the cap and the builder apart, both ways refuse alike or append the same. -/
theorem sameOutcome_of (hsingle : s.node.machine.node.single = true) (hfits : Fits statements)
    (hpass : s.node.machine.node.capabilities.servesWrites = true →
      statements ≠ [] ∧ Unbypassed a.status s.node.machine) : SameOutcome statements a s := by
  have hone : (!s.node.machine.node.single) = false := congrArg not hsingle
  rw [SameOutcome, Alike, wp_oneShot hfits]
  refine ⟨fun hno => ?_, fun hserves => ⟨fun hempty => absurd hempty (hpass hserves).1, fun _ => ?_⟩⟩
  · simp only [liveTransaction, beginLive, beginLiveTransaction, wp_bind, wp_onNode, wp_get, wp_refuseLive, hone, hno,
      Bool.not_false, Bool.false_eq_true, Bool.true_eq_false, false_implies, true_implies, and_true]
  · cases hlive : s.node.machine.node.liveTransaction with
    | false =>
      exact (alike_writing hsingle hserves hlive (hpass hserves).2).and_left (wp_writePrepared_appended statements s)
    | true =>
      have hopen := wp_admitLive_open a.status hserves hlive
      simp only [wp_liveTransaction_open hsingle hserves hlive]
      rw [writePrepared, wp_bind, wp_onNode]
      refine wp_mono hopen (fun _ _ hno => hno.elim) fun e _ he => ?_
      rw [he.2 (hpass hserves).2]

/-- What one way refuses for a reason of its own, the other one does not refuse for the same reason. -/
theorem not_alike_of_oneShotOnly {R : Session E → Session E → Prop}
    (h : wp (oneShot statements a) (fun _ _ => False) (fun e _ => OneShotOnly e) s) :
    ¬ Alike R (oneShot statements a) (liveTransaction statements a) s s := by
  intro halike
  obtain ⟨e, s', hraised, hown⟩ := eq_error_of_wp h
  obtain ⟨t', hlive⟩ := halike.error hraised
  have hnever := raises_liveTransaction statements a s
  simp only [wp, hlive] at hnever
  exact hnever hown

theorem unbypassed_of_sameOutcome (hsingle : s.node.machine.node.single = true)
    (h : SameOutcome statements a s) :
    Fits statements ∧ (s.node.machine.node.capabilities.servesWrites = true →
      statements ≠ [] ∧ Unbypassed a.status s.node.machine) := by
  have hfits : Fits statements := by
    by_contra hno
    exact not_alike_of_oneShotOnly (wp_oneShot_of_not_fits hno) h
  refine ⟨hfits, fun hserves => ?_⟩
  have hno : ¬ s.node.machine.node.capabilities.servesWrites = false := by
    rw [hserves]
    exact Bool.noConfusion
  have hne : statements ≠ [] := by
    intro hempty
    refine not_alike_of_oneShotOnly ?_ h
    rw [wp_oneShot hfits]
    exact ⟨fun hnone => absurd hnone hno, fun _ => ⟨fun _ => trivial, fun hfull => absurd hempty hfull⟩⟩
  refine ⟨hne, ?_⟩
  cases hlive : s.node.machine.node.liveTransaction with
  | true =>
    rw [SameOutcome, Alike, wp_oneShot hfits] at h
    have hrefused := (h.2 hserves).2 hne
    simp only [wp_liveTransaction_open hsingle hserves hlive] at hrefused
    rw [writePrepared, wp_bind, wp_onNode] at hrefused
    have hopen := wp_and (wp_admitLive_open a.status hserves hlive) hrefused
    obtain ⟨e, -, -, hiff, he⟩ := eq_error_of_wp (wp_mono hopen (fun _ _ hno => hno.1) fun _ _ hboth => hboth)
    cases he
    exact hiff.1 rfl
  | false =>
    rw [Unbypassed, if_neg (by rw [hlive]; exact Bool.false_ne_true)]
    by_contra hpass
    rw [not_or, Bool.not_eq_true] at hpass
    refine not_alike_of_oneShotOnly ?_ h
    rw [wp_oneShot hfits]
    refine ⟨fun hnone => absurd hnone hno, fun _ => ⟨fun hempty => absurd hempty hne, fun _ => ?_⟩⟩
    rw [writePrepared, wp_bind, wp_onNode]
    refine wp_mono (wp_admitLive_bypassed a.status hpass.1 ?_) (fun _ _ hno => hno.elim) fun _ _ hown => hown
    by_contra hrest
    rw [not_or, Bool.not_eq_true] at hrest
    refine hpass.2 ⟨hrest.1, ?_⟩
    by_contra hno
    rw [not_or, not_or] at hno
    exact hrest.2 hno

end Agreement

/-! ### A core that decides at once -/

section Lone

variable {m : Machine}

/-- A core that is alone decides the entry it is given. -/
def decidesAtOnce : AppendCore := fun m batch =>
  .appended (m.node.appliedSlot + 1)
    [{ writes := [.accept ⟨1, 0, 1⟩ (m.node.appliedSlot + 1) (.command (.transactionBatch batch))]
       requiresBarrier := true
       committed := [(m.node.appliedSlot + 1, .command (.transactionBatch batch))]
       decidedThrough := m.node.appliedSlot + 1 }]

theorem wp_appendWrites_node (writes : List Write) (m : Machine) :
    wp (appendWrites writes) (fun _ m' => m'.node = m.node) (fun _ _ => False) m := by
  refine wp_forM (fun _ m' => m'.node = m.node) writes m rfl ?_
  rintro pre write post m₁ - h₁
  simp only [wp_bind, wp_get]
  rw [wp_ite]
  refine ⟨fun _ => ?_, fun _ => ?_⟩
  · rw [wp_bind, wp_emit, wp_emit]
    exact h₁
  · rw [wp_emit]
    exact h₁

/-- A turn that decides the batch in flight accounts for it. -/
theorem wp_consumeRound_captured {slot through : ℕ} {batch : TransactionBatch} {writes : List Write} {barrier : Bool}
    (hpending : m.node.captureBatchId = some batch.batchId)
    (hbase : checkChainBase m.node.identity.databaseId m.node.lastChain m.node.lastDataSlot batch = true) :
    wp (consumeRound ⟨writes, barrier, [(slot, .command (.transactionBatch batch))], through⟩)
      (fun _ m' => m'.node.appliedSlot = slot) (fun _ _ => False) m := by
  have hjournal : wp (journalEffects ⟨writes, barrier, [(slot, .command (.transactionBatch batch))], through⟩)
      (fun _ m' => m'.node = m.node) (fun _ _ => False) m := by
    rw [journalEffects, wp_ite]
    refine ⟨fun _ => ?_, fun _ => rfl⟩
    rw [wp_bind, wp_onError]
    refine wp_mono (wp_appendWrites_node writes m) (fun _ m₁ h₁ => ?_) fun _ _ hno => hno
    rw [wp_ite, wp_emit, wp_pure]
    exact ⟨fun _ => h₁, fun _ => h₁⟩
  have haccount (m₁ : Machine) (h₁ : m₁.node = m.node) :
      wp (accountCommitted [(slot, .command (.transactionBatch batch))])
        (fun _ m' => m'.node.appliedSlot = slot) (fun _ _ => False) m₁ := by
    rw [← h₁] at hpending hbase
    simp only [accountCommitted, List.forM_eq_forM, List.forM_cons, List.forM_nil, accountEntry, accountValue,
      accountBatch, settleBatch, wp_bind, wp_get, wp_refuseIf, wp_setNode, wp_ite, wp_pure, hpending, hbase,
      Bool.not_true, Bool.false_eq_true, false_implies, true_and, ne_eq, not_true_eq_false, implies_true,
      not_false_eq_true]
  rw [consumeRound, wp_bind]
  refine wp_mono hjournal (fun _ m₁ h₁ => ?_) fun _ _ hno => hno
  rw [accountEffects, wp_bind, wp_onError]
  refine wp_mono (haccount m₁ h₁) (fun _ m₂ h₂ => ?_) fun _ _ hno => hno
  rw [wp_bind, wp_get, wp_bind, wp_onError]
  refine wp_mono (wp_appendWrites_node _ m₂) (fun _ m₃ h₃ => ?_) fun _ _ hno => hno
  rw [wp_bind, wp_setNode, wp_emit]
  exact (congrArg Node.appliedSlot h₃).trans h₂

/-- What is captured is decided and accounted for before the append returns. -/
theorem wp_replicateCaptured_decides {t : CapturedTransaction}
    (hsize : (t.payload m.node.identity.databaseId).length ≤ maxPayloadBytes) :
    wp (replicateCaptured t decidesAtOnce)
      (fun slot m' => slot = m.node.appliedSlot + 1 ∧ m'.node.appliedSlot = slot) (fun _ _ => False) m := by
  have hfits : decide (maxPayloadBytes < (t.payload m.node.identity.databaseId).length) = false :=
    decide_eq_false (Nat.not_lt.2 hsize)
  have hbase : checkChainBase m.node.identity.databaseId m.node.lastChain m.node.lastDataSlot
      (m.node.capturedBatch t) = true := by
    simp only [checkChainBase, Node.capturedBatch, chainValid_build, Bool.and_true]
    simp [TransactionBatch.build]
  simp only [replicateCaptured, appendCaptured, decidesAtOnce, wp_bind, wp_get, wp_refuseIf, hfits, wp_emit,
    Bool.false_eq_true, false_implies, true_and, true_implies, wp_setNode, consumeEffects, List.forM_eq_forM,
    List.forM_cons, List.forM_nil]
  refine wp_mono (wp_consumeRound_captured ?_ ?_) (fun _ m' h' => ⟨rfl, h'⟩) fun _ _ hno => hno
  · rfl
  · exact hbase

theorem wp_replicateLive_decides {l : LiveNode} {t : WriterTransaction} (hframes : l.frames = t.committed.frames)
    (hstale : l.stale = []) (hcommitted : l.committedFrames = t.committed.frames.length)
    (hcaptured : l.capturedFrames = 0)
    (hsize : (t.captured.payload l.machine.node.identity.databaseId).length ≤ maxPayloadBytes) :
    wp (replicateLive t quietRun decidesAtOnce)
      (fun slot l' => slot = l.machine.node.appliedSlot + 1 ∧ l'.machine.node.appliedSlot = slot)
      (fun _ _ => False) l := by
  have hread : readCommittedFrames (l.frames ++ l.stale) l.capturedFrames l.committedFrames =
      .ok t.committed.captured := by
    rw [hframes, hstale, hcaptured, hcommitted]
    simpa using t.committed.read_eq [] []
  refine wp_replicateLive (fun _ => hread) (fun hlost => ?_) nofun ?_
  · rw [hcommitted, hcaptured] at hlost
    exact absurd t.committed.nonempty (Nat.not_lt.2 (hlost.resolve_right Bool.false_ne_true))
  · exact wp_replicateCaptured_decides hsize

/-- A first transaction that fits is appended at the next slot. -/
theorem wp_sealLive_decides {l : LiveNode} {t : WriterTransaction} (hframes : l.frames = [])
    (hcaptured : l.capturedFrames = 0)
    (hsize : (t.captured.payload l.machine.node.identity.databaseId).length ≤ maxPayloadBytes) :
    wp (sealLive t quietRun decidesAtOnce) (fun slot _ => slot = l.machine.node.appliedSlot + 1)
      (fun _ _ => False) l := by
  have hcommit (m : Machine) : (LiveNode.commit { l with machine := m } t.committed quietRun).frames =
      t.committed.frames := by
    rw [LiveNode.commit, hframes, List.nil_append, ite_self]
  simp only [sealLive, wp_bind, wp_get, wp_onMachine, wp_emit, wp_modify, wp_onError]
  refine wp_mono (wp_replicateLive_decides (hcommit _) rfl (congrArg List.length (hcommit _)) hcaptured hsize)
    (fun slot l' h => ?_) fun _ _ hno => hno
  obtain ⟨hslot, happlied⟩ := h
  rw [wp_bind, wp_get, wp_bind, wp_refuseLive, happlied, decide_eq_false (lt_irrefl slot), Bool.and_false]
  exact ⟨fun hno => absurd hno Bool.false_ne_true, fun _ => hslot⟩

/-- A table of one page, whatever is executed. -/
def pageEngine : Engine where
  State := Unit
  opened := fun _ => ()
  execute := fun _ _ => some ((), 1)
  aborts := fun _ _ => false
  spilled := fun _ => []
  contract := fun _ => true
  marked := fun _ _ => ()
  frames := fun _ _ => firstWrite.committed

/-- A node of one member that has just started. -/
def loneSession : Session pageEngine where
  node := .start (Machine.fresh { sampleConfig with single := true } 8)
  transaction := none
  totalChanges := 0
  liveChangesBase := 0
  liveBatchId := 0

/-- The storage cap is reached. -/
def atCap : Answers := ⟨⟨true, true, false, 1⟩, 5, quietRun, decidesAtOnce⟩

def insertion : Statement := ⟨[], []⟩

/-- The open transaction of a node of one member that has appended nothing yet. -/
structure Inserting (s : Session pageEngine) : Prop where
  live : s.node.machine.node.liveTransaction = true
  working : s.node.machine.node.fatalStorageError = false
  single : s.node.machine.node.single = true
  database : s.node.machine.node.identity.databaseId = 7
  applied : s.node.machine.node.appliedSlot = 0
  frames : s.node.frames = []
  captured : s.node.capturedFrames = 0
  transaction : ∃ t, s.transaction = some t

theorem wp_beginLive_lone {s : Session pageEngine} (hs : s = loneSession) :
    wp (beginLive atCap.status.stopPending atCap.batchId) (fun _ => Inserting) (fun _ _ => False) s := by
  subst hs
  have hsingle : loneSession.node.machine.node.single = true := rfl
  have hrole : loneSession.node.machine.node.capabilities.servesWrites = true := rfl
  have hidle : loneSession.node.machine.node.liveTransaction = false := rfl
  have hworks : loneSession.node.machine.node.fatalStorageError = false := rfl
  have hresync : loneSession.node.machine.node.needsResync = false := rfl
  have hpending : loneSession.node.machine.node.membershipChangePending = false := rfl
  have hcapture : loneSession.node.machine.node.captureBatchId = none := rfl
  have hopen : loneSession.node.machine.node.dbOpen = false := rfl
  have hstop : atCap.status.stopPending = false := rfl
  simp only [beginLive, beginLiveTransaction, openLive, ensureWriter, wp_bind, wp_onNode, wp_get, wp_refuseLive,
    wp_doLive, wp_onMachine, wp_refuseIf, wp_doIf, wp_emit, wp_setNode, wp_modify, LiveNode.connected, hsingle, hrole,
    hidle, hworks, hresync, hpending, hcapture, hopen, hstop, Bool.not_true, Bool.not_false, Bool.or_false,
    Bool.false_eq_true, false_implies, true_and, true_implies, and_true, Bool.true_eq_false, Option.isSome_none]
  exact ⟨rfl, rfl, rfl, rfl, rfl, rfl, rfl, _, rfl⟩

theorem Inserting.wp_liveExec {s : Session pageEngine} (h : Inserting s) (statement : Statement) :
    wp (liveExec statement) (fun _ => Inserting) (fun _ _ => False) s := by
  obtain ⟨t, ht⟩ := h.transaction
  have hlive : s.node.live = true := h.live
  have hexecute : pageEngine.execute statement t.state = some ((), 1) := rfl
  simp only [liveExec, step, wp_bind, wp_get, wp_refuse, wp_onError, hlive, h.working, ht, hexecute, wp_modify,
    wp_pure, Bool.not_true, Bool.false_eq_true, false_implies, true_and, true_implies]
  exact { h with transaction := ⟨_, rfl⟩ }

theorem Inserting.wp_commitLive {s : Session pageEngine} (h : Inserting s) :
    wp (commitLive atCap.status.stopPending atCap.run atCap.core) (fun slot _ => slot = 1) (fun _ _ => False) s := by
  obtain ⟨t, ht⟩ := h.transaction
  have hlive : s.node.live = true := h.live
  have hstop : atCap.status.stopPending = false := rfl
  have hcontract : pageEngine.contract t.state = true := rfl
  simp only [commitLive, verifyCaptureContract, sealTransaction, wp_bind, wp_get, wp_refuse, wp_onError, wp_onNode,
    wp_onMachine, wp_setNode, wp_ite, wp_pure, wp_throw, wp_modify, hlive, h.working, hstop, ht, hcontract,
    Option.any_some, Bool.not_true, Bool.false_eq_true, false_implies, true_and, true_implies, not_true_eq_false,
    and_true]
  refine wp_mono (wp_sealLive_decides h.frames h.captured ?_) (fun slot _ hslot => ?_) fun _ _ hno => hno
  · change (firstWrite.captured.payload s.node.machine.node.identity.databaseId).length ≤ maxPayloadBytes
    rw [length_payload]
    decide
  · exact hslot.trans (congrArg (· + 1) h.applied)

theorem Inserting.wp_statements {s : Session pageEngine} (h : Inserting s) (statements : List Statement) :
    wp (statements.forM fun statement => liveExec statement >>= fun _ => pure ()) (fun _ => Inserting)
      (fun _ _ => False) s := by
  refine wp_forM (fun _ => Inserting) statements s h fun pre statement post s' _ hs' => ?_
  rw [wp_bind]
  exact wp_mono (hs'.wp_liveExec statement) (fun _ _ h' => h') fun _ _ hno => hno

theorem wp_liveTransaction_atCap {s : Session pageEngine} (hs : s = loneSession) :
    wp (liveTransaction [insertion] atCap) (fun slot _ => slot = 1) (fun _ _ => False) s := by
  rw [liveTransaction, wp_bind]
  refine wp_mono (wp_beginLive_lone hs) (fun _ s hs => ?_) fun _ _ hno => hno
  rw [wp_bind]
  exact wp_mono (hs.wp_statements [insertion]) (fun _ s' hs' => hs'.wp_commitLive) fun _ _ hno => hno


theorem fits_insertion : Fits [insertion] := by decide

theorem wp_oneShot_atCap {s : Session pageEngine} (hs : s = loneSession) :
    wp (oneShot [insertion] atCap) (fun _ _ => False)
      (fun e _ => e = .live (.node .recoveryRetentionExceeded)) s := by
  have hworks : s.node.machine.node.fatalStorageError = false := by
    rw [hs]
    rfl
  have hserves : s.node.machine.node.capabilities.servesWrites = true := by
    rw [hs]
    rfl
  have hcap : atCap.status.overCap = true := rfl
  rw [wp_oneShot fits_insertion, hserves]
  refine ⟨nofun, fun _ => ⟨nofun, fun _ => ?_⟩⟩
  simp only [writePrepared, admitLive, wp_bind, wp_onNode, wp_get, wp_refuseLive, hworks, hcap, Bool.false_eq_true,
    Bool.true_eq_false, false_implies, true_implies, and_true]

end Lone

/-! ### The result -/

/-- **On a node of one member the two ways agree, and a rolled back transaction leaves no trace, exactly when**
the builder takes the list; the node serves no writes, or the list is not empty and neither the storage cap nor an
unsettled frontier stops `writeRequest` where `beginLive` goes on; and the image, where `beginLive` rebuilds it, is
already what the journal and the payloads come to. -/
theorem live_agrees_iff_unbypassed (statements : List Statement) (a : Answers) (s : Session E)
    (hsingle : s.node.machine.node.single = true) :
    SameOutcome statements a s ∧ LeavesNoTrace a s ↔
      Fits statements ∧
      (s.node.machine.node.capabilities.servesWrites = true →
        statements ≠ [] ∧ Unbypassed a.status s.node.machine) ∧
      (Rebuilds s.node.machine → s.node.machine.rebuilt.1.image = s.node.machine.disk.live) := by
  rw [leavesNoTrace_iff hsingle, ← and_assoc]
  refine and_congr_left fun _ => ⟨unbypassed_of_sameOutcome hsingle, fun h => ?_⟩
  exact sameOutcome_of hsingle h.1 h.2

/-- Past the storage cap a client that writes in several calls is served. -/
theorem cap_bypassed :
    ¬ (SameOutcome [insertion] atCap loneSession ∧ LeavesNoTrace atCap loneSession) ∧
      (∃ s, oneShot [insertion] atCap loneSession = .error (.live (.node .recoveryRetentionExceeded)) s) ∧
      ∃ s, liveTransaction [insertion] atCap loneSession = .ok 1 s := by
  obtain ⟨s, hs⟩ : ∃ s, s = loneSession := ⟨_, rfl⟩
  rw [← hs]
  obtain ⟨e, s₁, hrefused, rfl⟩ := eq_error_of_wp (wp_oneShot_atCap hs)
  obtain ⟨slot, s₂, happended, rfl⟩ := eq_ok_of_wp (wp_liveTransaction_atCap hs)
  refine ⟨fun h => ?_, ⟨s₁, hrefused⟩, ⟨s₂, happended⟩⟩
  obtain ⟨t, hraised⟩ := Alike.error h.1 hrefused
  exact nomatch happended.symm.trans hraised

def belowCap : Answers := ⟨⟨false, true, false, 1⟩, 5, quietRun, decidesAtOnce⟩

/-- The node has to rebuild its image first. -/
def staleSession : Session pageEngine :=
  { loneSession with
    node := .start
      { (Machine.fresh { sampleConfig with single := true } 8) with
        node := { (Machine.fresh { sampleConfig with single := true } 8).node with needsResync := true } } }

theorem rebuilt_staleSession : staleSession.node.machine.rebuilt =
    (⟨0, genesisChain 7, 0, false, File.empty⟩, true) := rfl

/-- Below the cap both ways append the statement, also where the image is rebuilt first. -/
theorem live_agrees_belowCap :
    (SameOutcome [insertion] belowCap loneSession ∧ LeavesNoTrace belowCap loneSession) ∧
      SameOutcome [insertion] belowCap staleSession ∧ LeavesNoTrace belowCap staleSession := by
  constructor
  · refine (live_agrees_iff_unbypassed [insertion] belowCap loneSession rfl).2
      ⟨fits_insertion, fun _ => ⟨List.cons_ne_nil _ _, Or.inr ⟨rfl, Or.inr (Or.inr rfl)⟩⟩, fun h => ?_⟩
    exact Bool.noConfusion h.2.2.2
  · refine (live_agrees_iff_unbypassed [insertion] belowCap staleSession rfl).2
      ⟨fits_insertion, fun _ => ⟨List.cons_ne_nil _ _, Or.inr ⟨rfl, Or.inr (Or.inr ?_)⟩⟩, fun _ => ?_⟩
    · rw [due, rebuilt_staleSession]
      rfl
    · rw [rebuilt_staleSession]
      rfl

end Transactions

end Zaxonlite
