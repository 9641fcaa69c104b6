import Zaxonlite.Embedded.SharedSafety

/-!
# Which image a pooled reader reads

The facade keeps a mirror of the node's resync flag, renewed after every turn, and what finds it up goes through the
gate, behind which the pool is closed. A thread that looked at the mirror before it waited for its turn does not look
again. As long as no turn is granted with the mirror up, no pooled connection is on an image that was replaced.
-/

namespace Zaxonlite

namespace Embedded

open Threads Counter

/-- A move that grants no turn while the mirror is up. -/
def Settled (s : SharedNode) (t : Phase) (s' : SharedNode) (t' : Phase) : Prop :=
  Move s t s' t' ∧ (t.hasTurn = false → t'.hasTurn = true → s.resyncPending = false)

/-- A facade adopted with a node whose image needs no rebuild. -/
def AdoptedFresh (x : Threads SharedNode Phase) : Prop :=
  Adopted x ∧ x.shared.inner.needsResync = false

/-- The mirror shows the flag while nobody has the node, and what is open is open on the image there is. -/
structure Current (s : SharedNode) : Prop where
  mirror : s.nodeBusy = false → s.inner.needsResync = true → s.resyncPending = true
  image : ∀ slot ∈ s.pool, slot.isOpen = true → slot.image = s.inner.image

/-- The flag is down while a turn is about to start. -/
def Ready (s : SharedNode) : Phase → Prop
  | .onNode _ => s.inner.needsResync = false
  | _ => True

section Steps

variable {s s' : SharedNode} {t t' u : Phase}

theorem resyncIfNeeded_of_not (n : Inner) (fails : Bool) (h : n.needsResync = false) : n.resyncIfNeeded fails = n := by
  rw [Inner.resyncIfNeeded, if_neg (by rw [h]; exact Bool.false_ne_true)]

theorem image_operate (n : Inner) (refused fails raises : Bool) (h : n.needsResync = false) :
    (n.operate refused fails raises).image = n.image := by
  rw [Inner.operate, resyncIfNeeded_of_not n fails h]
  split_ifs <;> rfl

theorem resyncIfNeeded_raises (n : Inner) (fails : Bool) (h : (n.resyncIfNeeded fails).needsResync = true) :
    n.needsResync = true := by
  cases hflag : n.needsResync
  · rw [resyncIfNeeded_of_not n fails hflag, hflag] at h
    exact h
  · rfl

theorem createStateAnchor_raises (n : Inner) (refused fails : Bool)
    (h : (n.createStateAnchor refused fails).needsResync = true) : n.needsResync = true := by
  rw [Inner.createStateAnchor] at h
  split at h
  · exact h
  · exact resyncIfNeeded_raises n fails h

theorem mem_ensureSlotOpen {i : ℕ} {slot : ReadSlot} (h : slot ∈ (s.ensureSlotOpen i).pool) :
    slot ∈ s.pool ∨ slot.image = s.inner.image := by
  obtain ⟨k, hk, rfl⟩ := List.getElem_of_mem h
  have hk' : k < s.pool.length := by rwa [SharedNode.ensureSlotOpen, List.length_modify] at hk
  simp only [SharedNode.ensureSlotOpen, List.getElem_modify]
  split
  · split
    · exact .inl (List.getElem_mem hk')
    · exact .inr rfl
  · exact .inl (List.getElem_mem hk')

theorem Effect.current (h : Effect s t s' t') (hI : Sound s) (hc : Covers count weight s t) (hst : Stands s t)
    (hr : Ready s t) (hcur : Current s) : Current s' := by
  have hclosed {P : ReadSlot → Prop} (hgate : t.hasGate = true) : ∀ slot ∈ s.pool, slot.isOpen = true → P slot := by
    have hheld : t.hasGate.toNat ≤ s.exclusiveHeld.toNat := hc .held
    have hheld' : s.exclusiveHeld = true := by
      cases hs : s.exclusiveHeld
      · rw [hgate, hs] at hheld
        exact absurd hheld (by simp)
      · rfl
    exact fun slot hslot hopen => absurd (((hI.gate hheld').2.2 slot hslot).symm.trans hopen) Bool.false_ne_true
  cases h with
  | takeGate c hfree hopen =>
    exact ⟨hcur.mirror, fun slot hslot hopen => absurd ((mem_closePool hslot).symm.trans hopen) Bool.false_ne_true⟩
  | getGate c o hfree hopen =>
    exact ⟨hcur.mirror, fun slot hslot hopen => absurd ((mem_closePool hslot).symm.trans hopen) Bool.false_ne_true⟩
  | closeAtOnce hopen hdrained =>
    exact ⟨hcur.mirror, fun slot hslot hopen => absurd ((mem_closePool hslot).symm.trans hopen) Bool.false_ne_true⟩
  | endClose o hdrained =>
    exact ⟨hcur.mirror, fun slot hslot hopen => absurd ((mem_closePool hslot).symm.trans hopen) Bool.false_ne_true⟩
  | rebuild c fails hdone => exact ⟨fun _ h => absurd (hdone.symm.trans h) Bool.false_ne_true, hclosed rfl⟩
  | rebuildFails c fails =>
    exact ⟨fun hidle h => hcur.mirror hidle (resyncIfNeeded_raises _ _ h), hclosed rfl⟩
  | anchor refused fails ending =>
    exact ⟨fun hidle h => hcur.mirror hidle (createStateAnchor_raises _ _ _ h), hclosed rfl⟩
  | clear c => exact ⟨fun _ h => absurd (hst.symm.trans h) Bool.false_ne_true, hcur.image⟩
  | takeTurn c hdepth hfree hopen => exact ⟨fun hidle => absurd hidle (by simp), hcur.image⟩
  | getTurn c o hfree hopen => exact ⟨fun hidle => absurd hidle (by simp), hcur.image⟩
  | operate c refused fails raises ending =>
    refine ⟨fun hidle => ?_, fun slot hslot hopen => ?_⟩
    · have hbusy : 1 ≤ s.nodeBusy.toNat := hc .busy
      rw [hidle] at hbusy
      exact absurd hbusy (by simp)
    · exact (hcur.image slot hslot hopen).trans (image_operate _ _ _ _ hr).symm
  | releaseTurn ending => exact ⟨fun _ h => h, hcur.image⟩
  | takeSlot ht hslot hidle hheld hwaiting hopen =>
    refine ⟨hcur.mirror, fun slot hslot hopen => ?_⟩
    obtain ⟨slot₀, hslot₀, hopen₀, himage⟩ := mem_modify_inUse hslot
    exact himage.trans (hcur.image slot₀ hslot₀ (hopen₀.symm.trans hopen))
  | releaseSlot i ending =>
    refine ⟨hcur.mirror, fun slot hslot hopen => ?_⟩
    obtain ⟨slot₀, hslot₀, hopen₀, himage⟩ := mem_modify_inUse hslot
    exact himage.trans (hcur.image slot₀ hslot₀ (hopen₀.symm.trans hopen))
  | connect i =>
    refine ⟨hcur.mirror, fun slot hslot hopen => ?_⟩
    rcases mem_ensureSlotOpen hslot with hold | himage
    · exact hcur.image slot hold hopen
    · exact himage
  | _ => exact ⟨hcur.mirror, hcur.image⟩

theorem Effect.image (h : Effect s t s' t') (hr : Ready s t) : s'.inner.image = s.inner.image ∨ t.hasGate = true := by
  cases h with
  | rebuild c fails hdone => exact .inr rfl
  | rebuildFails c fails => exact .inr rfl
  | anchor refused fails ending => exact .inr rfl
  | operate c refused fails raises ending => exact .inl (image_operate _ _ _ _ hr)
  | _ => exact .inl rfl

theorem Effect.ready (h : Effect s t s' t') (hcur : Current s)
    (hsettled : t.hasTurn = false → t'.hasTurn = true → s.resyncPending = false) : Ready s' t' := by
  have hdown (hidle : s.nodeBusy = false) (hmirror : s.resyncPending = false) : s.inner.needsResync = false := by
    cases hflag : s.inner.needsResync
    · rfl
    · exact absurd (hmirror.symm.trans (hcur.mirror hidle hflag)) Bool.false_ne_true
  cases h with
  | takeTurn c hdepth hfree hopen => exact hdown (SharedNode.turnBlocked_eq_false.1 hfree).1 (hsettled rfl rfl)
  | getTurn c o hfree hopen => exact hdown (SharedNode.turnBlocked_eq_false.1 hfree).1 (hsettled rfl rfl)
  | _ => trivial

theorem Effect.ready_other (h : Effect s t s' t') (hI : Sound s) (hc : CoversBoth count weight s t u)
    (hr : Ready s u) : Ready s' u := by
  cases u with
  | onNode c =>
    have hturn : t.hasTurn.toNat + 1 ≤ s.nodeBusy.toNat := hc .busy
    have hgate : t.hasGate.toNat ≤ s.exclusiveHeld.toNat := (Nat.le_add_right _ _).trans (hc .held)
    have hle := Bool.toNat_le s.nodeBusy
    have hnogate : t.hasGate = false := by
      cases hs : s.exclusiveHeld
      · rw [hs] at hgate
        exact Bool.toNat_eq_zero.1 (Nat.le_zero.1 hgate)
      · rw [(hI.gate hs).1] at hturn
        exact absurd hturn (by simp)
    cases h with
    | rebuild c fails hdone => cases hnogate
    | rebuildFails c fails => cases hnogate
    | anchor refused fails ending => cases hnogate
    | operate c refused fails raises ending => exact absurd hturn (by simp; omega)
    | _ => exact hr
  | _ => trivial

end Steps

section Interleaved

variable {x : Threads SharedNode Phase}

theorem isOpen_of_adopted (h : Adopted x) : ∀ slot ∈ x.shared.pool, slot.isOpen = false := by
  obtain ⟨⟨inner, options, hadopt⟩, -⟩ := h
  rw [SharedNode.adopt] at hadopt
  split at hadopt
  · cases hadopt
  split at hadopt
  · cases hadopt
  intro slot hslot
  rw [← Except.ok.inj hadopt] at hslot
  rw [List.eq_of_mem_replicate hslot]

/-- Every pooled connection is on the image there is, and so is every reader, in a run that starts with a node whose
image needs no rebuild and grants no turn with the mirror up. The image is replaced behind the gate only, which one
thread has and the pool is closed. -/
theorem reads_current_of_settled (h : Run.Reachable AdoptedFresh (Step Settled) x) :
    (∀ slot ∈ x.shared.pool, slot.isOpen = true → slot.image = x.shared.inner.image) ∧
      (∀ t ∈ x.locals, ∀ i, t = .reading i →
        ∃ slot, x.shared.pool[i]? = some slot ∧ slot.isOpen = true ∧ slot.image = x.shared.inner.image) ∧
      ∀ y, Step Settled x y → y.shared.inner.image ≠ x.shared.inner.image →
        x.locals.countP Phase.hasGate = 1 ∧ ∀ slot ∈ x.shared.pool, slot.isOpen = false := by
  have hall : (Kept x ∧ Current x.shared) ∧ ∀ t ∈ x.locals, Ready x.shared t := by
    refine h.invariant (I := fun x => (Kept x ∧ Current x.shared) ∧ ∀ t ∈ x.locals, Ready x.shared t) ?_ ?_
    · rintro x ⟨hadopted, hfresh⟩
      refine ⟨⟨hadopted.kept, fun _ h => absurd (hfresh.symm.trans h) Bool.false_ne_true, ?_⟩, fun t ht => ?_⟩
      · exact fun slot hslot hopen =>
          absurd ((isOpen_of_adopted hadopted slot hslot).symm.trans hopen) Bool.false_ne_true
      · rw [hadopted.2 t ht]
        trivial
    · rintro x y ⟨⟨hk, hcur⟩, hr⟩ hstep
      refine ⟨⟨hk.step (hstep.mono fun _ _ _ _ hm => hm.1), ?_⟩, ?_⟩
      · exact hstep.shared (I := Sound) (P := fun s t => Stands s t ∧ Ready s t)
          (fun _ _ _ _ hI hc hst hm hcur => hm.1.effect.current hI hc hst.1 hst.2 hcur) hk.sound hk.accounted
          (fun t ht => ⟨hk.stands t ht, hr t ht⟩) hcur
      · exact hstep.forall (I := fun s => Sound s ∧ Current s)
          (fun _ _ _ _ hI _ hm _ => hm.1.effect.ready hI.2 hm.2)
          (fun _ _ _ _ _ hI hc hm _ hr => hm.1.effect.ready_other hI.1 hc hr) ⟨hk.sound, hcur⟩ hk.accounted hr
  obtain ⟨⟨hk, hcur⟩, hready⟩ := hall
  refine ⟨hcur.image, ?_, fun y hstep hmoved => ?_⟩
  · rintro t ht i rfl
    have hopen : x.shared.pool[i]?.any ReadSlot.isOpen = true := hk.stands _ ht
    cases hslot : x.shared.pool[i]? with
    | none =>
      rw [hslot] at hopen
      cases hopen
    | some slot =>
      rw [hslot] at hopen
      exact ⟨slot, rfl, hopen, hcur.image slot (List.mem_of_getElem? hslot) hopen⟩
  · have hgate : ∃ t ∈ x.locals, t.hasGate = true := by
      cases hstep with
      | @moves s s' t t' before after hm =>
        have hmem : t ∈ before ++ t :: after := List.mem_append_right _ List.mem_cons_self
        exact ⟨t, hmem, (hm.1.effect.image (hready t hmem)).resolve_left hmoved⟩
    obtain ⟨t, ht, hheld⟩ := hgate
    have hpos : 0 < x.locals.countP Phase.hasGate := List.countP_pos_iff.2 ⟨t, ht, hheld⟩
    have hcount := hk.countP_le .held Phase.hasGate fun _ => rfl
    have hle := Bool.toNat_le x.shared.exclusiveHeld
    have hone : count .held x.shared = x.shared.exclusiveHeld.toNat := rfl
    refine ⟨by omega, (hk.sound.gate (Bool.toNat_eq_one.1 (by omega))).2.2⟩

theorem Settled.move {s s' : SharedNode} {t t' : Phase} (before after : List Phase)
    (h : Run.Reachable AdoptedFresh (Step Settled) ⟨s, before ++ t :: after⟩) (hm : Move s t s' t')
    (hturn : t.hasTurn = false → t'.hasTurn = true → s.resyncPending = false) :
    Run.Reachable AdoptedFresh (Step Settled) ⟨s', before ++ t' :: after⟩ :=
  .step h (.moves before after ⟨hm, hturn⟩)

/-- A write has raised the flag, and a query is about to rebuild the image. -/
def rebuildingSample : Threads SharedNode Phase :=
  ⟨{ adoptedSample with
      inner := ⟨true, 0⟩, stateGen := 2, bumps := 2, entrants := 1, exclusiveHeld := true, resyncPending := true },
    [.exclusive (.maintainResync .query)]⟩

theorem settled_rebuildingSample : Run.Reachable AdoptedFresh (Step Settled) rebuildingSample := by
  have h₀ : Run.Reachable AdoptedFresh (Step Settled) ⟨adoptedSample, [.outside]⟩ :=
    .start ⟨⟨⟨⟨false, 0⟩, ⟨1, 32⟩, rfl⟩, by simp⟩, rfl⟩
  have h₁ := Settled.move [] [] h₀ (.enter .delegated rfl) (fun _ _ => rfl)
  have h₂ := Settled.move [] [] h₁ (.maintain _ .delegated) (fun _ _ => rfl)
  have h₃ := Settled.move [] [] h₂ (.acquireNodeTurn _ .delegated false (by decide)) (fun _ _ => rfl)
  have h₄ := Settled.move [] [] h₃ (.operate _ .delegated false false true none (by decide)) (fun h => by cases h)
  have h₅ := Settled.move [] [] h₄ (.releaseNodeTurn _ none) (fun _ h => by cases h)
  have h₆ := Settled.move [] [] h₅ (.exit _ none) (fun _ h => by cases h)
  have h₇ := Settled.move [] [] h₆ (.enter .query rfl) (fun _ h => by cases h)
  have h₈ := Settled.move [] [] h₇ (.maintain _ .query) (fun _ h => by cases h)
  exact Settled.move [] [] h₈ (.acquireExclusive _ (.maintainResync .query)) (fun _ h => by cases h)

/-- The query reads on the image it rebuilt. -/
def readingSample : Threads SharedNode Phase :=
  ⟨{ adoptedSample with
      inner := ⟨false, 1⟩, stateGen := 3, bumps := 3, entrants := 1, readersActive := 1, pool := [⟨true, true, 1⟩] },
    [.reading 0]⟩

theorem settled_readingSample : Run.Reachable AdoptedFresh (Step Settled) readingSample := by
  have h₁ := Settled.move [] [] settled_rebuildingSample
    (.exclusive _ (.maintainResync .query) false false none) (fun _ h => by cases h)
  have h₂ := Settled.move [] [] h₁ (.clear _ .query) (fun _ h => by cases h)
  have h₃ := Settled.move [] [] h₂ (.releaseExclusive _ (.inl .query)) (fun _ h => by cases h)
  have h₄ := Settled.move [] [] h₃ (.acquireReadSlot _ false) (fun _ h => by cases h)
  exact Settled.move [] [] h₄ (.«open» _ 0) (fun _ h => by cases h)

/-- The gate was held by the one thread that replaced the image, and the query reads on the new one. -/
theorem reads_current_readingSample :
    (rebuildingSample.locals.countP Phase.hasGate = 1 ∧
      ∀ slot ∈ rebuildingSample.shared.pool, slot.isOpen = false) ∧
    ∃ slot, readingSample.shared.pool[0]? = some slot ∧ slot.isOpen = true ∧
      slot.image = readingSample.shared.inner.image := by
  constructor
  · refine (reads_current_of_settled settled_rebuildingSample).2.2 _ (.moves [] []
      ⟨.exclusive _ (.maintainResync .query) false false none, fun _ h => by cases h⟩) ?_
    exact Nat.one_ne_zero
  · exact (reads_current_of_settled settled_readingSample).2.1 _ List.mem_cons_self 0 rfl

/-- The mirror is looked at before the wait for the turn: two writes that found it down run one after the other, the
first raises the flag, and the second rebuilds the image under the reader. -/
theorem interleaved_overtaken : Interleaved
    ⟨{ adoptedSample with
        inner := ⟨false, 1⟩, stateGen := 1, bumps := 1, entrants := 3, writeTickets := 1, nodeBusy := true,
        readersActive := 1, resyncPending := true, pool := [⟨true, true, 0⟩] },
      [.reading 0, .leaving none, .leavingNode none]⟩ := by
  have h₀ : Interleaved ⟨adoptedSample, [.outside, .outside, .outside]⟩ :=
    .start ⟨⟨⟨false, 0⟩, ⟨1, 32⟩, rfl⟩, by simp⟩
  have h₁ := h₀.move [] [.outside, .outside] (.enter .query rfl)
  have h₂ := h₁.move [] [.outside, .outside] (.maintain _ .query)
  have h₃ := h₂.move [] [.outside, .outside] (.acquireReadSlot _ false)
  have h₄ := h₃.move [] [.outside, .outside] (.«open» _ 0)
  have h₅ := h₄.move [.reading 0] [.outside] (.enter .delegated rfl)
  have h₆ := h₅.move [.reading 0] [.outside] (.maintain _ .delegated)
  have h₇ := h₆.move [.reading 0, .maintained .delegated] [] (.enter .delegated rfl)
  have h₈ := h₇.move [.reading 0, .maintained .delegated] [] (.maintain _ .delegated)
  have h₉ := h₈.move [.reading 0] [.maintained .delegated] (.acquireNodeTurn _ .delegated false (by decide))
  have h₁₀ := h₉.move [.reading 0] [.maintained .delegated] (.operate _ .delegated false false true none (by decide))
  have h₁₁ := h₁₀.move [.reading 0] [.maintained .delegated] (.releaseNodeTurn _ none)
  have h₁₂ := h₁₁.move [.reading 0, .leaving none] [] (.acquireNodeTurn _ .delegated false (by decide))
  exact h₁₂.move [.reading 0, .leaving none] [] (.operate _ .delegated false false false none (by decide))

end Interleaved

end Embedded

end Zaxonlite
