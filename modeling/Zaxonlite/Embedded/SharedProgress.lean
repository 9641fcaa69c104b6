import Zaxonlite.Embedded.SharedSafety

/-!
# No wakeup is lost

A thread sleeps only on a generation at which it was blocked, and whatever unblocks a thread bumps the generation.
The generation wraps, so that holds of a thread that is parked before it comes round to what the thread observed. Then,
whenever anyone is inside, somebody is awake or woken, and as each section brings its thread closer to the end of its
call, a facade nobody enters any more is empty in finitely many moves.
-/

namespace Zaxonlite

namespace Embedded

open Threads Counter

/-! ### Sleeping -/

/-- What keeps a sleeping thread where it is. -/
def Waits (s : SharedNode) : Phase → Prop
  | .excluding _ _ => s.gateBlocked = true ∧ s.closed = false
  | .awaitingTurn _ _ => s.turnBlocked = true ∧ s.closed = false
  | .awaitingSlot _ => s.slotBlocked = true ∧ s.closed = false
  | .closing _ => s.entrants ≠ 0
  | _ => True

/-- How often the generation had been bumped when the thread looked at it, or was parked. -/
def Sleep.moment : Sleep → ℕ
  | .about _ looked => looked
  | .parked since => since

/-- A thread observes the generation of its look. -/
def Sleep.Observes : Sleep → Prop
  | .about observed looked => observed = UInt32.ofNat looked
  | .parked _ => True

/-- A thread that has not been bumped since it looked, or was parked, still waits. -/
structure Slept (s : SharedNode) (t : Phase) (w : Sleep) : Prop where
  le : w.moment ≤ s.bumps
  waits : w.moment = s.bumps → Waits s t
  observes : w.Observes

def Sleeps (s : SharedNode) (t : Phase) : Prop :=
  ∀ w, t.sleep = some w → Slept s t w

/-- The generation counts the bumps, in 32 bits. -/
def Counted (s : SharedNode) : Prop :=
  s.stateGen = UInt32.ofNat s.bumps

/-- A move that parks its thread, if it does, before the generation has come round to what the thread observed. -/
def Prompt (s : SharedNode) (t : Phase) (s' : SharedNode) (t' : Phase) : Prop :=
  Move s t s' t' ∧ ∀ observed looked since, t.sleep = some (.about observed looked) →
    t'.sleep = some (.parked since) → since < looked + 2 ^ 32

section Wakes

variable {s s' : SharedNode} {t t' u : Phase}

theorem turnBlocked_of_busy (h : s.nodeBusy = true) : s.turnBlocked = true := by
  rw [SharedNode.turnBlocked, h, Bool.true_or, Bool.true_or]

theorem turnBlocked_of_held (h : s.exclusiveHeld = true) : s.turnBlocked = true := by
  rw [SharedNode.turnBlocked, h, Bool.or_true, Bool.true_or]

theorem gateBlocked_of_busy (h : s.nodeBusy = true) : s.gateBlocked = true := by
  rw [SharedNode.gateBlocked, h, Bool.true_or, Bool.true_or]

theorem gateBlocked_of_held (h : s.exclusiveHeld = true) : s.gateBlocked = true := by
  rw [SharedNode.gateBlocked, h, Bool.or_true]

theorem slotBlocked_of_held (h : s.exclusiveHeld = true) : s.slotBlocked = true := by
  rw [SharedNode.slotBlocked, h, Bool.true_or, Bool.true_or]

theorem waits_of_held (hheld : s'.exclusiveHeld = true) (hclosed : s'.closed = s.closed)
    (hentrants : s'.entrants = s.entrants) (h : Waits s u) : Waits s' u := by
  cases u with
  | excluding c w => exact ⟨gateBlocked_of_held hheld, hclosed.trans h.2⟩
  | awaitingTurn c w => exact ⟨turnBlocked_of_held hheld, hclosed.trans h.2⟩
  | awaitingSlot w => exact ⟨slotBlocked_of_held hheld, hclosed.trans h.2⟩
  | closing w => exact fun hdrained => h (hentrants.symm.trans hdrained)
  | _ => trivial

theorem waits_of_busy (hbusy : s'.nodeBusy = true) (hclosed : s'.closed = s.closed)
    (hentrants : s'.entrants = s.entrants) (hslot : s'.slotBlocked = s.slotBlocked) (h : Waits s u) : Waits s' u := by
  cases u with
  | excluding c w => exact ⟨gateBlocked_of_busy hbusy, hclosed.trans h.2⟩
  | awaitingTurn c w => exact ⟨turnBlocked_of_busy hbusy, hclosed.trans h.2⟩
  | awaitingSlot w => exact ⟨hslot.trans h.1, hclosed.trans h.2⟩
  | closing w => exact fun hdrained => h (hentrants.symm.trans hdrained)
  | _ => trivial

theorem all_inUse_eq {pool pool' : List ReadSlot} (h : pool'.map ReadSlot.inUse = pool.map ReadSlot.inUse) :
    (pool'.all fun slot => slot.inUse) = pool.all fun slot => slot.inUse := by
  have hall : (pool'.map ReadSlot.inUse).all id = (pool.map ReadSlot.inUse).all id := by rw [h]
  rw [List.all_map, List.all_map] at hall
  exact hall

theorem map_inUse_closePool : s.closePool.pool.map ReadSlot.inUse = s.pool.map ReadSlot.inUse :=
  List.map_map

theorem map_inUse_ensureSlotOpen (i : ℕ) :
    (s.ensureSlotOpen i).pool.map ReadSlot.inUse = s.pool.map ReadSlot.inUse := by
  refine List.ext_getElem? fun k => ?_
  rw [SharedNode.ensureSlotOpen, List.getElem?_map, List.getElem?_map, List.getElem?_modify]
  cases s.pool[k]? with
  | none => rfl
  | some slot =>
    rw [Option.map_eq_map, Option.map_some, Option.map_some, Option.map_some]
    split
    · split <;> rfl
    · rfl

theorem Effect.waits (h : Effect s t s' t') (hgen : s'.bumps = s.bumps) (hw : Waits s u) : Waits s' u := by
  cases h with
  | takeGate c hfree hopen => exact waits_of_held (s := s) rfl rfl rfl hw
  | getGate c w hfree hopen => exact waits_of_held (s := s) rfl rfl rfl hw
  | takeTurn c hdepth hfree hopen => exact waits_of_busy (s := s) rfl rfl rfl rfl hw
  | getTurn c w hfree hopen => exact waits_of_busy (s := s) rfl rfl rfl rfl hw
  | openForCall c => exact absurd hgen (Nat.succ_ne_self _)
  | openAtEnd ending => exact absurd hgen (Nat.succ_ne_self _)
  | releaseTurn ending => exact absurd hgen (Nat.succ_ne_self _)
  | releaseSlot i ending => exact absurd hgen (Nat.succ_ne_self _)
  | exit ending => exact absurd hgen (Nat.succ_ne_self _)
  | startClose hopen hinside => exact absurd hgen (Nat.succ_ne_self _)
  | closeAtOnce hopen hdrained => exact absurd hgen (Nat.succ_ne_self _)
  | enter c hopen =>
    cases u with
    | closing w => exact Nat.succ_ne_zero _
    | _ => exact hw
  | enterForAnchor hopen =>
    cases u with
    | closing w => exact Nat.succ_ne_zero _
    | _ => exact hw
  | waitForGate c hblocked hopen =>
    cases u with
    | awaitingTurn d w =>
      refine ⟨?_, hw.2⟩
      rw [SharedNode.turnBlocked, bne_iff_ne.2 (Nat.succ_ne_zero _), Bool.or_true]
    | awaitingSlot w =>
      refine ⟨?_, hw.2⟩
      rw [SharedNode.slotBlocked, bne_iff_ne.2 (Nat.succ_ne_zero _), Bool.or_true, Bool.true_or]
    | _ => exact hw
  | giveUpGate c w hclosed =>
    cases u with
    | excluding d w => exact absurd (hw.2.symm.trans hclosed) Bool.false_ne_true
    | awaitingTurn d w => exact absurd (hw.2.symm.trans hclosed) Bool.false_ne_true
    | awaitingSlot w => exact absurd (hw.2.symm.trans hclosed) Bool.false_ne_true
    | _ => exact hw
  | takeSlot ht hslot hidle hheld hwaiting hopen =>
    cases u with
    | excluding d w =>
      refine ⟨?_, hw.2⟩
      rw [SharedNode.gateBlocked, bne_iff_ne.2 (Nat.succ_ne_zero _), Bool.or_true, Bool.true_or]
    | awaitingSlot w =>
      have hall := hw.1
      rw [SharedNode.slotBlocked, hheld, hwaiting, bne_self_eq_false, Bool.false_or, Bool.false_or,
        List.all_eq_true] at hall
      exact absurd (hidle.symm.trans (hall _ (List.mem_of_getElem? hslot))) Bool.false_ne_true
    | _ => exact hw
  | connect i =>
    cases u with
    | awaitingSlot w =>
      refine ⟨?_, hw.2⟩
      rw [SharedNode.slotBlocked, all_inUse_eq (map_inUse_ensureSlotOpen i)]
      exact hw.1
    | _ => exact hw
  | endClose w hdrained =>
    cases u with
    | closing w => exact absurd hdrained hw
    | awaitingSlot w =>
      refine ⟨?_, hw.2⟩
      rw [SharedNode.slotBlocked, all_inUse_eq map_inUse_closePool]
      exact hw.1
    | _ => exact hw
  | _ =>
    cases u <;> exact hw

theorem sleeps_of_sleep_eq_none (h : t.sleep = none) : Sleeps s t :=
  fun _ hw => absurd (h.symm.trans hw) (by simp)

theorem sleeps_of_look (hcounted : Counted s) (h : t.sleep = some s.look) (hw : Waits s t) : Sleeps s t := by
  intro w hsleep
  obtain rfl := Option.some.inj (h.symm.trans hsleep)
  exact ⟨le_rfl, fun _ => hw, hcounted⟩

theorem eq_of_ofNat_eq {looked bumps : ℕ} (h : UInt32.ofNat bumps = UInt32.ofNat looked) (hle : looked ≤ bumps)
    (hlt : bumps < looked + 2 ^ 32) : looked = bumps := by
  have hmod : bumps % 2 ^ 32 = looked % 2 ^ 32 := by
    rw [← UInt32.toNat_ofNat', ← UInt32.toNat_ofNat', h]
  omega

theorem sleeps_of_park {looked : ℕ} (hcounted : Counted s) (hs : Sleeps s t)
    (hsleep : t.sleep = some (.about s.stateGen looked)) (hlt : s.bumps < looked + 2 ^ 32)
    (h' : t'.sleep = some (.parked s.bumps)) (hsame : Waits s t → Waits s t') : Sleeps s t' := by
  have hslept := hs _ hsleep
  have hnow : looked = s.bumps := eq_of_ofNat_eq (hcounted.symm.trans hslept.observes) hslept.le hlt
  intro w hw
  obtain rfl := Option.some.inj (h'.symm.trans hw)
  exact ⟨le_rfl, fun _ => hsame (hslept.waits hnow), trivial⟩

theorem Effect.counted (h : Effect s t s' t') (hcounted : Counted s) : Counted s' := by
  have hbump : s.stateGen + 1 = UInt32.ofNat (s.bumps + 1) := by
    rw [hcounted, UInt32.ofNat_add]
    rfl
  cases h with
  | openForCall c => exact hbump
  | openAtEnd ending => exact hbump
  | releaseTurn ending => exact hbump
  | releaseSlot i ending => exact hbump
  | exit ending => exact hbump
  | startClose hopen hinside => exact hbump
  | closeAtOnce hopen hdrained => exact hbump
  | _ => exact hcounted

/-- A thread that goes to sleep is blocked at the generation it sleeps on. -/
theorem Effect.sleeps (h : Effect s t s' t') (hcounted : Counted s)
    (hprompt : ∀ observed looked since, t.sleep = some (.about observed looked) →
      t'.sleep = some (.parked since) → since < looked + 2 ^ 32)
    (hs : Sleeps s t) : Sleeps s' t' := by
  have hcounted' := h.counted hcounted
  cases h with
  | waitForGate c hblocked hopen => exact sleeps_of_look hcounted' rfl ⟨hblocked, hopen⟩
  | waitOnForGate c w hblocked hopen => exact sleeps_of_look hcounted' rfl ⟨hblocked, hopen⟩
  | waitForTurn c hdepth hblocked hopen => exact sleeps_of_look hcounted' rfl ⟨hblocked, hopen⟩
  | waitOnForTurn c w hblocked hopen => exact sleeps_of_look hcounted' rfl ⟨hblocked, hopen⟩
  | waitForSlot ht hblocked hopen => exact sleeps_of_look hcounted' rfl ⟨hblocked, hopen⟩
  | startClose hopen hinside => exact sleeps_of_look hcounted' rfl hinside
  | waitOnForEntrants w hinside => exact sleeps_of_look hcounted' rfl hinside
  | parkForGate u looked => exact sleeps_of_park hcounted hs rfl (hprompt _ _ _ rfl rfl) rfl id
  | parkForTurn c looked => exact sleeps_of_park hcounted hs rfl (hprompt _ _ _ rfl rfl) rfl id
  | parkForSlot looked => exact sleeps_of_park hcounted hs rfl (hprompt _ _ _ rfl rfl) rfl id
  | parkForEntrants looked => exact sleeps_of_park hcounted hs rfl (hprompt _ _ _ rfl rfl) rfl id
  | _ => exact sleeps_of_sleep_eq_none rfl

theorem Effect.bumps_le (h : Effect s t s' t') : s.bumps ≤ s'.bumps := by
  cases h with
  | openForCall c => exact Nat.le_succ _
  | openAtEnd ending => exact Nat.le_succ _
  | releaseTurn ending => exact Nat.le_succ _
  | releaseSlot i ending => exact Nat.le_succ _
  | exit ending => exact Nat.le_succ _
  | startClose hopen hinside => exact Nat.le_succ _
  | closeAtOnce hopen hdrained => exact Nat.le_succ _
  | _ => exact le_rfl

theorem Effect.sleeps_other (h : Effect s t s' t') (hs : Sleeps s u) : Sleeps s' u := by
  intro w hw
  obtain ⟨hle, hwaits, hobserves⟩ := hs w hw
  refine ⟨hle.trans h.bumps_le, fun hnow => ?_, hobserves⟩
  have hgen : s'.bumps = s.bumps := le_antisymm (hnow ▸ hle) h.bumps_le
  exact h.waits hgen (hwaits (hnow.trans hgen))

end Wakes

/-! ### Every interleaving -/

section Interleaved

variable {x y : Threads SharedNode Phase}

/-- The states an interleaving of prompt moves leads to. -/
def PromptlyInterleaved : Threads SharedNode Phase → Prop :=
  Run.Reachable Adopted (Step Prompt)

theorem Adopted.counted (h : Adopted x) : Counted x.shared := by
  obtain ⟨⟨inner, options, hadopt⟩, -⟩ := h
  rw [SharedNode.adopt] at hadopt
  split at hadopt
  · cases hadopt
  split at hadopt
  · cases hadopt
  rw [← Except.ok.inj hadopt]
  rfl

theorem PromptlyInterleaved.sleeps (h : PromptlyInterleaved x) :
    Kept x ∧ ∀ t ∈ x.locals, Sleeps x.shared t := by
  have hall : (Kept x ∧ Counted x.shared) ∧ ∀ t ∈ x.locals, Sleeps x.shared t := by
    refine h.invariant (I := fun x => (Kept x ∧ Counted x.shared) ∧ ∀ t ∈ x.locals, Sleeps x.shared t)
      (fun x hx => ⟨⟨hx.kept, hx.counted⟩, fun t ht => ?_⟩) ?_
    · rw [hx.2 t ht]
      exact sleeps_of_sleep_eq_none rfl
    · rintro x y ⟨⟨hk, hcounted⟩, hs⟩ hstep
      refine ⟨⟨hk.step (hstep.mono fun _ _ _ _ hm => hm.1), ?_⟩, ?_⟩
      · exact hstep.shared (I := fun _ => True) (P := Sleeps)
          (fun _ _ _ _ _ _ _ hm hcounted => hm.1.effect.counted hcounted) trivial hk.accounted hs hcounted
      · exact hstep.forall (I := Counted) (fun _ _ _ _ hI _ hm hs => hm.1.effect.sleeps hI hm.2 hs)
          (fun _ _ _ _ _ _ _ hm _ hs => hm.1.effect.sleeps_other hs) hcounted hk.accounted hs
  exact ⟨hall.1.1, hall.2⟩

theorem Kept.exists_awake (h : Kept x) (hs : ∀ t ∈ x.locals, Sleeps x.shared t) {t : Phase} (ht : t ∈ x.locals)
    (hin : t ≠ .outside) : ∃ u ∈ x.locals, u ≠ .outside ∧ u.sleep ≠ some (.parked x.shared.bumps) := by
  by_contra hno
  have hasleep (u : Phase) (hu : u ∈ x.locals) (hne : u ≠ .outside) : u.sleep = some (.parked x.shared.bumps) :=
    not_not.1 fun hawake => hno ⟨u, hu, hne, hawake⟩
  have hwaits (u : Phase) (hu : u ∈ x.locals) (hne : u ≠ .outside) : Waits x.shared u :=
    (hs u hu _ (hasleep u hu hne)).waits rfl
  -- A number is zero when no sleeping thread counts for it.
  have hzero (k : Counter) (hk : ∀ u, u.sleep ≠ none → Waits x.shared u → weight k u = 0) :
      count k x.shared = 0 := by
    refine Nat.eq_zero_of_not_pos fun hpos => ?_
    obtain ⟨u, hu, hweight⟩ := h.accounted.exists_of_pos hpos
    by_cases hne : u = .outside
    · subst hne
      cases k <;> exact absurd hweight (by simp)
    · rw [hk u (by rw [hasleep u hu hne]; exact Option.some_ne_none _) (hwaits u hu hne)] at hweight
      exact absurd hweight (lt_irrefl 0)
  have hbusy : x.shared.nodeBusy = false :=
    Bool.toNat_eq_zero.1 (hzero .busy fun u hu _ => by cases u <;> first | rfl | exact absurd rfl hu)
  have hreaders : x.shared.readersActive = 0 :=
    hzero .readers fun u hu _ => by cases u <;> first | rfl | exact absurd rfl hu
  have hheld : x.shared.exclusiveHeld = false :=
    Bool.toNat_eq_zero.1 (hzero .held fun u hu _ => by cases u <;> first | rfl | exact absurd rfl hu)
  have hgate : x.shared.gateBlocked = false := SharedNode.gateBlocked_eq_false.2 ⟨hbusy, hreaders, hheld⟩
  have hwaiting : x.shared.exclusiveWaiting = 0 := by
    refine hzero .waiting fun u hu hw => ?_
    cases u with
    | excluding c w => exact absurd (hgate.symm.trans hw.1) Bool.false_ne_true
    | _ => rfl
  have hturn : x.shared.turnBlocked = false := SharedNode.turnBlocked_eq_false.2 ⟨hbusy, hheld, hwaiting⟩
  have hslot : x.shared.slotBlocked = false := by
    rw [SharedNode.slotBlocked, hheld, hwaiting, bne_self_eq_false, Bool.false_or, Bool.false_or,
      List.all_eq_false]
    obtain ⟨slot, hslot⟩ := List.exists_mem_of_ne_nil _ h.sound.pool
    refine ⟨slot, hslot, fun huse => ?_⟩
    obtain ⟨i, hi, rfl⟩ := List.getElem_of_mem hslot
    have hused : count (.slot i) x.shared ≤ x.shared.readersActive := h.used.readers i
    rw [hreaders, count, List.getElem?_eq_getElem hi, Option.any_some, huse] at hused
    exact absurd hused (by simp)
  have hentrants : x.shared.entrants = 0 := by
    refine hzero .entrants fun u hu hw => ?_
    cases u with
    | excluding c w => exact absurd (hgate.symm.trans hw.1) Bool.false_ne_true
    | awaitingTurn c w => exact absurd (hturn.symm.trans hw.1) Bool.false_ne_true
    | awaitingSlot w => exact absurd (hslot.symm.trans hw.1) Bool.false_ne_true
    | _ => first | rfl | exact absurd rfl hu
  have hw := hwaits t ht hin
  have hsleep := hasleep t ht hin
  cases t with
  | excluding c w => exact absurd (hgate.symm.trans hw.1) Bool.false_ne_true
  | awaitingTurn c w => exact absurd (hturn.symm.trans hw.1) Bool.false_ne_true
  | awaitingSlot w => exact absurd (hslot.symm.trans hw.1) Bool.false_ne_true
  | closing w => exact hw hentrants
  | outside => exact hin rfl
  | _ => cases hsleep

/-! ### Towards an empty facade -/

/-- A move inside the facade that no deadline and no spurious wakeup has to help: a parked thread runs once a bump
has woken it, and one that is about to sleep is parked if the generation is the one it observed. -/
def Signalled (s : SharedNode) (t : Phase) (s' : SharedNode) (t' : Phase) : Prop :=
  Move s t s' t' ∧ t ≠ .outside ∧ t.sleep ≠ some (.parked s.bumps) ∧
    ∀ looked, t.sleep = some (.about s.stateGen looked) → t'.sleep = some (.parked s.bumps)

/-- The sections a thread has before it at most. -/
@[simp] def sections : Phase → ℕ
  | .outside => 0
  | .entered _ => 12
  | .escalating _ => 11
  | .excluding _ _ => 10
  | .exclusive _ => 9
  | .clearing _ => 8
  | .opening _ => 7
  | .maintained _ => 6
  | .awaitingTurn _ _ => 5
  | .onNode _ => 4
  | .leavingNode _ => 3
  | .awaitingSlot _ => 5
  | .holding _ => 4
  | .reading _ => 3
  | .leavingSlot _ _ => 2
  | .leaving _ => 1
  | .closing _ => 2
  | .freeing => 1

/-- How far a thread is from being parked. -/
def unrest (s : SharedNode) (t : Phase) : ℕ :=
  t.sleep.elim 2 fun
    | .about observed _ => if observed = s.stateGen then 1 else 2
    | .parked since => if since = s.bumps then 0 else 2

theorem unrest_look {s : SharedNode} {t : Phase} (h : t.sleep = some s.look) : unrest s t = 1 := by
  rw [unrest, h]
  exact if_pos rfl

theorem unrest_of_over {s : SharedNode} {t : Phase} {w : Sleep} (h : t.sleep = some w)
    (hparked : w ≠ .parked s.bumps) (habout : ∀ looked, w ≠ .about s.stateGen looked) : unrest s t = 2 := by
  rw [unrest, h]
  cases w with
  | about observed looked =>
    refine if_neg ?_
    rintro rfl
    exact habout looked rfl
  | parked since =>
    refine if_neg ?_
    rintro rfl
    exact hparked rfl

theorem unrest_park {s : SharedNode} {t t' : Phase} {looked : ℕ} (h : t.sleep = some (.about s.stateGen looked))
    (h' : t'.sleep = some (.parked s.bumps)) : unrest s t' < unrest s t := by
  rw [unrest, unrest, h, h']
  show (if s.bumps = s.bumps then 0 else 2) < if s.stateGen = s.stateGen then 1 else 2
  rw [if_pos rfl, if_pos rfl]
  exact Nat.zero_lt_one

theorem Effect.sections_lt {s s' : SharedNode} {t t' : Phase} (h : Effect s t s' t') (hin : t ≠ .outside)
    (hparked : t.sleep ≠ some (.parked s.bumps))
    (habout : ∀ looked, t.sleep = some (.about s.stateGen looked) → t'.sleep = some (.parked s.bumps)) :
    sections t' < sections t ∨ sections t' = sections t ∧ s' = s ∧ unrest s t' < unrest s t := by
  have hlook {w : Sleep} (h : t.sleep = some w) (h' : t'.sleep = some s.look) : unrest s t' < unrest s t := by
    have hover : unrest s t = 2 := by
      refine unrest_of_over h ?_ fun looked => ?_
      · rintro rfl
        exact hparked h
      · rintro rfl
        cases h'.symm.trans (habout looked h)
    rw [unrest_look h', hover]
    exact Nat.one_lt_two
  cases h with
  | enter c hopen => exact absurd rfl hin
  | enterForAnchor hopen => exact absurd rfl hin
  | startClose hopen hinside => exact absurd rfl hin
  | closeAtOnce hopen hdrained => exact absurd rfl hin
  | waitOnForGate c w hblocked hopen => exact .inr ⟨rfl, rfl, hlook rfl rfl⟩
  | waitOnForTurn c w hblocked hopen => exact .inr ⟨rfl, rfl, hlook rfl rfl⟩
  | waitOnForEntrants w hinside => exact .inr ⟨rfl, rfl, hlook rfl rfl⟩
  | waitForSlot ht hblocked hopen =>
    rcases ht with rfl | ⟨w, rfl⟩
    · exact .inl (by simp)
    · exact .inr ⟨rfl, rfl, hlook rfl rfl⟩
  | refuseSlot e ht =>
    left
    rcases ht with rfl | ⟨w, rfl⟩ <;> simp
  | takeSlot ht hslot hidle hheld hwaiting hopen =>
    left
    rcases ht with rfl | ⟨w, rfl⟩ <;> simp
  | parkForGate u looked => exact .inr ⟨rfl, rfl, unrest_park rfl rfl⟩
  | parkForTurn c looked => exact .inr ⟨rfl, rfl, unrest_park rfl rfl⟩
  | parkForSlot looked => exact .inr ⟨rfl, rfl, unrest_park rfl rfl⟩
  | parkForEntrants looked => exact .inr ⟨rfl, rfl, unrest_park rfl rfl⟩
  | _ =>
    left
    simp

theorem Move.exists (s : SharedNode) {t : Phase} (hin : t ≠ .outside) : ∃ s' t', Move s t s' t' := by
  cases t with
  | outside => exact absurd rfl hin
  | entered c => exact ⟨_, _, .maintain s c⟩
  | escalating u => exact ⟨_, _, .acquireExclusive s u⟩
  | excluding u w => exact ⟨_, _, .awaitExclusive s u w⟩
  | exclusive u => exact ⟨_, _, .exclusive s u true false none⟩
  | clearing c => exact ⟨_, _, .clear s c⟩
  | opening next => exact ⟨_, _, .releaseExclusive s next⟩
  | maintained c =>
    by_cases hquery : c = .query
    · subst hquery
      exact ⟨_, _, .acquireReadSlot s false⟩
    · exact ⟨_, _, .acquireNodeTurn s c false hquery⟩
  | awaitingTurn c w => exact ⟨_, _, .awaitTurn s c w false⟩
  | onNode c => exact ⟨_, _, .operate s c true false false none fun _ => rfl⟩
  | leavingNode ending => exact ⟨_, _, .releaseNodeTurn s ending⟩
  | awaitingSlot w => exact ⟨_, _, .awaitSlot s w false⟩
  | holding i => exact ⟨_, _, .«open» s i⟩
  | reading i => exact ⟨_, _, .read s i none⟩
  | leavingSlot i ending => exact ⟨_, _, .releaseReadSlot s i ending⟩
  | leaving ending => exact ⟨_, _, .exit s ending⟩
  | closing w => exact ⟨_, _, .awaitEntrants s w⟩
  | freeing => exact ⟨_, _, .free s⟩

theorem sleep_park {t : Phase} {w : Sleep} (h : t.sleep = some w) (since : ℕ) :
    (t.park since).sleep = some (.parked since) := by
  cases t with
  | excluding u w => rfl
  | awaitingTurn c w => rfl
  | awaitingSlot w => rfl
  | closing w => rfl
  | _ => cases h

theorem Signalled.exists {s : SharedNode} {t : Phase} (hin : t ≠ .outside)
    (hparked : t.sleep ≠ some (.parked s.bumps)) : ∃ s' t', Signalled s t s' t' := by
  by_cases habout : ∃ looked, t.sleep = some (.about s.stateGen looked)
  · obtain ⟨looked, hsleep⟩ := habout
    exact ⟨s, t.park s.bumps, .park s hsleep, hin, hparked, fun _ _ => sleep_park hsleep s.bumps⟩
  · obtain ⟨s', t', hm⟩ := Move.exists s hin
    exact ⟨s', t', hm, hin, hparked, fun looked hsleep => absurd ⟨looked, hsleep⟩ habout⟩

/-- **Nobody stays in the facade**, as long as no thread lets the generation come round before it is parked: its
threads come to an end in finitely many moves that no timeout and no spurious wakeup has to help, and where none is
left everyone is outside. -/
theorem empties_of_interleaved (h : PromptlyInterleaved x) :
    Acc (fun z y => Step Signalled y z) x ∧ ((¬ ∃ y, Step Signalled x y) → ∀ t ∈ x.locals, t = .outside) := by
  constructor
  · refine (Step.wellFounded sections unrest fun s t s' t' hm => ?_).apply x
    exact hm.1.effect.sections_lt hm.2.1 hm.2.2.1 hm.2.2.2
  · intro hstuck t ht
    by_contra hin
    obtain ⟨hkept, hsleeps⟩ := h.sleeps
    obtain ⟨u, hu, hne, hawake⟩ := hkept.exists_awake hsleeps ht hin
    obtain ⟨before, after, hlocals⟩ := List.append_of_mem hu
    obtain ⟨s', u', hm⟩ := Signalled.exists hne hawake
    obtain ⟨shared, locals⟩ := x
    subst hlocals
    exact hstuck ⟨_, .moves before after hm⟩

theorem PromptlyInterleaved.move {s s' : SharedNode} {t t' : Phase} (before after : List Phase)
    (h : PromptlyInterleaved ⟨s, before ++ t :: after⟩) (hm : Move s t s' t') (hawake : t.sleep = none) :
    PromptlyInterleaved ⟨s', before ++ t' :: after⟩ :=
  Run.Reachable.step h (.moves before after ⟨hm, fun _ _ _ h _ => absurd (hawake.symm.trans h) (by simp)⟩)

theorem PromptlyInterleaved.park {s : SharedNode} {t : Phase} {looked : ℕ} (before after : List Phase)
    (h : PromptlyInterleaved ⟨s, before ++ t :: after⟩) (hsleep : t.sleep = some (.about s.stateGen looked))
    (hlt : s.bumps < looked + 2 ^ 32) : PromptlyInterleaved ⟨s, before ++ t.park s.bumps :: after⟩ := by
  refine Run.Reachable.step h (.moves before after ⟨.park s hsleep, ?_⟩)
  intro observed looked' since habout hparked
  rw [hsleep] at habout
  cases habout
  rw [sleep_park hsleep] at hparked
  cases hparked
  exact hlt

/-- The facade is closed, and the thread in `close` is parked until the others leave. -/
def parkedSample : Threads SharedNode Phase :=
  ⟨closedSample.shared, [.holding 0, .onNode .delegated, .closing (.parked 1)]⟩

theorem promptlyInterleaved_parkedSample : PromptlyInterleaved parkedSample := by
  have h₀ : PromptlyInterleaved ⟨adoptedSample, [.outside, .outside, .outside]⟩ :=
    .start ⟨⟨⟨false, 0⟩, ⟨1, 32⟩, rfl⟩, by simp⟩
  have h₁ := h₀.move [] [.outside, .outside] (.enter .query rfl) rfl
  have h₂ := h₁.move [] [.outside, .outside] (.maintain _ .query) rfl
  have h₃ := h₂.move [] [.outside, .outside] (.acquireReadSlot _ false) rfl
  have h₄ := h₃.move [.holding 0] [.outside] (.enter .delegated rfl) rfl
  have h₅ := h₄.move [.holding 0] [.outside] (.maintain _ .delegated) rfl
  have h₆ := h₅.move [.holding 0] [.outside] (.acquireNodeTurn _ .delegated false (by decide)) rfl
  have h₇ := h₆.move [.holding 0, .onNode .delegated] []
    (Move.close (r := (closedSample.shared, .asleep (.about 1 1))) rfl) rfl
  exact h₇.park [.holding 0, .onNode .delegated] [] rfl (by decide)

theorem empties_closedSample : Acc (fun z y => Step Signalled y z) parkedSample ∧
    ((¬ ∃ y, Step Signalled parkedSample y) → ∀ t ∈ parkedSample.locals, t = .outside) :=
  empties_of_interleaved promptlyInterleaved_parkedSample

end Interleaved

end Embedded

end Zaxonlite
