import Zaxonlite.Lib.Run
import Zaxonlite.Node.Trimming

/-!
# Chosen trims over whole runs

The node is given the chosen trims in order, and after a restart again from wherever its image stands.
Leases change beside the trim, the journal is appended to and reclaimed, and the process crashes at any
point. What a power loss takes of the journal is a tail of its records.
-/

namespace Zaxonlite

open Program Run

/-- What a crash leaves of a journal: its manifest, and the records up to some point. -/
def Journal.CrashesTo (j j' : Journal) : Prop :=
  j'.manifest = j.manifest ∧ j'.records <+: j.records

/-- A node and how many of the chosen trims it has been given. -/
structure TrimSystem where
  host : TrimHost
  given : ℕ

/-- One step of the node. On disk `adoptChosen` writes the file only, so a crash inside it is one before
it or after it. -/
inductive TrimStep (core : TrimCore) (trims : List (ℕ × TrimRecord)) : TrimSystem → TrimSystem → Prop
  | chosen {s : TrimSystem} {i : ℕ} {trim : ℕ × TrimRecord} {h : TrimHost} : i ≤ s.given →
      trims[i]? = some trim → TrimHost.adoptChosen core trim.1 trim.2 s.host = .ok () h →
      TrimStep core trims s ⟨h, max s.given (i + 1)⟩
  | trackLease {s : TrimSystem} (lease : TransferLease) :
      TrimStep core trims s { s with host := s.host.storeLeases (s.host.trimState.trackLease lease) }
  | releaseLease {s : TrimSystem} (leaseId : ℕ) :
      TrimStep core trims s { s with host := s.host.storeLeases (s.host.trimState.releaseLease leaseId) }
  | append {s : TrimSystem} {writes : List Write} : anchorsOf writes = [] →
      TrimStep core trims s
        { s with host := { s.host with journal := s.host.journal.appendWrites writes } }
  | flush {s : TrimSystem} :
      TrimStep core trims s { s with host := { s.host with
        journal := s.host.journal.appendWrites s.host.effects, effects := [] } }
  | sync {s : TrimSystem} :
      TrimStep core trims s { s with host := { s.host with journal := s.host.journal.sync } }
  | reclaim {s : TrimSystem} (floor : ℕ) :
      TrimStep core trims s
        { s with host := { s.host with journal := (s.host.journal.trimThrough floor).2 } }
  | restart {s : TrimSystem} {journal : Journal} {h : TrimHost} : s.host.journal.CrashesTo journal →
      TrimHost.openTrim core s.host.file journal = .ok h → TrimStep core trims s { s with host := h }

/-- A node on a new data directory that has been given nothing. -/
def StartsFresh (s : TrimSystem) : Prop :=
  ∃ rotationRecords, s = ⟨TrimHost.create rotationRecords, 0⟩

/-- The node holds the trim that first reached furthest of those it was given. -/
structure TrimSystem.Sound (trims : List (ℕ × TrimRecord)) (s : TrimSystem) : Prop where
  host : s.host.Sound
  furthest : FirstFurthest s.host.trimState (trims.take s.given)

section Steps

variable {core : TrimCore} {trims : List (ℕ × TrimRecord)} {s t : TrimSystem} {h : TrimHost}
  {state state' : TrimState} {journal : Journal}

theorem create_sound (rotationRecords : ℕ) : (TrimHost.create rotationRecords).Sound := by
  have hnone : anchorsOf ((TrimHost.create rotationRecords).journal.records ++
      (TrimHost.create rotationRecords).effects) = [] := rfl
  refine ⟨⟨rfl, rfl, rfl⟩, .inl rfl, ?_, ?_, ?_, .inl rfl⟩
  · rw [hnone]
    exact List.Pairwise.nil
  · intro a ha
    rw [hnone] at ha
    exact absurd ha List.not_mem_nil
  · intro a ha
    rw [hnone] at ha
    exact absurd ha List.not_mem_nil

theorem initial_furthest : FirstFurthest .initial [] := .none rfl rfl rfl rfl

/-- Leases are no part of the decision. -/
structure TrimState.SameDecision (state state' : TrimState) : Prop where
  decision : state'.decisionSlot = state.decisionSlot
  through : state'.throughSlot = state.throughSlot
  hash : state'.historyHash = state.historyHash
  configuration : state'.configurationId = state.configurationId

theorem TrimState.SameDecision.anchor (hsame : state.SameDecision state') :
    state'.anchor = state.anchor := by
  rw [TrimState.anchor, TrimState.anchor, hsame.decision, hsame.through, hsame.hash]

theorem FirstFurthest.sameDecision (hfurthest : FirstFurthest state trims)
    (hsame : state.SameDecision state') : FirstFurthest state' trims := by
  cases hfurthest with
  | none h1 h2 h3 h4 =>
    exact .none (hsame.decision.trans h1) (hsame.through.trans h2) (hsame.hash.trans h3)
      (hsame.configuration.trans h4)
  | some hholds hbefore hafter =>
    exact .some ⟨hsame.decision.trans hholds.decision, hsame.through.trans hholds.through,
      hsame.hash.trans hholds.hash, hsame.configuration.trans hholds.configuration⟩ hbefore hafter

theorem trackLease_sameDecision {lease : TransferLease} (hnew : state.trackLease lease = some state') :
    state.SameDecision state' := by
  unfold TrimState.trackLease at hnew
  split at hnew
  · cases hnew
  · split at hnew
    · cases hnew
    · cases hnew
      exact ⟨rfl, rfl, rfl, rfl⟩

theorem releaseLease_sameDecision {leaseId : ℕ} (hnew : state.releaseLease leaseId = some state') :
    state.SameDecision state' := by
  unfold TrimState.releaseLease at hnew
  split at hnew
  · cases hnew
  · split at hnew
    · cases hnew
    · cases hnew
      exact ⟨rfl, rfl, rfl, rfl⟩

theorem TrimSystem.Sound.storeLeases {new : Option TrimState} (hs : s.Sound trims)
    (hsame : ∀ state', new = some state' → s.host.trimState.SameDecision state') :
    TrimSystem.Sound trims { s with host := s.host.storeLeases new } := by
  cases new with
  | none => exact hs
  | some state' =>
    have hdecision := hsame state' rfl
    have hanchor := hdecision.anchor
    obtain ⟨⟨-, hcore, hnoted⟩, hmanifest, hascending, hpositive, hbounded, hbase⟩ := hs.host
    refine ⟨⟨⟨rfl, hcore.trans hanchor.symm, hnoted.trans hanchor.symm⟩, ?_, hascending, hpositive, ?_, ?_⟩,
      hs.furthest.sameDecision hdecision⟩
    · show Manifest.trimAnchor _ |>.Le state'.anchor
      rw [hanchor]
      exact hmanifest
    · intro a ha
      show a.Le state'.anchor
      rw [hanchor]
      exact hbounded a ha
    · show TrimAnchor.zero.Le state'.anchor
      rw [hanchor]
      exact hbase

/-- A journal operation that keeps the anchor, publishes at most it, and does not lose what is queued. -/
theorem TrimSystem.Sound.withJournal {effects : List Write} (hs : s.Sound trims)
    (hnoted : journal.trimAnchor = s.host.journal.trimAnchor)
    (hmanifest : journal.manifest.trimAnchor = s.host.journal.manifest.trimAnchor ∨
      journal.manifest.trimAnchor = s.host.journal.trimAnchor)
    (hanchors : (anchorsOf (journal.records ++ effects)).Sublist
      (anchorsOf (s.host.journal.records ++ s.host.effects))) :
    TrimSystem.Sound trims { s with host := { s.host with journal := journal, effects := effects } } := by
  refine ⟨⟨⟨hs.host.agrees.file, hs.host.agrees.core, hnoted.trans hs.host.agrees.noted⟩, ?_,
    hs.host.ascending.sublist hanchors, fun a ha => hs.host.positive a (hanchors.subset ha),
    fun a ha => hs.host.bounded a (hanchors.subset ha), hs.host.base⟩, hs.furthest⟩
  show journal.manifest.trimAnchor.Le s.host.trimState.anchor
  rcases hmanifest with hsame | hpublished
  · rw [hsame]
    exact hs.host.manifest
  · rw [hpublished]
    exact .inl hs.host.agrees.noted

theorem TrimSystem.Sound.recoverable (hs : s.Sound trims) (hcrash : s.host.journal.CrashesTo journal) :
    Recoverable (s.host.file.getD .initial) journal := by
  have hr := hs.host.recoverable
  rw [← hs.host.agrees.file] at hr
  have hsub : (anchorsOf journal.records).Sublist (anchorsOf s.host.journal.records) :=
    hcrash.2.sublist.filterMap _
  refine ⟨?_, hr.ascending.sublist hsub, fun a ha => hr.positive a (hsub.subset ha),
    fun a ha => hr.bounded a (hsub.subset ha), hr.base⟩
  rw [hcrash.1]
  exact hr.manifest

/-- Every trim given in turn, or again, is taken without an error. -/
theorem TrimSystem.Sound.wp_chosen {i : ℕ} {trim : ℕ × TrimRecord} (hs : s.Sound trims)
    (hcore : core.Advances) (hchosen : ChosenTrims trims) (hi : i ≤ s.given) (hget : trims[i]? = some trim) :
    wp (TrimHost.adoptChosen core trim.1 trim.2)
      (fun _ h => TrimSystem.Sound trims ⟨h, max s.given (i + 1)⟩ ∧
        s.host.trimState.throughSlot ≤ h.trimState.throughSlot) (fun _ _ => False) s.host := by
  have hlt : i < trims.length := (List.getElem?_eq_some_iff.1 hget).1
  rcases hi.lt_or_eq with hold | rfl
  · have hmem : trim ∈ trims.take s.given := by
      refine List.mem_of_getElem? (i := i) ?_
      rw [List.getElem?_take_of_lt hold]
      exact hget
    have hgiven : max s.given (i + 1) = s.given := by omega
    refine wp_mono (wp_adoptChosen_old (hs.furthest.classify_old
      (hchosen.sublist (List.take_sublist _ _)) hmem)) (fun _ h hsame => ?_) (fun _ _ hno => hno)
    have hstate : h.trimState = s.host.trimState := by
      rw [show h = _ from hsame]
    rw [hgiven]
    refine ⟨⟨hs.host.sameTrim hsame, ?_⟩, by rw [hstate]⟩
    show FirstFurthest h.trimState _
    rw [hstate]
    exact hs.furthest
  · have htake : trims.take (s.given + 1) = trims.take s.given ++ [trim] := by
      rw [List.take_add_one, hget]
      rfl
    have hgiven : max s.given (s.given + 1) = s.given + 1 := by omega
    have hnext : ChosenTrims (trims.take s.given ++ [trim]) := by
      rw [← htake]
      exact hchosen.sublist (List.take_sublist _ _)
    refine wp_mono (hs.host.wp_adoptNext hcore hs.furthest hnext) (fun _ h hpost => ?_)
      (fun _ _ hno => hno)
    obtain ⟨hsound, hfurthest, hle⟩ := hpost
    rw [hgiven]
    refine ⟨⟨hsound, ?_⟩, hle⟩
    show FirstFurthest h.trimState (trims.take (s.given + 1))
    rw [htake]
    exact hfurthest

theorem TrimSystem.Sound.step (hs : s.Sound trims) (hcore : core.Advances) (hchosen : ChosenTrims trims)
    (hstep : TrimStep core trims s t) : t.Sound trims := by
  cases hstep with
  | chosen hi hget hrun =>
    have hwp := hs.wp_chosen hcore hchosen hi hget
    rw [wp, hrun] at hwp
    exact hwp.1
  | trackLease lease => exact hs.storeLeases fun state' hnew => trackLease_sameDecision hnew
  | releaseLease leaseId => exact hs.storeLeases fun state' hnew => releaseLease_sameDecision hnew
  | append hnone =>
    obtain ⟨hnoted, hmanifest, hrecords⟩ := s.host.journal.trimAnchor_appendWrites _
    refine hs.withJournal hnoted hmanifest ?_
    rw [hrecords, anchorsOf_append, anchorsOf_append, hnone, List.append_nil, ← anchorsOf_append]
  | flush =>
    obtain ⟨hnoted, hmanifest, hrecords⟩ := s.host.journal.trimAnchor_appendWrites s.host.effects
    refine hs.withJournal hnoted hmanifest ?_
    rw [hrecords, List.append_nil]
  | sync => exact hs.withJournal rfl (.inl rfl) (List.Sublist.refl _)
  | reclaim floor =>
    obtain ⟨hnoted, hmanifest⟩ := s.host.journal.trimAnchor_trimThrough floor
    obtain ⟨low, hrecords, -⟩ := s.host.journal.records_trimThrough floor
    refine hs.withJournal hnoted hmanifest ?_
    rw [hrecords, anchorsOf_append, anchorsOf_append, anchorsOf_append, List.append_assoc]
    exact List.sublist_append_right _ _
  | restart hcrash hopen =>
    obtain ⟨h, hopen', hstate, hsound⟩ := (hs.recoverable hcrash).openTrim hcore
    obtain rfl := Except.ok.inj (hopen'.symm.trans hopen)
    refine ⟨hsound, ?_⟩
    show FirstFurthest h.trimState _
    rw [hstate, hs.host.agrees.file]
    exact hs.furthest

theorem trimSound_of_reachable (hcore : core.Advances) (hchosen : ChosenTrims trims)
    (hreach : Reachable StartsFresh (TrimStep core trims) s) : s.Sound trims := by
  refine hreach.invariant (I := TrimSystem.Sound trims) ?_ fun _ _ hs => hs.step hcore hchosen
  rintro s ⟨rotationRecords, rfl⟩
  exact ⟨create_sound rotationRecords, initial_furthest⟩

/-- **Chosen trims converge and survive replay.** Folding a chosen sequence reports no divergence, moves
the adopted slot up only, and ends with the decision that first reached furthest; giving any part of it
again changes nothing; a divergent decision changes no field; and in every state of every run the three
places agree, every trim given in turn or again is taken, and every crash opens to the file's value. -/
theorem chosen_trims_converge (hcore : core.Advances) (hchosen : ChosenTrims trims) :
    (∀ rotationRecords before after, trims = before ++ after → ∃ h h',
      TrimHost.adoptAll core before (TrimHost.create rotationRecords) = .ok () h ∧
      TrimHost.adoptAll core after h = .ok () h' ∧
      h.trimState.throughSlot ≤ h'.trimState.throughSlot ∧ FirstFurthest h'.trimState trims ∧
      h'.Agrees ∧ ∀ part, part <:+: trims → ∃ h'', TrimHost.adoptAll core part h' = .ok () h'' ∧
        h'.SameTrim h'') ∧
    (∀ (h : TrimHost) slot record, h.trimState.classify slot record = .diverged →
      TrimHost.adoptChosen core slot record h =
        .error .trimRegression { h with fatalStorageError := true }) ∧
    ∀ s, Reachable StartsFresh (TrimStep core trims) s → s.host.Agrees ∧
      (∀ i trim, i ≤ s.given → trims[i]? = some trim → ∃ h,
        TrimHost.adoptChosen core trim.1 trim.2 s.host = .ok () h ∧
        s.host.trimState.throughSlot ≤ h.trimState.throughSlot) ∧
      ∀ journal, s.host.journal.CrashesTo journal → ∃ h,
        TrimHost.openTrim core s.host.file journal = .ok h ∧
        h.trimState = s.host.file.getD .initial ∧ h.Agrees := by
  refine ⟨?_, ?_, ?_⟩
  · rintro rotationRecords before after rfl
    have hbefore : ChosenTrims ([] ++ before) := hchosen.sublist (List.sublist_append_left _ _)
    obtain ⟨_, h, hrun, hs, hfurthest, -⟩ :=
      eq_ok_of_wp ((create_sound rotationRecords).wp_adoptAll hcore initial_furthest hbefore)
    obtain ⟨_, h', hrun', hs', hfurthest', hle⟩ := eq_ok_of_wp (hs.wp_adoptAll hcore hfurthest hchosen)
    refine ⟨h, h', hrun, hrun', hle, hfurthest', hs'.agrees, fun part hpart => ?_⟩
    obtain ⟨_, h'', hagain, hsame⟩ := eq_ok_of_wp
      (@wp_adoptAll_again core _ part h' hfurthest' hchosen fun t ht => hpart.subset ht)
    exact ⟨h'', hagain, hsame⟩
  · intro h slot record hdiverged
    exact @adoptChosen_diverged core (slot, record) h hdiverged
  · intro s hreach
    have hs := trimSound_of_reachable hcore hchosen hreach
    refine ⟨hs.host.agrees, fun i trim hi hget => ?_, fun journal hcrash => ?_⟩
    · obtain ⟨_, h, hrun, -, hle⟩ := eq_ok_of_wp (hs.wp_chosen hcore hchosen hi hget)
      exact ⟨h, hrun, hle⟩
    · obtain ⟨h, hopen, hstate, hsound⟩ := (hs.recoverable hcrash).openTrim hcore
      exact ⟨h, hopen, hstate, hsound.agrees⟩

end Steps

section Sample

/-- A core that takes later anchors only. -/
def laterCore : TrimCore where
  install a b := if a.trimId < b.trimId then some b else none
  apply a b := if a.trimId < b.trimId then some b else none

theorem laterCore_advances : laterCore.Advances := by
  intro a b hlt
  have htaken : (if a.trimId < b.trimId then some b else none) = some b := if_pos hlt.1
  exact ⟨htaken, htaken⟩

/-- Two trims, and one between them that was proposed late. -/
def sampleTrims : List (ℕ × TrimRecord) :=
  [(3, ⟨2, Journal.zeroHash, 1, 0⟩), (4, ⟨1, Journal.zeroHash, 1, 0⟩), (7, ⟨5, Journal.zeroHash, 1, 0⟩)]

theorem sampleTrims_chosen : ChosenTrims sampleTrims := by
  refine ⟨by decide, by decide, ?_, by decide⟩
  intro t ht
  simp only [sampleTrims, List.mem_cons, List.not_mem_nil, or_false] at ht
  rcases ht with rfl | rfl | rfl
  · exact ⟨.initial, 2, Journal.zeroHash, 1, rfl⟩
  · exact ⟨.initial, 1, Journal.zeroHash, 1, rfl⟩
  · exact ⟨.initial, 5, Journal.zeroHash, 1, rfl⟩

theorem chosen_trims_converge_sample : ∃ h h',
    TrimHost.adoptAll laterCore sampleTrims (TrimHost.create 4) = .ok () h ∧
      FirstFurthest h.trimState sampleTrims ∧
      TrimHost.adoptAll laterCore [(4, ⟨1, Journal.zeroHash, 1, 0⟩)] h = .ok () h' ∧ h.SameTrim h' := by
  obtain ⟨hfold, -⟩ := chosen_trims_converge laterCore_advances sampleTrims_chosen
  obtain ⟨h, h₁, hrun, hrest, -, hfurthest, -, hagain⟩ := hfold 4 sampleTrims [] (List.append_nil _).symm
  have hempty : TrimHost.adoptAll laterCore [] h = .ok () h := rfl
  obtain ⟨-, rfl⟩ := EStateM.Result.ok.inj (hempty.symm.trans hrest)
  obtain ⟨h', hrun', hsame⟩ := hagain [(4, ⟨1, Journal.zeroHash, 1, 0⟩)] ⟨[_], [_], rfl⟩
  exact ⟨h, h', hrun, hfurthest, hrun', hsame⟩

end Sample

end Zaxonlite
