import Zaxonlite.Node.Account

/-!
# Adopting chosen trims

A chosen trim is kept in three places: the `TRIM` file, the core's anchor, which the journal records, and
the journal's own anchor, which the next manifest carries. They are written in that order, so a crash
leaves the file ahead of the others and opening brings them up to it. Only a decision that reaches further
than the adopted one is adopted, so folding the chosen trims keeps the one that first reached furthest.
-/

namespace Zaxonlite

open Program

/-! ### The model -/

/-- The consensus library's trim anchor: installing one in the running core, and replaying a record of
one into its durable state. -/
structure TrimCore where
  install : TrimAnchor → TrimAnchor → Option TrimAnchor
  apply : TrimAnchor → TrimAnchor → Option TrimAnchor

inductive TrimError where
  | trimRegression
  | core
  deriving DecidableEq, Repr

def TrimAnchor.zero : TrimAnchor := ⟨0, 0, Journal.zeroHash⟩

def Journal.trimAnchor (j : Journal) : TrimAnchor :=
  ⟨j.trimDecisionSlot, j.trimmedThrough, j.trimHistoryHash⟩

def Manifest.trimAnchor (m : Manifest) : TrimAnchor :=
  ⟨m.trimDecisionSlot, m.trimmedThrough, m.trimHistoryHash⟩

/-- The trim anchors among journal records. -/
def anchorsOf (records : List Write) : List TrimAnchor :=
  records.filterMap fun write =>
    match write with
    | .trimAnchor anchor => some anchor
    | _ => none

/-- A node, as far as trims go. -/
structure TrimHost where
  trimState : TrimState
  trimIgnoredCount : ℕ
  fatalStorageError : Bool
  /-- `TRIM`. -/
  file : Option TrimState
  /-- The core's anchor. -/
  anchor : TrimAnchor
  effects : List Write
  journal : Journal

abbrev TrimOp (α : Type) := EStateM TrimError TrimHost α

namespace TrimHost

/-- Install an adopted decision in the core, then note it in the journal. -/
def installAdopted (core : TrimCore) (adopted : TrimState) : TrimOp Unit := do
  let h ← get
  match core.install h.anchor adopted.anchor with
  | none =>
    modify fun h => { h with fatalStorageError := true }
    throw .core
  | some anchor =>
    modify fun h => { h with
      anchor := anchor
      effects := h.effects ++ [.trimAnchor anchor]
      journal := h.journal.noteTrimAnchor adopted.decisionSlot adopted.throughSlot adopted.historyHash }

def adoptChosen (core : TrimCore) (decisionSlot : ℕ) (record : TrimRecord) : TrimOp Unit := do
  let h ← get
  match h.trimState.classify decisionSlot record with
  | .ignoreReplay => pure ()
  | .ignoreStale => modify fun h => { h with trimIgnoredCount := h.trimIgnoredCount + 1 }
  | .ignoreDuplicate => modify fun h => { h with trimIgnoredCount := h.trimIgnoredCount + 1 }
  | .diverged =>
    modify fun h => { h with fatalStorageError := true }
    throw .trimRegression
  | .adopt =>
    let adopted := h.trimState.adopt decisionSlot record
    modify fun h => { h with trimState := adopted, file := some adopted }
    installAdopted core adopted

/-- `adoptChosen` over a sequence of chosen trims. -/
def adoptAll (core : TrimCore) (trims : List (ℕ × TrimRecord)) : TrimOp Unit :=
  trims.forM fun trim => adoptChosen core trim.1 trim.2

def storeLeases (h : TrimHost) (state : Option TrimState) : TrimHost :=
  match state with
  | none => h
  | some state => { h with trimState := state, file := some state }

/-- The durable anchor a replay of the journal ends with. -/
def replayedAnchor (core : TrimCore) (records : List Write) : Option TrimAnchor :=
  (anchorsOf records).foldlM core.apply TrimAnchor.zero

/-- The journal of an open, with the anchor of the file noted. -/
def openedJournal (file : Option TrimState) (journal : Journal) : Journal :=
  match file with
  | none => journal.reopen
  | some stored => journal.reopen.noteTrimAnchor stored.decisionSlot stored.throughSlot stored.historyHash

/-- The core's anchor of an open: the file must not be behind the replayed one, nor its twin. -/
def reconciled (core : TrimCore) (state : TrimState) (replayed : TrimAnchor) :
    Except TrimError TrimAnchor :=
  if state.decisionSlot = replayed.trimId then
    if replayed.trimId ≠ 0 ∧ (state.throughSlot ≠ replayed.chosenTrimSlot ∨
        state.historyHash ≠ replayed.historyHash) then .error .trimRegression
    else .ok replayed
  else if replayed.trimId < state.decisionSlot then
    match core.apply replayed state.anchor with
    | none => .error .core
    | some anchor => .ok anchor
  else .error .trimRegression

/-- The trim part of `Node.open`. -/
def openTrim (core : TrimCore) (file : Option TrimState) (journal : Journal) :
    Except TrimError TrimHost :=
  match replayedAnchor core journal.records with
  | none => .error .core
  | some replayed =>
    match reconciled core (file.getD .initial) replayed with
    | .error e => .error e
    | .ok anchor =>
      .ok ⟨file.getD .initial, 0, false, file, anchor, [], openedJournal file journal⟩

/-- A node on a new data directory. -/
def create (rotationRecords : ℕ) : TrimHost :=
  ⟨.initial, 0, false, none, .zero, [], Journal.create rotationRecords⟩

/-- The trim part of a machine, beside the core's anchor. -/
def ofMachine (m : Machine) (anchor : TrimAnchor) : TrimHost :=
  ⟨m.node.trimState, m.node.trimIgnoredCount, m.node.fatalStorageError, m.disk.trim, anchor,
    m.node.effectWrites, m.disk.journal⟩

end TrimHost

/-- The record of `proposeTrim`: none unless the candidate reaches further than the adopted trim. -/
def proposeTrim (state : TrimState) (throughSlot : ℕ) (historyHash : HashBytes) (configurationId : ℕ) :
    Option TrimRecord :=
  if throughSlot ≤ state.throughSlot then none
  else some ⟨throughSlot, historyHash, configurationId, 0⟩

/-! ### Chosen sequences -/

/-- A sequence of chosen trims: slots are numbered from one and increase, every record was proposed by some
node, and records that reach equally far agree. -/
structure ChosenTrims (trims : List (ℕ × TrimRecord)) : Prop where
  positive : ∀ t ∈ trims, 0 < t.1
  increasing : trims.Pairwise fun a b => a.1 < b.1
  proposed : ∀ t ∈ trims, ∃ state through hash configuration,
    proposeTrim state through hash configuration = some t.2
  agree : ∀ a ∈ trims, ∀ b ∈ trims, a.2.throughSlot = b.2.throughSlot →
    a.2.historyHash = b.2.historyHash ∧ a.2.configurationId = b.2.configurationId

structure TrimState.Holds (state : TrimState) (trim : ℕ × TrimRecord) : Prop where
  decision : state.decisionSlot = trim.1
  through : state.throughSlot = trim.2.throughSlot
  hash : state.historyHash = trim.2.historyHash
  configuration : state.configurationId = trim.2.configurationId

/-- The state holds the decision that first reached furthest, or none has been chosen. -/
inductive FirstFurthest (state : TrimState) : List (ℕ × TrimRecord) → Prop
  | none : state.decisionSlot = 0 → state.throughSlot = 0 → state.historyHash = Journal.zeroHash →
      state.configurationId = 0 → FirstFurthest state []
  | some {before after : List (ℕ × TrimRecord)} {trim : ℕ × TrimRecord} : state.Holds trim →
      (∀ t ∈ before, t.2.throughSlot < trim.2.throughSlot) →
      (∀ t ∈ after, t.2.throughSlot ≤ trim.2.throughSlot) →
      FirstFurthest state (before ++ trim :: after)

section Chosen

variable {trims : List (ℕ × TrimRecord)} {state : TrimState} {trim : ℕ × TrimRecord}

theorem ChosenTrims.through_pos (h : ChosenTrims trims) (hmem : trim ∈ trims) :
    0 < trim.2.throughSlot := by
  obtain ⟨state, through, hash, configuration, hproposed⟩ := h.proposed trim hmem
  unfold proposeTrim at hproposed
  split at hproposed
  · cases hproposed
  · rename_i hlt
    have hrecord := Option.some.inj hproposed
    rw [← hrecord]
    show 0 < through
    omega

theorem ChosenTrims.sublist {part : List (ℕ × TrimRecord)} (h : ChosenTrims trims)
    (hsub : part.Sublist trims) : ChosenTrims part :=
  ⟨fun t ht => h.positive t (hsub.subset ht), h.increasing.sublist hsub,
    fun t ht => h.proposed t (hsub.subset ht),
    fun a ha b hb => h.agree a (hsub.subset ha) b (hsub.subset hb)⟩

theorem TrimState.Holds.classify (h : state.Holds trim) :
    state.classify trim.1 trim.2 = .ignoreReplay := by
  rw [TrimState.classify, if_pos h.decision.symm, if_pos ⟨h.through.symm, h.configuration.symm, h.hash.symm⟩]

theorem classify_of_slot_lt (h : trim.1 < state.decisionSlot) :
    state.classify trim.1 trim.2 = .ignoreStale := by
  rw [TrimState.classify, if_neg h.ne, if_pos h]

theorem classify_of_through_lt (h : state.decisionSlot < trim.1)
    (hthrough : trim.2.throughSlot < state.throughSlot) :
    state.classify trim.1 trim.2 = .ignoreStale := by
  rw [TrimState.classify, if_neg h.ne', if_neg h.not_gt, if_pos hthrough]

theorem classify_of_through_eq (h : state.decisionSlot < trim.1)
    (hthrough : trim.2.throughSlot = state.throughSlot)
    (hconfiguration : trim.2.configurationId = state.configurationId)
    (hhash : trim.2.historyHash = state.historyHash) :
    state.classify trim.1 trim.2 = .ignoreDuplicate := by
  rw [TrimState.classify, if_neg h.ne', if_neg h.not_gt, if_neg hthrough.not_lt, if_pos hthrough,
    if_pos ⟨hconfiguration, hhash⟩]

theorem classify_of_further (h : state.decisionSlot < trim.1)
    (hthrough : state.throughSlot < trim.2.throughSlot) :
    state.classify trim.1 trim.2 = .adopt := by
  rw [TrimState.classify, if_neg h.ne', if_neg h.not_gt, if_neg hthrough.not_gt, if_neg hthrough.ne']

/-- A later decision that reaches no further than one that agrees with it is ignored. -/
theorem TrimState.Holds.classify_later {held : ℕ × TrimRecord} (h : state.Holds held)
    (hlater : held.1 < trim.1) (hle : trim.2.throughSlot ≤ held.2.throughSlot)
    (hagree : trim.2.throughSlot = held.2.throughSlot →
      trim.2.historyHash = held.2.historyHash ∧ trim.2.configurationId = held.2.configurationId) :
    state.classify trim.1 trim.2 = .ignoreStale ∨ state.classify trim.1 trim.2 = .ignoreDuplicate := by
  have hslot : state.decisionSlot < trim.1 := by
    rw [h.decision]
    exact hlater
  rcases hle.lt_or_eq with hlt | heq
  · left
    apply classify_of_through_lt hslot
    rw [h.through]
    exact hlt
  · right
    obtain ⟨hhash, hconfiguration⟩ := hagree heq
    exact classify_of_through_eq hslot (heq.trans h.through.symm)
      (hconfiguration.trans h.configuration.symm) (hhash.trans h.hash.symm)

/-- A decision of the sequence that was folded already is told from a divergent one. -/
theorem FirstFurthest.classify_old (h : FirstFurthest state trims) (hchosen : ChosenTrims trims)
    (hmem : trim ∈ trims) :
    state.classify trim.1 trim.2 = .ignoreReplay ∨ state.classify trim.1 trim.2 = .ignoreStale ∨
      state.classify trim.1 trim.2 = .ignoreDuplicate := by
  cases h with
  | none => exact absurd hmem List.not_mem_nil
  | @some before after held hholds hbefore hafter =>
    have hheld : held ∈ before ++ held :: after := List.mem_append_right _ List.mem_cons_self
    have hsplit := List.pairwise_append.1 hchosen.increasing
    rcases List.mem_append.1 hmem with hold | hnew
    · right; left
      apply classify_of_slot_lt
      rw [hholds.decision]
      exact hsplit.2.2 trim hold held List.mem_cons_self
    · rcases List.mem_cons.1 hnew with rfl | hnew
      · exact .inl hholds.classify
      · right
        exact hholds.classify_later ((List.pairwise_cons.1 hsplit.2.1).1 trim hnew) (hafter trim hnew)
          (hchosen.agree trim hmem held hheld)

/-- The next decision of the sequence is adopted when it reaches further, and ignored otherwise. -/
theorem FirstFurthest.classify_new (h : FirstFurthest state trims)
    (hchosen : ChosenTrims (trims ++ [trim])) :
    (state.classify trim.1 trim.2 = .adopt ∧ state.throughSlot < trim.2.throughSlot ∧
        state.decisionSlot < trim.1 ∧
        FirstFurthest (state.adopt trim.1 trim.2) (trims ++ [trim])) ∨
      ((state.classify trim.1 trim.2 = .ignoreStale ∨
          state.classify trim.1 trim.2 = .ignoreDuplicate) ∧
        FirstFurthest state (trims ++ [trim])) := by
  have hlast : trim ∈ trims ++ [trim] := List.mem_append_right _ (List.mem_singleton.2 rfl)
  have hpos := hchosen.through_pos hlast
  have hslot := hchosen.positive trim hlast
  cases h with
  | none hdecision hthrough _ _ =>
    left
    have hfurther : state.throughSlot < trim.2.throughSlot := by omega
    have hlater : state.decisionSlot < trim.1 := by omega
    refine ⟨classify_of_further hlater hfurther, hfurther, hlater, ?_⟩
    exact @FirstFurthest.some _ [] [] trim ⟨rfl, rfl, rfl, rfl⟩ (fun _ hno => absurd hno List.not_mem_nil)
      fun _ hno => absurd hno List.not_mem_nil
  | @some before after held hholds hbefore hafter =>
    have hheld : held ∈ before ++ held :: after ++ [trim] :=
      List.mem_append_left _ (List.mem_append_right _ List.mem_cons_self)
    have hlater : held.1 < trim.1 :=
      (List.pairwise_append.1 hchosen.increasing).2.2 held
        (List.mem_append_right _ List.mem_cons_self) trim (List.mem_singleton.2 rfl)
    by_cases hfurther : held.2.throughSlot < trim.2.throughSlot
    · left
      have hstate : state.throughSlot < trim.2.throughSlot := by
        rw [hholds.through]
        exact hfurther
      have hdecision : state.decisionSlot < trim.1 := by
        rw [hholds.decision]
        exact hlater
      refine ⟨classify_of_further hdecision hstate, hstate, hdecision, ?_⟩
      refine @FirstFurthest.some _ (before ++ held :: after) [] trim ⟨rfl, rfl, rfl, rfl⟩ ?_
        fun _ hno => absurd hno List.not_mem_nil
      intro t ht
      rcases List.mem_append.1 ht with ht | ht
      · exact (hbefore t ht).trans hfurther
      · rcases List.mem_cons.1 ht with rfl | ht
        · exact hfurther
        · exact (hafter t ht).trans_lt hfurther
    · right
      have hle := Nat.le_of_not_lt hfurther
      refine ⟨hholds.classify_later hlater hle (hchosen.agree trim hlast held hheld), ?_⟩
      rw [List.append_assoc, List.cons_append]
      refine .some hholds hbefore fun t ht => ?_
      rcases List.mem_append.1 ht with ht | ht
      · exact hafter t ht
      · rw [List.mem_singleton.1 ht]
        exact hle

end Chosen

/-! ### The journal's anchor -/

namespace TrimAnchor

/-- A later decision that reaches further. -/
def Lt (a b : TrimAnchor) : Prop :=
  a.trimId < b.trimId ∧ a.chosenTrimSlot < b.chosenTrimSlot

/-- The same decision, or one behind it. -/
def Le (a b : TrimAnchor) : Prop :=
  a = b ∨ a.Lt b

variable {a b c : TrimAnchor}

theorem Lt.trans (h : a.Lt b) (h' : b.Lt c) : a.Lt c :=
  ⟨h.1.trans h'.1, h.2.trans h'.2⟩

theorem Le.trans_lt (h : a.Le b) (h' : b.Lt c) : a.Lt c := by
  rcases h with rfl | h
  · exact h'
  · exact h.trans h'

theorem not_lt_zero (a : TrimAnchor) : ¬a.Lt zero := fun h => Nat.not_lt_zero _ h.1

end TrimAnchor

/-- An anchor above the current one is taken. -/
def TrimCore.Advances (core : TrimCore) : Prop :=
  ∀ a b : TrimAnchor, a.Lt b → core.install a b = some b ∧ core.apply a b = some b

namespace Journal

theorem trimAnchor_append (j : Journal) (write : Write) :
    (j.append write).trimAnchor = j.trimAnchor ∧ (j.append write).manifest = j.manifest := by
  unfold append
  cases write.ballot? with
  | none => exact ⟨rfl, rfl⟩
  | some ballot =>
    dsimp only
    unfold observePromise
    split <;> exact ⟨rfl, rfl⟩

theorem trimAnchor_appendWrite (j : Journal) (write : Write) :
    (j.appendWrite write).trimAnchor = j.trimAnchor ∧
      ((j.appendWrite write).manifest.trimAnchor = j.manifest.trimAnchor ∨
        (j.appendWrite write).manifest.trimAnchor = j.trimAnchor) ∧
      (j.appendWrite write).records = j.records ++ [write] := by
  unfold appendWrite
  split
  · obtain ⟨hanchor, hmanifest⟩ := j.rotate.trimAnchor_append write
    refine ⟨hanchor, .inr ?_, by rw [records_append, records_rotate]⟩
    rw [hmanifest]
    rfl
  · obtain ⟨hanchor, hmanifest⟩ := j.trimAnchor_append write
    exact ⟨hanchor, .inl (by rw [hmanifest]), records_append j write⟩

/-- Appending changes the manifest's anchor to the noted one at most. -/
theorem trimAnchor_appendWrites (j : Journal) (writes : List Write) :
    (j.appendWrites writes).trimAnchor = j.trimAnchor ∧
      ((j.appendWrites writes).manifest.trimAnchor = j.manifest.trimAnchor ∨
        (j.appendWrites writes).manifest.trimAnchor = j.trimAnchor) ∧
      (j.appendWrites writes).records = j.records ++ writes := by
  induction writes generalizing j with
  | nil => exact ⟨rfl, .inl rfl, (List.append_nil _).symm⟩
  | cons write writes ih =>
    obtain ⟨hanchor, hmanifest, hrecords⟩ := j.trimAnchor_appendWrite write
    obtain ⟨hanchor', hmanifest', hrecords'⟩ := ih (j.appendWrite write)
    refine ⟨hanchor'.trans hanchor, ?_, ?_⟩
    · rcases hmanifest' with hmanifest' | hmanifest'
      · exact hmanifest.imp hmanifest'.trans hmanifest'.trans
      · exact .inr (hmanifest'.trans hanchor)
    · show (j.appendWrite write |>.appendWrites writes).records = _
      rw [hrecords', hrecords, List.append_assoc]
      rfl

theorem trimAnchor_trimThrough (j : Journal) (floor : ℕ) :
    (j.trimThrough floor).2.trimAnchor = j.trimAnchor ∧
      ((j.trimThrough floor).2.manifest.trimAnchor = j.manifest.trimAnchor ∨
        (j.trimThrough floor).2.manifest.trimAnchor = j.trimAnchor) := by
  unfold trimThrough
  dsimp only
  split
  · exact ⟨rfl, .inl rfl⟩
  · exact ⟨rfl, .inr rfl⟩

end Journal

theorem anchorsOf_append (xs ys : List Write) : anchorsOf (xs ++ ys) = anchorsOf xs ++ anchorsOf ys :=
  List.filterMap_append

/-! ### Opening -/

/-- The disk of a node: what the journal knows of trims is at most what the file holds. -/
structure Recoverable (state : TrimState) (journal : Journal) : Prop where
  manifest : journal.manifest.trimAnchor.Le state.anchor
  ascending : (anchorsOf journal.records).Pairwise TrimAnchor.Lt
  positive : ∀ a ∈ anchorsOf journal.records, TrimAnchor.zero.Lt a
  bounded : ∀ a ∈ anchorsOf journal.records, a.Le state.anchor
  base : TrimAnchor.zero.Le state.anchor

/-- The three places agree. -/
structure TrimHost.Agrees (h : TrimHost) : Prop where
  file : h.file.getD .initial = h.trimState
  core : h.anchor = h.trimState.anchor
  noted : h.journal.trimAnchor = h.trimState.anchor

/-- A running node: the three places agree, and the records, those queued included, lead up to them. -/
structure TrimHost.Sound (h : TrimHost) : Prop where
  agrees : h.Agrees
  manifest : h.journal.manifest.trimAnchor.Le h.trimState.anchor
  ascending : (anchorsOf (h.journal.records ++ h.effects)).Pairwise TrimAnchor.Lt
  positive : ∀ a ∈ anchorsOf (h.journal.records ++ h.effects), TrimAnchor.zero.Lt a
  bounded : ∀ a ∈ anchorsOf (h.journal.records ++ h.effects), a.Le h.trimState.anchor
  base : TrimAnchor.zero.Le h.trimState.anchor

section Opening

variable {core : TrimCore} {state : TrimState} {file : Option TrimState} {journal : Journal} {h : TrimHost}

theorem TrimHost.Sound.recoverable (hs : h.Sound) : Recoverable h.trimState h.journal := by
  have hsplit := anchorsOf_append h.journal.records h.effects
  refine ⟨hs.manifest, ?_, fun a ha => hs.positive a ?_, fun a ha => hs.bounded a ?_, hs.base⟩
  · have hascending := hs.ascending
    rw [hsplit] at hascending
    exact (List.pairwise_append.1 hascending).1
  · rw [hsplit]
    exact List.mem_append_left _ ha
  · rw [hsplit]
    exact List.mem_append_left _ ha

/-- Replaying ascending anchors ends with the last of them. -/
theorem foldlM_apply_of_ascending (hcore : core.Advances) (anchors : List TrimAnchor) (start : TrimAnchor)
    (hascending : (start :: anchors).Pairwise TrimAnchor.Lt) :
    anchors.foldlM core.apply start = some (anchors.getLastD start) := by
  induction anchors generalizing start with
  | nil => rfl
  | cons a anchors ih =>
    have hlt := (List.pairwise_cons.1 hascending).1 a List.mem_cons_self
    rw [List.foldlM_cons, (hcore start a hlt).2]
    show anchors.foldlM core.apply a = _
    rw [ih a (List.pairwise_cons.1 hascending).2, List.getLastD_cons]

theorem Recoverable.replayedAnchor (hr : Recoverable state journal) (hcore : core.Advances) :
    ∃ a, TrimHost.replayedAnchor core journal.records = some a ∧ a.Le state.anchor := by
  refine ⟨(anchorsOf journal.records).getLastD .zero, ?_, ?_⟩
  · exact foldlM_apply_of_ascending hcore _ _ (List.pairwise_cons.2 ⟨hr.positive, hr.ascending⟩)
  · cases hlast : (anchorsOf journal.records).getLast? with
    | none =>
      rw [List.getLastD_eq_getLast?, hlast]
      exact hr.base
    | some a =>
      rw [List.getLastD_eq_getLast?, hlast]
      exact hr.bounded a (List.mem_of_getLast? hlast)

theorem reconciled_of_le {replayed : TrimAnchor} (hcore : core.Advances) (hle : replayed.Le state.anchor) :
    TrimHost.reconciled core state replayed = .ok state.anchor := by
  rcases hle with rfl | hlt
  · have hsame : ¬(state.anchor.trimId ≠ 0 ∧ (state.throughSlot ≠ state.anchor.chosenTrimSlot ∨
        state.historyHash ≠ state.anchor.historyHash)) := by
      intro hno
      rcases hno.2 with hno | hno
      · exact hno rfl
      · exact hno rfl
    have hslot : state.decisionSlot = state.anchor.trimId := rfl
    rw [TrimHost.reconciled, if_pos hslot, if_neg hsame]
  · have hslot : replayed.trimId < state.decisionSlot := hlt.1
    rw [TrimHost.reconciled, if_neg hslot.ne', if_pos hslot, (hcore _ _ hlt).2]

theorem Recoverable.openedJournal (hr : Recoverable (file.getD .initial) journal) :
    (TrimHost.openedJournal file journal).trimAnchor = (file.getD .initial).anchor := by
  have hmanifest : journal.reopen.trimAnchor = journal.manifest.trimAnchor := rfl
  cases file with
  | none =>
    show journal.reopen.trimAnchor = _
    rw [hmanifest]
    exact hr.manifest.resolve_right (TrimAnchor.not_lt_zero _)
  | some stored =>
    show (journal.reopen.noteTrimAnchor _ _ _).trimAnchor = stored.anchor
    unfold Journal.noteTrimAnchor
    split
    · rename_i hle
      rw [hmanifest]
      refine hr.manifest.resolve_right fun hlt => ?_
      have hslot : journal.reopen.trimDecisionSlot < stored.decisionSlot := hlt.1
      omega
    · rfl

/-- **Opening brings the three places to the file's value.** -/
theorem Recoverable.openTrim (hr : Recoverable (file.getD .initial) journal) (hcore : core.Advances) :
    ∃ h, TrimHost.openTrim core file journal = .ok h ∧ h.trimState = file.getD .initial ∧ h.Sound := by
  obtain ⟨replayed, hreplayed, hle⟩ := hr.replayedAnchor hcore
  have hnoted := hr.openedJournal
  refine ⟨⟨file.getD .initial, 0, false, file, (file.getD .initial).anchor, [],
    TrimHost.openedJournal file journal⟩, ?_, rfl, ?_⟩
  · rw [TrimHost.openTrim, hreplayed]
    dsimp only
    rw [reconciled_of_le hcore hle]
  · have hrecords : (TrimHost.openedJournal file journal).records = journal.records := by
      cases file with
      | none => rfl
      | some stored => exact Journal.records_noteTrimAnchor _ _ _ _
    have hmanifest : (TrimHost.openedJournal file journal).manifest = journal.manifest := by
      cases file with
      | none => rfl
      | some stored =>
        show (journal.reopen.noteTrimAnchor _ _ _).manifest = journal.manifest
        unfold Journal.noteTrimAnchor
        split <;> rfl
    refine ⟨⟨rfl, rfl, hnoted⟩, ?_, ?_, ?_, ?_, hr.base⟩
    · rw [hmanifest]
      exact hr.manifest
    · rw [hrecords, List.append_nil]
      exact hr.ascending
    · rw [hrecords, List.append_nil]
      exact hr.positive
    · rw [hrecords, List.append_nil]
      exact hr.bounded

end Opening

/-! ### Adopting -/

section Adopting

variable {core : TrimCore} {trims done part : List (ℕ × TrimRecord)} {trim : ℕ × TrimRecord} {h h' : TrimHost}

/-- Nothing but the count of ignored trims differs. -/
def TrimHost.SameTrim (h h' : TrimHost) : Prop :=
  h' = { h with trimIgnoredCount := h'.trimIgnoredCount }

theorem TrimHost.SameTrim.trans {h'' : TrimHost} (hsame : h.SameTrim h') (hsame' : h'.SameTrim h'') :
    h.SameTrim h'' := by
  unfold SameTrim at hsame hsame' ⊢
  rw [hsame', hsame]

theorem TrimHost.Sound.sameTrim (hs : h.Sound) (hsame : h.SameTrim h') : h'.Sound := by
  unfold SameTrim at hsame
  rw [hsame]
  exact ⟨⟨hs.agrees.file, hs.agrees.core, hs.agrees.noted⟩, hs.manifest, hs.ascending, hs.positive,
    hs.bounded, hs.base⟩

/-- A decision that is told apart as old changes nothing. -/
theorem wp_adoptChosen_old (hold : h.trimState.classify trim.1 trim.2 = .ignoreReplay ∨
      h.trimState.classify trim.1 trim.2 = .ignoreStale ∨
      h.trimState.classify trim.1 trim.2 = .ignoreDuplicate) :
    wp (TrimHost.adoptChosen core trim.1 trim.2) (fun _ => h.SameTrim) (fun _ _ => False) h := by
  rw [TrimHost.adoptChosen, wp_bind, wp_get]
  rcases hold with hold | hold | hold
  · rw [hold]
    exact rfl
  · rw [hold]
    exact rfl
  · rw [hold]
    exact rfl

/-- A divergent decision leaves every trim field as it was. -/
theorem adoptChosen_diverged (hdiverged : h.trimState.classify trim.1 trim.2 = .diverged) :
    TrimHost.adoptChosen core trim.1 trim.2 h =
      .error .trimRegression { h with fatalStorageError := true } := by
  have hwp : wp (TrimHost.adoptChosen core trim.1 trim.2) (fun _ _ => False)
      (fun e h' => e = .trimRegression ∧ h' = { h with fatalStorageError := true }) h := by
    rw [TrimHost.adoptChosen, wp_bind, wp_get, hdiverged]
    exact ⟨rfl, rfl⟩
  obtain ⟨e, h', herror, rfl, rfl⟩ := eq_error_of_wp hwp
  exact herror

/-- A decision that reaches further goes to all three places. -/
theorem TrimHost.Sound.wp_adoptChosen (hs : h.Sound) (hcore : core.Advances)
    (hadopt : h.trimState.classify trim.1 trim.2 = .adopt)
    (hthrough : h.trimState.throughSlot < trim.2.throughSlot) (hslot : h.trimState.decisionSlot < trim.1) :
    wp (TrimHost.adoptChosen core trim.1 trim.2)
      (fun _ h' => h'.Sound ∧ h'.trimState = h.trimState.adopt trim.1 trim.2) (fun _ _ => False) h := by
  have hlt : h.trimState.anchor.Lt (h.trimState.adopt trim.1 trim.2).anchor := ⟨hslot, hthrough⟩
  have hinstall := (hcore _ _ hlt).1
  have hjournal : h.journal.trimDecisionSlot = h.trimState.decisionSlot :=
    congrArg TrimAnchor.trimId hs.agrees.noted
  have hnote : h.journal.noteTrimAnchor trim.1 trim.2.throughSlot trim.2.historyHash =
      { h.journal with
        trimDecisionSlot := trim.1, trimmedThrough := trim.2.throughSlot,
        trimHistoryHash := trim.2.historyHash } := by
    rw [Journal.noteTrimAnchor, if_neg (by omega)]
  rw [TrimHost.adoptChosen, wp_bind, wp_get, hadopt]
  dsimp only
  rw [wp_bind, wp_modify, TrimHost.installAdopted, wp_bind, wp_get]
  dsimp only
  rw [hs.agrees.core, hinstall]
  dsimp only
  rw [wp_modify]
  have hanchors : anchorsOf (h.journal.records ++ (h.effects ++
      [.trimAnchor (h.trimState.adopt trim.1 trim.2).anchor])) =
      anchorsOf (h.journal.records ++ h.effects) ++ [(h.trimState.adopt trim.1 trim.2).anchor] := by
    rw [← List.append_assoc, anchorsOf_append]
    rfl
  have hrecords : (h.journal.noteTrimAnchor trim.1 trim.2.throughSlot trim.2.historyHash).records =
      h.journal.records := Journal.records_noteTrimAnchor _ _ _ _
  refine ⟨⟨⟨rfl, rfl, ?_⟩, ?_, ?_, ?_, ?_, .inr (hs.base.trans_lt hlt)⟩, rfl⟩
  · show (h.journal.noteTrimAnchor trim.1 trim.2.throughSlot trim.2.historyHash).trimAnchor = _
    rw [hnote]
    rfl
  · show (h.journal.noteTrimAnchor trim.1 trim.2.throughSlot trim.2.historyHash).manifest.trimAnchor.Le _
    rw [hnote]
    exact .inr (hs.manifest.trans_lt hlt)
  · show (anchorsOf ((h.journal.noteTrimAnchor trim.1 trim.2.throughSlot trim.2.historyHash).records ++
      _)).Pairwise _
    rw [hrecords, hanchors, List.pairwise_append]
    refine ⟨hs.ascending, List.pairwise_singleton _ _, fun a ha b hb => ?_⟩
    rw [List.mem_singleton.1 hb]
    exact (hs.bounded a ha).trans_lt hlt
  · intro a ha
    change a ∈ anchorsOf ((h.journal.noteTrimAnchor trim.1 trim.2.throughSlot
      trim.2.historyHash).records ++ _) at ha
    rw [hrecords, hanchors] at ha
    rcases List.mem_append.1 ha with ha | ha
    · exact hs.positive a ha
    · rw [List.mem_singleton.1 ha]
      exact hs.base.trans_lt hlt
  · intro a ha
    change a ∈ anchorsOf ((h.journal.noteTrimAnchor trim.1 trim.2.throughSlot
      trim.2.historyHash).records ++ _) at ha
    rw [hrecords, hanchors] at ha
    rcases List.mem_append.1 ha with ha | ha
    · exact .inr ((hs.bounded a ha).trans_lt hlt)
    · exact .inl (List.mem_singleton.1 ha)

/-- One decision further along a chosen sequence. -/
theorem TrimHost.Sound.wp_adoptNext (hs : h.Sound) (hcore : core.Advances)
    (hfurthest : FirstFurthest h.trimState done) (hchosen : ChosenTrims (done ++ [trim])) :
    wp (TrimHost.adoptChosen core trim.1 trim.2)
      (fun _ h' => h'.Sound ∧ FirstFurthest h'.trimState (done ++ [trim]) ∧
        h.trimState.throughSlot ≤ h'.trimState.throughSlot) (fun _ _ => False) h := by
  rcases hfurthest.classify_new hchosen with ⟨hadopt, hthrough, hslot, hnext⟩ | ⟨hold, hnext⟩
  · refine wp_mono (hs.wp_adoptChosen hcore hadopt hthrough hslot) (fun _ h' hpost => ?_)
      (fun _ _ hno => hno)
    obtain ⟨hs', hstate⟩ := hpost
    rw [hstate]
    exact ⟨hs', hnext, hthrough.le⟩
  · refine wp_mono (wp_adoptChosen_old (.inr hold)) (fun _ h' hsame => ?_) (fun _ _ hno => hno)
    have hstate : h'.trimState = h.trimState := by
      rw [show h' = _ from hsame]
    rw [hstate]
    exact ⟨hs.sameTrim hsame, hnext, le_rfl⟩

/-- Folding the rest of a chosen sequence. -/
theorem TrimHost.Sound.wp_adoptAll (hs : h.Sound) (hcore : core.Advances)
    (hfurthest : FirstFurthest h.trimState done) (hchosen : ChosenTrims (done ++ part)) :
    wp (TrimHost.adoptAll core part)
      (fun _ h' => h'.Sound ∧ FirstFurthest h'.trimState (done ++ part) ∧
        h.trimState.throughSlot ≤ h'.trimState.throughSlot) (fun _ _ => False) h := by
  refine wp_forM (fun pre h' => h'.Sound ∧ FirstFurthest h'.trimState (done ++ pre) ∧
    h.trimState.throughSlot ≤ h'.trimState.throughSlot) part h ?_ ?_
  · rw [List.append_nil]
    exact ⟨hs, hfurthest, le_rfl⟩
  · rintro pre t post h' rfl ⟨hs', hfurthest', hle⟩
    have hsub : (done ++ pre ++ [t]).Sublist (done ++ (pre ++ t :: post)) := by
      rw [List.append_assoc]
      exact List.Sublist.append (List.Sublist.refl done)
        (List.Sublist.append (List.Sublist.refl pre) (List.singleton_sublist.2 List.mem_cons_self))
    refine wp_mono (hs'.wp_adoptNext hcore hfurthest' (hchosen.sublist hsub)) (fun _ h'' hpost => ?_)
      (fun _ _ hno => hno)
    rw [← List.append_assoc]
    exact ⟨hpost.1, hpost.2.1, hle.trans hpost.2.2⟩

/-- Delivering part of the folded sequence again changes nothing. -/
theorem wp_adoptAll_again (hfurthest : FirstFurthest h.trimState trims) (hchosen : ChosenTrims trims)
    (hpart : ∀ t ∈ part, t ∈ trims) :
    wp (TrimHost.adoptAll core part) (fun _ => h.SameTrim) (fun _ _ => False) h := by
  refine wp_forM (fun _ => h.SameTrim) part h rfl ?_
  rintro pre t post h' rfl hsame
  have hstate : h'.trimState = h.trimState := by
    rw [show h' = _ from hsame]
  have hmem := hpart t (List.mem_append_right _ List.mem_cons_self)
  have hfurthest' : FirstFurthest h'.trimState trims := hstate ▸ hfurthest
  exact wp_mono (wp_adoptChosen_old (hfurthest'.classify_old hchosen hmem))
    (fun _ _ hsame' => hsame.trans hsame') (fun _ _ hno => hno)

end Adopting

/-- The node's own accounting of a chosen trim does the same, where the core takes the anchor. -/
theorem adoptChosenTrim_refines {core : TrimCore} (m : Machine) (anchor : TrimAnchor) (slot : ℕ)
    (record : TrimRecord)
    (hinstall : m.node.trimState.classify slot record = .adopt →
      core.install anchor (m.node.trimState.adopt slot record).anchor =
        some (m.node.trimState.adopt slot record).anchor) :
    ∃ anchor', finalState (TrimHost.adoptChosen core slot record) (TrimHost.ofMachine m anchor) =
      TrimHost.ofMachine (finalState (adoptChosenTrim slot record) m) anchor' := by
  have hto : ∀ (h' : TrimHost) (m' : Machine) (anchor' : TrimAnchor),
      wp (TrimHost.adoptChosen core slot record) (fun _ h => h = h') (fun _ h => h = h')
        (TrimHost.ofMachine m anchor) →
      wp (adoptChosenTrim slot record) (fun _ m => m = m') (fun _ m => m = m') m →
      h' = TrimHost.ofMachine m' anchor' →
      ∃ anchor', finalState (TrimHost.adoptChosen core slot record) (TrimHost.ofMachine m anchor) =
        TrimHost.ofMachine (finalState (adoptChosenTrim slot record) m) anchor' := by
    intro h' m' anchor' hhost hmachine heq
    refine ⟨anchor', ?_⟩
    rw [finalState_of_wp (P := fun h => h = h') hhost, finalState_of_wp (P := fun m => m = m') hmachine,
      heq]
  have hstate : (TrimHost.ofMachine m anchor).trimState = m.node.trimState := rfl
  cases hclass : m.node.trimState.classify slot record with
  | ignoreReplay =>
    refine hto (TrimHost.ofMachine m anchor) m anchor ?_ ?_ rfl
    · rw [TrimHost.adoptChosen, wp_bind, wp_get, hstate, hclass]
      exact rfl
    · rw [adoptChosenTrim, wp_bind, wp_get, hclass]
      exact rfl
  | ignoreStale =>
    refine hto _ { m with node := { m.node with trimIgnoredCount := m.node.trimIgnoredCount + 1 } } anchor
      ?_ ?_ rfl
    · rw [TrimHost.adoptChosen, wp_bind, wp_get, hstate, hclass]
      exact rfl
    · rw [adoptChosenTrim, wp_bind, wp_get, hclass]
      exact rfl
  | ignoreDuplicate =>
    refine hto _ { m with node := { m.node with trimIgnoredCount := m.node.trimIgnoredCount + 1 } } anchor
      ?_ ?_ rfl
    · rw [TrimHost.adoptChosen, wp_bind, wp_get, hstate, hclass]
      exact rfl
    · rw [adoptChosenTrim, wp_bind, wp_get, hclass]
      exact rfl
  | diverged =>
    refine hto _ { m with node := { m.node with fatalStorageError := true } } anchor ?_ ?_ rfl
    · rw [TrimHost.adoptChosen, wp_bind, wp_get, hstate, hclass]
      exact rfl
    · rw [adoptChosenTrim, wp_bind, wp_get, hclass]
      exact rfl
  | adopt =>
    have htaken := hinstall hclass
    have hanchor : (TrimHost.ofMachine m anchor).anchor = anchor := rfl
    let adopted := m.node.trimState.adopt slot record
    let filed : Disk := { m.disk with trim := some adopted }
    let noted : Disk := { filed with
      journal := m.disk.journal.noteTrimAnchor slot record.throughSlot record.historyHash }
    refine hto _ ⟨{ m.node with
        trimState := adopted
        effectWrites := m.node.effectWrites ++ [.trimAnchor adopted.anchor] },
      noted, m.trail ++ [filed] ++ [noted]⟩ adopted.anchor ?_ ?_ rfl
    · rw [TrimHost.adoptChosen, wp_bind, wp_get, hstate, hclass]
      dsimp only
      rw [wp_bind, wp_modify, TrimHost.installAdopted, wp_bind, wp_get]
      dsimp only
      rw [hanchor, htaken]
      exact rfl
    · rw [adoptChosenTrim, wp_bind, wp_get, hclass]
      exact rfl

end Zaxonlite
