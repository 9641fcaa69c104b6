import Zaxonlite.Node.Sound

/-!
# Reclaiming history

`reclaim` unlinks journal segments below the local delete floor and then sweeps the payload objects no
retained record references. The floor follows the adopted trim, capped by the durable anchor on a node
that materializes state; a witness has no anchor and deletes through the trim alone.
-/

namespace Zaxonlite

open Program Contiguous

variable {databaseId : ℕ}

/-- The payload an accept or commit record references. -/
def Write.payloadHash? (write : Write) : Option HashBytes :=
  match write.entry? with
  | some (.command (.transactionBatch batch)) => some batch.payloadHash
  | _ => none

def Journal.reachablePayloads (j : Journal) : List HashBytes :=
  (j.iterate 1).filterMap Write.payloadHash?

def sweepPayloads : Op Unit :=
  emit fun d => { d with store := d.store.sweepUnreachable d.journal.reachablePayloads }

/-- The floor `reclaim` deletes through. -/
def Node.deleteFloor (n : Node) : ℕ :=
  Zaxonlite.deleteFloor n.trimState.throughSlot
    (if n.capabilities.materializes then n.durableStateSlot else n.trimState.throughSlot)
    (if n.retentionSlots = 0 then none else some (n.appliedSlot - n.retentionSlots))
    n.trimState.leases

/-- Unlink segments through a floor; sweep when some were removed or the chosen trim advanced. -/
def reclaimThrough (floor : ℕ) : Op Unit := do
  let m ← get
  emit fun d => { d with journal := (d.journal.trimThrough floor).2 }
  doIf ((m.disk.journal.trimThrough floor).1 ||
      decide (m.node.sweptTrimDecisionSlot < m.node.trimState.decisionSlot)) do
    sweepPayloads
    setNode fun n => { n with sweptTrimDecisionSlot := n.trimState.decisionSlot }

def reclaim : Op Unit := do
  let m ← get
  doIf (m.node.trimState.throughSlot != 0 && m.node.deleteFloor != 0)
    (reclaimThrough m.node.deleteFloor)

section Keep

variable {L : ChosenLog databaseId} {configuration lo : ℕ} {d : Disk}

/-- Unlinking segments below the end of the run moves the retained start up along it. -/
theorem Journal.trimThrough_spec (j : Journal) {window floor : ℕ}
    (hretained : j.retainedFirstSlot = lo + 1) (hwindow : InWindow window lo (commitSlots j.records))
    (hfloor : floor ≤ runEnd (commitSlots j.records) lo) :
    ∃ lo', lo ≤ lo' ∧ lo' ≤ max lo floor ∧ (j.trimThrough floor).2.retainedFirstSlot = lo' + 1 ∧
      (∀ w ∈ (j.trimThrough floor).2.records, w ∈ j.records) ∧
      InWindow window lo' (commitSlots (j.trimThrough floor).2.records) ∧
      runEnd (commitSlots (j.trimThrough floor).2.records) lo' = runEnd (commitSlots j.records) lo := by
  obtain ⟨low, heq, hlow, hmono, hmax⟩ := j.records_trimThrough floor
  set j' := (j.trimThrough floor).2
  have hlo : lo + 1 ≤ j'.retainedFirstSlot := hretained ▸ hmono
  obtain ⟨lo', hlo'⟩ : ∃ lo', j'.retainedFirstSlot = lo' + 1 := ⟨j'.retainedFirstSlot - 1, by omega⟩
  rw [hretained] at hmax
  have hle : lo ≤ lo' := by omega
  have hle' : lo' ≤ max lo floor := by omega
  have hend : lo' ≤ runEnd (commitSlots j.records) lo := by
    have := base_le_runEnd (commitSlots j.records) lo
    omega
  have hsub : ∀ w ∈ j'.records, w ∈ j.records := fun w hw => by
    rw [heq]
    exact List.mem_append_right _ hw
  have hdropped : ∀ s ∈ commitSlots low, s ≤ lo' := by
    intro s hs
    obtain ⟨v, hv⟩ := mem_commitSlots.1 hs
    have hlt : s < j'.retainedFirstSlot := hlow _ hv
    omega
  refine ⟨lo', hle, hle', hlo', hsub, ?_, ?_⟩
  · have hraised := hwindow.mono_base hle
    rw [heq, commitSlots_append] at hraised
    exact hraised.drop_low hdropped
  · have hrun : runEnd (commitSlots j.records) lo = runEnd (commitSlots j.records) lo' :=
      runEnd_eq_of_run hle fun s hs hs' => mem_of_le_runEnd hs (le_trans hs' hend)
    rw [hrun]
    refine runEnd_congr fun s hs => ⟨fun hmem => ?_, fun hmem => ?_⟩
    · obtain ⟨v, hv⟩ := mem_commitSlots.1 hmem
      exact mem_commitSlots.2 ⟨v, hsub _ hv⟩
    · rw [heq, commitSlots_append, List.mem_append] at hmem
      refine hmem.resolve_left fun hd => ?_
      have := hdropped s hd
      omega

/-- Unlinking segments below the end of the run keeps the log sound above the new floor. -/
theorem LogSound.trimThrough (h : LogSound L configuration lo d) {floor : ℕ}
    (hfloor : floor ≤ committedEnd lo d) :
    ∃ lo', lo ≤ lo' ∧ lo' ≤ max lo floor ∧
      LogSound L configuration lo' { d with journal := (d.journal.trimThrough floor).2 } ∧
      committedEnd lo' { d with journal := (d.journal.trimThrough floor).2 } = committedEnd lo d := by
  obtain ⟨lo', hle, hmax, hretained, hsub, hwindow, hsame⟩ :=
    d.journal.trimThrough_spec h.retained h.window hfloor
  have hslots : ∀ s, s ∈ commitSlots (d.journal.trimThrough floor).2.records →
      s ∈ commitSlots d.journal.records := fun s hs => by
    obtain ⟨v, hv⟩ := mem_commitSlots.1 hs
    exact mem_commitSlots.2 ⟨v, hsub _ hv⟩
  refine ⟨lo', hle, hmax, ⟨hretained, fun s v hv => h.chosen s v (hsub _ hv), hwindow, ?_, ?_, h.anchors,
    ?_⟩, hsame⟩
  · exact fun s hs hlt => h.configured s (hslots s hs) (lt_of_le_of_lt hle hlt)
  · exact fun s hs hlt => h.stored s (hslots s hs) (lt_of_le_of_lt hle hlt)
  · intro a ha
    rw [committedEnd, hsame]
    exact h.reached a ha

theorem LogSound.sweep (h : LogSound L configuration lo d) :
    LogSound L configuration lo
      { d with store := d.store.sweepUnreachable d.journal.reachablePayloads } := by
  refine ⟨h.retained, h.chosen, h.window, h.configured, fun s hs hlt batch hentry => ?_, h.anchors,
    h.reached⟩
  obtain ⟨v, hv⟩ := mem_commitSlots.1 hs
  obtain rfl := h.chosen s v hv
  obtain ⟨low, heq, hlow⟩ := d.journal.records_eq_append_iterate 1
  have hmem : Write.commit s (L.entry s) ∈ d.journal.iterate 1 := by
    rw [heq, List.mem_append] at hv
    refine hv.resolve_left fun hin => ?_
    have hslot : s < 1 := hlow _ hin
    omega
  rw [PayloadStore.load_sweepUnreachable]
  · exact h.stored s hs hlt batch hentry
  · refine List.mem_filterMap.2 ⟨_, hmem, ?_⟩
    simp only [Write.payloadHash?, Write.entry?, hentry]

end Keep

end Zaxonlite
