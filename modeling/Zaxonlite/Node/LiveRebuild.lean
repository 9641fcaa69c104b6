import Zaxonlite.Node.LiveFlag
import Zaxonlite.Node.Rebuild

/-!
# The rebuild an operation starts with

Reads, writes and live transactions rebuild the image first when a rebuild is due. Whether it comes to its end, and
the node the later checks of the operation look at, are functions of the machine before it.
-/

namespace Zaxonlite

open Program

/-- A rebuild is due, and the journal and the payloads do not let it come to its end. -/
def RebuildFails (m : Machine) : Prop :=
  m.node.needsResync = true ∧ m.rebuilt.2 = false

/-- The node the later checks look at: where a rebuild is due, what the journal and the payloads come to. -/
def due (m : Machine) : Node :=
  if m.node.needsResync then
    { m.node with
      appliedSlot := m.rebuilt.1.slot
      membershipChangePending := m.rebuilt.1.pending
      captureBatchId := none }
  else m.node

/-- The later checks cannot tell the two nodes apart. -/
structure SameChecks (n n' : Node) : Prop where
  slot : n.appliedSlot = n'.appliedSlot
  pending : n.membershipChangePending = n'.membershipChangePending
  capture : n.captureBatchId = n'.captureBatchId

/-- The machine once a rebuild that was due has come to its end. -/
structure Rested (m m' : Machine) : Prop where
  ends : ¬ RebuildFails m
  checks : SameChecks m'.node (due m)
  flag : m'.liveFlag = m.liveFlag
  standing : m'.standing = m.standing
  settled : m'.node.needsResync = false

section Rebuild

theorem due_of_settled {m : Machine} (h : m.node.needsResync = false) : due m = m.node := by
  rw [due, h]
  exact if_neg Bool.false_ne_true

@[simp] theorem due_single (m : Machine) : (due m).single = m.node.single := by
  unfold due
  split <;> rfl

@[simp] theorem due_capabilities (m : Machine) : (due m).capabilities = m.node.capabilities := by
  unfold due
  split <;> rfl

theorem not_rebuildFails_of_settled {m : Machine} (h : m.node.needsResync = false) : ¬ RebuildFails m :=
  fun hfails => Bool.false_ne_true (h.symm.trans hfails.1)

theorem sameChecks_rebuilt {m m' : Machine} (hneeds : m.node.needsResync = true)
    (h : RebuiltTo m.rebuilt.1 m m') : SameChecks m'.node (due m) := by
  rw [due, if_pos hneeds]
  exact ⟨h.slot, h.pending, h.capture⟩

theorem wp_rebuild (l : LiveNode) :
    wp (doLive l.machine.node.needsResync resyncLive) (fun _ l' => Rested l.machine l'.machine)
      (fun e l' => (AdmittingLive e ∧ RebuildFails l.machine) ∧ l'.live = l.live) l := by
  rw [wp_doLive]
  refine ⟨fun hneeds => ?_, fun hnone => ⟨not_rebuildFails_of_settled hnone, ?_, rfl, rfl, hnone⟩⟩
  · have hkeeps := wp_and (keeps_liveFlag_resyncImage l.machine) (keeps_standing_resyncImage l.machine)
    simp only [resyncLive, wp_bind, wp_modify, wp_onMachine]
    refine wp_mono (wp_and (wp_and (wp_resyncImage_rebuilt l.machine) hkeeps) (raises_resyncImage l.machine))
      (fun _ m h => ⟨?_, ?_, h.1.2.1, h.1.2.2, h.1.1.2.settled⟩) fun e m h => ⟨⟨h.2, hneeds, h.1.1.1⟩, h.1.2.1⟩
    · exact fun hfails => Bool.false_ne_true (hfails.2.symm.trans h.1.1.1)
    · exact sameChecks_rebuilt hneeds h.1.1.2
  · rw [due_of_settled hnone]
    exact ⟨rfl, rfl, rfl⟩

theorem wp_openLive_node (l : LiveNode) :
    wp openLive
      (fun _ l' => l'.machine.liveFlag = l.machine.liveFlag ∧ l'.machine.standing = l.machine.standing ∧
        l'.machine.node.captureBatchId = l.machine.node.captureBatchId)
      (fun e l' => (e = .node .roleCannotWrite ∧ l.machine.node.capabilities.servesWrites = false) ∧
        l'.live = l.live) l := by
  simp only [openLive, ensureWriter, wp_bind, wp_get, wp_onMachine, wp_refuseIf, wp_doIf, wp_emit, wp_setNode,
    wp_doLive, wp_modify, LiveNode.connected, Machine.liveFlag, Machine.standing, and_self, implies_true, and_true,
    true_and]
  exact fun hno => Bool.not_eq_true' _ ▸ hno

end Rebuild

end Zaxonlite
