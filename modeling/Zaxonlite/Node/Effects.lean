import Zaxonlite.Node.Sound

/-!
# Consuming the core's effects

The core hands over records to journal and entries to account. What it promises of them is
`CoreEffects`; what a replica must keep for `consumeRound` to preserve its invariant is `Journaled`,
together with a rule for accounting a stretch of entries. The rule here is the same for a replica that
follows and for one with a live connection.
-/

namespace Zaxonlite

open Program Contiguous

variable {databaseId : ℕ}

/-- What the core promises of the effects it hands over: it journals the commits of its configuration,
inside the consensus window, once their payloads are stored, and delivers entries in slot order, each
one journaled. -/
structure CoreEffects (L : ChosenLog databaseId) (m : Machine) (effects : Effects) : Prop where
  chosen : ∀ s v, Write.commit s v ∈ effects.writes → v = L.entry s
  configured : ∀ s ∈ commitSlots effects.writes,
    (L.state (s - 1)).configuration = m.node.identity.configurationId
  stored : ∀ s ∈ commitSlots effects.writes, L.Stored m.disk.store s
  window : ∀ pre s v post, effects.writes = pre ++ Write.commit s v :: post →
    s ≤ runEnd (commitSlots (m.disk.journal.records ++ pre)) m.node.appliedSlot + windowSlots
  committed : effects.committed =
    (List.range' (m.node.appliedSlot + 1) effects.committed.length).map fun s => (s, L.entry s)
  journaled : ∀ e ∈ effects.committed,
    e.1 ∈ commitSlots (m.disk.journal.records ++ effects.writes)

/-- The promise over successive turns. -/
def RoundsOk (L : ChosenLog databaseId) : Machine → List Effects → Prop
  | _, [] => True
  | m, effects :: rounds =>
    CoreEffects L m effects ∧ ∀ m', consumeRound effects m = .ok () m' → RoundsOk L m' rounds

def Machine.withJournal (m : Machine) (journal : Journal) : Machine :=
  { m with
    disk := { m.disk with journal := journal }
    trail := m.trail ++ [{ m.disk with journal := journal }] }

/-- An invariant that survives journaling. -/
structure Journaled (L : ChosenLog databaseId) (configuration lo : ℕ) (P : Machine → Prop) : Prop where
  journal : ∀ {m : Machine} {journal : Journal}, P m → journal.records = m.disk.journal.records →
    journal.retainedFirstSlot = m.disk.journal.retainedFirstSlot → P (m.withJournal journal)
  append : ∀ {m : Machine} {write : Write}, P m →
    (∀ s v, write = .commit s v → CommitOk L configuration lo m.disk s v) →
    P (m.withJournal (m.disk.journal.append write))
  queued : ∀ {m : Machine}, P m → ∀ write ∈ m.node.effectWrites, write.commitSlot? = none
  flush : ∀ {m : Machine}, P m → P { m with node := { m.node with effectWrites := [] } }

section Journal

variable {L : ChosenLog databaseId} {configuration lo : ℕ} {P : Machine → Prop} {m : Machine}

theorem wp_appendWrites {writes : List Write} (hP : Journaled L configuration lo P) (h : P m)
    (hok : ∀ pre s v post, writes = pre ++ Write.commit s v :: post →
      v = L.entry s ∧ (L.state (s - 1)).configuration = configuration ∧ L.Stored m.disk.store s ∧
        s ≤ runEnd (commitSlots (m.disk.journal.records ++ pre)) lo + windowSlots) :
    wp (appendWrites writes)
      (fun _ m' => P m' ∧ m'.node = m.node ∧ m'.disk.store = m.disk.store ∧
        m'.disk.journal.records = m.disk.journal.records ++ writes)
      (fun _ _ => False) m := by
  refine wp_forM (fun pre m' => P m' ∧ m'.node = m.node ∧ m'.disk.store = m.disk.store ∧
      m'.disk.journal.records = m.disk.journal.records ++ pre) writes m
    ⟨h, rfl, rfl, (List.append_nil _).symm⟩ ?_
  rintro pre write post m₁ hsplit ⟨h₁, hnode, hstore, hrecords⟩
  -- Appending to a journal with these records, rotated first or not.
  have happend : ∀ m₂ : Machine, P m₂ → m₂.node = m.node → m₂.disk.store = m.disk.store →
      m₂.disk.journal.records = m.disk.journal.records ++ pre →
      wp (emit fun d => { d with journal := d.journal.append write })
        (fun _ m' => P m' ∧ m'.node = m.node ∧ m'.disk.store = m.disk.store ∧
          m'.disk.journal.records = m.disk.journal.records ++ (pre ++ [write]))
        (fun _ _ => False) m₂ := by
    intro m₂ h₂ hnode₂ hstore₂ hrecords₂
    rw [wp_emit]
    refine ⟨hP.append h₂ fun s v hw => ?_, hnode₂, hstore₂, ?_⟩
    · obtain ⟨hv, hconf, hst, hwin⟩ := hok pre s v post (by rw [hsplit, hw])
      exact ⟨hv, fun _ => hconf, fun _ => hstore₂ ▸ hst, by rwa [committedEnd, hrecords₂]⟩
    · simp only [Journal.records_append, hrecords₂, List.append_assoc]
  simp only [wp_bind, wp_get]
  rw [wp_ite]
  constructor
  · intro hfull
    rw [wp_bind, wp_emit]
    refine happend _ (hP.journal h₁ (Journal.records_rotate _) (Journal.retainedFirstSlot_rotate _))
      hnode hstore ?_
    simp only [Journal.records_rotate, hrecords]
  · intro hfull
    exact happend m₁ h₁ hnode hstore hrecords

/-- The core's window, seen from the retained run's start. -/
theorem CoreEffects.ok {effects : Effects} (hcore : CoreEffects L m effects)
    (hconf : m.node.identity.configurationId = configuration) (hlo : lo ≤ m.node.appliedSlot)
    (hend : m.node.appliedSlot ≤ committedEnd lo m.disk) (pre : List Write) (s : ℕ) (v : Entry)
    (post : List Write) (hsplit : effects.writes = pre ++ Write.commit s v :: post) :
    v = L.entry s ∧ (L.state (s - 1)).configuration = configuration ∧ L.Stored m.disk.store s ∧
      s ≤ runEnd (commitSlots (m.disk.journal.records ++ pre)) lo + windowSlots := by
  have hmem : Write.commit s v ∈ effects.writes := by
    rw [hsplit]
    simp
  have hslot : s ∈ commitSlots effects.writes := mem_commitSlots.2 ⟨v, hmem⟩
  refine ⟨hcore.chosen s v hmem, (hcore.configured s hslot).trans hconf, hcore.stored s hslot, ?_⟩
  have hwin := hcore.window pre s v post hsplit
  rwa [runEnd_eq_of_run hlo fun t ht hle => ?_]
  rw [commitSlots_append]
  exact List.mem_append_left _ (mem_of_le_runEnd ht (le_trans hle hend))

theorem wp_journalEffects {effects : Effects} (hP : Journaled L configuration lo P) (h : P m)
    (hok : ∀ pre s v post, effects.writes = pre ++ Write.commit s v :: post →
      v = L.entry s ∧ (L.state (s - 1)).configuration = configuration ∧ L.Stored m.disk.store s ∧
        s ≤ runEnd (commitSlots (m.disk.journal.records ++ pre)) lo + windowSlots) :
    wp (journalEffects effects)
      (fun _ m' => P m' ∧ m'.node = m.node ∧
        m'.disk.journal.records = m.disk.journal.records ++ effects.writes)
      (fun _ _ => False) m := by
  simp only [journalEffects]
  rw [wp_ite]
  constructor
  · intro hne
    rw [wp_bind, wp_onError]
    refine wp_mono (wp_appendWrites hP h hok) ?_ (fun _ _ hno => hno)
    rintro ⟨⟩ m₁ ⟨h₁, hnode, -, hrecords⟩
    rw [wp_ite]
    refine ⟨fun hbarrier => ?_, fun hbarrier => ⟨h₁, hnode, hrecords⟩⟩
    rw [wp_emit]
    exact ⟨hP.journal h₁ rfl rfl, hnode, hrecords⟩
  · intro hnil
    rw [not_not] at hnil
    exact ⟨h, rfl, by rw [hnil, List.append_nil]⟩

/-- The queue that accounting left is journaled and emptied. -/
theorem wp_accountEffects {effects : Effects} {P' : Machine → Prop} {E E' : Machine → Prop}
    (hP : Journaled L configuration lo P')
    (haccount : wp (accountCommitted effects.committed) (fun _ => P') (fun _ => E) m)
    (hfail : ∀ m, E m → E' (markFailed m)) :
    wp (accountEffects effects) (fun _ => P') (fun _ => E') m := by
  rw [accountEffects, wp_bind, wp_onError]
  refine wp_mono haccount ?_ (fun _ m' hE => hfail m' hE)
  rintro ⟨⟩ m₁ h₁
  rw [wp_bind, wp_get, wp_bind, wp_onError]
  refine wp_mono (wp_appendWrites hP h₁ ?_) ?_ (fun _ _ hno => hno.elim)
  · intro pre s v post hsplit
    have hnone := hP.queued h₁ (Write.commit s v) (by rw [hsplit]; simp)
    cases hnone
  · rintro ⟨⟩ m₂ ⟨h₂, -⟩
    rw [wp_bind, wp_setNode, wp_emit]
    exact hP.journal (hP.flush h₂) rfl rfl

end Journal

/-- Accounting a contiguous stretch of chosen entries, from the rule for one entry. -/
theorem wp_accountCommitted_of {L : ChosenLog databaseId} {lo : ℕ} {P : ℕ → Machine → Prop}
    {E : Machine → Prop}
    (hentry : ∀ n m, P n m → n + 1 ≤ committedEnd lo m.disk →
      wp (accountEntry (n + 1) (L.entry (n + 1))) (fun _ => P (n + 1)) (fun _ => E) m)
    (count : ℕ) {n : ℕ} {m : Machine} (h : P n m) (hend : n + count ≤ committedEnd lo m.disk) :
    wp (accountCommitted ((List.range' (n + 1) count).map fun s => (s, L.entry s)))
      (fun _ => P (n + count)) (fun _ => E) m := by
  induction count generalizing n m with
  | zero => exact h
  | succ count ih =>
    change wp (accountEntry (n + 1) (L.entry (n + 1)) >>= fun _ =>
      accountCommitted ((List.range' (n + 2) count).map fun s => (s, L.entry s))) _ _ _
    rw [wp_bind]
    refine wp_mono (wp_and (hentry n m h (by omega))
      (accountFrame_logView.accountEntry (n + 1) (L.entry (n + 1)) m)) ?_ (fun _ _ hE => hE.1)
    rintro ⟨⟩ m' ⟨h', hsame⟩
    have hrecords : m'.disk.journal.records = m.disk.journal.records := congrArg Prod.fst hsame
    have hle : n + 1 + count ≤ committedEnd lo m'.disk := by
      simp only [committedEnd, hrecords] at hend ⊢
      omega
    have heq : n + (count + 1) = n + 1 + count := by omega
    rw [heq]
    exact ih h' hle

/-- **Consuming the core's effects.** An invariant that survives journaling and accounting of chosen
entries survives `consumeRound`, the applied slot moved over the delivered entries. -/
theorem wp_consumeRound_of {L : ChosenLog databaseId} {configuration lo n : ℕ} {m : Machine}
    {P : ℕ → Machine → Prop} {E E' : Machine → Prop} {effects : Effects}
    (hP : ∀ n, Journaled L configuration lo (P n))
    (hcursors : ∀ n m, P n m → m.node.identity.configurationId = configuration ∧
      m.node.appliedSlot = n ∧ lo ≤ n ∧ n ≤ committedEnd lo m.disk)
    (hentry : ∀ n m, P n m → n + 1 ≤ committedEnd lo m.disk →
      wp (accountEntry (n + 1) (L.entry (n + 1))) (fun _ => P (n + 1)) (fun _ => E) m)
    (hfail : ∀ m, E m → E' (markFailed m)) (h : P n m) (hcore : CoreEffects L m effects) :
    wp (consumeRound effects) (fun _ => P (n + effects.committed.length)) (fun _ => E') m := by
  obtain ⟨hconf, happlied, hlo, hend⟩ := hcursors n m h
  have hcommitted := hcore.committed
  rw [happlied] at hcommitted
  rw [consumeRound, wp_bind]
  refine wp_mono (wp_journalEffects (hP n) h (hcore.ok hconf (happlied ▸ hlo) (happlied ▸ hend))) ?_
    (fun _ _ hno => hno.elim)
  rintro ⟨⟩ m₁ ⟨h₁, -, hrecords⟩
  have hend₁ : n + effects.committed.length ≤ committedEnd lo m₁.disk := by
    refine le_runEnd fun s hs hle => ?_
    rw [hrecords]
    rcases Nat.lt_or_ge n s with hgt | hge
    · refine hcore.journaled (s, L.entry s) ?_
      rw [hcommitted, List.mem_map]
      refine ⟨s, ?_, rfl⟩
      rw [List.mem_range'_1]
      omega
    · rw [commitSlots_append]
      exact List.mem_append_left _ (mem_of_le_runEnd hs (le_trans hge hend))
  refine wp_accountEffects (hP _) ?_ hfail
  have hacc := wp_accountCommitted_of hentry effects.committed.length h₁ hend₁
  rwa [← hcommitted] at hacc

/-- From the rule for one turn, the rule for `consumeEffects`. -/
theorem wp_consumeEffects_of {L : ChosenLog databaseId} {P : ℕ → Machine → Prop} {E : Machine → Prop}
    (hround : ∀ n m effects, P n m → CoreEffects L m effects →
      wp (consumeRound effects) (fun _ => P (n + effects.committed.length)) (fun _ => E) m)
    {rounds : List Effects} {n : ℕ} {m : Machine} (h : P n m) (hcore : RoundsOk L m rounds) :
    wp (consumeEffects rounds)
      (fun _ m' => consumeEffects rounds m = .ok () m' ∧ ∃ n', P n' m') (fun _ => E) m := by
  induction rounds generalizing n m with
  | nil => exact ⟨rfl, n, h⟩
  | cons effects rounds ih =>
    obtain ⟨hfirst, hrest⟩ := hcore
    refine wp_mono (wp_and (wp_self _ m) ?_) (fun _ _ h' => h') (fun _ _ h' => h'.2)
      (Q := fun _ m' => consumeEffects (effects :: rounds) m = .ok () m' ∧ ∃ n', P n' m')
    change wp (consumeRound effects >>= fun _ => consumeEffects rounds) _ _ _
    rw [wp_bind]
    refine wp_mono (wp_and (wp_self _ m) (hround n m effects h hfirst)) ?_ (fun _ _ h' => h'.2)
    rintro ⟨⟩ m₁ ⟨hok, h₁⟩
    exact wp_mono (ih h₁ (hrest m₁ hok)) (fun _ _ h' => h'.2) (fun _ _ hE => hE)

end Zaxonlite
