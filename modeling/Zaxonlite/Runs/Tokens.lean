import Zaxonlite.Enrollment.Issuers

/-!
# Tokens over whole runs

The file of a token is renamed once: the name it is renamed to then stands for a file, and after the sync it
does so at every moment a power loss can bring back. What is redeemed is the record the issuer wrote. So a
token that is issued is redeemed at most once, by the node it was issued for and before it expires, and
whoever comes later learns that it is used.
-/

namespace Zaxonlite

namespace Enrollment

open Directory Run

/-- The call has renamed the token, or it has returned for it. -/
def ConsumePhase.winning : ConsumePhase → Bool
  | .claimed => true
  | .returned (.ok ()) => true
  | _ => false

/-- The call has checked the token. -/
def ConsumePhase.passed : ConsumePhase → Bool
  | .claiming => true
  | .claimed => true
  | .returned (.ok ()) => true
  | _ => false

/-- A call that found the token used, or has not looked for it yet. -/
def ConsumePhase.tooLate : ConsumePhase → Bool
  | .opened => true
  | .missing => true
  | .returned (.error .tokenUsed) => true
  | .lost => true
  | _ => false

def Attempt.digest (a : Attempt) : HashBytes :=
  hashSecret a.claimant.secret

namespace TokenRun

/-- An issuer has written this token for this claimant, and it has not expired. -/
def Granted (r : TokenRun) (claimant : Claimant) : Prop :=
  ∃ j c, r.issues j = some c ∧ c.secret = claimant.secret ∧ c.record.nodeId = claimant.nodeId ∧
    c.record.issuerNodeId = claimant.issuerNodeId ∧ c.record.databaseId = claimant.databaseId ∧
      claimant.now < c.record.expiresUnixSeconds

/-- The calls of the redeemers. -/
structure Redeems (secrets : Set Secret) (r : TokenRun) : Prop where
  secret_mem : ∀ k a, r.attempts k = some a → a.claimant.secret ∈ secrets
  claimed : ∀ k a, r.attempts k = some a → a.phase = .claimed → Taken a.digest r.files.current
  succeeded : ∀ k a, r.attempts k = some a → a.phase = .returned (.ok ()) → r.files.Always (Taken a.digest)
  once : ∀ k l a b, r.attempts k = some a → r.attempts l = some b → a.phase.winning = true →
    b.phase.winning = true → a.digest = b.digest → k = l
  granted : ∀ k a, r.attempts k = some a → a.phase.passed = true → r.Granted a.claimant
  late : ∀ k a, r.attempts k = some a → a.late = true →
    r.Redeemed a.claimant.secret ∧ a.phase.tooLate = true
  renamed : ∀ k a, r.attempts k = some a → a.renamed = true → a.phase.winning = true ∨ a.phase = .lost
  marked : ∀ k a, r.attempts k = some a → a.phase = .claimed → a.renamed = true

section Redeemers

variable {secrets : Set Secret} {r r' : TokenRun} {k : ℕ} {a a' : Attempt} {files : Files (List UInt8)}

/-- Where a call has published nothing, its digest has no names. -/
theorem absent_of_unpublished (h : Issued secrets r) (hinj : Set.InjOn hashSecret secrets) {j : ℕ} {c : Issue}
    (hissue : r.issues j = some c) (hpublished : c.published = false) :
    r.files.Always (Absent (hashSecret c.secret)) := by
  apply h.absent
  intro i d hd hdigest
  have hsecret : d.secret = c.secret := hinj (h.secret_mem i d hd) (h.secret_mem j c hissue) hdigest
  have hij := h.distinct i j d c hd hissue hsecret
  rw [hij, hissue] at hd
  cases hd
  exact hpublished

/-- What an issuer does to the names leaves a used token used. -/
theorem taken_issueTurn (h : Issued secrets r) (hinj : Set.InjOn hashSecret secrets) {j count : ℕ}
    {c c' : Issue} (hissue : r.issues j = some c) (hturn : issueTurn r.files c count = some (files, c'))
    {digest : HashBytes} (htaken : Taken digest r.files.current) :
    Taken digest files.current ∧ (r.files.Always (Taken digest) → files.Always (Taken digest)) := by
  rw [issueTurn] at hturn
  split at hturn
  · split at hturn
    · cases hturn
      exact ⟨htaken, id⟩
    · rename_i files' hcreate
      cases hturn
      obtain ⟨-, rfl⟩ := Files.createExclusive_eq_some hcreate
      have hnew : Taken digest (Function.update r.files.current (temporaryName c.suffix) (some r.files.created)) :=
        taken_update_temporary htaken (some r.files.created)
      exact ⟨hnew, fun halways => halways.change hnew⟩
  · split at hturn
    · cases hturn
      exact ⟨htaken, id⟩
    · cases hturn
      exact ⟨htaken, id⟩
  · rename_i hphase
    split at hturn
    · cases hturn
      exact ⟨htaken, id⟩
    · cases hturn
      exact ⟨htaken, id⟩
    · rename_i files' hrename
      cases hturn
      obtain ⟨file, -, -, rfl⟩ := Files.renamePreserve_eq_ok hrename
      have hne : digest ≠ hashSecret c.secret := by
        intro heq
        have habsent := absent_of_unpublished h hinj hissue (h.before j c hissue (by rw [hphase]; rfl))
        exact not_absent_of_taken htaken (heq ▸ habsent.current)
      have hnew : Taken digest (Files.renamed r.files.current (temporaryName c.suffix)
          (pendingName (hashSecret c.secret)) file) :=
        ⟨(published_pending hne).trans htaken.1, fun hused => htaken.2 (published_used.symm.trans hused)⟩
      exact ⟨hnew, fun halways => halways.change hnew⟩
  · cases hturn
    exact ⟨htaken, fun halways => Files.always_sync.2 halways.current⟩
  · cases hturn
    have hnew : Taken digest (Function.update r.files.current (temporaryName c.suffix) none) :=
      taken_update_temporary htaken none
    exact ⟨hnew, fun halways => halways.change hnew⟩
  · cases hturn
  · cases hturn

/-- The issuers move on, and the redeemers stay where they are. -/
theorem redeems_frame (h : Redeems secrets r) (hattempts : r'.attempts = r.attempts)
    (hissues : ∀ j c, r.issues j = some c → ∃ c', r'.issues j = some c' ∧ c'.secret = c.secret ∧
      c'.record = c.record)
    (htaken : ∀ digest, Taken digest r.files.current →
      Taken digest r'.files.current ∧ (r.files.Always (Taken digest) → r'.files.Always (Taken digest))) :
    Redeems secrets r' := by
  refine ⟨?_, ?_, ?_, ?_, ?_, ?_, ?_, ?_⟩
  · rw [hattempts]
    exact h.secret_mem
  · rw [hattempts]
    exact fun k a ha hphase => (htaken _ (h.claimed k a ha hphase)).1
  · rw [hattempts]
    intro k a ha hphase
    have halways := h.succeeded k a ha hphase
    exact (htaken _ halways.current).2 halways
  · rw [hattempts]
    exact h.once
  · rw [hattempts]
    intro k a ha hphase
    obtain ⟨j, c, hc, hsecret, hrest⟩ := h.granted k a ha hphase
    obtain ⟨c', hc', hsecret', hrecord⟩ := hissues j c hc
    refine ⟨j, c', hc', hsecret'.trans hsecret, ?_⟩
    rw [hrecord]
    exact hrest
  · rw [hattempts]
    intro k a ha hlate
    obtain ⟨⟨l, b, hb, hrest⟩, hphase⟩ := h.late k a ha hlate
    refine ⟨⟨l, b, ?_, hrest⟩, hphase⟩
    rw [hattempts]
    exact hb
  · rw [hattempts]
    exact h.renamed
  · rw [hattempts]
    exact h.marked

theorem issues_setIssue {j : ℕ} {c c' : Issue} (hissue : r.issues j = some c) (hevolves : Evolves c c') :
    ∀ i d, r.issues i = some d → ∃ d', (r.setIssue files j c').issues i = some d' ∧ d'.secret = d.secret ∧
      d'.record = d.record := by
  intro i d hd
  by_cases hij : i = j
  · rw [hij, hissue] at hd
    cases hd
    refine ⟨c', ?_, hevolves.secret, hevolves.record⟩
    rw [hij]
    exact Function.update_self _ _ _
  · exact ⟨d, (Function.update_of_ne hij _ _).trans hd, rfl, rfl⟩

theorem sameRecord_issueTurn {count : ℕ} {c c' : Issue}
    (hturn : issueTurn r.files c count = some (files, c')) : c'.secret = c.secret ∧ c'.record = c.record := by
  rw [issueTurn] at hturn
  split at hturn
  · split at hturn
    · cases hturn
      exact ⟨rfl, rfl⟩
    · cases hturn
      exact ⟨rfl, rfl⟩
  · split at hturn
    · cases hturn
      exact ⟨rfl, rfl⟩
    · cases hturn
      exact ⟨rfl, rfl⟩
  · split at hturn
    · cases hturn
      exact ⟨rfl, rfl⟩
    · cases hturn
      exact ⟨rfl, rfl⟩
    · cases hturn
      exact ⟨rfl, rfl⟩
  · cases hturn
    exact ⟨rfl, rfl⟩
  · cases hturn
    exact ⟨rfl, rfl⟩
  · cases hturn
  · cases hturn

/-- A redeemer moves on: what has to hold of the call it becomes, and of the others under the new names. -/
structure Moved (r : TokenRun) (files : Files (List UInt8)) (k : ℕ) (a a' : Attempt) : Prop where
  claimant : a'.claimant = a.claimant
  late_eq : a'.late = a.late
  pending : a.phase ≠ .returned (.ok ())
  others : ∀ l b, l ≠ k → r.attempts l = some b → Taken b.digest r.files.current →
    Taken b.digest files.current ∧ (r.files.Always (Taken b.digest) → files.Always (Taken b.digest))
  claimed : a'.phase = .claimed → Taken a.digest files.current
  succeeded : a'.phase = .returned (.ok ()) → files.Always (Taken a.digest)
  once : a'.phase.winning = true → ∀ l b, l ≠ k → r.attempts l = some b → b.phase.winning = true →
    b.digest ≠ a.digest
  granted : a'.phase.passed = true → r.Granted a.claimant
  late : a.late = true → a'.phase.tooLate = true
  renamed : a'.renamed = true → a'.phase.winning = true ∨ a'.phase = .lost
  marked : a'.phase = .claimed → a'.renamed = true

theorem redeems_setAttempt (h : Redeems secrets r) (hattempt : r.attempts k = some a)
    (hmoved : Moved r files k a a') : Redeems secrets (r.setAttempt files k a') := by
  have hdigest : a'.digest = a.digest := by
    rw [Attempt.digest, Attempt.digest, hmoved.claimant]
  have hredeemed : ∀ secret, r.Redeemed secret → (r.setAttempt files k a').Redeemed secret := by
    intro secret hr
    obtain ⟨l, b, hb, hsecret, hphase⟩ := hr
    have hne : l ≠ k := by
      intro heq
      rw [heq, hattempt] at hb
      cases hb
      exact hmoved.pending hphase
    exact ⟨l, b, (Function.update_of_ne hne _ _).trans hb, hsecret, hphase⟩
  refine ⟨?_, ?_, ?_, ?_, ?_, ?_, ?_, ?_⟩
  · intro l b hb
    cases update_eq_some hb with
    | inl hsame =>
      rw [hsame.2, hmoved.claimant]
      exact h.secret_mem k a hattempt
    | inr hother => exact h.secret_mem l b hother.2
  · intro l b hb hphase
    cases update_eq_some hb with
    | inl hsame =>
      rw [hsame.2] at hphase ⊢
      rw [hdigest]
      exact hmoved.claimed hphase
    | inr hother => exact (hmoved.others l b hother.1 hother.2 (h.claimed l b hother.2 hphase)).1
  · intro l b hb hphase
    cases update_eq_some hb with
    | inl hsame =>
      rw [hsame.2] at hphase ⊢
      rw [hdigest]
      exact hmoved.succeeded hphase
    | inr hother =>
      have halways := h.succeeded l b hother.2 hphase
      exact (hmoved.others l b hother.1 hother.2 halways.current).2 halways
  · intro l m b d hb hd hwinb hwind heq
    cases update_eq_some hb with
    | inl hsame =>
      cases update_eq_some hd with
      | inl hsame' => exact hsame.1.trans hsame'.1.symm
      | inr hother' =>
        rw [hsame.2] at hwinb heq
        exact absurd (heq.symm.trans hdigest) (hmoved.once hwinb m d hother'.1 hother'.2 hwind)
    | inr hother =>
      cases update_eq_some hd with
      | inl hsame' =>
        rw [hsame'.2] at hwind heq
        exact absurd (heq.trans hdigest) (hmoved.once hwind l b hother.1 hother.2 hwinb)
      | inr hother' => exact h.once l m b d hother.2 hother'.2 hwinb hwind heq
  · intro l b hb hphase
    cases update_eq_some hb with
    | inl hsame =>
      rw [hsame.2] at hphase ⊢
      rw [hmoved.claimant]
      exact hmoved.granted hphase
    | inr hother => exact h.granted l b hother.2 hphase
  · intro l b hb hlate
    cases update_eq_some hb with
    | inl hsame =>
      rw [hsame.2] at hlate ⊢
      rw [hmoved.late_eq] at hlate
      rw [hmoved.claimant]
      exact ⟨hredeemed _ (h.late k a hattempt hlate).1, hmoved.late hlate⟩
    | inr hother =>
      obtain ⟨hr, hphase⟩ := h.late l b hother.2 hlate
      exact ⟨hredeemed _ hr, hphase⟩
  · intro l b hb hrenamed
    cases update_eq_some hb with
    | inl hsame =>
      rw [hsame.2] at hrenamed ⊢
      exact hmoved.renamed hrenamed
    | inr hother => exact h.renamed l b hother.2 hrenamed
  · intro l b hb hphase
    cases update_eq_some hb with
    | inl hsame =>
      rw [hsame.2] at hphase ⊢
      exact hmoved.marked hphase
    | inr hother => exact h.marked l b hother.2 hphase

theorem taken_of_winning (h : Redeems secrets r) (hattempt : r.attempts k = some a)
    (hwinning : a.phase.winning = true) : Taken a.digest r.files.current := by
  cases hphase : a.phase with
  | claimed => exact h.claimed k a hattempt hphase
  | returned result =>
    cases result with
    | ok u => exact (h.succeeded k a hattempt hphase).current
    | error e =>
      rw [hphase] at hwinning
      cases hwinning
  | opened =>
    rw [hphase] at hwinning
    cases hwinning
  | missing =>
    rw [hphase] at hwinning
    cases hwinning
  | claiming =>
    rw [hphase] at hwinning
    cases hwinning
  | lost =>
    rw [hphase] at hwinning
    cases hwinning

theorem taken_of_late (h : Redeems secrets r) (hattempt : r.attempts k = some a) (hlate : a.late = true) :
    Taken a.digest r.files.current := by
  obtain ⟨⟨l, b, hb, hsecret, hphase⟩, -⟩ := h.late k a hattempt hlate
  have htaken := (h.succeeded l b hb hphase).current
  have hdigest : b.digest = a.digest := congrArg hashSecret hsecret
  rw [hdigest] at htaken
  exact htaken

/-- A step that renames nothing. -/
theorem moved_check (h : Redeems secrets r) (hattempt : r.attempts k = some a) {phase : ConsumePhase}
    (hbefore : a.phase.winning = false ∧ a.phase ≠ .lost) (hafter : phase.winning = false)
    (hgranted : phase.passed = true → r.Granted a.claimant) (hlate : a.late = true → phase.tooLate = true) :
    Moved r r.files k a { a with phase := phase } := by
  refine ⟨rfl, rfl, fun hphase => ?_, fun _ _ _ _ htaken => ⟨htaken, id⟩, fun hphase => ?_, fun hphase => ?_,
    fun hwinning => ?_, hgranted, hlate, fun hrenamed => ?_, fun hphase => ?_⟩
  · rw [hphase] at hbefore
    cases hbefore.1
  · rw [show phase = .claimed from hphase] at hafter
    cases hafter
  · rw [show phase = .returned (.ok ()) from hphase] at hafter
    cases hafter
  · rw [show phase.winning = true from hwinning] at hafter
    cases hafter
  · cases h.renamed k a hattempt hrenamed with
    | inl hwinning =>
      rw [hbefore.1] at hwinning
      cases hwinning
    | inr hlost => exact absurd hlost hbefore.2
  · rw [show phase = .claimed from hphase] at hafter
    cases hafter

/-- A token that passes the checks was written for the claimant. -/
theorem granted_of_checkClaim (hissued : Issued secrets r) (hinj : Set.InjOn hashSecret secrets)
    {claimant : Claimant} (hsecret : claimant.secret ∈ secrets) {name bytes : List UInt8}
    (hread : r.files.read name = some bytes) (hclaim : (checkClaim claimant bytes).passed = true) :
    r.Granted claimant := by
  obtain ⟨file, hfile, rfl⟩ := Option.map_eq_some_iff.1 hread
  obtain ⟨j, c, hc, -, hprefix⟩ := hissued.begun file (hissued.created.current name file hfile)
  rw [checkClaim] at hclaim
  split at hclaim
  · cases hclaim
  · split at hclaim
    · cases hclaim
    · rename_i record hdecode
      have hrecord := decode_prefix hprefix hdecode
      rw [hrecord] at hclaim
      split at hclaim
      · cases hclaim
      · rename_i hhash
        split at hclaim
        · cases hclaim
        · rename_i hidentity
          split at hclaim
          · cases hclaim
          · rename_i hexpiry
            simp only [not_or, not_not] at hidentity hexpiry
            have hsame : hashSecret claimant.secret = hashSecret c.secret := not_not.1 hhash
            refine ⟨j, c, hc, (hinj hsecret (hissued.secret_mem j c hc) hsame).symm, hidentity.1, hidentity.2.1,
              hidentity.2.2, ?_⟩
            exact UInt64.not_le.1 hexpiry.2

theorem checkClaim_winning (claimant : Claimant) (bytes : List UInt8) : (checkClaim claimant bytes).winning = false := by
  rw [checkClaim]
  split
  · rfl
  · split
    · rfl
    · split
      · rfl
      · split
        · rfl
        · split
          · rfl
          · rfl

theorem moved_consumeTurn (h : Redeems secrets r) (hissued : Issued secrets r)
    (hinj : Set.InjOn hashSecret secrets) (hattempt : r.attempts k = some a)
    (hturn : consumeTurn r.files a = some (files, a')) : Moved r files k a a' := by
  rw [consumeTurn] at hturn
  split at hturn
  · rename_i hphase
    have hbefore : a.phase.winning = false ∧ a.phase ≠ .lost := by
      rw [hphase]
      exact ⟨rfl, ConsumePhase.noConfusion⟩
    split at hturn
    · cases hturn
      exact moved_check h hattempt hbefore rfl (fun hpassed => by cases hpassed) fun _ => rfl
    · rename_i bytes hread
      cases hturn
      refine moved_check h hattempt hbefore (checkClaim_winning _ _)
        (fun hpassed => granted_of_checkClaim hissued hinj (h.secret_mem k a hattempt) hread hpassed) fun hlate => ?_
      have hpending := (taken_of_late h hattempt hlate).1
      obtain ⟨file, hfile, -⟩ := Option.map_eq_some_iff.1 hread
      have hnone : r.files.current (pendingName (hashSecret a.claimant.secret)) = none := hpending
      rw [hnone] at hfile
      cases hfile
  · rename_i hphase
    have hbefore : a.phase.winning = false ∧ a.phase ≠ .lost := by
      rw [hphase]
      exact ⟨rfl, ConsumePhase.noConfusion⟩
    split at hturn
    · cases hturn
      exact moved_check h hattempt hbefore rfl (fun hpassed => by cases hpassed) fun _ => rfl
    · rename_i hnone
      cases hturn
      refine moved_check h hattempt hbefore rfl (fun hpassed => by cases hpassed) fun hlate => ?_
      exact absurd hnone (taken_of_late h hattempt hlate).2
  · rename_i hphase
    have hbefore : a.phase.winning = false ∧ a.phase ≠ .lost := by
      rw [hphase]
      exact ⟨rfl, ConsumePhase.noConfusion⟩
    split at hturn
    · cases hturn
      exact moved_check h hattempt hbefore rfl (fun hpassed => by cases hpassed) fun _ => rfl
    · rename_i files' hrename
      cases hturn
      obtain ⟨file, -, htarget, rfl⟩ := Files.renamePreserve_eq_ok hrename
      have hused : r.files.current (usedName a.digest) = none := htarget
      have hother : ∀ digest, Taken digest r.files.current → digest ≠ a.digest := by
        intro digest htaken heq
        rw [heq] at htaken
        exact htaken.2 hused
      refine ⟨rfl, rfl, fun hreturned => ?_, fun l b _ _ htaken => ?_, fun _ => taken_claimed, fun hreturned => ?_,
        fun _ l b _ hb hwinning => ?_, fun _ => ?_, fun hlate => ?_, fun _ => .inl rfl, fun _ => rfl⟩
      · rw [hphase] at hreturned
        cases hreturned
      · have hne := hother b.digest htaken
        have hnew : Taken b.digest (Files.renamed r.files.current (pendingName a.digest) (usedName a.digest) file) :=
          ⟨(claimed_pending hne).trans htaken.1, fun hnone => htaken.2 ((claimed_used hne).symm.trans hnone)⟩
        exact ⟨hnew, fun halways => halways.change hnew⟩
      · cases hreturned
      · exact hother b.digest (taken_of_winning h hb hwinning)
      · exact h.granted k a hattempt (by rw [hphase]; rfl)
      · have htooLate := (h.late k a hattempt hlate).2
        rw [hphase] at htooLate
        cases htooLate
  · rename_i hphase
    cases hturn
    have hwinning : a.phase.winning = true := by
      rw [hphase]
      rfl
    refine ⟨rfl, rfl, fun hreturned => ?_, fun l b _ _ htaken => ⟨htaken, fun halways => ?_⟩, fun hclaimed => ?_,
      fun _ => ?_, fun _ l b hne hb hwin heq => ?_, fun _ => ?_, fun hlate => ?_, fun _ => .inl rfl,
      fun _ => h.marked k a hattempt hphase⟩
    · rw [hphase] at hreturned
      cases hreturned
    · exact Files.always_sync.2 halways.current
    · cases hclaimed
    · exact Files.always_sync.2 (h.claimed k a hattempt hphase)
    · exact hne (h.once l k b a hb hattempt hwin hwinning heq)
    · exact h.granted k a hattempt (by rw [hphase]; rfl)
    · have htooLate := (h.late k a hattempt hlate).2
      rw [hphase] at htooLate
      cases htooLate
  · cases hturn
  · cases hturn

/-- An interrupted call has returned already, or it is gone. -/
theorem interrupted_cases (a : Attempt) :
    (a.interrupted = a ∧ ∃ result, a.phase = .returned result) ∨
      (a.interrupted = { a with phase := .lost } ∧ ∀ result, a.phase ≠ .returned result) := by
  rw [Attempt.interrupted]
  split
  · rename_i result hphase
    exact .inl ⟨rfl, result, hphase⟩
  · rename_i hphase
    exact .inr ⟨rfl, hphase⟩

theorem redeems_consumeStops (h : Redeems secrets r) (hattempt : r.attempts k = some a) :
    Redeems secrets (r.setAttempt r.files k a.interrupted) := by
  cases interrupted_cases a with
  | inl hreturned =>
    have hsame : Function.update r.attempts k (some a) = r.attempts := by
      rw [← hattempt]
      exact Function.update_eq_self k r.attempts
    rw [hreturned.1]
    exact redeems_frame h hsame (fun j c hc => ⟨c, hc, rfl, rfl⟩) fun _ htaken => ⟨htaken, id⟩
  | inr hlost =>
    rw [hlost.1]
    refine redeems_setAttempt h hattempt ⟨rfl, rfl, hlost.2 _, fun _ _ _ _ htaken => ⟨htaken, id⟩, fun hphase => ?_,
      fun hphase => ?_, fun hwinning => ?_, fun hpassed => ?_, fun _ => rfl, fun _ => .inr rfl,
      fun hphase => ?_⟩
    · cases hphase
    · cases hphase
    · cases hwinning
    · cases hpassed
    · cases hphase

theorem redeems_consume (h : Redeems secrets r) {claimant : Claimant} {late : Bool}
    (hfree : r.attempts k = none) (hsecret : claimant.secret ∈ secrets)
    (hlate : late = true ↔ r.Redeemed claimant.secret) :
    Redeems secrets (r.setAttempt r.files k ⟨claimant, late, false, .opened⟩) := by
  have hredeemed : ∀ secret, r.Redeemed secret →
      (r.setAttempt r.files k ⟨claimant, late, false, .opened⟩).Redeemed secret := by
    intro secret hr
    obtain ⟨l, b, hb, hrest⟩ := hr
    have hne : l ≠ k := by
      intro heq
      rw [heq, hfree] at hb
      cases hb
    exact ⟨l, b, (Function.update_of_ne hne _ _).trans hb, hrest⟩
  refine ⟨?_, ?_, ?_, ?_, ?_, ?_, ?_, ?_⟩
  · intro l b hb
    cases update_eq_some hb with
    | inl hsame =>
      rw [hsame.2]
      exact hsecret
    | inr hother => exact h.secret_mem l b hother.2
  · intro l b hb hphase
    cases update_eq_some hb with
    | inl hsame =>
      rw [hsame.2] at hphase
      cases hphase
    | inr hother => exact h.claimed l b hother.2 hphase
  · intro l b hb hphase
    cases update_eq_some hb with
    | inl hsame =>
      rw [hsame.2] at hphase
      cases hphase
    | inr hother => exact h.succeeded l b hother.2 hphase
  · intro l m b d hb hd hwinb hwind heq
    cases update_eq_some hb with
    | inl hsame =>
      rw [hsame.2] at hwinb
      cases hwinb
    | inr hother =>
      cases update_eq_some hd with
      | inl hsame' =>
        rw [hsame'.2] at hwind
        cases hwind
      | inr hother' => exact h.once l m b d hother.2 hother'.2 hwinb hwind heq
  · intro l b hb hphase
    cases update_eq_some hb with
    | inl hsame =>
      rw [hsame.2] at hphase
      cases hphase
    | inr hother => exact h.granted l b hother.2 hphase
  · intro l b hb hl
    cases update_eq_some hb with
    | inl hsame =>
      rw [hsame.2] at hl ⊢
      exact ⟨hredeemed _ (hlate.1 hl), rfl⟩
    | inr hother =>
      obtain ⟨hr, hphase⟩ := h.late l b hother.2 hl
      exact ⟨hredeemed _ hr, hphase⟩
  · intro l b hb hrenamed
    cases update_eq_some hb with
    | inl hsame =>
      rw [hsame.2] at hrenamed
      cases hrenamed
    | inr hother => exact h.renamed l b hother.2 hrenamed
  · intro l b hb hphase
    cases update_eq_some hb with
    | inl hsame =>
      rw [hsame.2] at hphase
      cases hphase
    | inr hother => exact h.marked l b hother.2 hphase

/-- Every attempt of an interrupted run is one of before: the same, or gone. -/
theorem attempts_interrupt {l : ℕ} {b' : Attempt} (hb' : (r.interrupt files).attempts l = some b') :
    ∃ b, r.attempts l = some b ∧ b'.claimant = b.claimant ∧ b'.late = b.late ∧ b'.renamed = b.renamed ∧
      (b'.phase = .lost ∨ b' = b ∧ b.phase ≠ .claimed ∧ b.phase ≠ .claiming) := by
  obtain ⟨b, hb, rfl⟩ := Option.map_eq_some_iff.1 hb'
  refine ⟨b, hb, ?_⟩
  cases interrupted_cases b with
  | inl hreturned =>
    obtain ⟨heq, result, hphase⟩ := hreturned
    rw [heq]
    refine ⟨rfl, rfl, rfl, .inr ⟨rfl, fun hclaimed => ?_, fun hclaiming => ?_⟩⟩
    · rw [hphase] at hclaimed
      cases hclaimed
    · rw [hphase] at hclaiming
      cases hclaiming
  | inr hlost =>
    rw [hlost.1]
    exact ⟨rfl, rfl, rfl, .inl rfl⟩

theorem redeems_powerLoss (h : Redeems secrets r) (hloss : Files.PowerLoss r.files files) :
    Redeems secrets (r.interrupt files) := by
  have hredeemed : ∀ secret, r.Redeemed secret → (r.interrupt files).Redeemed secret := by
    intro secret hr
    obtain ⟨l, b, hb, hsecret, hphase⟩ := hr
    have hsame : b.interrupted = b := by
      rw [Attempt.interrupted, hphase]
    refine ⟨l, b, ?_, hsecret, hphase⟩
    show (r.attempts l).map Attempt.interrupted = some b
    rw [hb, Option.map_some, hsame]
  have hwins : ∀ l b, (r.interrupt files).attempts l = some b → b.phase.winning = true →
      r.attempts l = some b ∧ b.phase = .returned (.ok ()) := by
    intro l b hb hwinning
    obtain ⟨x, hx, -, -, -, hcases⟩ := attempts_interrupt hb
    cases hcases with
    | inl hlost =>
      rw [hlost] at hwinning
      cases hwinning
    | inr hsame =>
      rw [hsame.1]
      refine ⟨hx, ?_⟩
      rw [hsame.1] at hwinning
      cases hphase : x.phase with
      | claimed => exact absurd hphase hsame.2.1
      | returned result =>
        cases result with
        | ok u => rfl
        | error e =>
          rw [hphase] at hwinning
          cases hwinning
      | opened =>
        rw [hphase] at hwinning
        cases hwinning
      | missing =>
        rw [hphase] at hwinning
        cases hwinning
      | claiming =>
        rw [hphase] at hwinning
        cases hwinning
      | lost =>
        rw [hphase] at hwinning
        cases hwinning
  refine ⟨?_, ?_, ?_, ?_, ?_, ?_, ?_, ?_⟩
  · intro l b hb
    obtain ⟨x, hx, hclaimant, -⟩ := attempts_interrupt hb
    rw [hclaimant]
    exact h.secret_mem l x hx
  · intro l b hb hphase
    have hreturned := (hwins l b hb (by rw [hphase]; rfl)).2
    rw [hphase] at hreturned
    cases hreturned
  · intro l b hb hphase
    have hold := (hwins l b hb (by rw [hphase]; rfl)).1
    exact (h.succeeded l b hold hphase).powerLoss hloss
  · intro l m b d hb hd hwinb hwind heq
    exact h.once l m b d (hwins l b hb hwinb).1 (hwins m d hd hwind).1 hwinb hwind heq
  · intro l b hb hphase
    obtain ⟨x, hx, -, -, -, hcases⟩ := attempts_interrupt hb
    cases hcases with
    | inl hlost =>
      rw [hlost] at hphase
      cases hphase
    | inr hsame =>
      rw [hsame.1] at hphase ⊢
      obtain ⟨j, c, hc, hsecret, hrest⟩ := h.granted l x hx hphase
      have hevolves : Evolves c c.interrupted := evolves_interrupted
      refine ⟨j, c.interrupted, interrupt_issues hc, hevolves.secret.trans hsecret, ?_⟩
      rw [hevolves.record]
      exact hrest
  · intro l b hb hlate
    obtain ⟨x, hx, hclaimant, hlateEq, -, hcases⟩ := attempts_interrupt hb
    rw [hlateEq] at hlate
    obtain ⟨hr, hphase⟩ := h.late l x hx hlate
    rw [hclaimant]
    refine ⟨hredeemed _ hr, ?_⟩
    cases hcases with
    | inl hlost =>
      rw [hlost]
      rfl
    | inr hsame =>
      rw [hsame.1]
      exact hphase
  · intro l b hb hrenamed
    obtain ⟨x, hx, -, -, hrenamedEq, hcases⟩ := attempts_interrupt hb
    cases hcases with
    | inl hlost => exact .inr hlost
    | inr hsame =>
      rw [hsame.1]
      exact h.renamed l x hx (hrenamedEq.symm.trans hrenamed)
  · intro l b hb hphase
    have hreturned := (hwins l b hb (by rw [hphase]; rfl)).2
    rw [hphase] at hreturned
    cases hreturned

theorem redeems_step (h : Redeems secrets r) (hissued : Issued secrets r) (hinj : Set.InjOn hashSecret secrets)
    (hstep : Step secrets r r') : Redeems secrets r' := by
  cases hstep with
  | @issue j grant secret suffix hfree hsecret hfresh =>
    refine redeems_frame h rfl (fun i d hd => ⟨d, ?_, rfl, rfl⟩) fun _ htaken => ⟨htaken, id⟩
    have hne : i ≠ j := by
      intro heq
      rw [heq, hfree] at hd
      cases hd
    exact (Function.update_of_ne hne _ _).trans hd
  | @issueTurn j c c' files count hissue hturn =>
    refine redeems_frame h rfl (fun i d hd => ?_) fun _ htaken => taken_issueTurn hissued hinj hissue hturn htaken
    by_cases hij : i = j
    · rw [hij, hissue] at hd
      cases hd
      rw [hij]
      exact ⟨c', Function.update_self _ _ _, sameRecord_issueTurn hturn⟩
    · exact ⟨d, (Function.update_of_ne hij _ _).trans hd, rfl, rfl⟩
  | issueFails e hissue hphase =>
    exact redeems_frame h rfl (issues_setIssue hissue (evolves_phase rfl)) fun _ htaken => ⟨htaken, id⟩
  | issueStops hissue =>
    exact redeems_frame h rfl (issues_setIssue hissue evolves_interrupted) fun _ htaken => ⟨htaken, id⟩
  | consume claimant hfree hsecret hlate => exact redeems_consume h hfree hsecret hlate
  | consumeTurn hattempt hturn =>
    exact redeems_setAttempt h hattempt (moved_consumeTurn h hissued hinj hattempt hturn)
  | consumeStops hattempt => exact redeems_consumeStops h hattempt
  | powerLoss hloss => exact redeems_powerLoss h hloss

theorem redeems_start : Redeems secrets start := by
  refine ⟨?_, ?_, ?_, ?_, ?_, ?_, ?_, ?_⟩
  · intro k a ha
    cases ha
  · intro k a ha
    cases ha
  · intro k a ha
    cases ha
  · intro k l a b ha
    cases ha
  · intro k a ha
    cases ha
  · intro k a ha
    cases ha
  · intro k a ha
    cases ha
  · intro k a ha
    cases ha

theorem files_consumeTurn (h : Redeems secrets r) (hattempt : r.attempts k = some a)
    (hturn : consumeTurn r.files a = some (files, a')) : files = r.files ∨ a'.renamed = true := by
  rw [consumeTurn] at hturn
  split at hturn
  · split at hturn
    · cases hturn
      exact .inl rfl
    · cases hturn
      exact .inl rfl
  · split at hturn
    · cases hturn
      exact .inl rfl
    · cases hturn
      exact .inl rfl
  · split at hturn
    · cases hturn
      exact .inl rfl
    · cases hturn
      exact .inr rfl
  · rename_i hphase
    cases hturn
    exact .inr (h.marked k a hattempt hphase)
  · cases hturn
  · cases hturn

end Redeemers

structure SingleUse (r : TokenRun) : Prop where
  /-- Two successes with one secret are one. -/
  once : ∀ k l a b, r.attempts k = some a → r.attempts l = some b → a.phase = .returned (.ok ()) →
    b.phase = .returned (.ok ()) → a.claimant.secret = b.claimant.secret → k = l
  /-- A success presented what an issuer had published, and in time. -/
  presented : ∀ k a, r.attempts k = some a → a.phase = .returned (.ok ()) →
    ∃ j c, r.issues j = some c ∧ c.published = true ∧ a.claimant.secret = c.secret ∧
      a.claimant.nodeId = c.record.nodeId ∧ a.claimant.issuerNodeId = c.record.issuerNodeId ∧
        a.claimant.databaseId = c.record.databaseId ∧ a.claimant.now < c.record.expiresUnixSeconds
  /-- A failed attempt has renamed nothing. -/
  unchanged : ∀ k a e, r.attempts k = some a → a.phase = .returned (.error e) → a.renamed = false
  /-- A turn that renames nothing leaves the directory and every record as they are. -/
  untouched : ∀ k a files a', r.attempts k = some a → consumeTurn r.files a = some (files, a') →
    a'.renamed = false → files = r.files
  /-- Whoever begins after a success learns that the token is used. -/
  used : ∀ k a result, r.attempts k = some a → a.late = true → a.phase = .returned result →
    result = .error .tokenUsed

/-- **Enrollment tokens are single-use**, as long as the hashes of the secrets do not collide. -/
theorem tokens_single_use {secrets : Set Secret} (hinj : Set.InjOn hashSecret secrets) {r : TokenRun}
    (h : Reachable (fun r => r = start) (Step secrets) r) : r.SingleUse := by
  have hboth : Issued secrets r ∧ Redeems secrets r := by
    apply h.invariant (I := fun r => Issued secrets r ∧ Redeems secrets r)
    · intro r hr
      rw [hr]
      exact ⟨issued_start, redeems_start⟩
    · intro r r' hr hstep
      exact ⟨issued_step hr.1 hstep, redeems_step hr.2 hr.1 hinj hstep⟩
  obtain ⟨hissued, hredeems⟩ := hboth
  refine ⟨?_, ?_, ?_, ?_, ?_⟩
  · intro k l a b ha hb hphaseA hphaseB hsecret
    exact hredeems.once k l a b ha hb (by rw [hphaseA]; rfl) (by rw [hphaseB]; rfl) (congrArg hashSecret hsecret)
  · intro k a ha hphase
    obtain ⟨j, c, hc, hsecret, hnode, hissuer, hdatabase, hnow⟩ :=
      hredeems.granted k a ha (by rw [hphase]; rfl)
    refine ⟨j, c, hc, ?_, hsecret.symm, hnode.symm, hissuer.symm, hdatabase.symm, hnow⟩
    cases hpublished : c.published with
    | true => rfl
    | false =>
      have habsent := (absent_of_unpublished hissued hinj hc hpublished).current
      rw [hsecret] at habsent
      exact absurd habsent (not_absent_of_taken (hredeems.succeeded k a ha hphase).current)
  · intro k a e ha hphase
    cases hrenamed : a.renamed with
    | false => rfl
    | true =>
      cases hredeems.renamed k a ha hrenamed with
      | inl hwinning =>
        rw [hphase] at hwinning
        cases hwinning
      | inr hlost =>
        rw [hphase] at hlost
        cases hlost
  · intro k a files a' ha hturn hrenamed
    cases files_consumeTurn hredeems ha hturn with
    | inl hsame => exact hsame
    | inr htrue =>
      rw [hrenamed] at htrue
      cases htrue
  · intro k a result ha hlate hphase
    have htooLate := (hredeems.late k a ha hlate).2
    rw [hphase] at htooLate
    cases result with
    | ok u => cases htooLate
    | error e =>
      cases e
      all_goals first
        | rfl
        | cases htooLate

/-! ### A token that is redeemed -/

def sampleGrant : Grant where
  nodeId := 3
  issuerNodeId := 1
  databaseId := 99
  now := 1000
  ttlSeconds := 60

def sampleSecret : Secret :=
  Vector.replicate 32 0x5a

def sampleSuffix : Vector UInt8 8 :=
  Vector.replicate 8 0

/-- The node the token is for, in its last second. -/
def sampleClaimant : Claimant where
  secret := sampleSecret
  nodeId := 3
  issuerNodeId := 1
  databaseId := 99
  now := 1059

def sampleIssue (phase : IssuePhase) (published : Bool) : Issue where
  grant := sampleGrant
  secret := sampleSecret
  suffix := sampleSuffix
  file := some 0
  published := published
  phase := phase

def sampleRecord : Record :=
  (sampleIssue .drawn false).record

def sampleAttempt (phase : ConsumePhase) (renamed : Bool) : Attempt where
  claimant := sampleClaimant
  late := false
  renamed := renamed
  phase := phase

/-- The first file holds these bytes. -/
def fileOf (bytes : List UInt8) : ℕ → List UInt8 :=
  Function.update (fun _ => []) 0 bytes

theorem fileOf_zero (bytes : List UInt8) : fileOf bytes 0 = bytes := by
  rw [fileOf, Function.update_self]

theorem update_fileOf (bytes bytes' : List UInt8) : Function.update (fileOf bytes) 0 bytes' = fileOf bytes' := by
  rw [fileOf, fileOf, Function.update_idem]

def sampleFiles (names : Names (List UInt8)) (earlier : List (Names (List UInt8)))
    (data flushed : List UInt8) : Files (List UInt8) where
  current := names
  earlier := earlier
  data := fileOf data
  flushed := fileOf flushed
  created := 1

/-- A name stands for the file of the record, and no other name for any. -/
def onlyName (name : List UInt8) : Names (List UInt8) :=
  Function.update (fun _ => none) name (some 0)

theorem renamed_onlyName (source target : List UInt8) :
    Files.renamed (onlyName source) source target 0 = onlyName target := by
  funext name
  by_cases htarget : name = target
  · rw [htarget, Files.renamed_target, onlyName, Function.update_self]
  · by_cases hsource : name = source
    · rw [hsource, Files.renamed_source (fun heq => htarget (hsource.trans heq)), onlyName,
        Function.update_of_ne (fun heq => htarget (hsource.trans heq))]
    · rw [Files.renamed_of_ne hsource htarget, onlyName, onlyName, Function.update_of_ne hsource,
        Function.update_of_ne htarget]

theorem sample_rename {source target : List UInt8} (hne : target ≠ source)
    (earlier : List (Names (List UInt8))) (data flushed : List UInt8) :
    (sampleFiles (onlyName source) earlier data flushed).renamePreserve source target =
      .ok (sampleFiles (onlyName target) (onlyName source :: earlier) data flushed) := by
  have hsource : onlyName source source = some 0 := by
    rw [onlyName, Function.update_self]
  have htarget : onlyName source target = none := by
    rw [onlyName, Function.update_of_ne hne]
  have hrename : (sampleFiles (onlyName source) earlier data flushed).renamePreserve source target = .ok _ :=
    Files.renamePreserve_of hsource htarget
  rw [hrename]
  show Except.ok ((sampleFiles (onlyName source) earlier data flushed).change
    (Files.renamed (onlyName source) source target 0)) = _
  rw [renamed_onlyName]
  rfl

theorem checkClaim_sampleClaimant : checkClaim sampleClaimant sampleRecord.encode = .claiming := by
  have hvalid : sampleRecord.Valid := by
    refine ⟨?_, ?_, ?_, ?_⟩
    all_goals decide
  rw [checkClaim, length_encode, if_neg (by decide), decode_encode_record hvalid]
  show (if hashSecret sampleSecret ≠ hashSecret sampleSecret then _ else _) = _
  rw [if_neg (not_not.2 rfl)]
  rfl

/-- One issuer and one redeemer. -/
def sampleRun (files : Files (List UInt8)) (c : Issue) (a : Option Attempt) : TokenRun where
  files := files
  issues := Function.update (fun _ => none) 0 (some c)
  attempts := Function.update (fun _ => none) 0 a

theorem sample_issueTurn {files files' : Files (List UInt8)} {c c' : Issue} {a : Option Attempt} (count : ℕ)
    (hturn : issueTurn files c count = some (files', c')) :
    Step {sampleSecret} (sampleRun files c a) (sampleRun files' c' a) := by
  have hissue : (sampleRun files c a).issues 0 = some c := by
    show Function.update (fun _ => none) 0 (some c) 0 = some c
    rw [Function.update_self]
  have hstep := @Step.issueTurn {sampleSecret} (sampleRun files c a) 0 c c' files' count hissue hturn
  have hsame : (sampleRun files c a).setIssue files' 0 c' = sampleRun files' c' a := by
    rw [setIssue, sampleRun, sampleRun, Function.update_idem]
  rw [hsame] at hstep
  exact hstep

theorem sample_consumeTurn {files files' : Files (List UInt8)} {c : Issue} {a a' : Attempt}
    (hturn : consumeTurn files a = some (files', a')) :
    Step {sampleSecret} (sampleRun files c (some a)) (sampleRun files' c (some a')) := by
  have hattempt : (sampleRun files c (some a)).attempts 0 = some a := by
    show Function.update (fun _ => none) 0 (some a) 0 = some a
    rw [Function.update_self]
  have hstep := @Step.consumeTurn {sampleSecret} (sampleRun files c (some a)) 0 a a' files' hattempt hturn
  have hsame : (sampleRun files c (some a)).setAttempt files' 0 a' = sampleRun files' c (some a') := by
    rw [setAttempt, sampleRun, sampleRun, Function.update_idem]
  rw [hsame] at hstep
  exact hstep

/-- The issuer's writes, its flush, its rename and its sync. -/
theorem sample_issued :
    issueTurn (sampleFiles (onlyName (temporaryName sampleSuffix)) [fun _ => none] [] [])
        (sampleIssue (.writing 0) false) recordSize =
      some (sampleFiles (onlyName (temporaryName sampleSuffix)) [fun _ => none] sampleRecord.encode [],
        sampleIssue (.writing 0) false) ∧
    issueTurn (sampleFiles (onlyName (temporaryName sampleSuffix)) [fun _ => none] sampleRecord.encode [])
        (sampleIssue (.writing 0) false) 0 =
      some (sampleFiles (onlyName (temporaryName sampleSuffix)) [fun _ => none] sampleRecord.encode
        sampleRecord.encode, sampleIssue .flushed false) ∧
    issueTurn (sampleFiles (onlyName (temporaryName sampleSuffix)) [fun _ => none] sampleRecord.encode
        sampleRecord.encode) (sampleIssue .flushed false) 0 =
      some (sampleFiles (onlyName (pendingName (hashSecret sampleSecret)))
        [onlyName (temporaryName sampleSuffix), fun _ => none] sampleRecord.encode sampleRecord.encode,
        sampleIssue .published true) := by
  refine ⟨?_, ?_, ?_⟩
  · have hlength : (fileOf [] 0).length < recordSize := by
      rw [fileOf_zero]
      decide
    have hwritten : Function.update (fileOf []) 0
        (fileOf [] 0 ++ (sampleRecord.encode.drop (fileOf [] 0).length).take recordSize) =
          fileOf sampleRecord.encode := by
      rw [fileOf_zero, update_fileOf, List.length_nil, List.drop_zero,
        List.take_of_length_le (le_of_eq (length_encode sampleRecord)), List.nil_append]
    have hrecord : (sampleIssue (.writing 0) false).record = sampleRecord := rfl
    rw [issueTurn, hrecord]
    simp only [sampleIssue, sampleFiles, hlength, if_true, Files.append, hwritten]
  · have hlength : ¬(fileOf sampleRecord.encode 0).length < recordSize := by
      rw [fileOf_zero, length_encode]
      exact lt_irrefl _
    have hflushed : Function.update (fileOf []) 0 (fileOf sampleRecord.encode 0) =
        fileOf sampleRecord.encode := by
      rw [fileOf_zero, update_fileOf]
    rw [issueTurn]
    simp only [sampleIssue, sampleFiles, hlength, if_false, Files.syncFile, hflushed]
  · rw [issueTurn]
    have hrename := sample_rename (temporaryName_ne_pendingName sampleSuffix (hashSecret sampleSecret)).symm
      [fun _ => none] sampleRecord.encode sampleRecord.encode
    simp only [sampleIssue, hrename]

/-- The redeemer's read, its rename and its sync. -/
theorem sample_redeemed (earlier : List (Names (List UInt8))) (bytes : List UInt8) :
    consumeTurn (sampleFiles (onlyName (pendingName (hashSecret sampleSecret))) earlier sampleRecord.encode bytes)
        (sampleAttempt .opened false) =
      some (sampleFiles (onlyName (pendingName (hashSecret sampleSecret))) earlier sampleRecord.encode bytes,
        sampleAttempt .claiming false) ∧
    consumeTurn (sampleFiles (onlyName (pendingName (hashSecret sampleSecret))) earlier sampleRecord.encode bytes)
        (sampleAttempt .claiming false) =
      some (sampleFiles (onlyName (usedName (hashSecret sampleSecret)))
        (onlyName (pendingName (hashSecret sampleSecret)) :: earlier) sampleRecord.encode bytes,
        sampleAttempt .claimed true) := by
  constructor
  · have hread : (sampleFiles (onlyName (pendingName (hashSecret sampleSecret))) earlier sampleRecord.encode
        bytes).read (pendingName (hashSecret sampleSecret)) = some sampleRecord.encode := by
      show (onlyName _ _).map (fileOf sampleRecord.encode) = _
      rw [onlyName, Function.update_self, Option.map_some, fileOf_zero]
    rw [consumeTurn]
    simp only [sampleAttempt, sampleClaimant, hread]
    rw [← sampleClaimant, checkClaim_sampleClaimant]
  · rw [consumeTurn]
    have hrename := sample_rename (pendingName_ne_usedName (hashSecret sampleSecret) (hashSecret sampleSecret)).symm
      earlier sampleRecord.encode bytes
    simp only [sampleAttempt, sampleClaimant, hrename]

theorem reachable_redeemed : ∃ files c, Taken (hashSecret sampleSecret) files.current ∧
    Reachable (fun r => r = start) (Step {sampleSecret})
      (sampleRun files c (some (sampleAttempt (.returned (.ok ())) true))) := by
  have h₀ : Reachable (fun r => r = start) (Step {sampleSecret}) start := .start rfl
  have hfresh : ∀ i c, start.issues i = some c → c.secret ≠ sampleSecret := by
    intro i c hc
    cases hc
  have hstart : start.setIssue start.files 0 (issueStart sampleGrant sampleSecret sampleSuffix) =
      sampleRun Files.empty (issueStart sampleGrant sampleSecret sampleSuffix) none := by
    rw [setIssue, sampleRun, Function.update_eq_self_iff.2 rfl]
    rfl
  have h₁ := h₀.step (Step.issue (j := 0) sampleGrant sampleSuffix rfl (Set.mem_singleton _) hfresh)
  rw [hstart] at h₁
  have hcreated : issueTurn Files.empty (issueStart sampleGrant sampleSecret sampleSuffix) 0 =
      some (sampleFiles (onlyName (temporaryName sampleSuffix)) [fun _ => none] [] [],
        sampleIssue (.writing 0) false) := rfl
  have h₂ := h₁.step (sample_issueTurn 0 hcreated)
  have h₃ := h₂.step (sample_issueTurn recordSize sample_issued.1)
  have h₄ := h₃.step (sample_issueTurn 0 sample_issued.2.1)
  have h₅ := h₄.step (sample_issueTurn 0 sample_issued.2.2)
  have hnone : ∀ files c, false = true ↔ (sampleRun files c none).Redeemed sampleClaimant.secret := by
    intro files c
    constructor
    · intro hfalse
      cases hfalse
    · intro hredeemed
      obtain ⟨k, a, ha, -⟩ := hredeemed
      have ha : Function.update (fun _ => none) 0 none k = some a := ha
      rw [Function.update_eq_self_iff.2 rfl] at ha
      cases ha
  have hfree : ∀ files c, (sampleRun files c none).attempts 0 = none := by
    intro files c
    rw [sampleRun, Function.update_eq_self_iff.2 rfl]
  have h₆ := h₅.step (Step.consume sampleClaimant (hfree _ _) (Set.mem_singleton _) (hnone _ _))
  rw [setAttempt, sampleRun, Function.update_idem] at h₆
  have h₇ := h₆.step (sample_consumeTurn (a := sampleAttempt .opened false) (sample_redeemed _ _).1)
  have h₈ := h₇.step (sample_consumeTurn (sample_redeemed _ _).2)
  have hpending : onlyName (usedName (hashSecret sampleSecret)) (pendingName (hashSecret sampleSecret)) = none := by
    rw [onlyName, Function.update_of_ne (pendingName_ne_usedName _ _)]
  have hused : onlyName (usedName (hashSecret sampleSecret)) (usedName (hashSecret sampleSecret)) = some 0 := by
    rw [onlyName, Function.update_self]
  refine ⟨_, _, ⟨hpending, ?_⟩, h₈.step (sample_consumeTurn rfl)⟩
  exact fun hno => Option.some_ne_none 0 (hused.symm.trans hno)

/-- Who presents a used token learns so in two turns. -/
theorem consumeTurn_taken {files : Files (List UInt8)} (claimant : Claimant) (late renamed : Bool)
    (htaken : Taken (hashSecret claimant.secret) files.current) :
    consumeTurn files ⟨claimant, late, renamed, .opened⟩ = some (files, ⟨claimant, late, renamed, .missing⟩) ∧
      consumeTurn files ⟨claimant, late, renamed, .missing⟩ =
        some (files, ⟨claimant, late, renamed, .returned (.error .tokenUsed)⟩) := by
  have hread : files.read (pendingName (hashSecret claimant.secret)) = none := by
    rw [Files.read, htaken.1, Option.map_none]
  obtain ⟨file, hused⟩ := Option.ne_none_iff_exists'.1 htaken.2
  constructor
  · rw [consumeTurn]
    simp only [hread]
  · rw [consumeTurn]
    simp only [hused]

theorem attempts_setAttempt_self (r : TokenRun) (files : Files (List UInt8)) (k : ℕ) (a : Attempt) :
    (r.setAttempt files k a).attempts k = some a := by
  show Function.update r.attempts k (some a) k = some a
  rw [Function.update_self]

theorem attempts_setAttempt_ne {r : TokenRun} {files : Files (List UInt8)} {j k : ℕ} {a : Attempt} (h : j ≠ k) :
    (r.setAttempt files k a).attempts j = r.attempts j := by
  show Function.update r.attempts k (some a) j = r.attempts j
  rw [Function.update_of_ne h]

/-- The token is redeemed, and presented once more. -/
theorem tokens_single_use_sample : ∃ r : TokenRun, r.SingleUse ∧
    (∃ a, r.attempts 0 = some a ∧ a.phase = .returned (.ok ())) ∧
      ∃ a, r.attempts 1 = some a ∧ a.phase = .returned (.error .tokenUsed) := by
  obtain ⟨files, c, htaken, h⟩ := reachable_redeemed
  have hfirst : (sampleRun files c (some (sampleAttempt (.returned (.ok ())) true))).attempts 0 =
      some (sampleAttempt (.returned (.ok ())) true) := by
    show Function.update (fun _ => none) 0 (some (sampleAttempt (.returned (.ok ())) true)) 0 = _
    rw [Function.update_self]
  have hfree : (sampleRun files c (some (sampleAttempt (.returned (.ok ())) true))).attempts 1 = none := by
    show Function.update (fun _ => none) 0 (some (sampleAttempt (.returned (.ok ())) true)) 1 = _
    rw [Function.update_of_ne Nat.one_ne_zero]
  have hredeemed : (sampleRun files c (some (sampleAttempt (.returned (.ok ())) true))).Redeemed
      sampleClaimant.secret := ⟨0, _, hfirst, rfl, rfl⟩
  obtain ⟨hopened, hmissing⟩ := consumeTurn_taken sampleClaimant true false htaken
  have hbegins := h.step (.consume sampleClaimant hfree (Set.mem_singleton _) (iff_of_true rfl hredeemed))
  have hreads := hbegins.step (.consumeTurn (attempts_setAttempt_self _ _ _ _) hopened)
  have hreturns := hreads.step (.consumeTurn (attempts_setAttempt_self _ _ _ _) hmissing)
  refine ⟨_, tokens_single_use (Set.injOn_singleton hashSecret sampleSecret) hreturns,
    ⟨sampleAttempt (.returned (.ok ())) true, ?_, rfl⟩, ⟨_, attempts_setAttempt_self _ _ _ _, rfl⟩⟩
  have hne : (0 : ℕ) ≠ 1 := Nat.zero_ne_one
  rw [attempts_setAttempt_ne hne, attempts_setAttempt_ne hne, attempts_setAttempt_ne hne, hfirst]

end TokenRun

end Enrollment

end Zaxonlite
