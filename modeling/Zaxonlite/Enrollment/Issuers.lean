import Mathlib.Data.Set.Function
import Zaxonlite.Enrollment.Tokens
import Zaxonlite.Lib.Run

/-!
# The issuers of tokens

Any number of calls issue and redeem tokens at once, each doing one thing to the directory at a time. A call
can stop between any two of its effects, a process crash being all of them at once, and a power loss also
takes back what no sync has waited for. Through all of it a file is only ever the beginning of the record of
the call that created it, and a digest whose call has published nothing has no names.
-/

namespace Zaxonlite

namespace Enrollment

open Directory Run

/-- The store of tokens and the calls that work on it. -/
structure TokenRun where
  files : Files (List UInt8)
  issues : ℕ → Option Issue
  attempts : ℕ → Option Attempt

/-- A call that has not returned is gone. -/
def Issue.interrupted (c : Issue) : Issue :=
  match c.phase with
  | .returned _ => c
  | _ => { c with phase := .lost }

def Attempt.interrupted (a : Attempt) : Attempt :=
  match a.phase with
  | .returned _ => a
  | _ => { a with phase := .lost }

/-- The file of the call has not become a token. -/
def IssuePhase.beforeRename : IssuePhase → Bool
  | .drawn => true
  | .writing _ => true
  | .flushed => true
  | _ => false

namespace TokenRun

def start : TokenRun where
  files := Files.empty
  issues := fun _ => none
  attempts := fun _ => none

/-- A call with the secret has succeeded. -/
def Redeemed (r : TokenRun) (secret : Secret) : Prop :=
  ∃ k a, r.attempts k = some a ∧ a.claimant.secret = secret ∧ a.phase = .returned (.ok ())

def setIssue (r : TokenRun) (files : Files (List UInt8)) (j : ℕ) (c : Issue) : TokenRun :=
  { r with files := files, issues := Function.update r.issues j (some c) }

def setAttempt (r : TokenRun) (files : Files (List UInt8)) (k : ℕ) (a : Attempt) : TokenRun :=
  { r with files := files, attempts := Function.update r.attempts k (some a) }

def interrupt (r : TokenRun) (files : Files (List UInt8)) : TokenRun where
  files := files
  issues := fun j => (r.issues j).map Issue.interrupted
  attempts := fun k => (r.attempts k).map Attempt.interrupted

/-- One step of a run, with secrets of a set. An issuer never draws a secret twice. -/
inductive Step (secrets : Set Secret) : TokenRun → TokenRun → Prop
  | issue {r : TokenRun} {j : ℕ} (grant : Grant) {secret : Secret} (suffix : Vector UInt8 8)
    (hfree : r.issues j = none) (hsecret : secret ∈ secrets)
    (hfresh : ∀ i c, r.issues i = some c → c.secret ≠ secret) :
    Step secrets r (r.setIssue r.files j (issueStart grant secret suffix))
  | issueTurn {r : TokenRun} {j : ℕ} {c c' : Issue} {files : Files (List UInt8)} (count : ℕ)
    (hissue : r.issues j = some c) (hturn : issueTurn r.files c count = some (files, c')) :
    Step secrets r (r.setIssue files j c')
  | issueFails {r : TokenRun} {j : ℕ} {c : Issue} (e : TokenError) (hissue : r.issues j = some c)
    (hphase : c.phase.beforeRename = true) :
    Step secrets r (r.setIssue r.files j { c with phase := .undoing e })
  | issueStops {r : TokenRun} {j : ℕ} {c : Issue} (hissue : r.issues j = some c) :
    Step secrets r (r.setIssue r.files j c.interrupted)
  | consume {r : TokenRun} {k : ℕ} (claimant : Claimant) {late : Bool} (hfree : r.attempts k = none)
    (hsecret : claimant.secret ∈ secrets) (hlate : late = true ↔ r.Redeemed claimant.secret) :
    Step secrets r (r.setAttempt r.files k ⟨claimant, late, false, .opened⟩)
  | consumeTurn {r : TokenRun} {k : ℕ} {a a' : Attempt} {files : Files (List UInt8)}
    (hattempt : r.attempts k = some a) (hturn : consumeTurn r.files a = some (files, a')) :
    Step secrets r (r.setAttempt files k a')
  | consumeStops {r : TokenRun} {k : ℕ} {a : Attempt} (hattempt : r.attempts k = some a) :
    Step secrets r (r.setAttempt r.files k a.interrupted)
  | powerLoss {r : TokenRun} {files : Files (List UInt8)} (hloss : Files.PowerLoss r.files files) :
    Step secrets r (r.interrupt files)

/-! ### What holds of the names -/

/-- No file has become a token of the digest. -/
def Absent (digest : HashBytes) (names : Names (List UInt8)) : Prop :=
  names (pendingName digest) = none ∧ names (usedName digest) = none

/-- The token of the digest is used. -/
def Taken (digest : HashBytes) (names : Names (List UInt8)) : Prop :=
  names (pendingName digest) = none ∧ names (usedName digest) ≠ none

section Names

variable {digest digest' : HashBytes} {names : Names (List UInt8)} {suffix : Vector UInt8 8} {file : ℕ}

theorem not_absent_of_taken (h : Taken digest names) : ¬Absent digest names := by
  intro habsent
  exact h.2 habsent.2

theorem update_temporary_pending (value : Option ℕ) :
    Function.update names (temporaryName suffix) value (pendingName digest) = names (pendingName digest) :=
  Function.update_of_ne (temporaryName_ne_pendingName suffix digest).symm _ _

theorem update_temporary_used (value : Option ℕ) :
    Function.update names (temporaryName suffix) value (usedName digest) = names (usedName digest) :=
  Function.update_of_ne (temporaryName_ne_usedName suffix digest).symm _ _

theorem absent_update_temporary (h : Absent digest names) (value : Option ℕ) :
    Absent digest (Function.update names (temporaryName suffix) value) :=
  ⟨(update_temporary_pending value).trans h.1, (update_temporary_used value).trans h.2⟩

theorem taken_update_temporary (h : Taken digest names) (value : Option ℕ) :
    Taken digest (Function.update names (temporaryName suffix) value) :=
  ⟨(update_temporary_pending value).trans h.1, fun hused => h.2 ((update_temporary_used value).symm.trans hused)⟩

theorem published_pending (hne : digest ≠ digest') :
    Files.renamed names (temporaryName suffix) (pendingName digest') file (pendingName digest) =
      names (pendingName digest) :=
  Files.renamed_of_ne (temporaryName_ne_pendingName suffix digest).symm
    (fun h => hne (tokenName_injective h)) names file

theorem published_used :
    Files.renamed names (temporaryName suffix) (pendingName digest') file (usedName digest) =
      names (usedName digest) :=
  Files.renamed_of_ne (temporaryName_ne_usedName suffix digest).symm
    (pendingName_ne_usedName digest' digest).symm names file

theorem claimed_pending (hne : digest ≠ digest') :
    Files.renamed names (pendingName digest') (usedName digest') file (pendingName digest) =
      names (pendingName digest) :=
  Files.renamed_of_ne (fun h => hne (tokenName_injective h)) (pendingName_ne_usedName digest digest') names file

theorem claimed_used (hne : digest ≠ digest') :
    Files.renamed names (pendingName digest') (usedName digest') file (usedName digest) =
      names (usedName digest) :=
  Files.renamed_of_ne (pendingName_ne_usedName digest' digest).symm (fun h => hne (tokenName_injective h))
    names file

theorem taken_claimed :
    Taken digest (Files.renamed names (pendingName digest) (usedName digest) file) := by
  constructor
  · exact Files.renamed_source (pendingName_ne_usedName digest digest) names file
  · rw [Files.renamed_target]
    exact Option.some_ne_none file

end Names

/-! ### What holds of the issuers -/

/-- Names stand for files that have been created. -/
def Created (bound : ℕ) (names : Names (List UInt8)) : Prop :=
  ∀ name file, names name = some file → file < bound

/-- The calls of the issuers and the files they have written. -/
structure Issued (secrets : Set Secret) (r : TokenRun) : Prop where
  secret_mem : ∀ j c, r.issues j = some c → c.secret ∈ secrets
  distinct : ∀ i j c d, r.issues i = some c → r.issues j = some d → c.secret = d.secret → i = j
  before : ∀ j c, r.issues j = some c → c.phase.beforeRename = true → c.published = false
  drawn : ∀ j c, r.issues j = some c → c.phase = .drawn → c.file = none
  writing : ∀ j c file, r.issues j = some c → c.phase = .writing file → c.file = some file
  owner : ∀ i j c d file, r.issues i = some c → r.issues j = some d → c.file = some file →
    d.file = some file → i = j
  file_lt : ∀ j c file, r.issues j = some c → c.file = some file → file < r.files.created
  begun : ∀ file < r.files.created, ∃ j c, r.issues j = some c ∧ c.file = some file ∧
    r.files.data file <+: c.record.encode
  created : r.files.Always (Created r.files.created)
  absent : ∀ digest, (∀ j c, r.issues j = some c → hashSecret c.secret = digest → c.published = false) →
    r.files.Always (Absent digest)

theorem update_eq_some {α : Type} {f : ℕ → Option α} {i j : ℕ} {x y : α}
    (h : Function.update f j (some x) i = some y) : (i = j ∧ y = x) ∨ (i ≠ j ∧ f i = some y) := by
  by_cases hij : i = j
  · rw [hij, Function.update_self] at h
    cases h
    exact .inl ⟨hij, rfl⟩
  · rw [Function.update_of_ne hij] at h
    exact .inr ⟨hij, h⟩

section Issuers

variable {secrets : Set Secret} {r : TokenRun} {j : ℕ} {c c' : Issue} {files : Files (List UInt8)}

/-- What a step of a call keeps of it. -/
structure Evolves (c c' : Issue) : Prop where
  grant : c'.grant = c.grant
  secret : c'.secret = c.secret
  file : c'.file = c.file
  published : c.published = true → c'.published = true
  before : c'.phase.beforeRename = true → c.phase.beforeRename = true ∧ c'.published = c.published
  drawn : c'.phase = .drawn → c.phase = .drawn
  writing : ∀ file, c'.phase = .writing file → c.phase = .writing file

theorem Evolves.record (h : Evolves c c') : c'.record = c.record := by
  rw [Issue.record, Issue.record, h.grant, h.secret]

/-- A step of a call that leaves the files it does not own as they are. -/
theorem issued_setIssue (h : Issued secrets r) (hissue : r.issues j = some c) (hevolves : Evolves c c')
    (hcreated : files.created = r.files.created)
    (hdata : ∀ file i d, r.issues i = some d → d.file = some file → r.files.data file <+: d.record.encode →
      files.data file <+: d.record.encode)
    (hnames : files.Always (Created r.files.created))
    (habsent : ∀ digest, (∀ i d, (r.setIssue files j c').issues i = some d → hashSecret d.secret = digest →
      d.published = false) → files.Always (Absent digest)) :
    Issued secrets (r.setIssue files j c') := by
  have hback : ∀ i d', (r.setIssue files j c').issues i = some d' →
      ∃ d, r.issues i = some d ∧ (d' = d ∨ (i = j ∧ Evolves d d')) := by
    intro i d' hd'
    cases update_eq_some hd' with
    | inl hsame => exact ⟨c, hsame.1 ▸ hissue, .inr ⟨hsame.1, hsame.2 ▸ hevolves⟩⟩
    | inr hother => exact ⟨d', hother.2, .inl rfl⟩
  have hsecret : ∀ i d', (r.setIssue files j c').issues i = some d' →
      ∃ d, r.issues i = some d ∧ d'.secret = d.secret ∧ d'.file = d.file := by
    intro i d' hd'
    obtain ⟨d, hd, hcases⟩ := hback i d' hd'
    cases hcases with
    | inl heq => exact ⟨d, hd, heq ▸ rfl, heq ▸ rfl⟩
    | inr hev => exact ⟨d, hd, hev.2.secret, hev.2.file⟩
  refine ⟨?_, ?_, ?_, ?_, ?_, ?_, ?_, ?_, ?_, habsent⟩
  · intro i d' hd'
    obtain ⟨d, hd, hs, -⟩ := hsecret i d' hd'
    rw [hs]
    exact h.secret_mem i d hd
  · intro i i' d d' hd hd' heq
    obtain ⟨x, hx, hsx, -⟩ := hsecret i d hd
    obtain ⟨y, hy, hsy, -⟩ := hsecret i' d' hd'
    exact h.distinct i i' x y hx hy (hsx.symm.trans (heq.trans hsy))
  · intro i d' hd' hphase
    obtain ⟨d, hd, hcases⟩ := hback i d' hd'
    cases hcases with
    | inl heq =>
      rw [heq] at hphase ⊢
      exact h.before i d hd hphase
    | inr hev =>
      obtain ⟨hbefore, hsame⟩ := hev.2.before hphase
      exact hsame.trans (h.before i d hd hbefore)
  · intro i d' hd' hphase
    obtain ⟨d, hd, hcases⟩ := hback i d' hd'
    cases hcases with
    | inl heq =>
      rw [heq] at hphase ⊢
      exact h.drawn i d hd hphase
    | inr hev => exact hev.2.file.trans (h.drawn i d hd (hev.2.drawn hphase))
  · intro i d' file hd' hphase
    obtain ⟨d, hd, hcases⟩ := hback i d' hd'
    cases hcases with
    | inl heq =>
      rw [heq] at hphase ⊢
      exact h.writing i d file hd hphase
    | inr hev => exact hev.2.file.trans (h.writing i d file hd (hev.2.writing file hphase))
  · intro i i' d d' file hd hd' hfile hfile'
    obtain ⟨x, hx, -, hfx⟩ := hsecret i d hd
    obtain ⟨y, hy, -, hfy⟩ := hsecret i' d' hd'
    exact h.owner i i' x y file hx hy (hfx.symm.trans hfile) (hfy.symm.trans hfile')
  · intro i d' file hd' hfile
    obtain ⟨d, hd, -, hfd⟩ := hsecret i d' hd'
    show file < files.created
    rw [hcreated]
    exact h.file_lt i d file hd (hfd.symm.trans hfile)
  · intro file hlt
    have hlt : file < files.created := hlt
    rw [hcreated] at hlt
    obtain ⟨i, d, hd, hfile, hprefix⟩ := h.begun file hlt
    by_cases hij : i = j
    · rw [hij, hissue] at hd
      cases hd
      refine ⟨j, c', Function.update_self _ _ _, hevolves.file.trans hfile, ?_⟩
      rw [hevolves.record]
      exact hdata file j c hissue hfile hprefix
    · exact ⟨i, d, (Function.update_of_ne hij _ _).trans hd, hfile, hdata file i d hd hfile hprefix⟩
  · show files.Always (Created files.created)
    rw [hcreated]
    exact hnames

/-- Where the call that moves is published no more than before, its tokens are absent as before. -/
theorem absent_setIssue (h : Issued secrets r) (hissue : r.issues j = some c) (hevolves : Evolves c c')
    {digest : HashBytes}
    (hall : ∀ i d, (r.setIssue files j c').issues i = some d → hashSecret d.secret = digest →
      d.published = false) : r.files.Always (Absent digest) := by
  apply h.absent
  intro i d hd hdigest
  by_cases hij : i = j
  · rw [hij, hissue] at hd
    cases hd
    have hafter := hall j c' (Function.update_self _ _ _) (by rw [hevolves.secret]; exact hdigest)
    cases hpublished : c.published with
    | false => rfl
    | true =>
      rw [hevolves.published hpublished] at hafter
      cases hafter
  · exact hall i d ((Function.update_of_ne hij _ _).trans hd) hdigest

theorem issued_phase (h : Issued secrets r) (hissue : r.issues j = some c) (hevolves : Evolves c c') :
    Issued secrets (r.setIssue r.files j c') :=
  issued_setIssue h hissue hevolves rfl (fun _ _ _ _ _ hprefix => hprefix) h.created
    fun _ hall => absent_setIssue h hissue hevolves hall

theorem evolves_phase {phase : IssuePhase} (hphase : phase.beforeRename = false) :
    Evolves c { c with phase := phase } := by
  refine ⟨rfl, rfl, rfl, id, fun hbefore => ?_, fun hdrawn => ?_, fun file hwriting => ?_⟩
  · rw [show phase.beforeRename = true from hbefore] at hphase
    cases hphase
  · rw [show phase = .drawn from hdrawn] at hphase
    cases hphase
  · rw [show phase = .writing file from hwriting] at hphase
    cases hphase

theorem evolves_interrupted : Evolves c c.interrupted := by
  rw [Issue.interrupted]
  split
  · exact ⟨rfl, rfl, rfl, id, fun hbefore => ⟨hbefore, rfl⟩, id, fun _ hwriting => hwriting⟩
  · exact evolves_phase rfl

theorem absent_change_temporary {digest : HashBytes} {suffix : Vector UInt8 8} {value : Option ℕ}
    (h : r.files.Always (Absent digest)) :
    (r.files.change (Function.update r.files.current (temporaryName suffix) value)).Always (Absent digest) :=
  h.change (absent_update_temporary h.current value)

theorem created_mono {bound bound' : ℕ} (hle : bound ≤ bound') (names : Names (List UInt8))
    (h : Created bound names) : Created bound' names :=
  fun name file hname => lt_of_lt_of_le (h name file hname) hle

theorem created_renamed {bound file : ℕ} {names : Names (List UInt8)} {source target : List UInt8}
    (h : Created bound names) (hfile : names source = some file) :
    Created bound (Files.renamed names source target file) := by
  intro name other hname
  by_cases htarget : name = target
  · rw [htarget, Files.renamed_target] at hname
    cases hname
    exact h source file hfile
  · by_cases hsource : name = source
    · rw [hsource, Files.renamed_source (fun heq => htarget (hsource.trans heq))] at hname
      cases hname
    · rw [Files.renamed_of_ne hsource htarget] at hname
      exact h name other hname

theorem issued_issue (h : Issued secrets r) (grant : Grant) {secret : Secret} (suffix : Vector UInt8 8)
    (hfree : r.issues j = none) (hsecret : secret ∈ secrets)
    (hfresh : ∀ i d, r.issues i = some d → d.secret ≠ secret) :
    Issued secrets (r.setIssue r.files j (issueStart grant secret suffix)) := by
  have hnone : ∀ i d, r.issues i = some d → i ≠ j := by
    intro i d hd hij
    rw [hij, hfree] at hd
    cases hd
  refine ⟨?_, ?_, ?_, ?_, ?_, ?_, ?_, ?_, h.created, ?_⟩
  · intro i d hd
    cases update_eq_some hd with
    | inl hsame =>
      rw [hsame.2]
      exact hsecret
    | inr hother => exact h.secret_mem i d hother.2
  · intro i i' d d' hd hd' heq
    cases update_eq_some hd with
    | inl hsame =>
      cases update_eq_some hd' with
      | inl hsame' => exact hsame.1.trans hsame'.1.symm
      | inr hother' =>
        rw [hsame.2] at heq
        exact absurd heq.symm (hfresh i' d' hother'.2)
    | inr hother =>
      cases update_eq_some hd' with
      | inl hsame' =>
        rw [hsame'.2] at heq
        exact absurd heq (hfresh i d hother.2)
      | inr hother' => exact h.distinct i i' d d' hother.2 hother'.2 heq
  · intro i d hd hphase
    cases update_eq_some hd with
    | inl hsame =>
      rw [hsame.2]
      rfl
    | inr hother => exact h.before i d hother.2 hphase
  · intro i d hd hphase
    cases update_eq_some hd with
    | inl hsame =>
      rw [hsame.2]
      rfl
    | inr hother => exact h.drawn i d hother.2 hphase
  · intro i d file hd hphase
    cases update_eq_some hd with
    | inl hsame =>
      rw [hsame.2, issueStart] at hphase
      have hphase : (if grant.refused then IssuePhase.returned (.error .invalidToken) else .drawn) =
          .writing file := hphase
      split at hphase
      · cases hphase
      · cases hphase
    | inr hother => exact h.writing i d file hother.2 hphase
  · intro i i' d d' file hd hd' hfile hfile'
    cases update_eq_some hd with
    | inl hsame =>
      rw [hsame.2] at hfile
      cases hfile
    | inr hother =>
      cases update_eq_some hd' with
      | inl hsame' =>
        rw [hsame'.2] at hfile'
        cases hfile'
      | inr hother' => exact h.owner i i' d d' file hother.2 hother'.2 hfile hfile'
  · intro i d file hd hfile
    cases update_eq_some hd with
    | inl hsame =>
      rw [hsame.2] at hfile
      cases hfile
    | inr hother => exact h.file_lt i d file hother.2 hfile
  · intro file hlt
    obtain ⟨i, d, hd, hrest⟩ := h.begun file hlt
    exact ⟨i, d, (Function.update_of_ne (hnone i d hd) _ _).trans hd, hrest⟩
  · intro digest hall
    apply h.absent
    intro i d hd hdigest
    exact hall i d ((Function.update_of_ne (hnone i d hd) _ _).trans hd) hdigest

/-- A call creates its file. -/
theorem issued_create (h : Issued secrets r) (hissue : r.issues j = some c) (hphase : c.phase = .drawn)
    (hcreate : r.files.createExclusive (temporaryName c.suffix) = some files) :
    Issued secrets
      (r.setIssue files j { c with file := some r.files.created, phase := .writing r.files.created }) := by
  obtain ⟨-, rfl⟩ := Files.createExclusive_eq_some hcreate
  have hbefore : c.published = false := h.before j c hissue (by rw [hphase]; rfl)
  refine ⟨?_, ?_, ?_, ?_, ?_, ?_, ?_, ?_, ?_, ?_⟩
  · intro i d hd
    cases update_eq_some hd with
    | inl hsame =>
      rw [hsame.2]
      exact h.secret_mem j c hissue
    | inr hother => exact h.secret_mem i d hother.2
  · intro i i' d d' hd hd' heq
    cases update_eq_some hd with
    | inl hsame =>
      cases update_eq_some hd' with
      | inl hsame' => exact hsame.1.trans hsame'.1.symm
      | inr hother' =>
        rw [hsame.2] at heq
        exact hsame.1.trans (h.distinct j i' c d' hissue hother'.2 heq)
    | inr hother =>
      cases update_eq_some hd' with
      | inl hsame' =>
        rw [hsame'.2] at heq
        exact (h.distinct i j d c hother.2 hissue heq).trans hsame'.1.symm
      | inr hother' => exact h.distinct i i' d d' hother.2 hother'.2 heq
  · intro i d hd hphase'
    cases update_eq_some hd with
    | inl hsame =>
      rw [hsame.2]
      exact hbefore
    | inr hother => exact h.before i d hother.2 hphase'
  · intro i d hd hphase'
    cases update_eq_some hd with
    | inl hsame =>
      rw [hsame.2] at hphase'
      cases hphase'
    | inr hother => exact h.drawn i d hother.2 hphase'
  · intro i d file hd hphase'
    cases update_eq_some hd with
    | inl hsame =>
      rw [hsame.2] at hphase' ⊢
      cases hphase'
      rfl
    | inr hother => exact h.writing i d file hother.2 hphase'
  · intro i i' d d' file hd hd' hfile hfile'
    cases update_eq_some hd with
    | inl hsame =>
      cases update_eq_some hd' with
      | inl hsame' => exact hsame.1.trans hsame'.1.symm
      | inr hother' =>
        rw [hsame.2] at hfile
        cases hfile
        exact absurd (h.file_lt i' d' _ hother'.2 hfile') (lt_irrefl _)
    | inr hother =>
      cases update_eq_some hd' with
      | inl hsame' =>
        rw [hsame'.2] at hfile'
        cases hfile'
        exact absurd (h.file_lt i d _ hother.2 hfile) (lt_irrefl _)
      | inr hother' => exact h.owner i i' d d' file hother.2 hother'.2 hfile hfile'
  · intro i d file hd hfile
    cases update_eq_some hd with
    | inl hsame =>
      rw [hsame.2] at hfile
      cases hfile
      exact Nat.lt_succ_self _
    | inr hother => exact Nat.lt_succ_of_lt (h.file_lt i d file hother.2 hfile)
  · intro file hlt
    by_cases hnew : file = r.files.created
    · refine ⟨j, _, Function.update_self _ _ _, by rw [hnew], ?_⟩
      show Function.update r.files.data r.files.created [] file <+: _
      rw [hnew, Function.update_self]
      exact List.nil_prefix
    · have hold : file < r.files.created := lt_of_le_of_ne (Nat.le_of_lt_succ hlt) hnew
      obtain ⟨i, d, hd, hfile, hprefix⟩ := h.begun file hold
      have hdata : Function.update r.files.data r.files.created [] file = r.files.data file :=
        Function.update_of_ne hnew _ _
      have hij : i ≠ j := by
        intro hij
        rw [hij, hissue] at hd
        cases hd
        rw [h.drawn j c hissue hphase] at hfile
        cases hfile
      refine ⟨i, d, (Function.update_of_ne hij _ _).trans hd, hfile, ?_⟩
      show Function.update r.files.data r.files.created [] file <+: _
      rw [hdata]
      exact hprefix
  · apply (h.created.mono (created_mono (Nat.le_succ _))).change
    intro name file hname
    have hname : Function.update r.files.current (temporaryName c.suffix) (some r.files.created) name =
        some file := hname
    by_cases htemporary : name = temporaryName c.suffix
    · rw [htemporary, Function.update_self] at hname
      cases hname
      exact Nat.lt_succ_self _
    · rw [Function.update_of_ne htemporary] at hname
      exact Nat.lt_succ_of_lt (h.created.current name file hname)
  · intro digest hall
    apply absent_change_temporary
    apply h.absent
    intro i d hd hdigest
    by_cases hij : i = j
    · rw [hij, hissue] at hd
      cases hd
      exact hbefore
    · exact hall i d ((Function.update_of_ne hij _ _).trans hd) hdigest

/-- A call writes on in its own file. -/
theorem issued_append (h : Issued secrets r) (hissue : r.issues j = some c) {file : ℕ}
    (hphase : c.phase = .writing file) (count : ℕ) :
    Issued secrets (r.setIssue
      (r.files.append file ((c.record.encode.drop (r.files.data file).length).take count)) j c) := by
  have hsame : Evolves c c := ⟨rfl, rfl, rfl, id, fun hbefore => ⟨hbefore, rfl⟩, id, fun _ hwriting => hwriting⟩
  refine issued_setIssue h hissue hsame rfl (fun other i d hd hfile hprefix => ?_) h.created
    fun _ hall => absent_setIssue h hissue hsame hall
  show Function.update r.files.data file _ other <+: d.record.encode
  by_cases hother : other = file
  · rw [hother] at hfile hprefix ⊢
    have hij : i = j := h.owner i j d c file hd hissue hfile (h.writing j c file hissue hphase)
    rw [hij, hissue] at hd
    cases hd
    rw [Function.update_self]
    obtain ⟨rest, hrest⟩ := hprefix
    have hdrop : c.record.encode.drop (r.files.data file).length = rest := by
      rw [← hrest, List.drop_left]
    rw [hdrop, ← hrest]
    exact List.prefix_append_right_inj _ |>.2 (List.take_prefix count rest)
  · rw [Function.update_of_ne hother]
    exact hprefix

theorem issued_publish (h : Issued secrets r) (hissue : r.issues j = some c)
    (hrename : r.files.renamePreserve (temporaryName c.suffix) (pendingName (hashSecret c.secret)) = .ok files) :
    Issued secrets (r.setIssue files j { c with published := true, phase := .published }) := by
  obtain ⟨file, hsource, -, rfl⟩ := Files.renamePreserve_eq_ok hrename
  have hevolves : Evolves c { c with published := true, phase := .published } := by
    refine ⟨rfl, rfl, rfl, fun _ => rfl, fun hbefore => ?_, fun hdrawn => ?_, fun _ hwriting => ?_⟩
    · cases hbefore
    · cases hdrawn
    · cases hwriting
  refine issued_setIssue h hissue hevolves rfl (fun _ _ _ _ _ hprefix => hprefix)
    (h.created.change (created_renamed h.created.current hsource)) fun digest hall => ?_
  have habsent := absent_setIssue h hissue hevolves hall
  have hne : digest ≠ hashSecret c.secret := by
    intro heq
    have hpublished := hall j _ (Function.update_self _ _ _) heq.symm
    cases hpublished
  apply habsent.change
  exact ⟨(published_pending hne).trans habsent.current.1, published_used.trans habsent.current.2⟩

theorem issued_issueTurn (h : Issued secrets r) (hissue : r.issues j = some c) {count : ℕ}
    (hturn : issueTurn r.files c count = some (files, c')) : Issued secrets (r.setIssue files j c') := by
  rw [issueTurn] at hturn
  split at hturn
  · rename_i hphase
    split at hturn
    · cases hturn
      exact issued_phase h hissue (evolves_phase rfl)
    · rename_i files' hcreate
      cases hturn
      exact issued_create h hissue hphase hcreate
  · rename_i file hphase
    split at hturn
    · cases hturn
      exact issued_append h hissue hphase count
    · cases hturn
      have hevolves : Evolves c { c with phase := .flushed } := by
        refine ⟨rfl, rfl, rfl, id, fun _ => ⟨by rw [hphase]; rfl, rfl⟩, fun hdrawn => ?_, fun _ hwriting => ?_⟩
        · cases hdrawn
        · cases hwriting
      exact issued_setIssue h hissue hevolves rfl (fun _ _ _ _ _ hprefix => hprefix) h.created
        fun _ hall => absent_setIssue h hissue hevolves hall
  · split at hturn
    · cases hturn
      exact issued_phase h hissue (evolves_phase rfl)
    · cases hturn
      exact issued_phase h hissue (evolves_phase rfl)
    · rename_i files' hrename
      cases hturn
      exact issued_publish h hissue hrename
  · cases hturn
    refine issued_setIssue h hissue (evolves_phase rfl) rfl (fun _ _ _ _ _ hprefix => hprefix)
      (Files.always_sync.2 h.created.current) fun _ hall => ?_
    exact Files.always_sync.2 (absent_setIssue h hissue (evolves_phase rfl) hall).current
  · cases hturn
    refine issued_setIssue h hissue (evolves_phase rfl) rfl (fun _ _ _ _ _ hprefix => hprefix) ?_
      fun _ hall => absent_change_temporary (absent_setIssue h hissue (evolves_phase rfl) hall)
    apply h.created.change
    intro name file hname
    by_cases htemporary : name = temporaryName c.suffix
    · rw [htemporary, Function.update_self] at hname
      cases hname
    · rw [Function.update_of_ne htemporary] at hname
      exact h.created.current name file hname
  · cases hturn
  · cases hturn

theorem issued_claim (h : Issued secrets r) {digest : HashBytes} {k : ℕ} {a : Attempt}
    (hrename : r.files.renamePreserve (pendingName digest) (usedName digest) = .ok files) :
    Issued secrets (r.setAttempt files k a) := by
  obtain ⟨file, hsource, -, rfl⟩ := Files.renamePreserve_eq_ok hrename
  refine ⟨h.secret_mem, h.distinct, h.before, h.drawn, h.writing, h.owner, h.file_lt, h.begun,
    h.created.change (created_renamed h.created.current hsource), fun other hall => ?_⟩
  have habsent := h.absent other hall
  have hne : other ≠ digest := by
    intro heq
    have hpending := habsent.current.1
    rw [heq, hsource] at hpending
    cases hpending
  apply habsent.change
  exact ⟨(claimed_pending hne).trans habsent.current.1, (claimed_used hne).trans habsent.current.2⟩

theorem issued_consumeTurn (h : Issued secrets r) {k : ℕ} {a a' : Attempt}
    (hturn : consumeTurn r.files a = some (files, a')) : Issued secrets (r.setAttempt files k a') := by
  have hfiles : Issued secrets (r.setAttempt r.files k a') :=
    ⟨h.secret_mem, h.distinct, h.before, h.drawn, h.writing, h.owner, h.file_lt, h.begun, h.created, h.absent⟩
  rw [consumeTurn] at hturn
  split at hturn
  · split at hturn
    · cases hturn
      exact hfiles
    · cases hturn
      exact hfiles
  · split at hturn
    · cases hturn
      exact hfiles
    · cases hturn
      exact hfiles
  · split at hturn
    · cases hturn
      exact hfiles
    · rename_i files' hrename
      cases hturn
      exact issued_claim h hrename
  · cases hturn
    exact ⟨h.secret_mem, h.distinct, h.before, h.drawn, h.writing, h.owner, h.file_lt, h.begun,
      Files.always_sync.2 h.created.current, fun other hall => Files.always_sync.2 (h.absent other hall).current⟩
  · cases hturn
  · cases hturn

theorem issues_interrupt {i : ℕ} {d' : Issue} (hd' : (r.interrupt files).issues i = some d') :
    ∃ d, r.issues i = some d ∧ Evolves d d' ∧ d'.published = d.published := by
  obtain ⟨d, hd, rfl⟩ := Option.map_eq_some_iff.1 hd'
  refine ⟨d, hd, evolves_interrupted, ?_⟩
  rw [Issue.interrupted]
  split
  · rfl
  · rfl

theorem interrupt_issues {i : ℕ} {d : Issue} (hd : r.issues i = some d) :
    (r.interrupt files).issues i = some d.interrupted := by
  show (r.issues i).map Issue.interrupted = _
  rw [hd]
  rfl

theorem issued_powerLoss (h : Issued secrets r) (hloss : Files.PowerLoss r.files files) :
    Issued secrets (r.interrupt files) := by
  have hcreated : files.created = r.files.created := by
    cases hloss
    rfl
  refine ⟨?_, ?_, ?_, ?_, ?_, ?_, ?_, ?_, ?_, ?_⟩
  · intro i d' hd'
    obtain ⟨d, hd, hev, -⟩ := issues_interrupt hd'
    rw [hev.secret]
    exact h.secret_mem i d hd
  · intro i i' d d' hd hd' heq
    obtain ⟨x, hx, hevx, -⟩ := issues_interrupt hd
    obtain ⟨y, hy, hevy, -⟩ := issues_interrupt hd'
    exact h.distinct i i' x y hx hy (hevx.secret.symm.trans (heq.trans hevy.secret))
  · intro i d' hd' hphase
    obtain ⟨d, hd, hev, -⟩ := issues_interrupt hd'
    obtain ⟨hbefore, hsame⟩ := hev.before hphase
    exact hsame.trans (h.before i d hd hbefore)
  · intro i d' hd' hphase
    obtain ⟨d, hd, hev, -⟩ := issues_interrupt hd'
    exact hev.file.trans (h.drawn i d hd (hev.drawn hphase))
  · intro i d' file hd' hphase
    obtain ⟨d, hd, hev, -⟩ := issues_interrupt hd'
    exact hev.file.trans (h.writing i d file hd (hev.writing file hphase))
  · intro i i' d d' file hd hd' hfile hfile'
    obtain ⟨x, hx, hevx, -⟩ := issues_interrupt hd
    obtain ⟨y, hy, hevy, -⟩ := issues_interrupt hd'
    exact h.owner i i' x y file hx hy (hevx.file.symm.trans hfile) (hevy.file.symm.trans hfile')
  · intro i d' file hd' hfile
    obtain ⟨d, hd, hev, -⟩ := issues_interrupt hd'
    show file < files.created
    rw [hcreated]
    exact h.file_lt i d file hd (hev.file.symm.trans hfile)
  · intro file hlt
    have hlt : file < files.created := hlt
    rw [hcreated] at hlt
    obtain ⟨i, d, hd, hfile, hprefix⟩ := h.begun file hlt
    have hev : Evolves d d.interrupted := evolves_interrupted
    refine ⟨i, d.interrupted, interrupt_issues hd, hev.file.trans hfile, ?_⟩
    rw [hev.record]
    cases hloss with
    | lost data hnames hdata => exact (hdata file).2.trans hprefix
  · show files.Always (Created files.created)
    rw [hcreated]
    exact h.created.powerLoss hloss
  · intro digest hall
    refine (h.absent digest fun i d hd hdigest => ?_).powerLoss hloss
    have hev : Evolves d d.interrupted := evolves_interrupted
    have hd' : (r.interrupt files).issues i = some d.interrupted := interrupt_issues hd
    obtain ⟨x, hx, -, hpublished⟩ := issues_interrupt hd'
    rw [hd] at hx
    cases hx
    rw [← hpublished]
    exact hall i d.interrupted hd' (by rw [hev.secret]; exact hdigest)

theorem issued_step {r' : TokenRun} (h : Issued secrets r) (hstep : Step secrets r r') : Issued secrets r' := by
  cases hstep with
  | issue grant suffix hfree hsecret hfresh => exact issued_issue h grant suffix hfree hsecret hfresh
  | issueTurn count hissue hturn => exact issued_issueTurn h hissue hturn
  | issueFails e hissue hphase => exact issued_phase h hissue (evolves_phase rfl)
  | issueStops hissue => exact issued_phase h hissue evolves_interrupted
  | consume claimant hfree hsecret hlate =>
    exact ⟨h.secret_mem, h.distinct, h.before, h.drawn, h.writing, h.owner, h.file_lt, h.begun, h.created, h.absent⟩
  | consumeTurn hattempt hturn => exact issued_consumeTurn h hturn
  | consumeStops hattempt =>
    exact ⟨h.secret_mem, h.distinct, h.before, h.drawn, h.writing, h.owner, h.file_lt, h.begun, h.created, h.absent⟩
  | powerLoss hloss => exact issued_powerLoss h hloss

theorem issued_start : Issued secrets start := by
  refine ⟨?_, ?_, ?_, ?_, ?_, ?_, ?_, ?_, ?_, ?_⟩
  · intro j c hc
    cases hc
  · intro i j c d hc
    cases hc
  · intro j c hc
    cases hc
  · intro j c hc
    cases hc
  · intro j c file hc
    cases hc
  · intro i j c d file hc
    cases hc
  · intro j c file hc
    cases hc
  · intro file hlt
    exact absurd hlt (Nat.not_lt_zero file)
  · intro names hnames name file hname
    rw [List.mem_singleton.1 hnames] at hname
    cases hname
  · intro digest _ names hnames
    rw [List.mem_singleton.1 hnames]
    exact ⟨rfl, rfl⟩

end Issuers

end TokenRun

end Enrollment

end Zaxonlite
