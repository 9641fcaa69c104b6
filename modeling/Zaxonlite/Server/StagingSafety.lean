import Zaxonlite.Server.Streaming

/-!
# What is installed is what was vouched for

A file is written by the connection that created it and by no other, always at its end. So a file that is complete
stays as it is, and one that is still being received only grows. An image is installed after its digest was found
right; what the file gains after that was sent over another connection.
-/

namespace Zaxonlite

namespace Staging

open Threads

/-! ### What a connection does -/

/-- What a move comes to. -/
inductive Effect (s : Shared) : Connection → Shared → Connection → Prop
  | stops {c : Connection} (hc : c.isInstalling = false) : Effect s c (s.reset c) (.reading none)
  | offers {install : Option InstallState} {body : List UInt8} {offer : OfferedSnapshot} (hfree : s.locked = false)
    (hdecode : OfferedSnapshot.decode body = .ok offer) :
    Effect s (.reading install) (s.reset (.reading install)) (.confirming body offer)
  | vouches {body : List UInt8} {offer : OfferedSnapshot} :
    Effect s (.confirming body offer)
      { s with confirmed := s.confirmed ++ [(offer.anchorSlot, offer.historyHash)] } (.reading none)
  | stages {body : List UInt8} {offer : OfferedSnapshot} (hfree : s.locked = false) :
    Effect s (.confirming body offer)
      { s with
        confirmed := s.confirmed ++ [(offer.anchorSlot, offer.historyHash)]
        files := s.files ++ [⟨[], true⟩]
        staged := some s.files.length }
      (.reading (some ⟨s.files.length, offer.dbSize, 0, body⟩))
  | writes {t : InstallState} {bytes : List UInt8} (hroom : t.received + bytes.length ≤ t.dbSize) :
    Effect s (.reading (some t)) (s.write t.file t.received bytes)
      (.reading (some { t with received := t.received + bytes.length }))
  | completes {t : InstallState} (hcomplete : t.received = t.dbSize) :
    Effect s (.reading (some t)) (s.close t.file) (.ended t.file t.manifest)
  | verifies {own handle : ℕ} {manifest : List UInt8} {offer : OfferedSnapshot} (hfree : s.locked = false)
    (hdecode : OfferedSnapshot.decode manifest = .ok offer) (hready : s.node.ready = true)
    (hconfiguration : offer.configurationId = s.node.configurationId) (hnewer : s.node.appliedSlot < offer.anchorSlot)
    (hstaged : s.staged = some handle) (hdigest : Sha256.hash (s.content handle) = offer.imageSha256) :
    Effect s (.ended own manifest) { s with locked := true }
      (.installing offer.toSnapshotBegin own handle (s.content handle))
  | renames {offer : SnapshotBegin} {own handle : ℕ} {image : List UInt8} :
    Effect s (.installing offer own handle image) (s.rename offer own handle image) (.reading none)
  | unlocks {offer : SnapshotBegin} {own handle : ℕ} {image : List UInt8} :
    Effect s (.installing offer own handle image) s.unlock (.reading none)
  | places {offer : SnapshotBegin} {own handle : ℕ} {image : List UInt8} :
    Effect s (.installing offer own handle image) (s.place offer own handle image) (.reading none)
  | goesOn {c : Connection} (node : TransferNode) (hfree : s.locked = false)
    (hforward : s.node.appliedSlot ≤ node.appliedSlot) : Effect s c { s with node := node } c

theorem Move.effect {s s' : Shared} {c c' : Connection} (h : Move s c s' c') : Effect s c s' c' := by
  cases h with
  | begins body hfree h =>
    rw [Shared.onSnapshotBegin] at h
    split at h
    · cases h
    · next offer hdecode =>
      split_ifs at h
      · cases h
        exact .stops rfl
      · cases h
        exact .offers hfree hdecode
  | confirms hfree =>
    rw [Shared.stageFile]
    dsimp only
    split
    · exact .vouches
    · exact .stages hfree
  | @chunk _ install _ body h =>
    rw [Shared.onSnapshotChunk] at h
    split at h
    · cases h
    · next chunk _ =>
      cases install with
      | none =>
        cases h
        exact .stops (c := .reading none) rfl
      | some t =>
        rw [Option.elim_some] at h
        split_ifs at h with hsize hoffset
        cases h
        obtain ⟨hat, -, -, hroom⟩ := not_or.1 hoffset |>.imp_right fun h => not_or.1 h |>.imp_right not_or.1
        rw [not_not] at hat
        rw [hat] at hroom ⊢
        exact .writes (Nat.le_of_not_lt hroom)
  | @ends _ install _ h =>
    rw [Shared.onSnapshotEnd] at h
    cases install with
    | none =>
      cases h
      exact .stops (c := .reading none) rfl
    | some t =>
      rw [Option.elim_some] at h
      split_ifs at h with hcomplete
      cases h
      exact .completes (not_not.1 hcomplete)
  | @verifies _ own manifest _ hfree h =>
    rw [Shared.verify] at h
    split at h
    · cases h
    · next offer hdecode =>
      split_ifs at h with hrefused
      · cases h
        exact .stops (c := .ended own manifest) rfl
      · simp only [not_or, Bool.not_eq_true, Bool.not_eq_false', not_not, Nat.not_le] at hrefused
        cases hstaged : s.staged with
        | none =>
          rw [hstaged] at h
          cases h
          exact .stops (c := .ended own manifest) rfl
        | some handle =>
          rw [hstaged, Option.elim_some] at h
          split_ifs at h with hdigest
          · cases h
            exact .stops (c := .ended own manifest) rfl
          · cases h
            rw [← hstaged]
            exact .verifies hfree hdecode hrefused.1 hrefused.2.1 hrefused.2.2 hstaged (not_not.1 hdigest)
  | renames => exact .renames
  | unlocks => exact .unlocks
  | places => exact .places
  | closes hc => exact .stops hc
  | elsewhere node hfree hforward => exact .goesOn node hfree hforward

/-! ### Who has which file -/

/-- The numbers of the shared state: whether the mutex is kept, and whether each file is open. -/
def count : Option ℕ → Shared → ℕ
  | none, s => s.locked.toNat
  | some handle, s => (s.isOpen handle).toNat

def weight : Option ℕ → Connection → ℕ
  | none, c => c.isInstalling.toNat
  | some handle, c => (c.file == some handle).toNat

section Balance

variable {s s' : Shared} {c c' u : Connection}

theorem locked_of_covers {offer : SnapshotBegin} {own handle : ℕ} {image : List UInt8}
    (hc : Covers count weight s (.installing offer own handle image)) : s.locked = true := by
  have hnone := hc none
  cases hlocked : s.locked with
  | true => rfl
  | false =>
    rw [count, hlocked] at hnone
    exact absurd hnone (Nat.not_succ_le_zero 0)

theorem isOpen_of_covers {file : ℕ} (hc : Covers count weight s c) (hfile : c.file = some file) :
    s.isOpen file = true := by
  have hsome := hc (some file)
  cases hopen : s.isOpen file with
  | true => rfl
  | false =>
    rw [weight, hfile, count, hopen, beq_self_eq_true] at hsome
    exact absurd hsome (Nat.not_succ_le_zero 0)

theorem file_ne_of_coversBoth {file : ℕ} (hc : CoversBoth count weight s c u) (hfile : c.file = some file) :
    u.file ≠ some file := by
  intro hu
  have hsome := hc (some file)
  rw [weight, weight, hfile, hu, beq_self_eq_true, count] at hsome
  have hone : (s.isOpen file).toNat ≤ 1 := Bool.toNat_le _
  change 1 + 1 ≤ _ at hsome
  omega

theorem isOpen_append {file : StagedFile} {handle : ℕ} :
    Shared.isOpen { s with files := s.files ++ [file] } handle =
      if handle = s.files.length then file.opened else s.isOpen handle := by
  simp only [Shared.isOpen]
  split
  · next h => rw [h, List.getElem?_concat_length, Option.elim_some]
  · next h =>
    by_cases hlt : handle < s.files.length
    · rw [List.getElem?_append_left hlt]
    · rw [List.getElem?_eq_none (by rw [List.length_append, List.length_singleton]; omega),
        List.getElem?_eq_none (by omega)]

theorem toNat_close {file : ℕ} (hopen : s.isOpen file = true) (handle : ℕ) :
    ((s.close file).isOpen handle).toNat + (some file == some handle).toNat = (s.isOpen handle).toNat := by
  by_cases h : file = handle
  · subst h
    rw [isOpen_close_self, hopen, beq_self_eq_true]
    rfl
  · rw [isOpen_close_ne h, beq_eq_false_iff_ne.2 (fun heq => h (Option.some.inj heq))]
    rfl

theorem toNat_reset (hc : Covers count weight s c) (handle : ℕ) :
    ((s.reset c).isOpen handle).toNat + (c.file == some handle).toNat = (s.isOpen handle).toNat := by
  rw [Shared.reset]
  cases hfile : c.file with
  | none => rfl
  | some file => exact toNat_close (isOpen_of_covers hc hfile) handle

theorem Effect.balance (h : Effect s c s' c') (hc : Covers count weight s c) (i : Option ℕ) :
    count i s' + weight i c = count i s + weight i c' := by
  cases i with
  | none =>
    cases h with
    | stops hinstalling =>
      rw [count, locked_reset, weight, hinstalling]
      rfl
    | offers =>
      rw [count, locked_reset]
      rfl
    | verifies hfree =>
      rw [count, count, hfree]
      rfl
    | renames =>
      rw [count, count, locked_of_covers hc]
      rfl
    | unlocks =>
      rw [count, count, locked_of_covers hc]
      rfl
    | places =>
      rw [count, count, locked_of_covers hc]
      rfl
    | _ => rfl
  | some handle =>
    cases h with
    | stops => exact toNat_reset hc handle
    | offers => exact toNat_reset hc handle
    | stages =>
      change (Shared.isOpen { s with files := s.files ++ [⟨[], true⟩] } handle).toNat + 0 =
        (s.isOpen handle).toNat + (some s.files.length == some handle).toNat
      rw [isOpen_append]
      split
      · next heq =>
        subst heq
        have hclosed : s.isOpen s.files.length = false := by
          rw [Shared.isOpen, List.getElem?_eq_none le_rfl]
          rfl
        rw [hclosed, beq_self_eq_true]
        rfl
      · next hne => rw [beq_eq_false_iff_ne.2 fun heq => hne (Option.some.inj heq).symm]; rfl
    | @writes t bytes =>
      change ((s.write t.file t.received bytes).isOpen handle).toNat + _ = _
      rw [isOpen_write]
      rfl
    | @completes t hcomplete => exact toNat_close (isOpen_of_covers hc rfl) handle
    | _ => rfl

end Balance

/-! ### What stays of a file -/

/-- The history an offer binds was vouched for. -/
def Offered (s : Shared) (offer : SnapshotBegin) : Prop :=
  (offer.anchorSlot, offer.historyHash) ∈ s.confirmed

/-- A file holds what its connection has received. -/
structure Receiving (s : Shared) (t : InstallState) : Prop where
  bound : t.file < s.files.length
  length : (s.content t.file).length = t.received
  room : t.received ≤ t.dbSize
  manifest : ∃ offer, OfferedSnapshot.decode t.manifest = .ok offer ∧ offer.dbSize = t.dbSize ∧
    Offered s offer.toSnapshotBegin

/-- A file holds as much as was offered, and no more comes. -/
structure Complete (s : Shared) (own : ℕ) (offer : SnapshotBegin) : Prop where
  bound : own < s.files.length
  closed : s.isOpen own = false
  length : (s.content own).length = offer.dbSize
  offered : Offered s offer

/-- The digest of a file was right when it held this image. -/
structure Verified (s : Shared) (offer : SnapshotBegin) (own handle : ℕ) (image : List UInt8) : Prop where
  complete : Complete s own offer
  digest : Sha256.hash image = offer.imageSha256
  grown : image <+: s.content handle
  same : handle = own → s.content handle = image

/-- An image fits the node it is installed on. -/
structure Fits (offer : SnapshotBegin) (node : TransferNode) : Prop where
  ready : node.ready = true
  configuration : offer.configurationId = node.configurationId
  newer : node.appliedSlot < offer.anchorSlot

def Holds (s : Shared) : Connection → Prop
  | .reading install => ∀ t, install = some t → Receiving s t
  | .confirming body offer => OfferedSnapshot.decode body = .ok offer
  | .ended own manifest => ∃ offer, OfferedSnapshot.decode manifest = .ok offer ∧ Complete s own offer.toSnapshotBegin
  | .installing offer own handle image => Verified s offer own handle image ∧ Fits offer s.node

/-- What holds of an image put in place. -/
def Admitted (s : Shared) (r : Installation) : Prop :=
  Verified s r.offer r.own r.handle r.image ∧ Fits r.offer r.node

/-- What holds of the installed images: each later one is of a later slot. -/
structure Kept (s : Shared) : Prop where
  installed : ∀ r ∈ s.installs, Admitted s r
  placed : ∀ r ∈ s.placed, Admitted s r
  applied : ∀ r ∈ s.installs, r.offer.anchorSlot ≤ s.node.appliedSlot
  ordered : s.installs.Pairwise fun r r' => r.offer.anchorSlot < r'.offer.anchorSlot

/-- Files are created and lengthened, a closed one stays as it is. -/
structure Evolves (s s' : Shared) : Prop where
  length : s.files.length ≤ s'.files.length
  grows : ∀ handle, s.content handle <+: s'.content handle
  closed : ∀ handle < s.files.length, s.isOpen handle = false →
    s'.isOpen handle = false ∧ s'.content handle = s.content handle
  confirmed : s.confirmed ⊆ s'.confirmed

section Steps

variable {s s' : Shared} {c c' u : Connection} {offer : SnapshotBegin} {own handle : ℕ} {image : List UInt8}

theorem isOpen_reset (hne : c.file ≠ some handle) : (s.reset c).isOpen handle = s.isOpen handle := by
  rw [Shared.reset]
  cases hfile : c.file with
  | none => rfl
  | some file => exact isOpen_close_ne fun h => hne (h ▸ hfile)

theorem Effect.frame (h : Effect s c s' c') (hlt : handle < s.files.length) (hne : c.file ≠ some handle) :
    s'.isOpen handle = s.isOpen handle ∧ s'.content handle = s.content handle := by
  cases h with
  | stops => exact ⟨isOpen_reset hne, content_reset⟩
  | offers => exact ⟨isOpen_reset hne, content_reset⟩
  | stages =>
    refine ⟨isOpen_append.trans (if_neg hlt.ne), content_append hlt⟩
  | writes => exact ⟨isOpen_write, content_write_ne fun h => hne (congrArg some h)⟩
  | completes => exact ⟨isOpen_close_ne fun h => hne (congrArg some h), content_close⟩
  | _ => exact ⟨rfl, rfl⟩

theorem Effect.evolves (h : Effect s c s' c') (hc : Covers count weight s c) (hholds : Holds s c) : Evolves s s' where
  length := by
    cases h with
    | stops => exact length_reset.ge
    | offers => exact length_reset.ge
    | stages => exact (List.length_append.trans_ge (Nat.le_add_right _ _))
    | writes => exact length_write.ge
    | completes => exact length_close.ge
    | _ => exact le_rfl
  grows handle := by
    cases h with
    | stops => exact content_reset ▸ List.prefix_rfl
    | offers => exact content_reset ▸ List.prefix_rfl
    | stages =>
      by_cases hlt : handle < s.files.length
      · exact (content_append hlt).symm ▸ List.prefix_rfl
      · rw [Shared.content, List.getElem?_eq_none (Nat.le_of_not_lt hlt)]
        exact List.nil_prefix
    | @writes t bytes hroom =>
      have hreceiving : Receiving s t := hholds t rfl
      by_cases heq : t.file = handle
      · subst heq
        rw [← hreceiving.length, content_write_self hreceiving.bound]
        exact List.prefix_append _ _
      · exact (content_write_ne heq).symm ▸ List.prefix_rfl
    | completes => exact content_close ▸ List.prefix_rfl
    | _ => exact List.prefix_rfl
  closed handle hlt hclosed := by
    have hne : c.file ≠ some handle := fun hfile =>
      absurd (hclosed.symm.trans (isOpen_of_covers hc hfile)) Bool.false_ne_true
    obtain ⟨hopen, hcontent⟩ := h.frame hlt hne
    exact ⟨hopen.trans hclosed, hcontent⟩
  confirmed := by
    cases h with
    | stops => rw [confirmed_reset]; exact List.Subset.refl _
    | offers => rw [confirmed_reset]; exact List.Subset.refl _
    | vouches => exact List.subset_append_left _ _
    | stages => exact List.subset_append_left _ _
    | _ => exact List.Subset.refl _

theorem Complete.evolves (h : Complete s own offer) (he : Evolves s s') : Complete s' own offer where
  bound := h.bound.trans_le he.length
  closed := (he.closed own h.bound h.closed).1
  length := by rw [(he.closed own h.bound h.closed).2, h.length]
  offered := he.confirmed h.offered

theorem Verified.evolves (h : Verified s offer own handle image) (he : Evolves s s') :
    Verified s' offer own handle image where
  complete := h.complete.evolves he
  digest := h.digest
  grown := h.grown.trans (he.grows handle)
  same heq := by
    subst heq
    rw [(he.closed _ h.complete.bound h.complete.closed).2, h.same rfl]

theorem Admitted.evolves {r : Installation} (h : Admitted s r) (he : Evolves s s') : Admitted s' r :=
  ⟨h.1.evolves he, h.2⟩

theorem Effect.holds (h : Effect s c s' c') (hc : Covers count weight s c) (hholds : Holds s c) : Holds s' c' := by
  have he := h.evolves hc hholds
  cases h with
  | stops => exact fun _ ht => absurd ht (Option.some_ne_none _).symm
  | offers hfree hdecode => exact hdecode
  | vouches => exact fun _ ht => absurd ht (Option.some_ne_none _).symm
  | @stages body offer hfree =>
    intro t ht
    cases ht
    refine ⟨?_, ?_, Nat.zero_le _, offer, hholds, rfl, List.mem_append_right _ (List.mem_singleton.2 rfl)⟩
    · change s.files.length < (s.files ++ [_]).length
      rw [List.length_append]
      exact Nat.lt_succ_self _
    · exact congrArg List.length content_new
  | @writes t bytes hroom =>
    intro t' ht
    cases ht
    have hreceiving : Receiving s t := hholds t rfl
    obtain ⟨offer, hdecode, hsize, hoffered⟩ := hreceiving.manifest
    refine ⟨length_write.symm ▸ hreceiving.bound, ?_, hroom, offer, hdecode, hsize, hoffered⟩
    dsimp only
    rw [← hreceiving.length, content_write_self hreceiving.bound, List.length_append]
  | @completes t hcomplete =>
    have hreceiving : Receiving s t := hholds t rfl
    obtain ⟨offer, hdecode, hsize, hoffered⟩ := hreceiving.manifest
    refine ⟨offer, hdecode, length_close.symm ▸ hreceiving.bound, isOpen_close_self, ?_, hoffered⟩
    rw [content_close, hreceiving.length, hcomplete, hsize]
  | @verifies own handle manifest offer hfree hdecode hready hconfiguration hnewer hstaged hdigest =>
    obtain ⟨offer', hdecode', hcomplete⟩ := hholds
    obtain rfl := Except.ok.inj (hdecode.symm.trans hdecode')
    exact ⟨⟨hcomplete.evolves he, hdigest, List.prefix_rfl, fun _ => rfl⟩, hready, hconfiguration, hnewer⟩
  | renames => exact fun _ ht => absurd ht (Option.some_ne_none _).symm
  | unlocks => exact fun _ ht => absurd ht (Option.some_ne_none _).symm
  | places => exact fun _ ht => absurd ht (Option.some_ne_none _).symm
  | goesOn node hfree hforward =>
    cases c with
    | reading install =>
      intro t ht
      exact ⟨(hholds t ht).bound, (hholds t ht).length, (hholds t ht).room, (hholds t ht).manifest⟩
    | confirming body offer => exact hholds
    | ended own manifest =>
      obtain ⟨offer, hdecode, hcomplete⟩ := hholds
      exact ⟨offer, hdecode, hcomplete.evolves he⟩
    | installing offer own handle image =>
      exact absurd (hfree.symm.trans (locked_of_covers hc)) Bool.false_ne_true

theorem Effect.node_eq (h : Effect s c s' c') (hc : CoversBoth count weight s c u) (hu : u.isInstalling = true) :
    s'.node = s.node := by
  have hlocked : c.isInstalling.toNat + u.isInstalling.toNat ≤ s.locked.toNat := hc none
  have hone : s.locked.toNat ≤ 1 := Bool.toNat_le _
  rw [hu] at hlocked
  change c.isInstalling.toNat + 1 ≤ _ at hlocked
  cases h with
  | stops => exact node_reset
  | offers => exact node_reset
  | renames =>
    change 1 + 1 ≤ _ at hlocked
    omega
  | goesOn node hfree =>
    rw [hfree] at hlocked
    change _ + 1 ≤ 0 at hlocked
    omega
  | _ => rfl

theorem Effect.holds_other (h : Effect s c s' c') (he : Evolves s s') (hc : CoversBoth count weight s c u)
    (hholds : Holds s u) : Holds s' u := by
  cases u with
  | reading install =>
    intro t ht
    obtain ⟨hbound, hlength, hroom, offer, hdecode, hsize, hoffered⟩ := hholds t ht
    have hne : c.file ≠ some t.file := fun hfile => file_ne_of_coversBoth hc hfile (by rw [ht]; rfl)
    exact ⟨hbound.trans_le he.length, by rw [(h.frame hbound hne).2, hlength], hroom, offer, hdecode, hsize,
      he.confirmed hoffered⟩
  | confirming body offer => exact hholds
  | ended own manifest =>
    obtain ⟨offer, hdecode, hcomplete⟩ := hholds
    exact ⟨offer, hdecode, hcomplete.evolves he⟩
  | installing offer own handle image =>
    obtain ⟨hverified, hfits⟩ := hholds
    refine ⟨hverified.evolves he, ?_⟩
    rw [h.node_eq hc rfl]
    exact hfits

theorem Effect.kept (h : Effect s c s' c') (hc : Covers count weight s c) (hholds : Holds s c) (hk : Kept s) :
    Kept s' := by
  have he := h.evolves hc hholds
  have hinstalled (r : Installation) (hr : r ∈ s.installs) : Admitted s' r := (hk.installed r hr).evolves he
  have hplaced (r : Installation) (hr : r ∈ s.placed) : Admitted s' r := (hk.placed r hr).evolves he
  have hkeep (hinstalls : s'.installs = s.installs) (hstays : s'.placed = s.placed)
      (hforward : s.node.appliedSlot ≤ s'.node.appliedSlot) : Kept s' := by
    refine ⟨fun r hr => ?_, fun r hr => ?_, fun r hr => ?_, ?_⟩
    · exact hinstalled r (hinstalls ▸ hr)
    · exact hplaced r (hstays ▸ hr)
    · rw [hinstalls] at hr
      exact (hk.applied r hr).trans hforward
    · rw [hinstalls]
      exact hk.ordered
  cases h with
  | stops => exact hkeep installs_reset placed_reset (by rw [node_reset])
  | offers => exact hkeep installs_reset placed_reset (by rw [node_reset])
  | @places offer own handle image =>
    obtain ⟨hverified, hfits⟩ := hholds
    refine ⟨hinstalled, fun r hr => ?_, hk.applied, hk.ordered⟩
    rcases List.mem_append.1 hr with hr | hr
    · exact hplaced r hr
    · rw [List.mem_singleton.1 hr]
      exact ⟨hverified.evolves he, hfits⟩
  | @renames offer own handle image =>
    obtain ⟨hverified, hfits⟩ := hholds
    refine ⟨fun r hr => ?_, hplaced, fun r hr => ?_, ?_⟩
    · rcases List.mem_append.1 hr with hr | hr
      · exact hinstalled r hr
      · rw [List.mem_singleton.1 hr]
        exact ⟨hverified.evolves he, hfits⟩
    · rcases List.mem_append.1 hr with hr | hr
      · exact (hk.applied r hr).trans hfits.newer.le
      · rw [List.mem_singleton.1 hr]
        exact le_rfl
    · refine List.pairwise_append.2 ⟨hk.ordered, List.pairwise_singleton _ _, fun r hr r' hr' => ?_⟩
      rw [List.mem_singleton.1 hr']
      exact (hk.applied r hr).trans_lt hfits.newer
  | goesOn node hfree hforward => exact hkeep rfl rfl hforward
  | _ => exact hkeep rfl rfl le_rfl

end Steps

/-! ### Every interleaving -/

/-- What every reachable state keeps. -/
structure Sound (x : Threads Shared Connection) : Prop where
  accounted : Accounted count weight x
  holds : ∀ c ∈ x.locals, Holds x.shared c
  kept : Kept x.shared

variable {x y : Threads Shared Connection}

theorem Initial.sound (h : Initial x) : Sound x := by
  obtain ⟨hfiles, -, hlocked, hinstalls, hplaced, hlocals⟩ := h
  have hweight (i : Option ℕ) : total (weight i) x.locals = 0 := by
    refine List.sum_eq_zero fun n hn => ?_
    obtain ⟨c, hc, rfl⟩ := List.mem_map.1 hn
    rw [hlocals c hc]
    cases i <;> rfl
  refine ⟨fun i => ?_, fun c hc => ?_, ?_, ?_, ?_, ?_⟩
  · rw [hweight]
    cases i with
    | none => rw [count, hlocked]; rfl
    | some handle => rw [count, Shared.isOpen, hfiles]; rfl
  · rw [hlocals c hc]
    exact fun _ ht => absurd ht (Option.some_ne_none _).symm
  · rw [hinstalls]
    exact fun _ hr => absurd hr List.not_mem_nil
  · rw [hplaced]
    exact fun _ hr => absurd hr List.not_mem_nil
  · rw [hinstalls]
    exact fun _ hr => absurd hr List.not_mem_nil
  · rw [hinstalls]
    exact .nil

theorem Sound.step (h : Sound x) (hstep : Step Move x y) : Sound y where
  accounted := hstep.accounted (I := fun _ => True) (fun _ _ _ _ _ hc hm => hm.effect.balance hc) trivial h.accounted
  holds := hstep.forall (I := fun _ => True) (fun _ _ _ _ _ hc hm hholds => hm.effect.holds hc hholds)
    (fun _ _ _ _ _ _ hc hm hmover hholds =>
      hm.effect.holds_other (hm.effect.evolves (fun i => (Nat.le_add_right _ _).trans (hc i)) hmover) hc hholds)
    trivial h.accounted h.holds
  kept := hstep.shared (I := fun _ => True) (fun _ _ _ _ _ hc hholds hm hk => hm.effect.kept hc hholds hk) trivial
    h.accounted h.holds h.kept

theorem Reached.sound (h : Reached x) : Sound x :=
  h.invariant (fun _ hinit => hinit.sound) fun _ _ hx hstep => hx.step hstep

/-- However connections interleave, an image put in place had the offered digest, its history was vouched for by a
quorum, it was offered for the configuration and a later slot than the node had, and later installs are of later slots.
The file still begins with that image, and is that image, of the offered size, when the connection installed the file
it had received into. -/
theorem installed_of_reached (h : Reached x) :
    (∀ r ∈ x.shared.installs ++ x.shared.placed,
      Sha256.hash r.image = r.offer.imageSha256 ∧ (r.offer.anchorSlot, r.offer.historyHash) ∈ x.shared.confirmed ∧
        r.offer.configurationId = r.node.configurationId ∧ r.node.appliedSlot < r.offer.anchorSlot ∧
        r.image <+: x.shared.content r.handle ∧
        (r.handle = r.own → x.shared.content r.handle = r.image ∧ r.image.length = r.offer.dbSize)) ∧
    x.shared.installs.Pairwise fun r r' => r.offer.anchorSlot < r'.offer.anchorSlot := by
  have hk := h.sound.kept
  refine ⟨fun r hr => ?_, hk.ordered⟩
  obtain ⟨hverified, hfits⟩ := (List.mem_append.1 hr).elim (hk.installed r) (hk.placed r)
  refine ⟨hverified.digest, hverified.complete.offered, hfits.configuration, hfits.newer, hverified.grown,
    fun heq => ⟨hverified.same heq, ?_⟩⟩
  rw [← hverified.same heq, heq, hverified.complete.length]

/-! ### Two connections -/

section Sample

variable {s : Shared} {before after : List Connection}

theorem reached_received (hlocked : s.locked = false) (hwanted : Wanted s sampleOffer)
    (h : Reached ⟨s, before ++ .reading none :: after⟩) :
    Reached ⟨s.received none sampleOffer [7], before ++ .reading (some (.filled s sampleOffer [7])) :: after⟩ := by
  have hreceive : receive (s, .reading none)
      (⟨.snapshotBegin, sampleOffer.encode⟩ :: ([(0, [7])].map chunkFrame ++ [])) =
        some (s.received none sampleOffer [7], .reading (some (.filled s sampleOffer [7]))) :=
    receive_image none [(0, [7])] sampleOffer_valid hwanted (.cons (List.cons_ne_nil _ _) .nil)
      (List.forall_mem_singleton.2 (by decide)) rfl
  exact receive_reached hlocked h hreceive

/-- The first connection has its file complete. -/
def firstEnded : Shared :=
  (sampleShared.received none sampleOffer [7]).close 0

/-- The second one has put another one under the name. -/
def secondFilled : Shared :=
  firstEnded.received none sampleOffer [7]

theorem firstEnded_wanted : Wanted firstEnded sampleOffer :=
  ⟨rfl, rfl, by decide, by decide⟩

theorem reached_secondFilled : Reached ⟨secondFilled,
    [.ended 0 sampleOffer.encode, .reading (some (.filled firstEnded sampleOffer [7]))]⟩ := by
  have hlocals : ∀ c ∈ ([.reading none, .reading none] : List Connection), c = .reading none := by
    simp only [List.mem_cons, List.not_mem_nil, or_false, or_self, imp_self, implies_true]
  have hstart : Reached ⟨sampleShared, [] ++ .reading none :: [.reading none]⟩ :=
    .start ⟨rfl, rfl, rfl, rfl, rfl, hlocals⟩
  have hfirst := reached_received rfl sampleOffer_wanted hstart
  have hends : Move (sampleShared.received none sampleOffer [7])
      (.reading (some (.filled sampleShared sampleOffer [7]))) firstEnded (.ended 0 sampleOffer.encode) :=
    .ends (onSnapshotEnd_complete rfl)
  have hended : Reached ⟨firstEnded, [.ended 0 sampleOffer.encode] ++ .reading none :: []⟩ :=
    hfirst.step (.moves [] [.reading none] hends)
  exact reached_received rfl firstEnded_wanted hended

/-- The first connection installs the file of the second one, which has the same image. -/
theorem installed_of_reached_sample :
    ∃ x, Reached x ∧ (∃ r ∈ x.shared.installs, r.handle ≠ r.own) ∧
      ∀ r ∈ x.shared.installs, Sha256.hash r.image = r.offer.imageSha256 ∧ r.image <+: x.shared.content r.handle := by
  have hcontent : secondFilled.content 1 = [7] := content_received
  have hstaged : secondFilled.staged = some 1 := rfl
  have hdigest : Sha256.hash (secondFilled.content 1) = sampleOffer.imageSha256 := congrArg Sha256.hash hcontent
  have hverify := verify_wanted 0 sampleOffer_valid (wanted_received none firstEnded_wanted) hstaged hdigest
  have hverified := reached_secondFilled.step (.moves [] _ (.verifies rfl hverify))
  have hrenamed := hverified.step (.moves [] _ .renames)
  refine ⟨_, hrenamed, ⟨_, List.mem_append_right _ (List.mem_singleton.2 rfl), by decide⟩, fun r hr => ?_⟩
  obtain ⟨hdigest, -, -, -, hgrown, -⟩ := (installed_of_reached hrenamed).1 r (List.mem_append_left _ hr)
  exact ⟨hdigest, hgrown⟩

end Sample

end Staging

end Zaxonlite
