import Zaxonlite.Server.Staging

/-!
# Streaming an image

A peer that is asked for its image copies `current.db`, offers the copy, sends it in chunks and says when it has sent
everything. A connection that receives such a stream with nothing in between ends up with the sender's image, wherever
it was cut.
-/

namespace Zaxonlite

namespace Staging

open Chunks Threads

/-! ### The sender -/

/-- A copy of the image. Nothing writes to it while it is sent. -/
structure TransferPin where
  anchor : AppliedAnchor
  image : List UInt8

/-- What a peer looks at of its node when it is asked for an image. -/
structure ImageSource where
  configurationId : ℕ
  materializes : Bool
  retainedFirstSlot : ℕ
  /-- `pinTransferImage`; the state anchor can be unavailable. -/
  pinned : Option TransferPin
  registryDigest : HashBytes

namespace TransferPin

variable (pin : TransferPin)

def offer (registryDigest : HashBytes) : OfferedSnapshot where
  configurationId := pin.anchor.configurationId
  anchorSlot := pin.anchor.globalSlot
  historyHash := pin.anchor.historyHash
  dbSize := pin.image.length
  imageSha256 := Sha256.hash pin.image
  sqlitePageSize := pin.anchor.sqlitePageSize
  lastDataSlot := pin.anchor.lastDataSlot
  lastBatchId := pin.anchor.lastBatchId
  lastChain := pin.anchor.lastChain
  registryDigest := registryDigest

end TransferPin

def chunkFrame (chunk : ℕ × List UInt8) : Frame :=
  ⟨.snapshotChunk, SnapshotChunk.encode ⟨chunk.1, chunk.2⟩⟩

/-- The frames of a transfer, for an image cut in some way. -/
def transferFrames (offer : OfferedSnapshot) (chunks : List (ℕ × List UInt8)) : List Frame :=
  ⟨.snapshotBegin, offer.encode⟩ :: (chunks.map chunkFrame ++ [⟨.snapshotEnd, []⟩])

def onSnapshotRequest (source : ImageSource) (body : List UInt8) : List Frame :=
  match SnapshotRequest.decode body with
  | .error _ => []
  | .ok request =>
    let freshLaterConfiguration := decide (request.appliedSlot = 0 ∧ source.configurationId > 1)
    if !source.materializes ∨ (!freshLaterConfiguration ∧ source.retainedFirstSlot ≤ request.appliedSlot + 1) then []
    else
      source.pinned.elim [] fun pin =>
        transferFrames (pin.offer source.registryDigest) (cut snapshotChunkBytes pin.image.length pin.image 0)

/-! ### The receiver -/

/-- What a connection does before its next frame, if nothing comes in between and a quorum vouches for the history. -/
def advance : Shared × Connection → Option (Shared × Connection)
  | (s, .reading install) => some (s, .reading install)
  | (s, .confirming body offer) => some (s.stageFile body offer)
  | (s, .ended own manifest) => s.verify own manifest
  | (s, .installing offer own handle image) => some (s.rename offer own handle image, .reading none)

def receiveFrame (s : Shared) (install : Option InstallState) (frame : Frame) : Option (Shared × Connection) :=
  match frame.kind with
  | .snapshotBegin => s.onSnapshotBegin (.reading install) frame.body
  | .snapshotChunk => s.onSnapshotChunk install frame.body
  | .snapshotEnd => s.onSnapshotEnd install
  | _ => none

def receive : Shared × Connection → List Frame → Option (Shared × Connection)
  | x, [] => some x
  | (s, .reading install), frame :: frames =>
    (receiveFrame s install frame).bind fun x => (advance x).bind fun x => (advance x).bind fun x => receive x frames
  | _, _ :: _ => none

/-! ### One connection among others -/

section Moves

variable {s s' : Shared} {c c' : Connection} {before after : List Connection}

theorem advance_reached (hfree : c.isInstalling = false → s.locked = false)
    (h : Reached ⟨s, before ++ c :: after⟩) (hadvance : advance (s, c) = some (s', c')) :
    Reached ⟨s', before ++ c' :: after⟩ := by
  cases c with
  | reading install =>
    cases hadvance
    exact h
  | confirming body offer =>
    have hstage : s.stageFile body offer = (s', c') := Option.some.inj hadvance
    have hmove : Move s (.confirming body offer) (s.stageFile body offer).1 (s.stageFile body offer).2 :=
      .confirms (hfree rfl)
    rw [hstage] at hmove
    exact h.step (.moves before after hmove)
  | ended own manifest => exact h.step (.moves before after (.verifies (hfree rfl) hadvance))
  | installing offer own handle image =>
    cases hadvance
    exact h.step (.moves before after .renames)

theorem verify_eq_some {own : ℕ} {manifest : List UInt8} (h : s.verify own manifest = some (s', c)) :
    (s' = s ∧ c = .reading none) ∨ (s' = { s with locked := true } ∧ c.isInstalling = true) := by
  rw [Shared.verify] at h
  split at h
  · cases h
  · split_ifs at h
    · cases h
      exact .inl ⟨rfl, rfl⟩
    · cases hstaged : s.staged with
      | none =>
        rw [hstaged] at h
        cases h
        exact .inl ⟨rfl, rfl⟩
      | some handle =>
        rw [hstaged, Option.elim_some] at h
        split_ifs at h
        · cases h
          exact .inl ⟨rfl, rfl⟩
        · cases h
          rw [← hstaged]
          exact .inr ⟨rfl, rfl⟩

theorem advance_locked (hlocked : s.locked = c.isInstalling) (hadvance : advance (s, c) = some (s', c')) :
    s'.locked = c'.isInstalling := by
  cases c with
  | reading install =>
    cases hadvance
    exact hlocked
  | confirming body offer =>
    have hstage : s.stageFile body offer = (s', c') := Option.some.inj hadvance
    rw [Shared.stageFile] at hstage
    dsimp only at hstage
    split at hstage <;> cases hstage <;> exact hlocked
  | ended own manifest =>
    rcases verify_eq_some hadvance with ⟨rfl, rfl⟩ | ⟨rfl, hinstalling⟩
    · exact hlocked
    · exact hinstalling.symm
  | installing offer own handle image =>
    cases hadvance
    rfl

theorem receiveFrame_locked {install : Option InstallState} {frame : Frame} (hlocked : s.locked = false)
    (h : receiveFrame s install frame = some (s', c)) : s'.locked = c.isInstalling := by
  rw [receiveFrame] at h
  split at h
  · rw [Shared.onSnapshotBegin] at h
    split at h
    · cases h
    · split_ifs at h <;> cases h <;> rw [locked_reset, hlocked] <;> rfl
  · rw [Shared.onSnapshotChunk] at h
    split at h
    · cases h
    · cases install with
      | none =>
        cases h
        exact hlocked
      | some t =>
        rw [Option.elim_some] at h
        split_ifs at h
        cases h
        exact hlocked
  · rw [Shared.onSnapshotEnd] at h
    cases install with
    | none =>
      cases h
      exact hlocked
    | some t =>
      rw [Option.elim_some] at h
      split_ifs at h
      cases h
      exact hlocked
  · cases h

theorem receiveFrame_reached {install : Option InstallState} {frame : Frame} (hlocked : s.locked = false)
    (h : Reached ⟨s, before ++ .reading install :: after⟩) (hframe : receiveFrame s install frame = some (s', c)) :
    Reached ⟨s', before ++ c :: after⟩ := by
  rw [receiveFrame] at hframe
  split at hframe
  · exact h.step (.moves before after (.begins _ hlocked hframe))
  · exact h.step (.moves before after (.chunk _ hframe))
  · exact h.step (.moves before after (.ends hframe))
  · cases hframe

/-- Receiving with nothing in between is one of the ways in which the connections interleave. -/
theorem receive_reached {frames : List Frame} (hlocked : s.locked = c.isInstalling)
    (h : Reached ⟨s, before ++ c :: after⟩) (hreceive : receive (s, c) frames = some (s', c')) :
    Reached ⟨s', before ++ c' :: after⟩ := by
  induction frames generalizing s c with
  | nil =>
    cases hreceive
    exact h
  | cons frame frames ih =>
    cases c with
    | reading install =>
      simp only [receive, Option.bind_eq_some_iff] at hreceive
      obtain ⟨⟨s₁, c₁⟩, hframe, ⟨s₂, c₂⟩, hadvance, ⟨s₃, c₃⟩, hadvance', hrest⟩ := hreceive
      have hlocked₁ : s₁.locked = c₁.isInstalling := receiveFrame_locked hlocked hframe
      have hlocked₂ : s₂.locked = c₂.isInstalling := advance_locked hlocked₁ hadvance
      have hreached₁ : Reached ⟨s₁, before ++ c₁ :: after⟩ := receiveFrame_reached hlocked h hframe
      have hreached₂ : Reached ⟨s₂, before ++ c₂ :: after⟩ := advance_reached (hlocked₁.trans ·) hreached₁ hadvance
      exact ih (advance_locked hlocked₂ hadvance') (advance_reached (hlocked₂.trans ·) hreached₂ hadvance') hrest
    | confirming body offer => cases hreceive
    | ended own manifest => cases hreceive
    | installing offer own handle image => cases hreceive

end Moves

/-! ### A stream with nothing in between -/

/-- A file with another content. -/
def Shared.withContent (s : Shared) (handle : ℕ) (content : List UInt8) : Shared :=
  { s with files := s.files.modify handle fun f => { f with content := content } }

/-- What the receiver checks of a chunk besides its offset. -/
def InstallState.fits (t : InstallState) (chunk : ℕ × List UInt8) : Bool :=
  decide (chunk.2.length ≤ snapshotChunkBytes ∧ chunk.1 + chunk.2.length ≤ t.dbSize ∧
    chunk.1 + chunk.2.length < 2 ^ 64)

section Stream

variable {s : Shared} {handle : ℕ} {t : InstallState}

theorem content_withContent {content : List UInt8} (h : handle < s.files.length) :
    (s.withContent handle content).content handle = content := by
  have hsome : s.files[handle]? = some s.files[handle] := List.getElem?_eq_getElem h
  simp [Shared.content, Shared.withContent, hsome]

theorem length_withContent {content : List UInt8} :
    (s.withContent handle content).files.length = s.files.length :=
  List.length_modify _ _ _

theorem withContent_withContent {content content' : List UInt8} :
    (s.withContent handle content).withContent handle content' = s.withContent handle content' := by
  rw [Shared.withContent, Shared.withContent, Shared.withContent, List.modify_modify_eq]
  rfl

theorem withContent_self (h : handle < s.files.length) : s.withContent handle (s.content handle) = s := by
  have hfiles : (s.withContent handle (s.content handle)).files = s.files := by
    refine List.ext_getElem? fun i => ?_
    rw [Shared.withContent, List.getElem?_modify]
    split
    · next heq =>
      subst heq
      have hsome : s.files[handle]? = some s.files[handle] := List.getElem?_eq_getElem h
      simp [Shared.content, hsome]
    · cases s.files[i]? <;> rfl
  exact congrArg (fun files => { s with files := files }) hfiles

theorem write_eq_withContent {bytes : List UInt8} (h : handle < s.files.length) :
    s.write handle (s.content handle).length bytes = s.withContent handle (s.content handle ++ bytes) := by
  have hfiles : (s.write handle (s.content handle).length bytes).files =
      (s.withContent handle (s.content handle ++ bytes)).files := by
    refine List.ext_getElem? fun i => ?_
    rw [Shared.write, Shared.withContent, List.getElem?_modify, List.getElem?_modify]
    split
    · next heq =>
      subst heq
      have hsome : s.files[handle]? = some s.files[handle] := List.getElem?_eq_getElem h
      simp [Shared.content, hsome, overwrite_length]
    · rfl
  exact congrArg (fun files => { s with files := files }) hfiles

theorem receive_reading {install install' : Option InstallState} {frame : Frame} {frames : List Frame}
    {s' : Shared} (h : receiveFrame s install frame = some (s', .reading install')) :
    receive (s, .reading install) (frame :: frames) = receive (s', .reading install') frames := by
  rw [receive, h]
  rfl

theorem onSnapshotChunk_eq (chunk : SnapshotChunk) (hoffset : chunk.offset < 256 ^ 8)
    (hlength : (s.content t.file).length = t.received) (hbound : t.file < s.files.length) :
    s.onSnapshotChunk (some t) chunk.encode =
      if chunk.offset = (s.content t.file).length ∧ chunk.bytes ≠ [] ∧ t.fits (chunk.offset, chunk.bytes) then
        some (s.withContent t.file (s.content t.file ++ chunk.bytes),
          .reading (some { t with received := (s.content t.file ++ chunk.bytes).length }))
      else none := by
  rw [Shared.onSnapshotChunk, (SnapshotChunk.decodes _ chunk).2 ⟨hoffset, rfl⟩]
  dsimp only
  rw [Option.elim_some]
  by_cases hgood : chunk.offset = (s.content t.file).length ∧ chunk.bytes ≠ [] ∧
      t.fits (chunk.offset, chunk.bytes) = true
  · obtain ⟨hat, hne, hfits⟩ := hgood
    obtain ⟨hsize, hroom, hfit⟩ := of_decide_eq_true hfits
    have hpos := List.length_pos_iff.2 hne
    have hadmitted : ¬(chunk.offset ≠ t.received ∨ chunk.bytes.length = 0 ∨ chunk.bytes.length > snapshotChunkBytes ∨
        chunk.offset + chunk.bytes.length > t.dbSize) := by
      dsimp only at hsize hroom
      omega
    rw [if_neg (Nat.not_le.2 hfit), if_neg hadmitted, if_pos ⟨hat, hne, hfits⟩, hat,
      write_eq_withContent hbound, List.length_append, hlength]
  · rw [if_neg hgood]
    split_ifs with hwide hrefused
    · rfl
    · rfl
    · refine absurd ⟨?_, ?_, decide_eq_true ⟨?_, ?_, ?_⟩⟩ hgood
      · omega
      · exact fun h => hrefused (.inr (.inl (List.length_eq_zero_iff.2 h)))
      · dsimp only
        omega
      · dsimp only
        omega
      · dsimp only
        omega

/-- Chunks are gathered in the connection's own file. -/
theorem receive_chunks {chunks : List (ℕ × List UInt8)} {frames : List Frame}
    (hoffsets : ∀ chunk ∈ chunks, chunk.1 < 256 ^ 8) (hlength : (s.content t.file).length = t.received)
    (hbound : t.file < s.files.length) :
    receive (s, .reading (some t)) (chunks.map chunkFrame ++ frames) =
      (gather t.fits (s.content t.file) chunks).bind fun content =>
        receive (s.withContent t.file content, .reading (some { t with received := content.length })) frames := by
  induction chunks generalizing s t with
  | nil =>
    rw [gather, Option.bind_some, withContent_self hbound, hlength]
    rfl
  | cons chunk chunks ih =>
    obtain ⟨hoffset, hrest⟩ := List.forall_mem_cons.1 hoffsets
    have hframe : receiveFrame s (some t) (chunkFrame chunk) = _ :=
      onSnapshotChunk_eq ⟨chunk.1, chunk.2⟩ hoffset hlength hbound
    rw [List.map_cons, List.cons_append, gather]
    by_cases hgood : chunk.1 = (s.content t.file).length ∧ chunk.2 ≠ [] ∧ t.fits chunk = true
    · rw [if_pos hgood] at hframe ⊢
      rw [receive_reading hframe, ih hrest (by rw [content_withContent hbound]) (by rwa [length_withContent])]
      simp only [content_withContent hbound, withContent_withContent]
      rfl
    · rw [if_neg hgood] at hframe ⊢
      rw [receive, hframe]
      rfl

/-- A new file under the transfer's name, for an offer whose history is vouched for. -/
def Shared.withStaged (s : Shared) (offer : OfferedSnapshot) : Shared :=
  { s with
    confirmed := s.confirmed ++ [(offer.anchorSlot, offer.historyHash)]
    files := s.files ++ [⟨[], true⟩]
    staged := some s.files.length }

/-- What a connection keeps once it has taken an offer. -/
def InstallState.taken (s : Shared) (offer : OfferedSnapshot) : InstallState :=
  ⟨s.files.length, offer.dbSize, 0, offer.encode⟩

/-- The receiver can use what is offered. -/
structure Wanted (s : Shared) (offer : OfferedSnapshot) : Prop where
  ready : s.node.ready = true
  configuration : offer.configurationId = s.node.configurationId
  newer : s.node.appliedSlot < offer.anchorSlot
  room : offer.dbSize ≤ s.maxTransferBytes

variable {install : Option InstallState} {offer : OfferedSnapshot}

theorem receive_begin {frames : List Frame} (hvalid : offer.Valid) (h : Wanted s offer) :
    receive (s, .reading install) (⟨.snapshotBegin, offer.encode⟩ :: frames) =
      receive ((s.reset (.reading install)).withStaged offer,
        .reading (some (.taken (s.reset (.reading install)) offer))) frames := by
  have hbegin : receiveFrame s install ⟨.snapshotBegin, offer.encode⟩ =
      some (s.reset (.reading install), .confirming offer.encode offer) := by
    rw [receiveFrame]
    dsimp only
    rw [Shared.onSnapshotBegin, (OfferedSnapshot.decodes _ offer).2 ⟨hvalid, rfl⟩]
    dsimp only
    rw [if_neg (not_or.2 ⟨not_not.2 h.configuration, Nat.not_le.2 h.newer⟩), if_neg (Nat.not_lt.2 h.room)]
  have hstage : (s.reset (.reading install)).stageFile offer.encode offer =
      ((s.reset (.reading install)).withStaged offer, .reading (some (.taken (s.reset (.reading install)) offer))) := by
    rw [Shared.stageFile]
    dsimp only
    rw [if_neg (Nat.not_le.2 (node_reset.symm ▸ h.newer))]
    rfl
  rw [receive, hbegin, Option.bind_some, advance, hstage, Option.bind_some, advance, Option.bind_some]

/-- What was offered and is staged is verified, whoever received it. -/
theorem verify_wanted (own : ℕ) {handle : ℕ} (hvalid : offer.Valid) (h : Wanted s offer)
    (hstaged : s.staged = some handle)
    (hdigest : Sha256.hash (s.content handle) = offer.imageSha256) :
    s.verify own offer.encode =
      some ({ s with locked := true }, .installing offer.toSnapshotBegin own handle (s.content handle)) := by
  have hready : ¬ (!s.node.ready) = true := by
    rw [h.ready]
    exact Bool.false_ne_true
  have hadmitted : ¬((!s.node.ready) = true ∨ offer.configurationId ≠ s.node.configurationId ∨
      offer.anchorSlot ≤ s.node.appliedSlot) :=
    not_or.2 ⟨hready, not_or.2 ⟨not_not.2 h.configuration, Nat.not_le.2 h.newer⟩⟩
  rw [Shared.verify, (OfferedSnapshot.decodes _ offer).2 ⟨hvalid, rfl⟩]
  dsimp only
  rw [if_neg hadmitted, hstaged, Option.elim_some, if_neg (not_not.2 hdigest)]

theorem onSnapshotEnd_complete (hcomplete : t.received = t.dbSize) :
    s.onSnapshotEnd (some t) = some (s.close t.file, .ended t.file t.manifest) := by
  rw [Shared.onSnapshotEnd, Option.elim_some, if_neg (not_not.2 hcomplete)]

theorem receive_end (hvalid : offer.Valid) (h : Wanted s offer) (hmanifest : t.manifest = offer.encode)
    (hcomplete : t.received = t.dbSize) (hstaged : s.staged = some t.file)
    (hdigest : Sha256.hash (s.content t.file) = offer.imageSha256) :
    receive (s, .reading (some t)) [⟨.snapshotEnd, []⟩] =
      some (Shared.rename { s.close t.file with locked := true } offer.toSnapshotBegin t.file t.file
        (s.content t.file), .reading none) := by
  have hend : receiveFrame s (some t) ⟨.snapshotEnd, []⟩ = some (s.close t.file, .ended t.file offer.encode) := by
    rw [← hmanifest]
    exact onSnapshotEnd_complete hcomplete
  have hverify := verify_wanted (s := s.close t.file) t.file hvalid ⟨h.ready, h.configuration, h.newer, h.room⟩
    hstaged (content_close.symm ▸ hdigest)
  rw [content_close] at hverify
  rw [receive, hend, Option.bind_some, advance, hverify, Option.bind_some, advance, Option.bind_some, receive]

/-- The state once the chunks of an image are there. -/
def Shared.received (s : Shared) (install : Option InstallState) (offer : OfferedSnapshot) (image : List UInt8) :
    Shared :=
  ((s.reset (.reading install)).withStaged offer).withContent s.files.length image

/-- What a connection keeps once it has received an image. -/
def InstallState.filled (s : Shared) (offer : OfferedSnapshot) (image : List UInt8) : InstallState :=
  ⟨s.files.length, offer.dbSize, image.length, offer.encode⟩

theorem content_received {image : List UInt8} : (s.received install offer image).content s.files.length = image := by
  refine content_withContent ?_
  change s.files.length < ((s.reset (.reading install)).files ++ [_]).length
  rw [List.length_append, length_reset]
  exact Nat.lt_succ_self _

theorem wanted_received (install : Option InstallState) {image : List UInt8} (h : Wanted s offer) :
    Wanted (s.received install offer image) offer := by
  have hnode : (s.received install offer image).node = s.node := node_reset
  have hmax : (s.received install offer image).maxTransferBytes = s.maxTransferBytes := maxTransferBytes_reset
  exact ⟨hnode ▸ h.ready, hnode ▸ h.configuration, hnode ▸ h.newer, hmax ▸ h.room⟩

/-- A connection gathers an image of the offered size, in chunks that are not too large, in a file of its own. -/
theorem receive_image (install : Option InstallState) (chunks : List (ℕ × List UInt8)) {image : List UInt8}
    {frames : List Frame} (hvalid : offer.Valid) (h : Wanted s offer) (htiles : Tiles 0 chunks image)
    (hcut : ∀ chunk ∈ chunks, chunk.2.length ≤ snapshotChunkBytes) (hsize : offer.dbSize = image.length) :
    receive (s, .reading install) (⟨.snapshotBegin, offer.encode⟩ :: (chunks.map chunkFrame ++ frames)) =
      receive (s.received install offer image, .reading (some (.filled s offer image))) frames := by
  let start := s.reset (.reading install)
  let staged := start.withStaged offer
  let t := InstallState.taken start offer
  have hfits : offer.dbSize < 2 ^ 64 := hvalid.fits.2.2.1
  have hfile : start.files.length = s.files.length := length_reset
  have hbound : t.file < staged.files.length := by
    change start.files.length < (start.files ++ [_]).length
    rw [List.length_append]
    exact Nat.lt_succ_self _
  have hnew : staged.content t.file = [] := content_new (s := { start with confirmed := staged.confirmed })
  have hgather : gather t.fits (staged.content t.file) chunks = some image := by
    rw [hnew]
    refine gather_eq_some_iff.2 ⟨image, rfl, htiles, fun chunk hmem => ?_⟩
    obtain ⟨-, hhigh⟩ := htiles.bounds chunk hmem
    exact decide_eq_true ⟨hcut chunk hmem, by change _ ≤ offer.dbSize; omega, by omega⟩
  have hoffsets : ∀ chunk ∈ chunks, chunk.1 < 256 ^ 8 := fun chunk hmem => by
    obtain ⟨-, hhigh⟩ := htiles.bounds chunk hmem
    change _ < 2 ^ 64
    omega
  rw [receive_begin hvalid h, receive_chunks hoffsets (by rw [hnew]; rfl) hbound, hgather, Option.bind_some,
    Shared.received, InstallState.filled, ← hfile]
  rfl

/-- A connection that receives an image of the offered size and digest, in chunks that are not too large, installs it
from a file of its own. -/
theorem receive_transfer (install : Option InstallState) (chunks : List (ℕ × List UInt8)) {image : List UInt8}
    (hvalid : offer.Valid) (h : Wanted s offer) (htiles : Tiles 0 chunks image)
    (hcut : ∀ chunk ∈ chunks, chunk.2.length ≤ snapshotChunkBytes) (hsize : offer.dbSize = image.length)
    (hdigest : offer.imageSha256 = Sha256.hash image) :
    ∃ s', receive (s, .reading install) (transferFrames offer chunks) = some (s', .reading none) ∧
      s'.installs = s.installs ++ [⟨offer.toSnapshotBegin, s.files.length, image, s.files.length, s.node⟩] ∧
        s'.content s.files.length = image ∧ s'.node = { s.node with appliedSlot := offer.anchorSlot } := by
  have hcontent : (s.received install offer image).content s.files.length = image := content_received
  have hstaged : (s.received install offer image).staged = some s.files.length := congrArg some length_reset
  have hreceive : receive (s, .reading install) (transferFrames offer chunks) =
      some (Shared.rename { (s.received install offer image).close s.files.length with locked := true }
        offer.toSnapshotBegin s.files.length s.files.length image, .reading none) := by
    rw [transferFrames, receive_image install chunks hvalid h htiles hcut hsize]
    have hend := receive_end (t := .filled s offer image) hvalid (wanted_received install h) rfl hsize.symm
      hstaged (by rw [InstallState.filled, hcontent, hdigest])
    rwa [InstallState.filled, hcontent] at hend
  refine ⟨_, hreceive, ?_, ?_, ?_⟩
  · exact congrArg₂ (fun installs node => installs ++ [⟨offer.toSnapshotBegin, s.files.length, image, s.files.length,
      node⟩]) installs_reset node_reset
  · exact (content_close (s := s.received install offer image)).trans hcontent
  · exact congrArg (fun node => { node with appliedSlot := offer.anchorSlot }) node_reset

/-- The peer serves the request: its journal no longer covers the gap, or the requester is new to a later
configuration. -/
structure Serves (source : ImageSource) (request : SnapshotRequest) (pin : TransferPin) : Prop where
  materializes : source.materializes = true
  gap : request.appliedSlot = 0 ∧ 1 < source.configurationId ∨ request.appliedSlot + 1 < source.retainedFirstSlot
  pinned : source.pinned = some pin

theorem onSnapshotRequest_of_serves {source : ImageSource} {request : SnapshotRequest} {pin : TransferPin}
    {body : List UInt8} (hrequest : SnapshotRequest.decode body = .ok request) (h : Serves source request pin) :
    onSnapshotRequest source body = transferFrames (pin.offer source.registryDigest)
      (cut snapshotChunkBytes pin.image.length pin.image 0) := by
  have hserved : ¬((!source.materializes) = true ∨
      ((!decide (request.appliedSlot = 0 ∧ source.configurationId > 1)) = true ∧
        source.retainedFirstSlot ≤ request.appliedSlot + 1)) := by
    have hgap := h.gap
    simp only [h.materializes, Bool.not_true, Bool.false_eq_true, Bool.not_eq_true', decide_eq_false_iff_not, false_or]
    omega
  rw [onSnapshotRequest, hrequest]
  dsimp only
  rw [if_neg hserved, h.pinned, Option.elim_some]

/-- What a peer streams of its image, a connection that receives it with nothing in between installs, byte by byte,
whatever the size of the image and wherever the connection had got to before. -/
theorem receive_onSnapshotRequest {source : ImageSource} {request : SnapshotRequest} {pin : TransferPin}
    {body : List UInt8} (install : Option InstallState) (hrequest : SnapshotRequest.decode body = .ok request)
    (hserves : Serves source request pin) (hvalid : (pin.offer source.registryDigest).Valid)
    (h : Wanted s (pin.offer source.registryDigest)) :
    ∃ s', receive (s, .reading install) (onSnapshotRequest source body) = some (s', .reading none) ∧
      s'.installs = s.installs ++
        [⟨(pin.offer source.registryDigest).toSnapshotBegin, s.files.length, pin.image, s.files.length, s.node⟩] ∧
      s'.content s.files.length = pin.image ∧
      s'.node = { s.node with appliedSlot := pin.anchor.globalSlot } := by
  have htiles : Tiles 0 (cut snapshotChunkBytes pin.image.length pin.image 0) pin.image :=
    tiles_cut (by decide) 0
  rw [onSnapshotRequest_of_serves hrequest hserves]
  exact receive_transfer install _ hvalid h htiles length_le_of_mem_cut rfl rfl

end Stream

/-! ### A transfer of one byte -/

section Sample

/-- A fresh node of a later configuration, with one connection. -/
def sampleShared : Shared where
  files := []
  staged := none
  node := { configurationId := 2, appliedSlot := 0, ready := true }
  maxTransferBytes := 1
  locked := false
  confirmed := []
  installs := []
  placed := []

def samplePin : TransferPin where
  anchor :=
    { generation := 1, databaseId := 1, globalSlot := 1, configurationId := 2, historyHash := Vector.replicate 32 0,
      sqlitePageSize := 1, sqlitePageCount := 1, lastDataSlot := 0, lastBatchId := 0,
      lastChain := Vector.replicate 32 0 }
  image := [7]

def sampleSource : ImageSource where
  configurationId := 2
  materializes := true
  retainedFirstSlot := 1
  pinned := some samplePin
  registryDigest := Vector.replicate 32 0

def sampleOffer : OfferedSnapshot :=
  samplePin.offer sampleSource.registryDigest

theorem sampleOffer_valid : sampleOffer.Valid :=
  ⟨by decide, by decide⟩

theorem sampleOffer_wanted : Wanted sampleShared sampleOffer :=
  ⟨rfl, rfl, by decide, by decide⟩

theorem sampleSource_serves : Serves sampleSource ⟨0⟩ samplePin :=
  ⟨rfl, .inl ⟨rfl, by decide⟩, rfl⟩

theorem sampleRequest_decode : SnapshotRequest.decode (SnapshotRequest.encode ⟨0⟩) = .ok ⟨0⟩ :=
  (SnapshotRequest.decodes _ _).2 ⟨by change 0 < 256 ^ 8; omega, rfl⟩

/-- The byte arrives and is installed. -/
theorem receive_samplePin :
    ∃ s', receive (sampleShared, .reading none) (onSnapshotRequest sampleSource (SnapshotRequest.encode ⟨0⟩)) =
        some (s', .reading none) ∧
      s'.installs = sampleShared.installs ++ [⟨sampleOffer.toSnapshotBegin, 0, [7], 0, sampleShared.node⟩] ∧
      s'.content 0 = [7] ∧ s'.node = { sampleShared.node with appliedSlot := 1 } :=
  receive_onSnapshotRequest none sampleRequest_decode sampleSource_serves sampleOffer_valid sampleOffer_wanted

end Sample

end Staging

end Zaxonlite
