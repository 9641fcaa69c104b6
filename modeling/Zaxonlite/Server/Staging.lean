import Zaxonlite.Lib.Chunks
import Zaxonlite.Lib.Threads
import Zaxonlite.Wire.Bodies

/-!
# Receiving a state transfer

A server takes a peer's image over the peer's connection, chunk by chunk, into a file under one fixed name, and puts
the file of that name in place when the connection's transfer ends. Several connections can be at it at once: each
creates the file anew and goes on writing to the one it created, whatever the name stands for by then. Only the chunks
are written without the server's mutex.
-/

namespace Zaxonlite

namespace Staging

open Chunks (overwrite overwrite_length)

def snapshotChunkBytes : ℕ := 1024 * 1024

/-- A file created under the transfer's name. It outlives the name while a connection has it open, or as the image. -/
structure StagedFile where
  content : List UInt8
  opened : Bool

structure TransferNode where
  configurationId : ℕ
  appliedSlot : ℕ
  /-- Its storage has not failed, it materializes, and no live transaction is open. -/
  ready : Bool

/-- An image put in place. -/
structure Installation where
  offer : SnapshotBegin
  /-- The file the name stood for, and what it held when its digest was taken. -/
  handle : ℕ
  image : List UInt8
  /-- The file the connection itself received into. -/
  own : ℕ
  /-- The node it was installed on. -/
  node : TransferNode

structure Shared where
  files : List StagedFile
  /-- The file `transfer_install_name` stands for. -/
  staged : Option ℕ
  node : TransferNode
  maxTransferBytes : ℕ
  /-- A connection keeps the server's mutex between the digest and the rename. -/
  locked : Bool
  /-- The histories a read quorum has vouched for. -/
  confirmed : List (ℕ × HashBytes)
  installs : List Installation
  /-- The images put in place by installs that failed before the node took their slot over. -/
  placed : List Installation

/-- What a connection keeps of a transfer: its file and what the offer said. -/
structure InstallState where
  file : ℕ
  dbSize : ℕ
  received : ℕ
  manifest : List UInt8

inductive Connection where
  | reading (install : Option InstallState)
  /-- In `confirmHistoryQuorum`. -/
  | confirming (body : List UInt8) (offer : OfferedSnapshot)
  /-- The file is closed, the server's mutex not yet taken. -/
  | ended (own : ℕ) (manifest : List UInt8)
  /-- The digest is right. -/
  | installing (offer : SnapshotBegin) (own handle : ℕ) (image : List UInt8)

def Connection.file : Connection → Option ℕ
  | .reading install => install.map InstallState.file
  | _ => none

def Connection.isInstalling : Connection → Bool
  | .installing .. => true
  | _ => false

namespace Shared

/-- The bytes of a file. -/
def content (s : Shared) (handle : ℕ) : List UInt8 :=
  (s.files[handle]?).elim [] StagedFile.content

def isOpen (s : Shared) (handle : ℕ) : Bool :=
  (s.files[handle]?).elim false StagedFile.opened

def close (s : Shared) (handle : ℕ) : Shared :=
  { s with files := s.files.modify handle fun f => { f with opened := false } }

/-- `writePositionalAll`. -/
def write (s : Shared) (handle offset : ℕ) (bytes : List UInt8) : Shared :=
  { s with files := s.files.modify handle fun f => { f with content := overwrite 0 f.content offset bytes } }

/-- `reset`: the file of an earlier transfer is closed. -/
def reset (s : Shared) (c : Connection) : Shared :=
  c.file.elim s s.close

/-- `onSnapshotBegin` up to `confirmHistoryQuorum`; without a result the connection ends. -/
def onSnapshotBegin (s : Shared) (c : Connection) (body : List UInt8) : Option (Shared × Connection) :=
  match OfferedSnapshot.decode body with
  | .error _ => none
  | .ok offer =>
    if offer.configurationId ≠ s.node.configurationId ∨ offer.anchorSlot ≤ s.node.appliedSlot then
      some (s.reset c, .reading none)
    else if offer.dbSize > s.maxTransferBytes then none
    else some (s.reset c, .confirming body offer)

/-- `onSnapshotBegin` once a quorum has vouched for the history. -/
def stageFile (s : Shared) (body : List UInt8) (offer : OfferedSnapshot) : Shared × Connection :=
  let s := { s with confirmed := s.confirmed ++ [(offer.anchorSlot, offer.historyHash)] }
  if offer.anchorSlot ≤ s.node.appliedSlot then (s, .reading none)
  else
    ({ s with files := s.files ++ [⟨[], true⟩], staged := some s.files.length },
      .reading (some ⟨s.files.length, offer.dbSize, 0, body⟩))

def onSnapshotChunk (s : Shared) (install : Option InstallState) (body : List UInt8) : Option (Shared × Connection) :=
  match SnapshotChunk.decode body with
  | .error _ => none
  | .ok chunk =>
    install.elim (some (s, .reading none)) fun t =>
      if chunk.offset + chunk.bytes.length ≥ 2 ^ 64 then none
      else if chunk.offset ≠ t.received ∨ chunk.bytes.length = 0 ∨ chunk.bytes.length > snapshotChunkBytes ∨
          chunk.offset + chunk.bytes.length > t.dbSize then none
      else
        some (s.write t.file chunk.offset chunk.bytes,
          .reading (some { t with received := t.received + chunk.bytes.length }))

/-- `onSnapshotEnd` up to the server's mutex. -/
def onSnapshotEnd (s : Shared) (install : Option InstallState) : Option (Shared × Connection) :=
  install.elim (some (s, .reading none)) fun t =>
    if t.received ≠ t.dbSize then none else some (s.close t.file, .ended t.file t.manifest)

/-- `installTransferredState` up to the digest; an image that is refused leaves the connection open. -/
def verify (s : Shared) (own : ℕ) (manifest : List UInt8) : Option (Shared × Connection) :=
  match OfferedSnapshot.decode manifest with
  | .error _ => none
  | .ok offer =>
    if !s.node.ready ∨ offer.configurationId ≠ s.node.configurationId ∨ offer.anchorSlot ≤ s.node.appliedSlot then
      some (s, .reading none)
    else
      s.staged.elim (some (s, .reading none)) fun handle =>
        if Sha256.hash (s.content handle) ≠ offer.imageSha256 then some (s, .reading none)
        else some ({ s with locked := true }, .installing offer.toSnapshotBegin own handle (s.content handle))

/-- `installTransferredState` from the rename on. -/
def rename (s : Shared) (offer : SnapshotBegin) (own handle : ℕ) (image : List UInt8) : Shared :=
  { s with
    staged := none
    node := { s.node with appliedSlot := offer.anchorSlot }
    locked := false
    installs := s.installs ++ [⟨offer, handle, image, own, s.node⟩] }

/-- `installTransferredState` where the WAL is not deleted or the file not renamed. -/
def unlock (s : Shared) : Shared :=
  { s with locked := false }

/-- `installTransferredState` where the file is renamed and the directory is not synced. -/
def place (s : Shared) (offer : SnapshotBegin) (own handle : ℕ) (image : List UInt8) : Shared :=
  { s with
    staged := none
    locked := false
    placed := s.placed ++ [⟨offer, handle, image, own, s.node⟩] }

end Shared

/-! ### Files -/

section Files

variable {s : Shared} {c : Connection} {handle other : ℕ}

@[simp] theorem content_close : (s.close handle).content other = s.content other := by
  simp only [Shared.content, Shared.close, List.getElem?_modify]
  cases s.files[other]? with
  | none => rfl
  | some f => by_cases h : handle = other <;> simp [h]

theorem isOpen_close_self : (s.close handle).isOpen handle = false := by
  simp only [Shared.isOpen, Shared.close, List.getElem?_modify]
  cases s.files[handle]? <;> simp

theorem isOpen_close_ne (h : handle ≠ other) : (s.close handle).isOpen other = s.isOpen other := by
  simp only [Shared.isOpen, Shared.close, List.getElem?_modify]
  cases s.files[other]? <;> simp [h]

@[simp] theorem length_close : (s.close handle).files.length = s.files.length :=
  List.length_modify _ _ _

@[simp] theorem length_write {offset : ℕ} {bytes : List UInt8} :
    (s.write handle offset bytes).files.length = s.files.length :=
  List.length_modify _ _ _

@[simp] theorem isOpen_write {offset : ℕ} {bytes : List UInt8} :
    (s.write handle offset bytes).isOpen other = s.isOpen other := by
  simp only [Shared.isOpen, Shared.write, List.getElem?_modify]
  cases s.files[other]? with
  | none => rfl
  | some f => by_cases h : handle = other <;> simp [h]

theorem content_write_ne {offset : ℕ} {bytes : List UInt8} (h : handle ≠ other) :
    (s.write handle offset bytes).content other = s.content other := by
  simp only [Shared.content, Shared.write, List.getElem?_modify]
  cases s.files[other]? <;> simp [h]

theorem content_write_self {bytes : List UInt8} (h : handle < s.files.length) :
    (s.write handle (s.content handle).length bytes).content handle = s.content handle ++ bytes := by
  have hsome : s.files[handle]? = some s.files[handle] := List.getElem?_eq_getElem h
  simp only [Shared.content, Shared.write, List.getElem?_modify, hsome]
  simp [overwrite_length]

theorem locked_reset : (s.reset c).locked = s.locked := by
  rw [Shared.reset]
  cases c.file <;> rfl

theorem content_append {file : StagedFile} (h : handle < s.files.length) :
    Shared.content { s with files := s.files ++ [file] } handle = s.content handle := by
  rw [Shared.content, List.getElem?_append_left h, Shared.content]

theorem content_new : Shared.content { s with files := s.files ++ [⟨[], true⟩] } s.files.length = [] := by
  rw [Shared.content, List.getElem?_concat_length, Option.elim_some]

theorem content_reset : (s.reset c).content handle = s.content handle := by
  rw [Shared.reset]
  cases c.file with
  | none => rfl
  | some file => exact content_close

theorem length_reset : (s.reset c).files.length = s.files.length := by
  rw [Shared.reset]
  cases c.file with
  | none => rfl
  | some file => exact length_close

theorem confirmed_reset : (s.reset c).confirmed = s.confirmed := by
  rw [Shared.reset]
  cases c.file <;> rfl

theorem maxTransferBytes_reset : (s.reset c).maxTransferBytes = s.maxTransferBytes := by
  rw [Shared.reset]
  cases c.file <;> rfl

theorem node_reset : (s.reset c).node = s.node := by
  rw [Shared.reset]
  cases c.file <;> rfl

theorem installs_reset : (s.reset c).installs = s.installs := by
  rw [Shared.reset]
  cases c.file <;> rfl

theorem placed_reset : (s.reset c).placed = s.placed := by
  rw [Shared.reset]
  cases c.file <;> rfl

end Files

/-! ### Moves -/

/-- What a connection can do. All but the chunks and the close of a file takes the server's mutex. -/
inductive Move : Shared → Connection → Shared → Connection → Prop
  | begins {s s' : Shared} {install : Option InstallState} {c : Connection} (body : List UInt8)
    (hfree : s.locked = false) (h : s.onSnapshotBegin (.reading install) body = some (s', c)) :
    Move s (.reading install) s' c
  | confirms {s : Shared} {body : List UInt8} {offer : OfferedSnapshot} (hfree : s.locked = false) :
    Move s (.confirming body offer) (s.stageFile body offer).1 (s.stageFile body offer).2
  | chunk {s s' : Shared} {install : Option InstallState} {c : Connection} (body : List UInt8)
    (h : s.onSnapshotChunk install body = some (s', c)) : Move s (.reading install) s' c
  | ends {s s' : Shared} {install : Option InstallState} {c : Connection}
    (h : s.onSnapshotEnd install = some (s', c)) : Move s (.reading install) s' c
  | verifies {s s' : Shared} {own : ℕ} {manifest : List UInt8} {c : Connection} (hfree : s.locked = false)
    (h : s.verify own manifest = some (s', c)) : Move s (.ended own manifest) s' c
  | renames {s : Shared} {offer : SnapshotBegin} {own handle : ℕ} {image : List UInt8} :
    Move s (.installing offer own handle image) (s.rename offer own handle image) (.reading none)
  | unlocks {s : Shared} {offer : SnapshotBegin} {own handle : ℕ} {image : List UInt8} :
    Move s (.installing offer own handle image) s.unlock (.reading none)
  | places {s : Shared} {offer : SnapshotBegin} {own handle : ℕ} {image : List UInt8} :
    Move s (.installing offer own handle image) (s.place offer own handle image) (.reading none)
  /-- The connection is closed, and another one takes its place. -/
  | closes {s : Shared} {c : Connection} (hc : c.isInstalling = false) : Move s c (s.reset c) (.reading none)
  /-- The rest of the server applies entries, or moves to another configuration. -/
  | elsewhere {s : Shared} {c : Connection} (node : TransferNode) (hfree : s.locked = false)
    (hforward : s.node.appliedSlot ≤ node.appliedSlot) : Move s c { s with node := node } c

def Initial (x : Threads Shared Connection) : Prop :=
  x.shared.files = [] ∧ x.shared.staged = none ∧ x.shared.locked = false ∧ x.shared.installs = [] ∧
    x.shared.placed = [] ∧ ∀ c ∈ x.locals, c = .reading none

/-- Connections that receive in any interleaving. -/
def Reached (x : Threads Shared Connection) : Prop :=
  Run.Reachable Initial (Threads.Step Move) x

end Staging

end Zaxonlite
