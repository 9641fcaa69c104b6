import Zaxonlite.Lib.Checked
import Zaxonlite.Lib.Chunks
import Zaxonlite.Wire.Bodies

/-!
# A backup over a connection

The server sends a copy of the database in chunks, behind its size and its digest. The client writes each chunk where
it belongs, hashes it on the way, and takes the copy when both come out right. What it takes does not depend on where
the server cut the copy.
-/

namespace Zaxonlite

namespace Backup

open Bytes (encodeLe decodeLe)
open Chunks

def snapshotChunkBytes : ℕ := 1024 * 1024

def maxTransferBytes : ℕ := 4 * 1024 * 1024 * 1024

/-! ### The server -/

/-- What becomes of a request for a backup. -/
inductive BackupAnswer where
  | notLeader
  | retry
  /-- `openBackup` fails. -/
  | failed (error : String)
  | opened (content : List UInt8)

/-- What a server looks at of its node. -/
structure BackupSource where
  failed : Bool
  isLeader : Bool
  single : Bool
  /-- `awaitReadFence` succeeds. -/
  fenced : Bool
  /-- `openBackup`. -/
  backup : Except String (List UInt8)

def BackupSource.answer (source : BackupSource) : BackupAnswer :=
  if source.failed ∨ !source.isLeader then .notLeader
  else if !source.single ∧ !source.fenced then .retry
  else
    match source.backup with
    | .error e => .failed e
    | .ok content => .opened content

/-- `writeBackupError`. -/
def backupError (code : String) : Frame :=
  ⟨.rpcResponse, ("\x7b\"ok\":false,\"error\":\"" ++ code ++
    "\",\"message\":\"backup unavailable\"\x7d").toUTF8.toList⟩

def chunkFrame (chunk : ℕ × List UInt8) : Frame :=
  ⟨.backupChunk, encodeLe 8 chunk.1 ++ chunk.2⟩

/-- The frames of a backup, for a copy cut in some way. -/
def backupFrames (start : BackupBegin) (chunks : List (ℕ × List UInt8)) : List Frame :=
  ⟨.backupBegin, start.encode⟩ :: (chunks.map chunkFrame ++ [⟨.backupEnd, []⟩])

def streamBackup (source : BackupSource) : List Frame :=
  match source.answer with
  | .notLeader => [backupError "not_leader"]
  | .retry => [backupError "retry"]
  | .failed e => [backupError e]
  | .opened content =>
    backupFrames ⟨content.length, Sha256.hash content⟩ (cut snapshotChunkBytes content.length content 0)

/-! ### The client -/

inductive DownloadError where
  | remoteBackupRejected
  | invalidFrame
  | invalidBackupSize
  | unexpectedEndOfStream
  | backupDigestMismatch
  /-- The connection is lost. -/
  | connection
  deriving DecidableEq

/-- What the client has so far. -/
structure Download where
  file : List UInt8
  /-- What has gone into the digest. -/
  hashed : List UInt8
  received : ℕ

namespace Download

def start : Download := ⟨[], [], 0⟩

def take (d : Download) (size : ℕ) (body : List UInt8) : Except DownloadError Download :=
  if body.length ≤ 8 then .error .invalidFrame
  else
    let offset := decodeLe (body.take 8)
    let bytes := body.drop 8
    if offset + bytes.length ≥ 2 ^ 64 then .error .invalidFrame
    else if offset ≠ d.received ∨ offset + bytes.length > size then .error .invalidFrame
    else .ok ⟨overwrite 0 d.file offset bytes, d.hashed ++ bytes, offset + bytes.length⟩

/-- Chunks up to the end of the backup. -/
def receive (size : ℕ) : Download → List Frame → Except DownloadError Download
  | _, [] => .error .connection
  | d, frame :: frames =>
    if frame.kind = .backupEnd then .ok d
    else if frame.kind ≠ .backupChunk then .error .invalidFrame
    else (d.take size frame.body).bind fun d => receive size d frames

end Download

/-- `streamBackupPayload`: what is in the file when it succeeds. -/
def streamBackupPayload : List Frame → Except DownloadError (List UInt8)
  | [] => .error .connection
  | frame :: frames =>
    if frame.kind = .rpcResponse then .error .remoteBackupRejected
    else if frame.kind ≠ .backupBegin then .error .invalidFrame
    else
      match BackupBegin.decode frame.body with
      | .error _ => .error .invalidFrame
      | .ok start =>
        if start.size = 0 ∨ start.size > maxTransferBytes then .error .invalidBackupSize
        else
          (Download.start.receive start.size frames).bind fun d =>
            if d.received ≠ start.size then .error .unexpectedEndOfStream
            else if Sha256.hash d.hashed ≠ start.sha256 then .error .backupDigestMismatch
            else .ok d.file

/-! ### What a client accepts -/

section Accepting

variable {size : ℕ} {content whole : List UInt8} {chunks : List (ℕ × List UInt8)} {frames : List Frame}

def Download.of (content : List UInt8) : Download :=
  ⟨content, content, content.length⟩

/-- What the client checks of a chunk besides its offset. -/
def fits (size : ℕ) (chunk : ℕ × List UInt8) : Bool :=
  decide (chunk.1 + chunk.2.length < 2 ^ 64 ∧ chunk.1 + chunk.2.length ≤ size)

theorem take_of (body : List UInt8) :
    (Download.of content).take size body =
      if decodeLe (body.take 8) = content.length ∧ body.drop 8 ≠ [] ∧ fits size (decodeLe (body.take 8), body.drop 8)
      then .ok (.of (content ++ body.drop 8)) else .error .invalidFrame := by
  rw [Download.take]
  dsimp only
  by_cases hgood : decodeLe (body.take 8) = content.length ∧ body.drop 8 ≠ [] ∧
      fits size (decodeLe (body.take 8), body.drop 8) = true
  · obtain ⟨hat, hne, hfits⟩ := hgood
    obtain ⟨hwide, hroom⟩ := of_decide_eq_true hfits
    dsimp only at hwide hroom
    have hlong : ¬body.length ≤ 8 := fun hshort => hne (List.drop_of_length_le hshort)
    have hadmitted : ¬(decodeLe (body.take 8) ≠ (Download.of content).received ∨
        decodeLe (body.take 8) + (body.drop 8).length > size) :=
      not_or.2 ⟨not_not.2 hat, Nat.not_lt.2 hroom⟩
    rw [if_neg hlong, if_neg (Nat.not_le.2 hwide), if_neg hadmitted, if_pos ⟨hat, hne, hfits⟩, hat]
    simp only [Download.of, overwrite_length, List.length_append]
  · rw [if_neg hgood]
    split_ifs with hshort hwide hrefused
    · rfl
    · rfl
    · rfl
    · rw [not_or, not_not] at hrefused
      refine absurd ⟨hrefused.1, fun hnil => hshort (List.drop_eq_nil_iff.1 hnil), decide_eq_true ⟨?_, ?_⟩⟩ hgood
      · exact Nat.lt_of_not_le hwide
      · exact Nat.le_of_not_lt hrefused.2

theorem chunkFrame_body {chunk : ℕ × List UInt8} (hoffset : chunk.1 < 256 ^ 8) :
    decodeLe ((chunkFrame chunk).body.take 8) = chunk.1 ∧ (chunkFrame chunk).body.drop 8 = chunk.2 := by
  have hlength : (encodeLe 8 chunk.1).length = 8 := Bytes.length_encodeLe 8 chunk.1
  constructor
  · rw [chunkFrame, List.take_left' hlength, Bytes.decodeLe_encodeLe_of_lt hoffset]
  · rw [chunkFrame, List.drop_left' hlength]

/-- The client gathers the chunks before the first frame that ends the backup. -/
theorem receive_eq_ok_iff {d : Download} :
    (Download.of content).receive size frames = .ok d ↔
      ∃ chunks last rest whole, frames = chunks.map chunkFrame ++ ⟨.backupEnd, last⟩ :: rest ∧
        gather (fits size) content chunks = some whole ∧ d = .of whole := by
  induction frames generalizing content with
  | nil =>
    rw [Download.receive]
    constructor
    · intro h
      cases h
    · rintro ⟨chunks, last, rest, whole, hframes, -, -⟩
      exact absurd hframes.symm (List.append_ne_nil_of_right_ne_nil _ (List.cons_ne_nil _ _))
  | cons frame frames ih =>
    rw [Download.receive]
    constructor
    · intro h
      split_ifs at h with hend hchunk
      · obtain rfl := Except.ok.inj h
        refine ⟨[], frame.body, frames, content, ?_, rfl, rfl⟩
        rw [← hend]
        rfl
      · rw [take_of] at h
        split_ifs at h with hgood
        · obtain ⟨chunks, last, rest, whole, rfl, hgather, hd⟩ := ih.1 h
          have hlong : 8 ≤ frame.body.length := by
            have hpos := List.length_pos_iff.2 hgood.2.1
            rw [List.length_drop] at hpos
            omega
          have hframe : frame = chunkFrame (decodeLe (frame.body.take 8), frame.body.drop 8) := by
            have hhead : encodeLe 8 (decodeLe (frame.body.take 8)) = frame.body.take 8 := by
              have hlength : (frame.body.take 8).length = 8 := List.length_take_of_le hlong
              exact (congrArg (encodeLe · _) hlength.symm).trans (Bytes.encodeLe_decodeLe _)
            rw [chunkFrame, hhead, List.take_append_drop, ← not_not.1 hchunk]
          refine ⟨(decodeLe (frame.body.take 8), frame.body.drop 8) :: chunks, last, rest, whole, ?_, ?_, hd⟩
          · rw [List.map_cons, ← hframe, List.cons_append]
          · rw [gather, if_pos hgood]
            exact hgather
        · cases h
    · rintro ⟨chunks, last, rest, whole, hframes, hgather, rfl⟩
      cases chunks with
      | nil =>
        obtain ⟨rfl, -⟩ := List.cons.inj hframes
        rw [if_pos rfl]
        exact congrArg (fun content => Except.ok (Download.of content)) (Option.some.inj hgather)
      | cons chunk chunks =>
        obtain ⟨rfl, hrest⟩ := List.cons.inj hframes
        rw [gather] at hgather
        split_ifs at hgather with hgood
        have hoffset : chunk.1 < 256 ^ 8 := by
          have hwide := (of_decide_eq_true hgood.2.2).1
          dsimp only at hwide
          omega
        have hkind : (chunkFrame chunk).kind = .backupChunk := rfl
        rw [hkind, if_neg (by decide), if_neg (not_not.2 rfl), take_of, (chunkFrame_body hoffset).1,
          (chunkFrame_body hoffset).2, if_pos hgood]
        exact ih.2 ⟨chunks, last, rest, whole, hrest, hgather, rfl⟩

/-- A client takes a copy from exactly the streams that announce its size and its digest and then make it up in chunks
that follow each other, to the end of the backup. -/
theorem streamBackupPayload_eq_ok_iff {file : List UInt8} :
    streamBackupPayload frames = .ok file ↔
      ∃ chunks last rest,
        frames = ⟨.backupBegin, BackupBegin.encode ⟨file.length, Sha256.hash file⟩⟩ ::
          (chunks.map chunkFrame ++ ⟨.backupEnd, last⟩ :: rest) ∧
        Tiles 0 chunks file ∧ 0 < file.length ∧ file.length ≤ maxTransferBytes := by
  constructor
  · intro h
    cases frames with
    | nil => cases h
    | cons frame frames =>
      rw [streamBackupPayload] at h
      split_ifs at h with hresponse hbegin
      split at h
      · cases h
      · next start hdecode =>
        split_ifs at h with hbounds
        obtain ⟨d, hreceive, hd⟩ := Checked.bind_eq_ok.1 h
        obtain ⟨chunks, last, rest, whole, rfl, hgather, rfl⟩ := receive_eq_ok_iff.1 hreceive
        obtain ⟨_, rfl, htiles, -⟩ := gather_eq_some_iff.1 hgather
        split_ifs at hd with hsize hdigest
        obtain rfl := Except.ok.inj hd
        rw [not_or, Nat.not_lt] at hbounds
        have hsize : whole.length = start.size := not_not.1 hsize
        have hdigest : Sha256.hash whole = start.sha256 := not_not.1 hdigest
        obtain ⟨-, hbody⟩ := (BackupBegin.decodes _ _).1 hdecode
        refine ⟨chunks, last, rest, ?_, htiles, ?_, ?_⟩
        · change frame :: _ = ⟨.backupBegin, BackupBegin.encode ⟨whole.length, Sha256.hash whole⟩⟩ :: _
          rw [hsize, hdigest, ← hbody, ← not_not.1 hbegin]
        · change 0 < whole.length
          omega
        · change whole.length ≤ _
          omega
  · rintro ⟨chunks, last, rest, rfl, htiles, hpos, hle⟩
    have hfits : file.length < 256 ^ 8 := hle.trans_lt (by decide)
    have hgather : gather (fits file.length) [] chunks = some file := by
      refine gather_eq_some_iff.2 ⟨file, rfl, htiles, fun chunk hmem => ?_⟩
      obtain ⟨-, hhigh⟩ := htiles.bounds chunk hmem
      exact decide_eq_true ⟨by omega, by omega⟩
    have hreceive : Download.start.receive file.length (chunks.map chunkFrame ++ ⟨.backupEnd, last⟩ :: rest) =
        .ok (.of file) :=
      receive_eq_ok_iff.2 ⟨chunks, last, rest, file, rfl, hgather, rfl⟩
    have hbounds : ¬(file.length = 0 ∨ file.length > maxTransferBytes) := by omega
    have hkind : FrameKind.backupBegin ≠ .rpcResponse := by decide
    rw [streamBackupPayload, if_neg hkind, if_neg (not_not.2 rfl),
      (BackupBegin.decodes _ ⟨file.length, Sha256.hash file⟩).2 ⟨hfits, rfl⟩]
    dsimp only
    rw [if_neg hbounds, hreceive]
    exact (if_neg (not_not.2 rfl)).trans (if_neg (not_not.2 rfl))

/-- The chunks before the end of a backup are found again. -/
theorem flatMap_of_frames {chunks' : List (ℕ × List UInt8)} {last last' : List UInt8} {rest rest' : List Frame}
    (h : chunks.map chunkFrame ++ ⟨.backupEnd, last⟩ :: rest = chunks'.map chunkFrame ++ ⟨.backupEnd, last'⟩ :: rest') :
    chunks.flatMap Prod.snd = chunks'.flatMap Prod.snd := by
  have hbody (chunk : ℕ × List UInt8) : (chunkFrame chunk).body.drop 8 = chunk.2 :=
    List.drop_left' (Bytes.length_encodeLe 8 chunk.1)
  induction chunks generalizing chunks' with
  | nil =>
    cases chunks' with
    | nil => rfl
    | cons chunk' chunks' =>
      have hkind : FrameKind.backupEnd = .backupChunk := congrArg Frame.kind (List.cons.inj h).1
      exact absurd hkind (by decide)
  | cons chunk chunks ih =>
    cases chunks' with
    | nil =>
      have hkind : FrameKind.backupChunk = .backupEnd := congrArg Frame.kind (List.cons.inj h).1
      exact absurd hkind (by decide)
    | cons chunk' chunks' =>
      obtain ⟨hframe, hrest⟩ := List.cons.inj h
      rw [List.flatMap_cons, List.flatMap_cons, ih hrest, ← hbody chunk, ← hbody chunk', hframe]

/-- A client takes a copy from exactly the streams that announce its size and its digest and then make it up in chunks
that follow each other, to the end of the backup. Of what a server streams it takes exactly the copy the server has
opened. -/
theorem downloaded_iff :
    (∀ frames file, streamBackupPayload frames = .ok file ↔
      ∃ chunks last rest,
        frames = ⟨.backupBegin, BackupBegin.encode ⟨file.length, Sha256.hash file⟩⟩ ::
          (chunks.map chunkFrame ++ ⟨.backupEnd, last⟩ :: rest) ∧
        Tiles 0 chunks file ∧ 0 < file.length ∧ file.length ≤ maxTransferBytes) ∧
    ∀ source file, streamBackupPayload (streamBackup source) = .ok file ↔
      source.answer = .opened file ∧ 0 < file.length ∧ file.length ≤ maxTransferBytes := by
  refine ⟨fun frames file => streamBackupPayload_eq_ok_iff, fun source file => ?_⟩
  rw [streamBackupPayload_eq_ok_iff, streamBackup]
  constructor
  · rintro ⟨chunks, last, rest, hframes, htiles, hbounds⟩
    have hresponse (code : String) : [backupError code] ≠ ⟨.backupBegin, BackupBegin.encode ⟨file.length,
        Sha256.hash file⟩⟩ :: (chunks.map chunkFrame ++ ⟨.backupEnd, last⟩ :: rest) := by
      intro h
      have hkind : FrameKind.rpcResponse = .backupBegin := congrArg Frame.kind (List.cons.inj h).1
      exact absurd hkind (by decide)
    cases hanswer : source.answer with
    | notLeader =>
      rw [hanswer] at hframes
      exact absurd hframes (hresponse _)
    | retry =>
      rw [hanswer] at hframes
      exact absurd hframes (hresponse _)
    | failed e =>
      rw [hanswer] at hframes
      exact absurd hframes (hresponse e)
    | opened content =>
      rw [hanswer] at hframes
      have hcontent : content = file := by
        have hcut : Tiles 0 _ content := tiles_cut (by decide : 0 < snapshotChunkBytes) 0
        rw [hcut.eq_flatMap, htiles.eq_flatMap]
        exact flatMap_of_frames (List.cons.inj hframes).2
      exact ⟨congrArg _ hcontent, hbounds⟩
  · rintro ⟨hanswer, hbounds⟩
    rw [hanswer]
    exact ⟨_, [], [], rfl, tiles_cut (by decide) 0, hbounds⟩

end Accepting

end Backup

end Zaxonlite
