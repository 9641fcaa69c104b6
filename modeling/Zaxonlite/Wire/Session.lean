import Zaxonlite.Lib.Run
import Zaxonlite.Storage.Codec

/-!
# Authenticated sessions

After a challenge and a response both ends of a connection hold the same key, and every frame carries a
counter and a tag over its kind, its counter and its body. The network may hand an end any bytes at all.
The tag does not say which end spoke, so a frame handed back to the end that wrote it verifies there.
-/

namespace Zaxonlite

open Bytes (encodeLe decodeLe)
open Cursor (Reads Accepts accepts_fail accepts_require writes_take writes_byte writes_int)

/-! ### Frames -/

inductive FrameKind where
  | hello | envelope | payloadData | payloadRequest | fenceRequest | fenceAck
  | snapshotRequest | snapshotBegin | snapshotChunk | snapshotEnd
  | rpcRequest | rpcResponse | payloadStored | authChallenge | authResponse
  | backupBegin | backupChunk | backupEnd | learnerCommit | learnerHeartbeat
  | checkpointProofRequest | checkpointProofReply | enrollmentRequest | enrollmentResponse
  | registryRequest | registryData | installationReady | stateReport | rangeRequest | rangeData
  deriving DecidableEq, Repr

namespace FrameKind

def all : List FrameKind :=
  [hello, envelope, payloadData, payloadRequest, fenceRequest, fenceAck, snapshotRequest, snapshotBegin,
    snapshotChunk, snapshotEnd, rpcRequest, rpcResponse, payloadStored, authChallenge, authResponse,
    backupBegin, backupChunk, backupEnd, learnerCommit, learnerHeartbeat, checkpointProofRequest,
    checkpointProofReply, enrollmentRequest, enrollmentResponse, registryRequest, registryData,
    installationReady, stateReport, rangeRequest, rangeData]

/-- The number of a kind on the wire, from one in the order of declaration. -/
def tag (kind : FrameKind) : UInt8 :=
  UInt8.ofNat (kind.ctorIdx + 1)

def fromInt (raw : UInt8) : Option FrameKind :=
  all.find? fun kind => kind.tag = raw

theorem fromInt_tag (kind : FrameKind) : fromInt kind.tag = some kind := by
  cases kind <;> decide

theorem tag_of_fromInt {raw : UInt8} {kind : FrameKind} (h : fromInt raw = some kind) : raw = kind.tag := by
  have := List.find?_some h
  exact (of_decide_eq_true this).symm

theorem tag_injective {kind kind' : FrameKind} (h : kind.tag = kind'.tag) : kind = kind' := by
  have hsome := fromInt_tag kind
  rw [h, fromInt_tag] at hsome
  exact (Option.some.inj hsome).symm

end FrameKind

@[ext] structure Frame where
  kind : FrameKind
  body : List UInt8
  deriving DecidableEq

inductive SessionError where
  | endOfStream
  | invalidFrame
  | frameTooLarge
  | authenticationFailed
  | replayDetected
  /-- A counter left its type; the process stops. -/
  | overflow
  deriving DecidableEq, Repr

def maxFrameBytes : ℕ := 64 * 1024 * 1024

/-- `wire.writeFrame` of a body that fits. -/
def plainFrame (kind : FrameKind) (body : List UInt8) : List UInt8 :=
  encodeLe 4 (body.length + 1) ++ ([kind.tag] ++ body)

/-- `readFrameHeader`: the kind and the length of the body. -/
def readFrameHeader : Cursor SessionError (FrameKind × ℕ) := do
  let total ← Cursor.int .endOfStream 4
  Cursor.require (total ≠ 0) .invalidFrame
  Cursor.require (total ≤ maxFrameBytes) .frameTooLarge
  let raw ← Cursor.byte .endOfStream
  match FrameKind.fromInt raw with
  | none => Cursor.fail .invalidFrame
  | some kind => pure (kind, total - 1)

def readFrameBody (bodyLen : ℕ) : Cursor SessionError (List UInt8) :=
  Cursor.take .endOfStream bodyLen

/-! ### Sessions -/

abbrev Key := HashBytes

/-- `mac` over the concatenated parts. -/
def mac (secret : List UInt8) (parts : List UInt8) : Key :=
  Sha256.hmac secret parts

structure Session where
  key : Key
  sendSequence : ℕ := 0
  receiveSequence : ℕ := 0
  deriving DecidableEq

/-- What the tag of a frame is computed over. -/
def frameMessage (kind : FrameKind) (sequence : ℕ) (body : List UInt8) : List UInt8 :=
  asciiBytes "zaxon.auth.frame.v1" ++ ([kind.tag] ++ (encodeLe 8 sequence ++ body))

def frameBytes (key : Key) (kind : FrameKind) (sequence : ℕ) (body : List UInt8) : List UInt8 :=
  encodeLe 4 (body.length + 41) ++ ([kind.tag] ++ (encodeLe 8 sequence ++
    (body ++ (mac key.toList (frameMessage kind sequence body)).toList)))

namespace Session

/-- `writeFrame`: what goes out, and the session after it. The counter is advanced last, so the frame
that exhausts it is written. -/
def writeFrame (s : Session) (kind : FrameKind) (body : List UInt8) :
    List UInt8 × Except SessionError Session :=
  if maxFrameBytes ≤ body.length + 40 then ([], .error .frameTooLarge)
  else
    (frameBytes s.key kind s.sendSequence body,
      if s.sendSequence + 1 < 2 ^ 64 then .ok { s with sendSequence := s.sendSequence + 1 }
      else .error .overflow)

def readFrame (s : Session) : Cursor SessionError (Frame × Session) := do
  let header ← readFrameHeader
  Cursor.require (40 ≤ header.2) .authenticationFailed
  let protectedBytes ← readFrameBody header.2
  Cursor.require (decodeLe (protectedBytes.take 8) = s.receiveSequence) .replayDetected
  let bodyEnd := protectedBytes.length - 32
  let expected := mac s.key.toList (asciiBytes "zaxon.auth.frame.v1" ++
    ([header.1.tag] ++ protectedBytes.take bodyEnd))
  Cursor.require (expected.toList = protectedBytes.drop bodyEnd) .authenticationFailed
  Cursor.require (s.receiveSequence + 1 < 2 ^ 64) .overflow
  pure (⟨header.1, (protectedBytes.take bodyEnd).drop 8⟩,
    { s with receiveSequence := s.receiveSequence + 1 })

end Session

/-! ### The handshake -/

section Handshake

variable (secret hello : List UInt8)

def serverProof (nonce : List UInt8) : Key :=
  mac secret (asciiBytes "zaxon.auth.server.v1" ++ (hello ++ nonce))

def clientProof (nonce : List UInt8) : Key :=
  mac secret (asciiBytes "zaxon.auth.client.v1" ++ (hello ++ nonce))

def sessionKey (nonce : List UInt8) : Key :=
  mac secret (asciiBytes "zaxon.auth.session.v1" ++ (hello ++ nonce))

/-- What `accept` sends first. -/
def challenge (nonce : List UInt8) : List UInt8 :=
  plainFrame .authChallenge (nonce ++ (serverProof secret hello nonce).toList)

/-- `accept`, from the answer to its challenge on. -/
def accept (nonce : List UInt8) : Cursor SessionError Session := do
  let header ← readFrameHeader
  Cursor.require (header.1 = .authResponse && header.2 = 32) .authenticationFailed
  let body ← readFrameBody header.2
  Cursor.require ((clientProof secret hello nonce).toList = body) .authenticationFailed
  pure { key := sessionKey secret hello nonce }

/-- `connect`: the answer it sends, and its session. -/
def connect : Cursor SessionError (List UInt8 × Session) := do
  let header ← readFrameHeader
  Cursor.require (header.1 = .authChallenge && header.2 = 64) .authenticationFailed
  let body ← readFrameBody header.2
  let nonce := body.take 32
  Cursor.require ((serverProof secret hello nonce).toList = body.drop 32) .authenticationFailed
  pure (plainFrame .authResponse (clientProof secret hello nonce).toList,
    { key := sessionKey secret hello nonce })

end Handshake

/-! ### What is read -/

theorem reads_readFrameHeader (kind : FrameKind) (bodyLen : ℕ) (h : bodyLen + 1 ≤ maxFrameBytes) :
    Reads readFrameHeader (encodeLe 4 (bodyLen + 1) ++ [kind.tag]) (kind, bodyLen) := by
  have hwidth : bodyLen + 1 < 256 ^ 4 := by
    rw [maxFrameBytes] at h
    omega
  refine (Reads.int _ hwidth).bind ?_
  refine Reads.require _ (decide_eq_true (Nat.succ_ne_zero _)) (Reads.require _ (decide_eq_true h) ?_)
  refine (Reads.byte _ kind.tag).last ?_
  rw [FrameKind.fromInt_tag]
  exact Reads.pure _

theorem accepts_readFrameHeader : Accepts readFrameHeader fun header used =>
    used = encodeLe 4 (header.2 + 1) ++ [header.1.tag] ∧ header.2 + 1 ≤ maxFrameBytes := by
  refine (writes_int _ 4).bind fun total _ => accepts_require _ fun hzero => accepts_require _ fun hmax => ?_
  refine (writes_byte _).bind fun raw _ => ?_
  have hpos : total - 1 + 1 = total := by
    have := of_decide_eq_true hzero
    omega
  cases hkind : FrameKind.fromInt raw with
  | none => exact accepts_fail _ _
  | some kind =>
    have hfits : total - 1 + 1 ≤ maxFrameBytes := by
      rw [hpos]
      exact of_decide_eq_true hmax
    refine Accepts.pure ⟨?_, hfits⟩
    rw [List.append_nil, hpos, FrameKind.tag_of_fromInt hkind]

theorem length_key (key : Key) : key.toList.length = 32 :=
  Vector.length_toList

/-- The protected part of a frame, taken apart as `readFrame` does. -/
theorem protected_split {p : List UInt8} {sequence : ℕ} (hlen : 40 ≤ p.length)
    (hseq : decodeLe (p.take 8) = sequence) :
    p.take (p.length - 32) = encodeLe 8 sequence ++ (p.take (p.length - 32)).drop 8 := by
  have hfront : (p.take (p.length - 32)).take 8 = encodeLe 8 sequence := by
    rw [List.take_take, Nat.min_eq_left (by omega), ← hseq]
    have hcode := Bytes.encodeLe_decodeLe (p.take 8)
    rw [List.length_take, Nat.min_eq_left (by omega)] at hcode
    exact hcode.symm
  rw [← hfront, List.take_append_drop]

theorem accepts_readFrame (s : Session) : Accepts s.readFrame fun r used =>
    used = frameBytes s.key r.1.kind s.receiveSequence r.1.body ∧ r.1.body.length + 41 ≤ maxFrameBytes ∧
      s.receiveSequence + 1 < 2 ^ 64 ∧ r.2 = { s with receiveSequence := s.receiveSequence + 1 } := by
  refine accepts_readFrameHeader.bind fun header used hheader => ?_
  obtain ⟨kind, bodyLen⟩ := header
  obtain ⟨rfl, hmax⟩ := hheader
  refine accepts_require _ fun hlong => (writes_take _ bodyLen).bind fun p hp => ?_
  refine accepts_require _ fun hseq => accepts_require _ fun htag => accepts_require _ fun hroom => ?_
  have hlen : 40 ≤ p.length := hp ▸ of_decide_eq_true hlong
  have hsplit := protected_split hlen (of_decide_eq_true hseq)
  have htail := of_decide_eq_true htag
  have hbody : ((p.take (p.length - 32)).drop 8).length + 40 = bodyLen := by
    rw [List.length_drop, List.length_take, ← hp]
    omega
  refine Accepts.pure ⟨?_, ?_, of_decide_eq_true hroom, rfl⟩
  · have hwhole : p = encodeLe 8 s.receiveSequence ++ ((p.take (p.length - 32)).drop 8 ++
        (mac s.key.toList (frameMessage kind s.receiveSequence
          ((p.take (p.length - 32)).drop 8))).toList) := by
      rw [frameMessage, ← hsplit, htail, ← List.append_assoc, ← hsplit, List.take_append_drop]
    have htotal : ((p.take (p.length - 32)).drop 8).length + 41 = bodyLen + 1 := by omega
    show encodeLe 4 (bodyLen + 1) ++ [kind.tag] ++ (p ++ []) = _
    rw [frameBytes, htotal, ← hwhole, List.append_nil, List.append_assoc]
  · show ((p.take (p.length - 32)).drop 8).length + 41 ≤ maxFrameBytes
    omega

theorem reads_readFrame {s : Session} {frame : Frame} (hlen : frame.body.length + 41 ≤ maxFrameBytes)
    (hroom : s.receiveSequence + 1 < 2 ^ 64) :
    Reads s.readFrame (frameBytes s.key frame.kind s.receiveSequence frame.body)
      (frame, { s with receiveSequence := s.receiveSequence + 1 }) := by
  obtain ⟨kind, body⟩ := frame
  have hkey := length_key (mac s.key.toList (frameMessage kind s.receiveSequence body))
  -- the protected part, and the places `readFrame` cuts it at
  have hcut : ∀ tag : List UInt8, tag.length = 32 →
      (encodeLe 8 s.receiveSequence ++ (body ++ tag)).take
          ((encodeLe 8 s.receiveSequence ++ (body ++ tag)).length - 32) =
        encodeLe 8 s.receiveSequence ++ body ∧
      (encodeLe 8 s.receiveSequence ++ (body ++ tag)).drop
          ((encodeLe 8 s.receiveSequence ++ (body ++ tag)).length - 32) = tag := by
    intro tag htag
    have hat : (encodeLe 8 s.receiveSequence ++ (body ++ tag)).length - 32 =
        (encodeLe 8 s.receiveSequence ++ body).length := by
      simp only [List.length_append, htag]
      omega
    rw [hat, ← List.append_assoc, List.take_left, List.drop_left]
    exact ⟨rfl, rfl⟩
  obtain ⟨htake, hdrop⟩ := hcut _ hkey
  have hlength : (encodeLe 8 s.receiveSequence ++ (body ++
      (mac s.key.toList (frameMessage kind s.receiveSequence body)).toList)).length = body.length + 40 := by
    simp only [List.length_append, hkey, Bytes.length_encodeLe]
    omega
  rw [frameBytes, ← List.append_assoc]
  refine (reads_readFrameHeader kind (body.length + 40) hlen).bind ?_
  refine Reads.require _ (decide_eq_true (Nat.le_add_left 40 body.length)) ?_
  have hread := Reads.take SessionError.endOfStream (encodeLe 8 s.receiveSequence ++ (body ++
    (mac s.key.toList (frameMessage kind s.receiveSequence body)).toList))
  rw [hlength] at hread
  refine hread.last ?_
  have hseq : (encodeLe 8 s.receiveSequence ++ (body ++
      (mac s.key.toList (frameMessage kind s.receiveSequence body)).toList)).take 8 =
        encodeLe 8 s.receiveSequence := by
    rw [List.take_append_of_le_length (by rw [Bytes.length_encodeLe]),
      List.take_of_length_le (by rw [Bytes.length_encodeLe])]
  refine Reads.require _ (decide_eq_true ?_) (Reads.require _ (decide_eq_true ?_)
    (Reads.require _ (decide_eq_true hroom) ?_))
  · rw [hseq, Bytes.decodeLe_encodeLe_of_lt (by omega)]
  · rw [htake, hdrop]
    rfl
  · rw [htake]
    have hdropped : (encodeLe 8 s.receiveSequence ++ body).drop 8 = body :=
      List.drop_left' (Bytes.length_encodeLe 8 _)
    rw [hdropped]
    exact Reads.pure _


theorem frameMessage_inj {kind kind' : FrameKind} {i j : ℕ} {body body' : List UInt8} (hi : i < 2 ^ 64)
    (hj : j < 2 ^ 64) (h : frameMessage kind i body = frameMessage kind' j body') :
    kind = kind' ∧ i = j ∧ body = body' := by
  have hinner := List.append_cancel_left h
  obtain ⟨htag, hrest⟩ := List.cons.inj hinner
  replace hrest : encodeLe 8 i ++ body = encodeLe 8 j ++ body' := hrest
  have hlength : (encodeLe 8 i).length = (encodeLe 8 j).length := by
    rw [Bytes.length_encodeLe, Bytes.length_encodeLe]
  obtain ⟨hseq, hbody⟩ := List.append_inj hrest hlength
  have hvalue := congrArg decodeLe hseq
  rw [Bytes.decodeLe_encodeLe_of_lt (by omega), Bytes.decodeLe_encodeLe_of_lt (by omega)] at hvalue
  exact ⟨FrameKind.tag_injective htag, hvalue, hbody⟩

theorem frameBytes_inj {key : Key} {kind kind' : FrameKind} {i j : ℕ} {body body' : List UInt8}
    (hi : i < 2 ^ 64) (hj : j < 2 ^ 64) (h : frameBytes key kind i body = frameBytes key kind' j body') :
    kind = kind' ∧ i = j ∧ body = body' := by
  have hwidth : ∀ width m n, (encodeLe width m).length = (encodeLe width n).length := by
    intro width m n
    rw [Bytes.length_encodeLe, Bytes.length_encodeLe]
  obtain ⟨-, hrest⟩ := List.append_inj h (hwidth 4 _ _)
  obtain ⟨htag, hrest⟩ := List.cons.inj hrest
  obtain ⟨hseq, hrest⟩ : encodeLe 8 i = encodeLe 8 j ∧ _ := List.append_inj hrest (hwidth 8 i j)
  have hkey : ∀ m m' : List UInt8,
      (mac key.toList m).toList.length = (mac key.toList m').toList.length := by
    intro m m'
    rw [length_key, length_key]
  obtain ⟨hbody, -⟩ := List.append_inj' hrest (hkey _ _)
  have hvalue := congrArg decodeLe hseq
  rw [Bytes.decodeLe_encodeLe_of_lt (by omega), Bytes.decodeLe_encodeLe_of_lt (by omega)] at hvalue
  exact ⟨FrameKind.tag_injective htag, hvalue, hbody⟩

/-! ### Two ends and a network -/

inductive Side where
  | initiator
  | responder
  deriving DecidableEq

def Side.peer : Side → Side
  | .initiator => .responder
  | .responder => .initiator

/-- One end of a connection: its session until a counter stops the process, the frames passed to
`writeFrame` that went out and the ones `readFrame` returned, with the messages tagged and the bytes
written. -/
structure Endpoint where
  session : Option Session
  sent : List Frame := []
  received : List Frame := []
  tagged : List (List UInt8) := []
  written : List (List UInt8) := []
  deriving DecidableEq

/-- A call at an end; the network chooses the bytes a reading sees. -/
inductive Action where
  | write (side : Side) (frame : Frame)
  | read (side : Side) (stream : List UInt8)

abbrev Link := Side → Endpoint

/-- The session that goes on; a counter that leaves its type ends the process. -/
def sessionAfter (s : Session) : Except SessionError Session → Option Session
  | .ok s' => some s'
  | .error .overflow => none
  | .error _ => some s

def Endpoint.write (e : Endpoint) (frame : Frame) : Endpoint :=
  match e.session with
  | none => e
  | some s =>
    let (bytes, outcome) := s.writeFrame frame.kind frame.body
    if bytes = [] then { e with session := sessionAfter s outcome }
    else
      { e with
        session := sessionAfter s outcome
        sent := e.sent ++ [frame]
        tagged := e.tagged ++ [frameMessage frame.kind s.sendSequence frame.body]
        written := e.written ++ [bytes] }

def Endpoint.read (e : Endpoint) (stream : List UInt8) : Endpoint :=
  match e.session with
  | none => e
  | some s =>
    match s.readFrame stream with
    | .error error => { e with session := sessionAfter s (.error error) }
    | .ok ((frame, s'), _) => { e with session := some s', received := e.received ++ [frame] }

def Link.step (link : Link) : Action → Link
  | .write side frame => Function.update link side ((link side).write frame)
  | .read side stream => Function.update link side ((link side).read stream)

/-- The network produces no tag it has not observed: where the bytes an end reads begin with a frame that
verifies under its key, one of the two ends has tagged that message. -/
def Link.Unforged (link : Link) : Action → Prop
  | .write _ _ => True
  | .read side stream => ∀ s ∈ (link side).session, ∀ kind sequence body, sequence < 2 ^ 64 →
      frameBytes s.key kind sequence body <+: stream →
        ∃ speaker, frameMessage kind sequence body ∈ (link speaker).tagged

/-- No end is handed back the frame that it wrote under the number it reads next, unless its peer wrote
it too. -/
def Link.Unreflected (link : Link) : Action → Prop
  | .write _ _ => True
  | .read side stream => ∀ s ∈ (link side).session, ∀ frame : Frame,
      frameBytes s.key frame.kind s.receiveSequence frame.body ∈ (link side).written →
        frameBytes s.key frame.kind s.receiveSequence frame.body <+: stream →
          frameBytes s.key frame.kind s.receiveSequence frame.body ∈ (link side.peer).written

/-- Both ends right after the handshake, with the same key. -/
def Link.Started (link : Link) : Prop :=
  ∃ secret hello nonce toResponder toInitiator restResponder restInitiator response responder initiator,
    accept secret hello nonce toResponder = .ok (responder, restResponder) ∧
    connect secret hello toInitiator = .ok ((response, initiator), restInitiator) ∧
    initiator.key = responder.key ∧
    link .initiator = { session := some initiator } ∧ link .responder = { session := some responder }


/-! ### What an end knows of its peer -/

/-- The counters count, the tags and bytes are those of the frames sent, and what was received is the
beginning of what the peer sent. -/
structure Endpoint.Sound (key : Key) (e peer : Endpoint) : Prop where
  session : ∀ s ∈ e.session, s.key = key ∧ s.sendSequence = e.sent.length ∧
    s.receiveSequence = e.received.length ∧ s.sendSequence < 2 ^ 64
  length : e.sent.length ≤ 2 ^ 64
  tagged : e.tagged = e.sent.mapIdx fun i f => frameMessage f.kind i f.body
  written : e.written = e.sent.mapIdx fun i f => frameBytes key f.kind i f.body
  received : e.received <+: peer.sent

section Sound

variable {key : Key} {e peer : Endpoint} {frame : Frame}

theorem Endpoint.sound_start (s : Session) (hkey : s.key = key) (hsend : s.sendSequence = 0)
    (hreceive : s.receiveSequence = 0) :
    Endpoint.Sound key { session := some s } peer := by
  refine ⟨?_, Nat.zero_le _, rfl, rfl, List.nil_prefix⟩
  rintro s' hs
  obtain rfl := Option.some.inj hs
  exact ⟨hkey, hsend, hreceive, by omega⟩

/-- The cases of a write: nothing happens to the frames, or one more goes out under the next number. -/
theorem Endpoint.write_cases (e : Endpoint) (frame : Frame) :
    e.write frame = e ∨
      ∃ s ∈ e.session, ∃ next, (next = none ∨ s.sendSequence + 1 < 2 ^ 64 ∧
          next = some { s with sendSequence := s.sendSequence + 1 }) ∧
        e.write frame =
          { e with
            session := next
            sent := e.sent ++ [frame]
            tagged := e.tagged ++ [frameMessage frame.kind s.sendSequence frame.body]
            written := e.written ++ [frameBytes s.key frame.kind s.sendSequence frame.body] } := by
  unfold Endpoint.write
  cases hs : e.session with
  | none => exact .inl rfl
  | some s =>
    dsimp only [Session.writeFrame]
    have hne : frameBytes s.key frame.kind s.sendSequence frame.body ≠ [] := by
      intro hnil
      have := congrArg List.length hnil
      rw [frameBytes, List.length_append, Bytes.length_encodeLe, List.length_nil] at this
      omega
    by_cases hlong : maxFrameBytes ≤ frame.body.length + 40
    · rw [if_pos hlong]
      dsimp only
      rw [if_pos rfl]
      refine .inl ?_
      show { e with session := some s } = e
      rw [← hs]
    · rw [if_neg hlong]
      dsimp only
      rw [if_neg hne]
      by_cases hroom : s.sendSequence + 1 < 2 ^ 64
      · rw [if_pos hroom]
        exact .inr ⟨s, rfl, _, .inr ⟨hroom, rfl⟩, rfl⟩
      · rw [if_neg hroom]
        exact .inr ⟨s, rfl, _, .inl rfl, rfl⟩

theorem Endpoint.Sound.write (h : e.Sound key peer) (frame : Frame) : (e.write frame).Sound key peer := by
  rcases e.write_cases frame with heq | ⟨s, hs, next, hnext, heq⟩
  · rw [heq]
    exact h
  · obtain ⟨hkey, hsend, hreceive, hlt⟩ := h.session s hs
    have hlength : (e.sent ++ [frame]).length = e.sent.length + 1 := by
      rw [List.length_append, List.length_singleton]
    rw [heq]
    refine ⟨?_, ?_, ?_, ?_, h.received⟩
    · intro s' hs'
      rcases hnext with rfl | ⟨hroom, rfl⟩
      · cases hs'
      · obtain rfl := Option.some.inj hs'
        exact ⟨hkey, by rw [hlength, ← hsend], hreceive, hroom⟩
    · show (e.sent ++ [frame]).length ≤ 2 ^ 64
      omega
    · show e.tagged ++ _ = (e.sent ++ [frame]).mapIdx _
      rw [List.mapIdx_concat, ← h.tagged, hsend]
    · show e.written ++ _ = (e.sent ++ [frame]).mapIdx _
      rw [List.mapIdx_concat, ← h.written, hsend, hkey]

theorem Endpoint.prefix_write (e : Endpoint) (frame : Frame) : e.sent <+: (e.write frame).sent := by
  rcases e.write_cases frame with heq | ⟨s, hs, next, hnext, heq⟩
  · rw [heq]
  · rw [heq]
    exact List.prefix_append _ _

theorem Endpoint.Sound.mono {peer' : Endpoint} (h : e.Sound key peer) (hsent : peer.sent <+: peer'.sent) :
    e.Sound key peer' :=
  ⟨h.session, h.length, h.tagged, h.written, h.received.trans hsent⟩

/-- A tagged message is that of the frame sent under its number. -/
theorem Endpoint.Sound.of_tagged (h : e.Sound key peer) {sequence : ℕ} (hseq : sequence < 2 ^ 64)
    (hmem : frameMessage frame.kind sequence frame.body ∈ e.tagged) :
    e.sent[sequence]? = some frame := by
  rw [h.tagged, List.mem_mapIdx] at hmem
  obtain ⟨i, hi, heq⟩ := hmem
  have hlt : i < 2 ^ 64 := lt_of_lt_of_le hi h.length
  obtain ⟨hkind, rfl, hbody⟩ := frameMessage_inj hlt hseq heq
  rw [List.getElem?_eq_getElem hi, Option.some.injEq]
  exact Frame.ext hkind hbody

theorem Endpoint.Sound.of_written (h : e.Sound key peer) {sequence : ℕ} (hseq : sequence < 2 ^ 64)
    (hmem : frameBytes key frame.kind sequence frame.body ∈ e.written) :
    e.sent[sequence]? = some frame := by
  rw [h.written, List.mem_mapIdx] at hmem
  obtain ⟨i, hi, heq⟩ := hmem
  have hlt : i < 2 ^ 64 := lt_of_lt_of_le hi h.length
  obtain ⟨hkind, rfl, hbody⟩ := frameBytes_inj hlt hseq heq
  rw [List.getElem?_eq_getElem hi, Option.some.injEq]
  exact Frame.ext hkind hbody

theorem Endpoint.Sound.written_of_sent (h : e.Sound key peer) {sequence : ℕ}
    (hsent : e.sent[sequence]? = some frame) :
    frameBytes key frame.kind sequence frame.body ∈ e.written := by
  obtain ⟨hi, heq⟩ := List.getElem?_eq_some_iff.1 hsent
  rw [h.written, List.mem_mapIdx]
  exact ⟨sequence, hi, by rw [heq]⟩

theorem Endpoint.read_cases (e : Endpoint) (stream : List UInt8) :
    (∃ next, (next = none ∨ next = e.session) ∧ e.read stream = { e with session := next }) ∨
      ∃ s ∈ e.session, ∃ frame, frameBytes s.key frame.kind s.receiveSequence frame.body <+: stream ∧
        s.receiveSequence + 1 < 2 ^ 64 ∧
        e.read stream =
          { e with
            session := some { s with receiveSequence := s.receiveSequence + 1 }
            received := e.received ++ [frame] } := by
  unfold Endpoint.read
  cases hs : e.session with
  | none =>
    refine .inl ⟨none, .inl rfl, ?_⟩
    show e = { e with session := none }
    rw [← hs]
  | some s =>
    dsimp only
    cases hread : s.readFrame stream with
    | error error =>
      refine .inl ⟨sessionAfter s (.error error), ?_, rfl⟩
      cases error
      case overflow => exact .inl rfl
      all_goals exact .inr rfl
    | ok r =>
      obtain ⟨⟨frame, s'⟩, rest⟩ := r
      obtain ⟨used, rfl, hused, -, hroom, hnext⟩ := accepts_readFrame s stream _ rest hread
      dsimp only at hused hnext
      exact .inr ⟨s, rfl, frame, hused ▸ List.prefix_append _ _, hroom, by rw [hnext]⟩

theorem Endpoint.sent_read (e : Endpoint) (stream : List UInt8) : (e.read stream).sent = e.sent := by
  rcases e.read_cases stream with ⟨next, -, heq⟩ | ⟨s, -, frame, -, -, heq⟩
  · rw [heq]
  · rw [heq]

/-- A reading keeps what is known of the peer, where the network forges nothing and reflects nothing. -/
theorem Endpoint.Sound.read (h : e.Sound key peer) (hpeer : peer.Sound key e) {stream : List UInt8}
    (hunforged : ∀ s ∈ e.session, ∀ kind sequence body, sequence < 2 ^ 64 →
      frameBytes s.key kind sequence body <+: stream →
        frameMessage kind sequence body ∈ e.tagged ∨ frameMessage kind sequence body ∈ peer.tagged)
    (hunreflected : ∀ s ∈ e.session, ∀ frame : Frame,
      frameBytes s.key frame.kind s.receiveSequence frame.body ∈ e.written →
        frameBytes s.key frame.kind s.receiveSequence frame.body <+: stream →
          frameBytes s.key frame.kind s.receiveSequence frame.body ∈ peer.written) :
    (e.read stream).Sound key peer := by
  rcases e.read_cases stream with ⟨next, hnext, heq⟩ | ⟨s, hs, frame, hframe, hroom, heq⟩
  · rw [heq]
    refine ⟨?_, h.length, h.tagged, h.written, h.received⟩
    intro s hs
    rcases hnext with rfl | rfl
    · cases hs
    · exact h.session s hs
  · obtain ⟨hkey, hsend, hreceive, hlt⟩ := h.session s hs
    have hseq : s.receiveSequence < 2 ^ 64 := by omega
    -- whichever end tagged the message, the peer wrote the frame
    have hsent : peer.sent[s.receiveSequence]? = some frame := by
      rcases hunforged s hs _ _ _ hseq hframe with hown | htheirs
      · have hbytes := h.written_of_sent (h.of_tagged hseq hown)
        rw [← hkey] at hbytes
        have htheirs := hunreflected s hs frame hbytes hframe
        rw [hkey] at htheirs
        exact hpeer.of_written hseq htheirs
      · exact hpeer.of_tagged hseq htheirs
    have hprefix : e.received ++ [frame] <+: peer.sent := by
      rw [hreceive] at hsent
      obtain ⟨hi, hget⟩ := List.getElem?_eq_some_iff.1 hsent
      have hfront := List.prefix_iff_eq_take.1 h.received
      have htake := List.take_prefix (e.received.length + 1) peer.sent
      rwa [List.take_succ_eq_append_getElem hi, ← hfront, hget] at htake
    rw [heq]
    refine ⟨?_, h.length, h.tagged, h.written, hprefix⟩
    intro s' hs'
    obtain rfl := Option.some.inj hs'
    refine ⟨hkey, hsend, ?_, hlt⟩
    show s.receiveSequence + 1 = (e.received ++ [frame]).length
    rw [List.length_append, List.length_singleton, hreceive]

end Sound

/-! ### Runs -/

namespace Link

variable {link : Link} {key : Key}

@[simp] theorem peer_peer (side : Side) : side.peer.peer = side := by
  cases side <;> rfl

theorem peer_ne (side : Side) : side.peer ≠ side := by
  cases side <;> decide

theorem eq_or_eq_peer (side speaker : Side) : speaker = side ∨ speaker = side.peer := by
  cases side <;> cases speaker <;> decide

def Sound (key : Key) (link : Link) : Prop :=
  ∀ side, (link side).Sound key (link side.peer)

theorem Sound.update (h : link.Sound key) {side : Side} {e : Endpoint}
    (he : e.Sound key (link side.peer)) (hsent : (link side).sent <+: e.sent) :
    Sound key (Function.update link side e) := by
  intro other
  rcases eq_or_eq_peer side other with rfl | rfl
  · rw [Function.update_self, Function.update_of_ne (peer_ne _)]
    exact he
  · rw [Function.update_of_ne (peer_ne _), peer_peer, Function.update_self]
    have hpeer := h side.peer
    rw [peer_peer] at hpeer
    exact hpeer.mono hsent

theorem Sound.step (h : link.Sound key) {action : Action} (hunforged : link.Unforged action)
    (hunreflected : link.Unreflected action) : Sound key (link.step action) := by
  cases action with
  | write side frame => exact h.update ((h side).write frame) ((link side).prefix_write frame)
  | read side stream =>
    have hpeer := h side.peer
    rw [peer_peer] at hpeer
    refine h.update ((h side).read hpeer ?_ hunreflected) ?_
    · intro s hs kind sequence body hseq hprefix
      obtain ⟨speaker, hmem⟩ := hunforged s hs kind sequence body hseq hprefix
      rcases eq_or_eq_peer side speaker with rfl | rfl
      · exact .inl hmem
      · exact .inr hmem
    · rw [Endpoint.sent_read]

theorem accept_eq_ok {secret hello nonce stream rest : List UInt8} {s : Session}
    (h : accept secret hello nonce stream = .ok (s, rest)) :
    s = { key := sessionKey secret hello nonce } := by
  have haccepts : Accepts (accept secret hello nonce) fun s _ =>
      s = { key := sessionKey secret hello nonce } := by
    refine accepts_readFrameHeader.bind fun header used _ => accepts_require _ fun _ => ?_
    exact (writes_take _ _).bind fun body _ => accepts_require _ fun _ => Accepts.pure rfl
  obtain ⟨-, -, hs⟩ := haccepts stream s rest h
  exact hs

theorem connect_eq_ok {secret hello stream response rest : List UInt8} {s : Session}
    (h : connect secret hello stream = .ok ((response, s), rest)) :
    s.sendSequence = 0 ∧ s.receiveSequence = 0 := by
  have haccepts : Accepts (connect secret hello) fun r _ =>
      r.2.sendSequence = 0 ∧ r.2.receiveSequence = 0 := by
    refine accepts_readFrameHeader.bind fun header used _ => accepts_require _ fun _ => ?_
    exact (writes_take _ _).bind fun body _ => accepts_require _ fun _ => Accepts.pure ⟨rfl, rfl⟩
  obtain ⟨-, -, hs⟩ := haccepts stream (response, s) rest h
  exact hs

theorem Started.sound (h : link.Started) : ∃ key, link.Sound key := by
  obtain ⟨secret, hello, nonce, _, _, _, _, _, responder, initiator, haccept, hconnect, hkey, hi, hr⟩ := h
  obtain rfl := accept_eq_ok haccept
  obtain ⟨hsend, hreceive⟩ := connect_eq_ok hconnect
  refine ⟨sessionKey secret hello nonce, fun side => ?_⟩
  cases side with
  | initiator =>
    rw [hi]
    exact Endpoint.sound_start initiator hkey hsend hreceive
  | responder =>
    rw [hr]
    exact Endpoint.sound_start _ rfl rfl rfl

/-- **A session delivers the frames of its peer, unless its own are handed back to it.** In every run
after a handshake in which the network forges no tag and no end reads, where it expects the peer's next
frame, one of its own that the peer did not write, what an end has received is at every moment the
beginning of what its peer has sent. -/
theorem received_prefix_sent
    (h : Run.Reachable Started (fun before after => ∃ action,
      (before.Unforged action ∧ before.Unreflected action) ∧ after = before.step action) link)
    (side : Side) :
    (link side).received <+: (link side.peer).sent := by
  have hsound : ∃ key, link.Sound key := by
    refine h.invariant (fun _ hstart => hstart.sound) ?_
    rintro before after ⟨key, hkey⟩ ⟨action, ⟨hunforged, hunreflected⟩, rfl⟩
    exact ⟨key, hkey.step hunforged hunreflected⟩
  obtain ⟨key, hkey⟩ := hsound
  exact (hkey side).received

/-! ### A connection with one frame -/

section Sample

variable {secret hello nonce : List UInt8}

theorem reads_accept : Reads (accept secret hello nonce)
    (plainFrame .authResponse (clientProof secret hello nonce).toList)
    { key := sessionKey secret hello nonce } := by
  have hlen := length_key (clientProof secret hello nonce)
  have hbody := Reads.take SessionError.endOfStream (clientProof secret hello nonce).toList
  rw [plainFrame, ← List.append_assoc]
  refine (reads_readFrameHeader .authResponse _ (by rw [hlen]; decide)).bind ?_
  refine Reads.require _ (by rw [hlen]; rfl) (hbody.last ?_)
  exact Reads.require _ (decide_eq_true rfl) (Reads.pure _)

theorem reads_connect (hnonce : nonce.length = 32) : Reads (connect secret hello)
    (challenge secret hello nonce)
    (plainFrame .authResponse (clientProof secret hello nonce).toList,
      { key := sessionKey secret hello nonce }) := by
  have hproof := length_key (serverProof secret hello nonce)
  have hlen : (nonce ++ (serverProof secret hello nonce).toList).length = 64 := by
    rw [List.length_append, hnonce, hproof]
  have hbody := Reads.take SessionError.endOfStream (nonce ++ (serverProof secret hello nonce).toList)
  have htake : (nonce ++ (serverProof secret hello nonce).toList).take 32 = nonce :=
    List.take_left' hnonce
  have hdrop : (nonce ++ (serverProof secret hello nonce).toList).drop 32 =
      (serverProof secret hello nonce).toList := List.drop_left' hnonce
  rw [challenge, plainFrame, ← List.append_assoc]
  refine (reads_readFrameHeader .authChallenge _ (by rw [hlen]; decide)).bind ?_
  refine Reads.require _ (by rw [hlen]; rfl) (hbody.last ?_)
  rw [htake, hdrop]
  exact Reads.require _ (decide_eq_true rfl) (Reads.pure _)

/-- Both ends after a handshake nothing interfered with. -/
def handshaken (secret hello nonce : List UInt8) : Link := fun _ =>
  { session := some { key := sessionKey secret hello nonce } }

theorem started_handshaken (hnonce : nonce.length = 32) : Started (handshaken secret hello nonce) := by
  have haccept := @reads_accept secret hello nonce []
  have hconnect := @reads_connect secret hello nonce hnonce []
  exact ⟨secret, hello, nonce, _, _, _, _, _, _, _, haccept, hconnect, rfl, rfl, rfl⟩

def sampleFrame : Frame := ⟨.rpcRequest, []⟩

/-- The bytes of the first frame of a session. -/
def sampleBytes (secret hello nonce : List UInt8) : List UInt8 :=
  frameBytes (sessionKey secret hello nonce) sampleFrame.kind 0 sampleFrame.body

/-- The initiator has written one frame. -/
def spoken (secret hello nonce : List UInt8) : Link :=
  (handshaken secret hello nonce).step (.write .initiator sampleFrame)

theorem spoken_initiator : spoken secret hello nonce .initiator =
    { session := some { key := sessionKey secret hello nonce, sendSequence := 1 }
      sent := [sampleFrame]
      tagged := [frameMessage .rpcRequest 0 []]
      written := [sampleBytes secret hello nonce] } :=
  rfl

theorem spoken_responder : spoken secret hello nonce .responder =
    { session := some { key := sessionKey secret hello nonce } } :=
  rfl

theorem length_frameBytes (key : Key) (kind : FrameKind) (sequence : ℕ) (body : List UInt8) :
    (frameBytes key kind sequence body).length = body.length + 45 := by
  simp only [frameBytes, List.length_append, Bytes.length_encodeLe, List.length_singleton, length_key]
  omega

theorem unforged_spoken (side : Side) :
    (spoken secret hello nonce).Unforged (.read side (sampleBytes secret hello nonce)) := by
  intro s hs kind sequence body hseq hprefix
  have hkey : s.key = sessionKey secret hello nonce := by
    cases side with
    | initiator =>
      rw [spoken_initiator] at hs
      obtain rfl := Option.some.inj hs
      rfl
    | responder =>
      rw [spoken_responder] at hs
      obtain rfl := Option.some.inj hs
      rfl
  have hle := hprefix.length_le
  rw [sampleBytes, length_frameBytes, length_frameBytes, sampleFrame, List.length_nil] at hle
  obtain rfl : body = [] := List.length_eq_zero_iff.1 (by omega)
  have hsame : frameBytes s.key kind sequence [] = sampleBytes secret hello nonce :=
    hprefix.eq_of_length (by rw [sampleBytes, length_frameBytes, length_frameBytes, sampleFrame])
  rw [hkey, sampleBytes] at hsame
  obtain ⟨rfl, rfl, -⟩ := frameBytes_inj hseq (by decide) hsame
  exact ⟨.initiator, by rw [spoken_initiator]; exact List.mem_singleton_self _⟩

theorem received_read {e : Endpoint} {s : Session} {frame : Frame} (h : e.session = some s)
    (hlen : frame.body.length + 41 ≤ maxFrameBytes) (hroom : s.receiveSequence + 1 < 2 ^ 64) :
    (e.read (frameBytes s.key frame.kind s.receiveSequence frame.body)).received =
      e.received ++ [frame] := by
  have hread := reads_readFrame hlen hroom []
  rw [List.append_nil] at hread
  unfold Endpoint.read
  rw [h]
  dsimp only
  rw [hread]

theorem received_spoken (side : Side) : ((spoken secret hello nonce).step
    (.read side (sampleBytes secret hello nonce)) side).received = [sampleFrame] := by
  rw [step, Function.update_self]
  cases side with
  | initiator =>
    have hread := @received_read _ _ sampleFrame (congrArg Endpoint.session
      (@spoken_initiator secret hello nonce)) (by decide) (by decide : 0 + 1 < 2 ^ 64)
    rw [spoken_initiator] at hread ⊢
    exact hread
  | responder =>
    have hread := @received_read _ _ sampleFrame (congrArg Endpoint.session
      (@spoken_responder secret hello nonce)) (by decide) (by decide : 0 + 1 < 2 ^ 64)
    rw [spoken_responder] at hread ⊢
    exact hread

theorem reachable_spoken {P : Link → Action → Prop} (hnonce : nonce.length = 32) {side : Side}
    (hwrite : P (handshaken secret hello nonce) (.write .initiator sampleFrame))
    (hread : P (spoken secret hello nonce) (.read side (sampleBytes secret hello nonce))) :
    Run.Reachable Started (fun before after => ∃ action, P before action ∧ after = before.step action)
      ((spoken secret hello nonce).step (.read side (sampleBytes secret hello nonce))) := by
  have hfirst : Run.Reachable Started (fun before after => ∃ action, P before action ∧
      after = before.step action) (spoken secret hello nonce) :=
    .step (.start (started_handshaken hnonce)) ⟨_, hwrite, rfl⟩
  exact hfirst.step ⟨_, hread, rfl⟩

def sampleSecret : List UInt8 := asciiBytes "0123456789abcdef0123456789abcdef"

def sampleHello : List UInt8 := asciiBytes "hello"

def sampleNonce : List UInt8 := List.replicate 32 7

theorem received_prefix_sent_spoken :
    ((spoken sampleSecret sampleHello sampleNonce).step
        (.read .responder (sampleBytes sampleSecret sampleHello sampleNonce)) .responder).received <+:
      ((spoken sampleSecret sampleHello sampleNonce).step
        (.read .responder (sampleBytes sampleSecret sampleHello sampleNonce)) .initiator).sent := by
  have hsilent : (spoken sampleSecret sampleHello sampleNonce).Unreflected
      (.read .responder (sampleBytes sampleSecret sampleHello sampleNonce)) := by
    intro s hs frame hbytes
    rw [spoken_responder] at hbytes
    exact absurd hbytes List.not_mem_nil
  exact received_prefix_sent (reachable_spoken List.length_replicate ⟨trivial, trivial⟩
    ⟨unforged_spoken .responder, hsilent⟩) .responder

/-- **A frame handed back to its writer is received there.** The initiator receives its own frame, and
the responder has sent nothing. -/
theorem reflected_frame_received :
    Run.Reachable Started (fun before after => ∃ action, before.Unforged action ∧
        after = before.step action)
      ((spoken sampleSecret sampleHello sampleNonce).step
        (.read .initiator (sampleBytes sampleSecret sampleHello sampleNonce))) ∧
    ((spoken sampleSecret sampleHello sampleNonce).step
      (.read .initiator (sampleBytes sampleSecret sampleHello sampleNonce)) .initiator).received =
        [sampleFrame] ∧
    ((spoken sampleSecret sampleHello sampleNonce).step
      (.read .initiator (sampleBytes sampleSecret sampleHello sampleNonce)) .responder).sent = [] := by
  refine ⟨reachable_spoken List.length_replicate trivial (unforged_spoken .initiator),
    received_spoken .initiator, ?_⟩
  rw [step, Function.update_of_ne (by decide), spoken_responder]

end Sample

end Link

end Zaxonlite
