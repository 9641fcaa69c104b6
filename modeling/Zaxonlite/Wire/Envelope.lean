import Zaxonlite.Storage.Codec

/-!
# The peer envelope codec

Peers exchange consensus messages in envelopes. The encoder writes into one fixed buffer; the decoder
refuses unknown tags, a flag other than zero or one, and bytes after the message. A message carries a
transaction batch in an accepted value, in a proposal or in a decision, and then the receiver holds the
envelope back until it has the payload the batch names.
-/

namespace Zaxonlite

open Bytes (encodeLe)
open Cursor (Reads Accepts Writes accepts_fail accepts_require writes_byte writes_int)

inductive WireError where
  | decode (error : DecodeError)
  | invalidFrame
  deriving DecidableEq, Repr

/-- A chunk of a phase-one reply. -/
structure PromiseRange where
  ballot : Ballot
  anchor : TrimAnchor
  chosenThrough : ℕ
  first : ℕ
  last : ℕ
  acceptedCount : ℕ
  more : Bool
  deriving DecidableEq

inductive Message where
  | prepare (ballot : Ballot) (first : ℕ)
  | promise (ballot : Ballot) (slot : ℕ) (acceptedBallot : Ballot) (acceptedValue : Entry)
  | promiseRange (range : PromiseRange)
  | accept (ballot : Ballot) (slot : ℕ) (value : Entry)
  | accepted (ballot : Ballot) (slot : ℕ) (decidedThrough : ℕ)
  | commit (slot : ℕ) (value : Entry)
  | learn (fromSlot : ℕ) (count : ℕ)
  | nack (rejected : Ballot) (promised : Ballot) (decidedThrough : ℕ)
  | heartbeat (ballot : Ballot) (decidedThrough : ℕ)
  deriving DecidableEq

structure Envelope where
  sender : ℕ
  receiver : ℕ
  message : Message
  deriving DecidableEq

def maxEnvelopeSize : ℕ := 16 + Entry.maxEntrySize + 64

/-! ### Encoding -/

def PromiseRange.encode (range : PromiseRange) : List UInt8 :=
  range.ballot.encode ++ (encodeLe 8 range.anchor.trimId ++ (encodeLe 8 range.anchor.chosenTrimSlot ++
    (range.anchor.historyHash.toList ++ (encodeLe 8 range.chosenThrough ++ (encodeLe 8 range.first ++
      (encodeLe 8 range.last ++ (encodeLe 4 range.acceptedCount ++ [if range.more then 1 else 0])))))))

/-- The tag and fields of a message. -/
def Message.encode : Message → List UInt8
  | .prepare ballot first => [0] ++ (ballot.encode ++ encodeLe 8 first)
  | .promise ballot slot acceptedBallot acceptedValue =>
    [1] ++ (ballot.encode ++ (encodeLe 8 slot ++ (acceptedBallot.encode ++ acceptedValue.encode)))
  | .promiseRange range => [2] ++ range.encode
  | .accept ballot slot value => [3] ++ (ballot.encode ++ (encodeLe 8 slot ++ value.encode))
  | .accepted ballot slot decidedThrough =>
    [4] ++ (ballot.encode ++ (encodeLe 8 slot ++ encodeLe 8 decidedThrough))
  | .commit slot value => [5] ++ (encodeLe 8 slot ++ value.encode)
  | .learn fromSlot count => [6] ++ (encodeLe 8 fromSlot ++ encodeLe 4 count)
  | .nack rejected promised decidedThrough =>
    [7] ++ (rejected.encode ++ (promised.encode ++ encodeLe 8 decidedThrough))
  | .heartbeat ballot decidedThrough => [8] ++ (ballot.encode ++ encodeLe 8 decidedThrough)

def encodeEnvelope (envelope : Envelope) : List UInt8 :=
  encodeLe 4 envelope.sender ++ (encodeLe 4 envelope.receiver ++ envelope.message.encode)

/-! ### Decoding -/

/-- An integer of a frame body. -/
def wireInt (width : ℕ) : Cursor WireError ℕ :=
  (Cursor.int .truncatedRecord width).mapError .decode

def wireByte : Cursor WireError UInt8 :=
  (Cursor.byte .truncatedRecord).mapError .decode

def wireBallot : Cursor WireError Ballot :=
  readBallot.mapError .decode

def decodePromiseRange : Cursor WireError PromiseRange := do
  let ballot ← wireBallot
  let trimId ← wireInt 8
  let chosenTrimSlot ← wireInt 8
  let historyHash ← (readHash .truncatedRecord).mapError .decode
  let chosenThrough ← wireInt 8
  let first ← wireInt 8
  let last ← wireInt 8
  let acceptedCount ← wireInt 4
  let more ← wireByte
  Cursor.require (more ≤ 1) .invalidFrame
  pure ⟨ballot, ⟨trimId, chosenTrimSlot, historyHash⟩, chosenThrough, first, last, acceptedCount,
    more = 1⟩

section Decoder

-- The stop signs the consensus library's constructor accepts.
variable (createStop : StopSign → Bool)

def wireEntry : Cursor WireError Entry :=
  (readEntry createStop).mapError .decode

def readMessageFields (tag : UInt8) : Cursor WireError Message :=
  match tag.toNat with
  | 0 => do
    let ballot ← wireBallot
    let first ← wireInt 8
    pure (.prepare ballot first)
  | 1 => do
    let ballot ← wireBallot
    let slot ← wireInt 8
    let acceptedBallot ← wireBallot
    let acceptedValue ← wireEntry createStop
    pure (.promise ballot slot acceptedBallot acceptedValue)
  | 2 => do
    let range ← decodePromiseRange
    pure (.promiseRange range)
  | 3 => do
    let ballot ← wireBallot
    let slot ← wireInt 8
    let value ← wireEntry createStop
    pure (.accept ballot slot value)
  | 4 => do
    let ballot ← wireBallot
    let slot ← wireInt 8
    let decidedThrough ← wireInt 8
    pure (.accepted ballot slot decidedThrough)
  | 5 => do
    let slot ← wireInt 8
    let value ← wireEntry createStop
    pure (.commit slot value)
  | 6 => do
    let fromSlot ← wireInt 8
    let count ← wireInt 4
    pure (.learn fromSlot count)
  | 7 => do
    let rejected ← wireBallot
    let promised ← wireBallot
    let decidedThrough ← wireInt 8
    pure (.nack rejected promised decidedThrough)
  | 8 => do
    let ballot ← wireBallot
    let decidedThrough ← wireInt 8
    pure (.heartbeat ballot decidedThrough)
  | _ => Cursor.fail .invalidFrame

def readEnvelope : Cursor WireError Envelope := do
  let sender ← wireInt 4
  let receiver ← wireInt 4
  let tag ← wireByte
  let message ← readMessageFields createStop tag
  pure ⟨sender, receiver, message⟩

/-- `decodeEnvelope`: one envelope and nothing after it. -/
def decodeEnvelope (body : List UInt8) : Except WireError Envelope :=
  match readEnvelope createStop body with
  | .error e => .error e
  | .ok (envelope, rest) => if rest = [] then .ok envelope else .error .invalidFrame

end Decoder

/-- The value a message hands to the core. -/
def Message.value? : Message → Option Entry
  | .promise _ _ _ acceptedValue => some acceptedValue
  | .accept _ _ value => some value
  | .commit _ value => some value
  | _ => none

def envelopePayloadHash (envelope : Envelope) : Option HashBytes :=
  match envelope.message.value? with
  | some (.command (.transactionBatch batch)) => some batch.payloadHash
  | _ => none

/-! ### Round trip -/

def PromiseRange.Fits (range : PromiseRange) : Prop :=
  range.ballot.Fits ∧ range.anchor.trimId < 256 ^ 8 ∧ range.anchor.chosenTrimSlot < 256 ^ 8 ∧
    range.chosenThrough < 256 ^ 8 ∧ range.first < 256 ^ 8 ∧ range.last < 256 ^ 8 ∧
    range.acceptedCount < 256 ^ 4

/-- The fields fit their widths and the value is admissible. -/
def Message.Canonical (createStop : StopSign → Bool) : Message → Prop
  | .prepare ballot first => ballot.Fits ∧ first < 256 ^ 8
  | .promise ballot slot acceptedBallot acceptedValue =>
    ballot.Fits ∧ slot < 256 ^ 8 ∧ acceptedBallot.Fits ∧ acceptedValue.Canonical createStop
  | .promiseRange range => range.Fits
  | .accept ballot slot value => ballot.Fits ∧ slot < 256 ^ 8 ∧ value.Canonical createStop
  | .accepted ballot slot decidedThrough => ballot.Fits ∧ slot < 256 ^ 8 ∧ decidedThrough < 256 ^ 8
  | .commit slot value => slot < 256 ^ 8 ∧ value.Canonical createStop
  | .learn fromSlot count => fromSlot < 256 ^ 8 ∧ count < 256 ^ 4
  | .nack rejected promised decidedThrough =>
    rejected.Fits ∧ promised.Fits ∧ decidedThrough < 256 ^ 8
  | .heartbeat ballot decidedThrough => ballot.Fits ∧ decidedThrough < 256 ^ 8

def Envelope.Canonical (createStop : StopSign → Bool) (envelope : Envelope) : Prop :=
  envelope.sender < 256 ^ 4 ∧ envelope.receiver < 256 ^ 4 ∧ envelope.message.Canonical createStop

section RoundTrip

variable {createStop : StopSign → Bool}

theorem reads_wireInt {width value : ℕ} (h : value < 256 ^ width) :
    Reads (wireInt width) (encodeLe width value) value :=
  (Reads.int _ h).mapError _

theorem reads_wireByte (b : UInt8) : Reads wireByte [b] b :=
  (Reads.byte _ b).mapError _

theorem reads_wireBallot {ballot : Ballot} (h : ballot.Fits) : Reads wireBallot ballot.encode ballot :=
  (reads_ballot h).mapError _

theorem reads_wireEntry {value : Entry} (h : value.Canonical createStop) :
    Reads (wireEntry createStop) value.encode value :=
  (reads_entry h).mapError _

theorem reads_promiseRange {range : PromiseRange} (h : range.Fits) :
    Reads decodePromiseRange range.encode range := by
  obtain ⟨hballot, h₁, h₂, h₃, h₄, h₅, h₆⟩ := h
  refine (reads_wireBallot hballot).bind ((reads_wireInt h₁).bind ((reads_wireInt h₂).bind
    (((reads_hash _ _).mapError _).bind ((reads_wireInt h₃).bind ((reads_wireInt h₄).bind
      ((reads_wireInt h₅).bind ((reads_wireInt h₆).bind ((reads_wireByte _).last ?_))))))))
  cases hmore : range.more with
  | false =>
    refine Reads.require _ (by decide) ?_
    obtain ⟨ballot, anchor, chosenThrough, first, last, acceptedCount, more⟩ := range
    subst hmore
    exact Reads.pure _
  | true =>
    refine Reads.require _ (by decide) ?_
    obtain ⟨ballot, anchor, chosenThrough, first, last, acceptedCount, more⟩ := range
    subst hmore
    exact Reads.pure _

theorem reads_message {message : Message} (h : message.Canonical createStop) :
    Reads (do readMessageFields createStop (← wireByte) : Cursor WireError Message)
      message.encode message := by
  cases message with
  | prepare ballot first =>
    exact (reads_wireByte 0).bind ((reads_wireBallot h.1).bind ((reads_wireInt h.2).last (Reads.pure _)))
  | promise ballot slot acceptedBallot acceptedValue =>
    exact (reads_wireByte 1).bind ((reads_wireBallot h.1).bind ((reads_wireInt h.2.1).bind
      ((reads_wireBallot h.2.2.1).bind ((reads_wireEntry h.2.2.2).last (Reads.pure _)))))
  | promiseRange range =>
    exact (reads_wireByte 2).bind ((reads_promiseRange h).last (Reads.pure _))
  | accept ballot slot value =>
    exact (reads_wireByte 3).bind ((reads_wireBallot h.1).bind ((reads_wireInt h.2.1).bind
      ((reads_wireEntry h.2.2).last (Reads.pure _))))
  | accepted ballot slot decidedThrough =>
    exact (reads_wireByte 4).bind ((reads_wireBallot h.1).bind ((reads_wireInt h.2.1).bind
      ((reads_wireInt h.2.2).last (Reads.pure _))))
  | commit slot value =>
    exact (reads_wireByte 5).bind ((reads_wireInt h.1).bind ((reads_wireEntry h.2).last (Reads.pure _)))
  | learn fromSlot count =>
    exact (reads_wireByte 6).bind ((reads_wireInt h.1).bind ((reads_wireInt h.2).last (Reads.pure _)))
  | nack rejected promised decidedThrough =>
    exact (reads_wireByte 7).bind ((reads_wireBallot h.1).bind ((reads_wireBallot h.2.1).bind
      ((reads_wireInt h.2.2).last (Reads.pure _))))
  | heartbeat ballot decidedThrough =>
    exact (reads_wireByte 8).bind ((reads_wireBallot h.1).bind ((reads_wireInt h.2).last (Reads.pure _)))

theorem reads_envelope {envelope : Envelope} (h : envelope.Canonical createStop) :
    Reads (readEnvelope createStop) (encodeEnvelope envelope) envelope := by
  obtain ⟨hsender, hreceiver, hmessage⟩ := h
  have hbody : Reads (do
      let tag ← wireByte
      let message ← readMessageFields createStop tag
      pure (⟨envelope.sender, envelope.receiver, message⟩ : Envelope) : Cursor WireError Envelope)
      envelope.message.encode envelope := by
    have hread := (reads_message hmessage).last
      (f := fun message => pure (⟨envelope.sender, envelope.receiver, message⟩ : Envelope)) (Reads.pure _)
    rwa [bind_assoc] at hread
  exact (reads_wireInt hsender).bind ((reads_wireInt hreceiver).bind hbody)

theorem decodeEnvelope_encodeEnvelope {envelope : Envelope} (h : envelope.Canonical createStop) :
    decodeEnvelope createStop (encodeEnvelope envelope) = .ok envelope := by
  have hread := reads_envelope h []
  rw [List.append_nil] at hread
  rw [decodeEnvelope, hread]
  exact if_pos rfl

end RoundTrip

/-! ### Nothing else is accepted -/

section Canonicity

variable {createStop : StopSign → Bool}

theorem writes_wireInt (width : ℕ) :
    Writes (wireInt width) (encodeLe width) fun value => value < 256 ^ width :=
  (writes_int _ width).mapError _

theorem writes_wireByte : Writes wireByte (fun b => [b]) fun _ => True :=
  (writes_byte _).mapError _

theorem writes_wireBallot : Writes wireBallot Ballot.encode Ballot.Fits :=
  writes_ballot.mapError _

theorem writes_wireEntry : Writes (wireEntry createStop) Entry.encode (Entry.Canonical createStop) :=
  writes_entry.mapError _

theorem flag_of_le_one {b : UInt8} (h : b ≤ 1) : [if decide (b = 1) then 1 else 0] = [b] := by
  have hlt : b.toNat ≤ 1 := h
  have hcases : b.toNat = 0 ∨ b.toNat = 1 := by omega
  rcases hcases with hb | hb
  · obtain rfl : b = 0 := UInt8.toNat_inj.1 hb
    rfl
  · obtain rfl : b = 1 := UInt8.toNat_inj.1 hb
    rfl

theorem writes_promiseRange : Writes decodePromiseRange PromiseRange.encode PromiseRange.Fits := by
  refine writes_wireBallot.bind fun ballot hballot => (writes_wireInt 8).bind fun trimId h₁ =>
    (writes_wireInt 8).bind fun chosenTrimSlot h₂ =>
    ((writes_hash _).mapError _).bind fun historyHash _ => (writes_wireInt 8).bind fun chosenThrough h₃ =>
    (writes_wireInt 8).bind fun first h₄ => (writes_wireInt 8).bind fun last h₅ =>
    (writes_wireInt 4).bind fun acceptedCount h₆ => writes_wireByte.bind fun more _ =>
    accepts_require _ fun hmore => Accepts.pure ⟨⟨hballot, h₁, h₂, h₃, h₄, h₅, h₆⟩, ?_⟩
  simp only [PromiseRange.encode, List.append_nil]
  rw [flag_of_le_one (of_decide_eq_true hmore)]

theorem accepts_messageFields (tag : UInt8) : Accepts (readMessageFields createStop tag)
    fun message used => message.Canonical createStop ∧ tag :: used = message.encode := by
  have htag : ∀ n, tag.toNat = n → tag = UInt8.ofNat n := fun n hn => by rw [← hn, UInt8.ofNat_toNat]
  unfold readMessageFields
  split
  · rename_i hn
    rw [htag 0 hn]
    refine writes_wireBallot.bind fun ballot h₁ => (writes_wireInt 8).bind fun first h₂ =>
      Accepts.pure ⟨⟨h₁, h₂⟩, ?_⟩
    rw [List.append_nil]
    rfl
  · rename_i hn
    rw [htag 1 hn]
    refine writes_wireBallot.bind fun ballot h₁ => (writes_wireInt 8).bind fun slot h₂ =>
      writes_wireBallot.bind fun acceptedBallot h₃ => writes_wireEntry.bind fun value h₄ =>
      Accepts.pure ⟨⟨h₁, h₂, h₃, h₄⟩, ?_⟩
    rw [List.append_nil]
    rfl
  · rename_i hn
    rw [htag 2 hn]
    refine writes_promiseRange.bind fun range h₁ => Accepts.pure ⟨h₁, ?_⟩
    rw [List.append_nil]
    rfl
  · rename_i hn
    rw [htag 3 hn]
    refine writes_wireBallot.bind fun ballot h₁ => (writes_wireInt 8).bind fun slot h₂ =>
      writes_wireEntry.bind fun value h₃ => Accepts.pure ⟨⟨h₁, h₂, h₃⟩, ?_⟩
    rw [List.append_nil]
    rfl
  · rename_i hn
    rw [htag 4 hn]
    refine writes_wireBallot.bind fun ballot h₁ => (writes_wireInt 8).bind fun slot h₂ =>
      (writes_wireInt 8).bind fun decidedThrough h₃ => Accepts.pure ⟨⟨h₁, h₂, h₃⟩, ?_⟩
    rw [List.append_nil]
    rfl
  · rename_i hn
    rw [htag 5 hn]
    refine (writes_wireInt 8).bind fun slot h₁ => writes_wireEntry.bind fun value h₂ =>
      Accepts.pure ⟨⟨h₁, h₂⟩, ?_⟩
    rw [List.append_nil]
    rfl
  · rename_i hn
    rw [htag 6 hn]
    refine (writes_wireInt 8).bind fun fromSlot h₁ => (writes_wireInt 4).bind fun count h₂ =>
      Accepts.pure ⟨⟨h₁, h₂⟩, ?_⟩
    rw [List.append_nil]
    rfl
  · rename_i hn
    rw [htag 7 hn]
    refine writes_wireBallot.bind fun rejected h₁ => writes_wireBallot.bind fun promised h₂ =>
      (writes_wireInt 8).bind fun decidedThrough h₃ => Accepts.pure ⟨⟨h₁, h₂, h₃⟩, ?_⟩
    rw [List.append_nil]
    rfl
  · rename_i hn
    rw [htag 8 hn]
    refine writes_wireBallot.bind fun ballot h₁ => (writes_wireInt 8).bind fun decidedThrough h₂ =>
      Accepts.pure ⟨⟨h₁, h₂⟩, ?_⟩
    rw [List.append_nil]
    rfl
  · exact accepts_fail _ _

theorem writes_envelope :
    Writes (readEnvelope createStop) encodeEnvelope (Envelope.Canonical createStop) := by
  refine (writes_wireInt 4).bind fun sender h₁ => (writes_wireInt 4).bind fun receiver h₂ =>
    writes_wireByte.bind fun tag _ => (accepts_messageFields tag).bind fun message used h₃ =>
    Accepts.pure ⟨⟨h₁, h₂, h₃.1⟩, ?_⟩
  simp only [encodeEnvelope, ← h₃.2, List.append_nil]
  rfl

theorem encodeEnvelope_of_decodeEnvelope {body : List UInt8} {envelope : Envelope}
    (h : decodeEnvelope createStop body = .ok envelope) :
    envelope.Canonical createStop ∧ body = encodeEnvelope envelope := by
  unfold decodeEnvelope at h
  split at h
  · cases h
  · rename_i e rest hread
    split at h
    · rename_i hrest
      cases h
      subst hrest
      exact writes_envelope.whole hread
    · cases h

end Canonicity

/-! ### Sizes and payloads -/

theorem length_encodeMessage_le {createStop : StopSign → Bool} {message : Message}
    (h : message.Canonical createStop) :
    message.encode.length ≤ max (41 + Entry.maxEntrySize) 94 := by
  cases message with
  | promise ballot slot acceptedBallot acceptedValue =>
    have hvalue := length_encodeEntry_le h.2.2.2
    simp only [Message.encode, List.length_append, length_encodeBallot, Bytes.length_encodeLe,
      List.length_singleton]
    omega
  | accept ballot slot value =>
    have hvalue := length_encodeEntry_le h.2.2
    simp only [Message.encode, List.length_append, length_encodeBallot, Bytes.length_encodeLe,
      List.length_singleton]
    omega
  | commit slot value =>
    have hvalue := length_encodeEntry_le h.2
    simp only [Message.encode, List.length_append, Bytes.length_encodeLe, List.length_singleton]
    omega
  | promiseRange range =>
    simp only [Message.encode, PromiseRange.encode, List.length_append, length_encodeBallot,
      Bytes.length_encodeLe, List.length_singleton, Vector.length_toList]
    omega
  | _ =>
    simp only [Message.encode, List.length_append, length_encodeBallot, Bytes.length_encodeLe,
      List.length_singleton]
    omega

theorem length_encodeEnvelope_le {createStop : StopSign → Bool} {envelope : Envelope}
    (h : envelope.Canonical createStop) : (encodeEnvelope envelope).length ≤ maxEnvelopeSize := by
  have hmessage := length_encodeMessage_le h.2.2
  simp only [encodeEnvelope, List.length_append, Bytes.length_encodeLe, maxEnvelopeSize,
    Entry.maxEntrySize, Command.encodedSize] at hmessage ⊢
  omega

/-- The messages that hand a value to the core: an accepted value, a proposal or a decision. -/
inductive Message.Carries (value : Entry) : Message → Prop
  | promise (ballot : Ballot) (slot : ℕ) (acceptedBallot : Ballot) :
    Carries value (.promise ballot slot acceptedBallot value)
  | accept (ballot : Ballot) (slot : ℕ) : Carries value (.accept ballot slot value)
  | commit (slot : ℕ) : Carries value (.commit slot value)

theorem Message.carries_iff {message : Message} {value : Entry} :
    message.Carries value ↔ message.value? = some value := by
  constructor
  · intro h
    cases h <;> rfl
  · intro h
    cases message with
    | promise ballot slot acceptedBallot acceptedValue =>
      obtain rfl := Option.some.inj h
      exact .promise _ _ _
    | accept ballot slot acceptedValue =>
      obtain rfl := Option.some.inj h
      exact .accept _ _
    | commit slot acceptedValue =>
      obtain rfl := Option.some.inj h
      exact .commit _
    | _ => cases h

theorem envelopePayloadHash_eq_some_iff {envelope : Envelope} {hash : HashBytes} :
    envelopePayloadHash envelope = some hash ↔
      ∃ batch, envelope.message.Carries (.command (.transactionBatch batch)) ∧
        batch.payloadHash = hash := by
  simp only [Message.carries_iff]
  unfold envelopePayloadHash
  split
  · rename_i batch hvalue
    constructor
    · intro h
      exact ⟨batch, hvalue, Option.some.inj h⟩
    · rintro ⟨batch', hvalue', rfl⟩
      obtain rfl : batch = batch' := by
        rw [hvalue] at hvalue'
        injection hvalue' with h₁
        injection h₁ with h₂
        injection h₂
      rfl
  · rename_i hnone
    constructor
    · intro h
      cases h
    · rintro ⟨batch, hvalue, -⟩
      exact absurd hvalue (hnone batch)

/-- **The envelope codec is exact and canonical**, and a payload hash is reported for exactly the
envelopes that can carry a transaction batch into the core. -/
theorem envelopeCodec_exact (createStop : StopSign → Bool) :
    (∀ envelope : Envelope, envelope.Canonical createStop →
      (encodeEnvelope envelope).length ≤ maxEnvelopeSize ∧
      decodeEnvelope createStop (encodeEnvelope envelope) = .ok envelope) ∧
    (∀ body envelope, decodeEnvelope createStop body = .ok envelope →
      envelope.Canonical createStop ∧ encodeEnvelope envelope = body) ∧
    ∀ (envelope : Envelope) (hash : HashBytes), envelopePayloadHash envelope = some hash ↔
      ∃ batch, envelope.message.Carries (.command (.transactionBatch batch)) ∧
        batch.payloadHash = hash := by
  refine ⟨fun envelope h => ⟨length_encodeEnvelope_le h, decodeEnvelope_encodeEnvelope h⟩,
    fun body envelope h => ?_, fun envelope hash => envelopePayloadHash_eq_some_iff⟩
  obtain ⟨hcanonical, hbody⟩ := encodeEnvelope_of_decodeEnvelope h
  exact ⟨hcanonical, hbody.symm⟩

end Zaxonlite
