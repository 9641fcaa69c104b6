import Zaxonlite.Lib.Directory
import Zaxonlite.Lib.Hex
import Zaxonlite.Storage.Codec

/-!
# Enrollment tokens

An issuer draws a secret and leaves a record of its hash, of the node it is for and of its expiry in a file
`<hash>.pending`. Whoever presents the secret has the record checked and renames the file to `<hash>.used`,
which succeeds for one of them. Issuing and redeeming are written effect by effect: each turn of a call does
one thing to the directory, and what happens between two turns is up to the other calls.
-/

namespace Zaxonlite

namespace Enrollment

open Bytes (encodeLe)
open Cursor Directory

/-- The secret of a token, of `token_bytes` bytes. -/
abbrev Secret := Vector UInt8 32

inductive TokenError where
  | invalidToken
  | tokenUsed
  | tokenExpired
  | tokenIdentityMismatch
  | pathAlreadyExists
  | fileNotFound
  | streamTooLong
  deriving DecidableEq

def hashSecret (secret : Secret) : HashBytes :=
  Sha256.hash (asciiBytes "zaxonlite.enrollment-token.v1" ++ secret.toList)

/-! ### Records -/

structure Record where
  nodeId : UInt32
  issuerNodeId : UInt32
  databaseId : BitVec 128
  expiresUnixSeconds : UInt64
  secretHash : HashBytes

def recordSize : ℕ := 4 + 2 + 4 + 4 + 16 + 8 + 32

def Record.encode (record : Record) : List UInt8 :=
  asciiBytes "ZXER" ++ (encodeLe 2 1 ++ (encodeLe 4 record.nodeId.toNat ++
    (encodeLe 4 record.issuerNodeId.toNat ++ (encodeLe 16 record.databaseId.toNat ++
      (encodeLe 8 record.expiresUnixSeconds.toNat ++ record.secretHash.toList)))))

/-- What `decode` asks of the fields. -/
def Record.Valid (record : Record) : Prop :=
  record.nodeId ≠ 0 ∧ record.issuerNodeId ≠ 0 ∧ record.databaseId ≠ 0 ∧ record.expiresUnixSeconds ≠ 0

instance (record : Record) : Decidable record.Valid :=
  inferInstanceAs (Decidable (_ ∧ _))

def readRecord : Cursor TokenError Record := do
  let magic ← Cursor.take .invalidToken 4
  Cursor.require (magic = asciiBytes "ZXER") .invalidToken
  let version ← Cursor.int .invalidToken 2
  Cursor.require (version = 1) .invalidToken
  let nodeId ← Cursor.int .invalidToken 4
  let issuerNodeId ← Cursor.int .invalidToken 4
  let databaseId ← Cursor.int .invalidToken 16
  let expires ← Cursor.int .invalidToken 8
  let secretHash ← (readHash .truncatedRecord).mapError fun _ => .invalidToken
  pure
    { nodeId := UInt32.ofNat nodeId
      issuerNodeId := UInt32.ofNat issuerNodeId
      databaseId := BitVec.ofNat 128 databaseId
      expiresUnixSeconds := UInt64.ofNat expires
      secretHash := secretHash }

def Record.decode (bytes : List UInt8) : Except TokenError Record :=
  if bytes.length ≠ recordSize then .error .invalidToken
  else
    match readRecord bytes with
    | .error e => .error e
    | .ok (record, _) => if record.Valid then .ok record else .error .invalidToken

theorem length_encode (record : Record) : record.encode.length = recordSize := by
  have hhash : record.secretHash.toList.length = 32 :=
    record.secretHash.toArray.length_toList.trans record.secretHash.size_toArray
  simp only [Record.encode, List.length_append, Bytes.length_encodeLe, hhash]
  rfl

theorem reads_record (record : Record) : Reads readRecord record.encode record := by
  have hnode : record.nodeId.toNat < 256 ^ 4 := record.nodeId.toNat_lt
  have hissuer : record.issuerNodeId.toNat < 256 ^ 4 := record.issuerNodeId.toNat_lt
  have hdatabase : record.databaseId.toNat < 256 ^ 16 := record.databaseId.isLt
  have hexpires : record.expiresUnixSeconds.toNat < 256 ^ 8 := record.expiresUnixSeconds.toNat_lt
  have hlast : Reads
      (pure
        { nodeId := UInt32.ofNat record.nodeId.toNat
          issuerNodeId := UInt32.ofNat record.issuerNodeId.toNat
          databaseId := BitVec.ofNat 128 record.databaseId.toNat
          expiresUnixSeconds := UInt64.ofNat record.expiresUnixSeconds.toNat
          secretHash := record.secretHash } : Cursor TokenError Record) [] record := by
    simp only [UInt32.ofNat_toNat, BitVec.ofNat_toNat, BitVec.setWidth_eq, UInt64.ofNat_toNat]
    exact Reads.pure record
  have hmagic : Reads (Cursor.take TokenError.invalidToken 4) (asciiBytes "ZXER") (asciiBytes "ZXER") :=
    Reads.take _ (asciiBytes "ZXER")
  have hversion : Reads (Cursor.int TokenError.invalidToken 2) (encodeLe 2 1) 1 := Reads.int _ (by decide)
  refine hmagic.bind (Reads.require _ (by decide) ?_)
  refine hversion.bind (Reads.require _ (by decide) ?_)
  exact (Reads.int _ hnode).bind ((Reads.int _ hissuer).bind ((Reads.int _ hdatabase).bind
    ((Reads.int _ hexpires).bind (((reads_hash _ _).mapError _).last hlast))))

theorem decode_prefix {record decoded : Record} {bytes : List UInt8} (hfront : bytes <+: record.encode)
    (h : Record.decode bytes = .ok decoded) : decoded = record := by
  rw [Record.decode] at h
  split at h
  · cases h
  · rename_i hlength
    have hall : bytes = record.encode := by
      apply hfront.eq_of_length
      rw [length_encode]
      exact not_not.1 hlength
    have hreads := reads_record record []
    rw [List.append_nil] at hreads
    rw [hall, hreads] at h
    split at h
    · cases h
    · rename_i hok
      cases hok
      split at h
      · cases h
        rfl
      · cases h

theorem decode_encode_record {record : Record} (h : record.Valid) : Record.decode record.encode = .ok record := by
  have hreads := reads_record record []
  rw [List.append_nil] at hreads
  rw [Record.decode, if_neg (not_not.2 (length_encode record)), hreads]
  exact if_pos h

/-! ### Names -/

def tokenName (digest : HashBytes) (suffix : String) : List UInt8 :=
  Hex.ofBytes digest.toList ++ asciiBytes suffix

def pendingName (digest : HashBytes) : List UInt8 :=
  tokenName digest ".pending"

def usedName (digest : HashBytes) : List UInt8 :=
  tokenName digest ".used"

/-- The name a record is written under before it is complete. -/
def temporaryName (suffix : Vector UInt8 8) : List UInt8 :=
  asciiBytes ".issue-" ++ (Hex.ofBytes suffix.toList ++ asciiBytes ".tmp")

theorem length_pendingName (digest : HashBytes) : (pendingName digest).length = 72 := by
  have hhash : digest.toList.length = 32 := digest.toArray.length_toList.trans digest.size_toArray
  rw [pendingName, tokenName, List.length_append, Hex.length_ofBytes, hhash]
  rfl

theorem length_usedName (digest : HashBytes) : (usedName digest).length = 69 := by
  have hhash : digest.toList.length = 32 := digest.toArray.length_toList.trans digest.size_toArray
  rw [usedName, tokenName, List.length_append, Hex.length_ofBytes, hhash]
  rfl

theorem length_temporaryName (suffix : Vector UInt8 8) : (temporaryName suffix).length = 27 := by
  have hsuffix : suffix.toList.length = 8 := suffix.toArray.length_toList.trans suffix.size_toArray
  rw [temporaryName, List.length_append, List.length_append, Hex.length_ofBytes, hsuffix]
  rfl

theorem pendingName_ne_usedName (digest digest' : HashBytes) : pendingName digest ≠ usedName digest' := by
  intro h
  have hlength := congrArg List.length h
  rw [length_pendingName, length_usedName] at hlength
  omega

theorem temporaryName_ne_pendingName (suffix : Vector UInt8 8) (digest : HashBytes) :
    temporaryName suffix ≠ pendingName digest := by
  intro h
  have hlength := congrArg List.length h
  rw [length_temporaryName, length_pendingName] at hlength
  omega

theorem temporaryName_ne_usedName (suffix : Vector UInt8 8) (digest : HashBytes) :
    temporaryName suffix ≠ usedName digest := by
  intro h
  have hlength := congrArg List.length h
  rw [length_temporaryName, length_usedName] at hlength
  omega

theorem tokenName_injective {digest digest' : HashBytes} {suffix : String}
    (h : tokenName digest suffix = tokenName digest' suffix) : digest = digest' := by
  have hhex := List.append_cancel_right h
  have hbytes := congrArg Hex.toBytes hhex
  rw [Hex.toBytes_ofBytes, Hex.toBytes_ofBytes] at hbytes
  exact Vector.toList_inj.1 (Option.some.inj hbytes)

/-! ### Issuing -/

def maximumTtlSeconds : UInt64 := 24 * 60 * 60

structure IssuedToken where
  secret : Secret
  expiresUnixSeconds : UInt64

/-- What is passed to `issueTokenAt`. -/
structure Grant where
  nodeId : UInt32
  issuerNodeId : UInt32
  databaseId : BitVec 128
  now : UInt64
  ttlSeconds : UInt64

def Grant.refused (g : Grant) : Bool :=
  g.nodeId == 0 || g.issuerNodeId == 0 || g.databaseId == 0 || g.now == 0 || g.ttlSeconds == 0 ||
    decide (maximumTtlSeconds < g.ttlSeconds) || decide (UInt64.ofNat (2 ^ 64 - 1) - g.ttlSeconds < g.now)

/-- Where a call of `issueTokenAt` stands, with the file it writes. -/
inductive IssuePhase where
  | drawn
  | writing (file : ℕ)
  | flushed
  | published
  | undoing (e : TokenError)
  | returned (result : Except TokenError IssuedToken)
  | lost

/-- A call of `issueTokenAt`: its arguments, its draws, the file it has created and whether that file has
become the pending token. -/
structure Issue where
  grant : Grant
  secret : Secret
  suffix : Vector UInt8 8
  file : Option ℕ
  published : Bool
  phase : IssuePhase

/-- The record the call writes. -/
def Issue.record (c : Issue) : Record where
  nodeId := c.grant.nodeId
  issuerNodeId := c.grant.issuerNodeId
  databaseId := c.grant.databaseId
  expiresUnixSeconds := c.grant.now + c.grant.ttlSeconds
  secretHash := hashSecret c.secret

/-- `issueTokenAt` up to its draws. -/
def issueStart (grant : Grant) (secret : Secret) (suffix : Vector UInt8 8) : Issue where
  grant := grant
  secret := secret
  suffix := suffix
  file := none
  published := false
  phase := if grant.refused then .returned (.error .invalidToken) else .drawn

/-- One effect of `issueTokenAt`. A write takes the next `count` bytes of the record. -/
def issueTurn (fs : Files (List UInt8)) (c : Issue) (count : ℕ) : Option (Files (List UInt8) × Issue) :=
  match c.phase with
  | .drawn =>
    match fs.createExclusive (temporaryName c.suffix) with
    | none => some (fs, { c with phase := .undoing .pathAlreadyExists })
    | some fs' => some (fs', { c with file := some fs.created, phase := .writing fs.created })
  | .writing file =>
    if (fs.data file).length < recordSize then
      some (fs.append file ((c.record.encode.drop (fs.data file).length).take count), c)
    else some (fs.syncFile file, { c with phase := .flushed })
  | .flushed =>
    match fs.renamePreserve (temporaryName c.suffix) (pendingName (hashSecret c.secret)) with
    | .error .pathAlreadyExists => some (fs, { c with phase := .undoing .invalidToken })
    | .error .fileNotFound => some (fs, { c with phase := .undoing .fileNotFound })
    | .ok fs' => some (fs', { c with published := true, phase := .published })
  | .published =>
    some (fs.sync,
      { c with phase := .returned (.ok ⟨c.secret, c.grant.now + c.grant.ttlSeconds⟩) })
  | .undoing e =>
    some (fs.deleteFile (temporaryName c.suffix), { c with phase := .returned (.error e) })
  | .returned _ => none
  | .lost => none

/-! ### Redeeming -/

/-- Where a call of `consumeTokenAt` stands. -/
inductive ConsumePhase where
  | opened
  | missing
  | claiming
  | claimed
  | returned (result : Except TokenError Unit)
  | lost

/-- What is passed to `consumeTokenAt`. -/
structure Claimant where
  secret : Secret
  nodeId : UInt32
  issuerNodeId : UInt32
  databaseId : BitVec 128
  now : UInt64

/-- A call of `consumeTokenAt`: whether it began after a success with its secret, and whether it has renamed
the token. -/
structure Attempt where
  claimant : Claimant
  late : Bool
  renamed : Bool
  phase : ConsumePhase

/-- The checks between the read and the rename. -/
def checkClaim (claimant : Claimant) (bytes : List UInt8) : ConsumePhase :=
  if recordSize + 1 < bytes.length then .returned (.error .streamTooLong)
  else
    match Record.decode bytes with
    | .error e => .returned (.error e)
    | .ok record =>
      if hashSecret claimant.secret ≠ record.secretHash then .returned (.error .invalidToken)
      else if record.nodeId ≠ claimant.nodeId ∨ record.issuerNodeId ≠ claimant.issuerNodeId ∨
          record.databaseId ≠ claimant.databaseId then
        .returned (.error .tokenIdentityMismatch)
      else if claimant.now = 0 ∨ record.expiresUnixSeconds ≤ claimant.now then
        .returned (.error .tokenExpired)
      else .claiming

/-- One effect of `consumeTokenAt`. A store that does not exist yet holds no names. -/
def consumeTurn (fs : Files (List UInt8)) (a : Attempt) : Option (Files (List UInt8) × Attempt) :=
  let digest := hashSecret a.claimant.secret
  match a.phase with
  | .opened =>
    match fs.read (pendingName digest) with
    | none => some (fs, { a with phase := .missing })
    | some bytes => some (fs, { a with phase := checkClaim a.claimant bytes })
  | .missing =>
    match fs.current (usedName digest) with
    | some _ => some (fs, { a with phase := .returned (.error .tokenUsed) })
    | none => some (fs, { a with phase := .returned (.error .invalidToken) })
  | .claiming =>
    match fs.renamePreserve (pendingName digest) (usedName digest) with
    | .error _ => some (fs, { a with phase := .returned (.error .tokenUsed) })
    | .ok fs' => some (fs', { a with renamed := true, phase := .claimed })
  | .claimed => some (fs.sync, { a with phase := .returned (.ok ()) })
  | .returned _ => none
  | .lost => none

end Enrollment

end Zaxonlite
