import Zaxonlite.Storage.Codec
import Mathlib.Data.Set.Function

/-!
# What the history anchor commits to

The anchor is a chain of hashes over fixed-width strings, each kind of string behind its own domain
byte. As long as no two of the strings that two folds hash collide, equal anchors come from the same
database and the same entries, in the same slots and under the same configurations.
-/

namespace Zaxonlite

open Bytes (encodeLe)
open Cursor (Reads)

/-! ### Encodings determine what they encode -/

/-- The fields fit their widths. -/
def Command.Fits : Command → Prop
  | .trim record => record.throughSlot < 256 ^ 8 ∧ record.configurationId < 256 ^ 8 ∧ record.policy < 256 ^ 1
  | cmd => cmd.Canonical

/-- The fields fit their widths and the lists their bounds. -/
def StopSign.Fits (stop : StopSign) : Prop :=
  stop.configurationId < 256 ^ 8 ∧ stop.members.length ≤ maxVoters ∧
    (∀ member ∈ stop.members, member < 256 ^ 4) ∧ stop.metadata.length ≤ maxStopMetadataBytes

def Entry.Fits : Entry → Prop
  | .command cmd => cmd.Fits
  | .stop sign => sign.Fits

section Injective

variable {rest rest' : List UInt8}

theorem encodeLe_append_inj {width a b : ℕ} (ha : a < 256 ^ width) (hb : b < 256 ^ width)
    (h : encodeLe width a ++ rest = encodeLe width b ++ rest') : a = b ∧ rest = rest' :=
  (Reads.int () ha).inj (Reads.int () hb) h

theorem hash_append_inj {a b : HashBytes} (h : a.toList ++ rest = b.toList ++ rest') :
    a = b ∧ rest = rest' :=
  (reads_hash .truncatedRecord a).inj (reads_hash .truncatedRecord b) h

theorem Command.encodeFields_append_inj {cmd cmd' : Command} (hfits : cmd.Fits) (hfits' : cmd'.Fits)
    (h : cmd.encodeFields ++ rest = cmd'.encodeFields ++ rest') : cmd = cmd' := by
  -- Commands with different tags differ in their first byte.
  cases cmd <;> cases cmd' <;>
    simp only [encodeFields, List.append_assoc, List.cons_append, List.cons.injEq] at h
  case noop.noop => rfl
  case transactionBatch.transactionBatch batch batch' =>
    obtain ⟨f₁, f₂, f₃, f₄, f₅, f₆⟩ := hfits
    obtain ⟨g₁, g₂, g₃, g₄, g₅, g₆⟩ := hfits'
    obtain ⟨h₁, h⟩ := encodeLe_append_inj f₁ g₁ h.2
    obtain ⟨h₂, h⟩ := encodeLe_append_inj f₂ g₂ h
    obtain ⟨h₃, h⟩ := encodeLe_append_inj f₃ g₃ h
    obtain ⟨h₄, h⟩ := hash_append_inj h
    obtain ⟨h₅, h⟩ := hash_append_inj h
    obtain ⟨h₆, h⟩ := hash_append_inj h
    obtain ⟨h₇, h⟩ := encodeLe_append_inj f₄ g₄ h
    obtain ⟨h₈, h⟩ := encodeLe_append_inj f₅ g₅ h
    obtain ⟨h₉, -⟩ := encodeLe_append_inj f₆ g₆ h
    obtain ⟨_, _, _, _, _, _, _, _, _⟩ := batch
    obtain ⟨_, _, _, _, _, _, _, _, _⟩ := batch'
    simp only at h₁ h₂ h₃ h₄ h₅ h₆ h₇ h₈ h₉
    rw [h₁, h₂, h₃, h₄, h₅, h₆, h₇, h₈, h₉]
  case readBarrier.readBarrier nonce nonce' =>
    rw [(encodeLe_append_inj hfits hfits' h.2).1]
  case trim.trim record record' =>
    obtain ⟨f₁, f₂, f₃⟩ := hfits
    obtain ⟨g₁, g₂, g₃⟩ := hfits'
    obtain ⟨h₁, h⟩ := encodeLe_append_inj f₁ g₁ h.2
    obtain ⟨h₂, h⟩ := hash_append_inj h
    obtain ⟨h₃, h⟩ := encodeLe_append_inj f₂ g₂ h
    obtain ⟨h₄, -⟩ := encodeLe_append_inj f₃ g₃ h
    obtain ⟨_, _, _, _⟩ := record
    obtain ⟨_, _, _, _⟩ := record'
    simp only at h₁ h₂ h₃ h₄
    rw [h₁, h₂, h₃, h₄]
  case transferLease.transferLease lease lease' =>
    obtain ⟨f₁, f₂, f₃, f₄, f₅⟩ := hfits
    obtain ⟨g₁, g₂, g₃, g₄, g₅⟩ := hfits'
    obtain ⟨h₁, h⟩ := encodeLe_append_inj f₁ g₁ h.2
    obtain ⟨h₂, h⟩ := encodeLe_append_inj f₂ g₂ h
    obtain ⟨h₃, h⟩ := encodeLe_append_inj f₃ g₃ h
    obtain ⟨h₄, h⟩ := hash_append_inj h
    obtain ⟨h₅, h⟩ := encodeLe_append_inj f₄ g₄ h
    obtain ⟨h₆, -⟩ := encodeLe_append_inj f₅ g₅ h
    obtain ⟨_, _, _, _, _, _⟩ := lease
    obtain ⟨_, _, _, _, _, _⟩ := lease'
    simp only at h₁ h₂ h₃ h₄ h₅ h₆
    rw [h₁, h₂, h₃, h₄, h₅, h₆]
  case leaseComplete.leaseComplete leaseId leaseId' =>
    rw [(encodeLe_append_inj hfits hfits' h.2).1]
  all_goals exact absurd h.1 (by decide)

theorem StopSign.members_append_inj {members members' : List ℕ} (hlen : members.length = members'.length)
    (hfits : ∀ member ∈ members, member < 256 ^ 4) (hfits' : ∀ member ∈ members', member < 256 ^ 4)
    (h : members.flatMap (encodeLe 4) ++ rest = members'.flatMap (encodeLe 4) ++ rest') :
    members = members' ∧ rest = rest' := by
  have hread : Reads (Cursor.many (Cursor.int () 4) members.length) (members.flatMap (encodeLe 4)) members :=
    Reads.many fun member hmember => Reads.int () (hfits member hmember)
  have hread' : Reads (Cursor.many (Cursor.int () 4) members.length) (members'.flatMap (encodeLe 4))
      members' := by
    rw [hlen]
    exact Reads.many fun member hmember => Reads.int () (hfits' member hmember)
  exact hread.inj hread' h

theorem Entry.encode_append_inj {entry entry' : Entry} (hfits : entry.Fits) (hfits' : entry'.Fits)
    (h : entry.encode ++ rest = entry'.encode ++ rest') : entry = entry' := by
  cases entry with
  | command cmd =>
    cases entry' with
    | command cmd' =>
      simp only [encode, List.cons_append, List.cons.injEq, true_and, Command.encode,
        List.append_assoc] at h
      rw [Command.encodeFields_append_inj hfits hfits' h]
    | stop stop' =>
      simp only [encode, List.cons_append, List.cons.injEq] at h
      exact absurd h.1 (by decide)
  | stop stop =>
    cases entry' with
    | command cmd' =>
      simp only [encode, List.cons_append, List.cons.injEq] at h
      exact absurd h.1 (by decide)
    | stop stop' =>
      simp only [encode, List.cons_append, List.cons.injEq, true_and, List.append_assoc] at h
      obtain ⟨f₁, f₂, f₃, f₄⟩ := hfits
      obtain ⟨g₁, g₂, g₃, g₄⟩ := hfits'
      simp only [maxVoters, maxStopMetadataBytes] at f₂ f₄ g₂ g₄
      obtain ⟨h₁, h⟩ := encodeLe_append_inj f₁ g₁ h
      obtain ⟨hcount, h⟩ := encodeLe_append_inj (by omega) (by omega) h
      obtain ⟨h₂, h⟩ := StopSign.members_append_inj hcount f₃ g₃ h
      obtain ⟨hsize, h⟩ := encodeLe_append_inj (by omega) (by omega) h
      obtain ⟨h₃, -⟩ := List.append_inj h hsize
      obtain ⟨_, _, _⟩ := stop
      obtain ⟨_, _, _⟩ := stop'
      simp only at h₁ h₂ h₃
      rw [h₁, h₂, h₃]

end Injective

/-! ### The chain -/

/-- A chosen entry with its slot and the configuration it was chosen in. -/
structure ChosenEntry where
  configurationId : ℕ
  slot : ℕ
  entry : Entry
  deriving DecidableEq

def ChosenEntry.Fits (chosen : ChosenEntry) : Prop :=
  chosen.configurationId < 256 ^ 8 ∧ chosen.slot < 256 ^ 8 ∧ chosen.entry.Fits

namespace History

/-- The anchor after a sequence of chosen entries. -/
def anchor (databaseId : ℕ) (chosen : List ChosenEntry) : HashBytes :=
  chosen.foldl (fun previous e => advance previous databaseId e.configurationId e.slot e.entry)
    (genesis databaseId)

/-- The string hashed for a fresh database. -/
def genesisInput (databaseId : ℕ) : List UInt8 :=
  [0x00] ++ encodeLe 2 leafVersion ++ encodeLe 16 databaseId

/-- The string hashed for a leaf. -/
def leafInput (databaseId : ℕ) (e : ChosenEntry) : List UInt8 :=
  [0x01] ++ encodeLe 2 leafVersion ++ encodeLe 16 databaseId ++ encodeLe 8 e.configurationId ++
    encodeLe 8 e.slot ++ [e.entry.leafKind] ++
    (e.entry.encode ++ List.replicate (Entry.maxEntrySize - e.entry.encode.length) 0) ++ e.entry.leafHashes

/-- The string hashed for a step of the chain. -/
def stepInput (previous leaf : HashBytes) : List UInt8 :=
  [0x02] ++ previous.toList ++ leaf.toList

/-- Every string hashed on the way to an anchor. -/
inductive Hashed (databaseId : ℕ) : List ChosenEntry → List UInt8 → Prop
  | genesis : Hashed databaseId [] (genesisInput databaseId)
  | before {chosen : List ChosenEntry} {e : ChosenEntry} {input : List UInt8} :
    Hashed databaseId chosen input → Hashed databaseId (chosen ++ [e]) input
  | leaf (chosen : List ChosenEntry) (e : ChosenEntry) :
    Hashed databaseId (chosen ++ [e]) (leafInput databaseId e)
  | step (chosen : List ChosenEntry) (e : ChosenEntry) : Hashed databaseId (chosen ++ [e])
    (stepInput (anchor databaseId chosen) (Sha256.hash (leafInput databaseId e)))

section Chain

variable {databaseId databaseId' : ℕ} {chosen chosen' : List ChosenEntry} {e e' : ChosenEntry}

theorem anchor_nil (databaseId : ℕ) : anchor databaseId [] = Sha256.hash (genesisInput databaseId) := rfl

theorem anchor_concat (databaseId : ℕ) (chosen : List ChosenEntry) (e : ChosenEntry) :
    anchor databaseId (chosen ++ [e]) = Sha256.hash
      (stepInput (anchor databaseId chosen) (Sha256.hash (leafInput databaseId e))) := by
  rw [anchor, List.foldl_append]
  rfl

theorem genesisInput_inj (h : databaseId < 256 ^ 16) (h' : databaseId' < 256 ^ 16)
    (heq : genesisInput databaseId = genesisInput databaseId') : databaseId = databaseId' := by
  simp only [genesisInput, List.append_assoc, List.append_cancel_left_eq] at heq
  have hlast : encodeLe 16 databaseId ++ [] = encodeLe 16 databaseId' ++ [] := by
    rw [List.append_nil, List.append_nil, heq]
  exact (encodeLe_append_inj h h' hlast).1

theorem stepInput_inj {previous previous' leaf leaf' : HashBytes}
    (heq : stepInput previous leaf = stepInput previous' leaf') : previous = previous' ∧ leaf = leaf' := by
  simp only [stepInput, List.append_assoc, List.append_cancel_left_eq] at heq
  obtain ⟨hprevious, hrest⟩ := hash_append_inj heq
  have hlast : leaf.toList ++ [] = leaf'.toList ++ [] := by rw [List.append_nil, List.append_nil, hrest]
  exact ⟨hprevious, (hash_append_inj hlast).1⟩

theorem leafInput_inj (h : databaseId < 256 ^ 16) (h' : databaseId' < 256 ^ 16) (hfits : e.Fits)
    (hfits' : e'.Fits) (heq : leafInput databaseId e = leafInput databaseId' e') :
    databaseId = databaseId' ∧ e = e' := by
  obtain ⟨f₁, f₂, f₃⟩ := hfits
  obtain ⟨g₁, g₂, g₃⟩ := hfits'
  simp only [leafInput, List.append_assoc, List.append_cancel_left_eq] at heq
  obtain ⟨hdb, heq⟩ := encodeLe_append_inj h h' heq
  obtain ⟨hconf, heq⟩ := encodeLe_append_inj f₁ g₁ heq
  obtain ⟨hslot, heq⟩ := encodeLe_append_inj f₂ g₂ heq
  simp only [List.singleton_append, List.cons.injEq] at heq
  have hentry := Entry.encode_append_inj f₃ g₃ heq.2
  obtain ⟨_, _, _⟩ := e
  obtain ⟨_, _, _⟩ := e'
  simp only at hconf hslot hentry
  rw [hconf, hslot, hentry]
  exact ⟨hdb, rfl⟩

/-- **The anchor commits to the whole chosen order.** If no two strings hashed on the way to two anchors
collide and the anchors are equal, the databases and the sequences of chosen entries are the same. -/
theorem anchor_commits (hdb : databaseId < 256 ^ 16) (hdb' : databaseId' < 256 ^ 16)
    (hfits : ∀ e ∈ chosen, e.Fits) (hfits' : ∀ e ∈ chosen', e.Fits)
    (hinj : Set.InjOn Sha256.hash {input | Hashed databaseId chosen input ∨ Hashed databaseId' chosen' input})
    (heq : anchor databaseId chosen = anchor databaseId' chosen') :
    databaseId = databaseId' ∧ chosen = chosen' := by
  induction chosen using List.reverseRecOn generalizing chosen' with
  | nil =>
    cases chosen' using List.reverseRecOn with
    | nil =>
      have hinput := hinj (Or.inl .genesis) (Or.inr .genesis) heq
      exact ⟨genesisInput_inj hdb hdb' hinput, rfl⟩
    | append_singleton chosen' e' =>
      rw [anchor_nil, anchor_concat] at heq
      have hinput := hinj (Or.inl .genesis) (Or.inr (.step chosen' e')) heq
      cases hinput
  | append_singleton chosen e ih =>
    cases chosen' using List.reverseRecOn with
    | nil =>
      rw [anchor_nil, anchor_concat] at heq
      have hinput := hinj (Or.inl (.step chosen e)) (Or.inr .genesis) heq
      cases hinput
    | append_singleton chosen' e' =>
      rw [anchor_concat, anchor_concat] at heq
      obtain ⟨hprevious, hleaf⟩ :=
        stepInput_inj (hinj (Or.inl (.step chosen e)) (Or.inr (.step chosen' e')) heq)
      have hinput := hinj (Or.inl (.leaf chosen e)) (Or.inr (.leaf chosen' e')) hleaf
      have hlast := leafInput_inj hdb hdb' (hfits e (by simp)) (hfits' e' (by simp)) hinput
      have hinit := ih (fun e he => hfits e (List.mem_append_left _ he))
        (fun e he => hfits' e (List.mem_append_left _ he))
        (hinj.mono fun input hin => hin.imp .before .before) hprevious
      rw [hinit.2, hlast.2]
      exact ⟨hlast.1, rfl⟩

/-! ### A noop and a batch -/

theorem Hashed.concat_cases {input : List UInt8} (h : Hashed databaseId (chosen ++ [e]) input) :
    Hashed databaseId chosen input ∨ input = leafInput databaseId e ∨
      input = stepInput (anchor databaseId chosen) (Sha256.hash (leafInput databaseId e)) := by
  generalize hlist : chosen ++ [e] = list at h
  cases h with
  | genesis => exact absurd hlist (by simp)
  | before h =>
    obtain ⟨rfl, -⟩ := List.append_inj' hlist rfl
    exact Or.inl h
  | leaf chosen' e' =>
    obtain ⟨rfl, he⟩ := List.append_inj' hlist rfl
    rw [List.singleton_inj.1 he]
    exact Or.inr (Or.inl rfl)
  | step chosen' e' =>
    obtain ⟨rfl, he⟩ := List.append_inj' hlist rfl
    rw [List.singleton_inj.1 he]
    exact Or.inr (Or.inr rfl)

theorem Hashed.nil_eq {input : List UInt8} (h : Hashed databaseId [] input) :
    input = genesisInput databaseId := by
  generalize hlist : ([] : List ChosenEntry) = list at h
  cases h with
  | genesis => rfl
  | before h => exact absurd hlist (by simp)
  | leaf chosen' e' => exact absurd hlist (by simp)
  | step chosen' e' => exact absurd hlist (by simp)

end Chain

def noopFirst : ChosenEntry := ⟨1, 1, .command .noop⟩

def batchNext : ChosenEntry :=
  ⟨2, 1, .command (.transactionBatch ⟨7, 1, 0, Journal.zeroHash, Journal.zeroHash, Journal.zeroHash, 1, 1, 1⟩)⟩

def noopLeaf : HashBytes :=
  #v[48, 179, 238, 125, 180, 222, 119, 250, 162, 188, 21, 72, 168, 79, 241, 227, 68, 161, 11, 35, 227,
    174, 242, 69, 255, 45, 168, 234, 185, 211, 138, 108]

def noopAnchor : HashBytes :=
  #v[193, 129, 193, 166, 129, 246, 0, 185, 118, 49, 141, 244, 116, 115, 67, 180, 99, 121, 123, 53, 239,
    146, 150, 122, 187, 226, 199, 118, 154, 113, 59, 254]

theorem hash_noopLeaf : Sha256.hash (leafInput 7 noopFirst) = noopLeaf := by decide +kernel

theorem hash_noopAnchor : Sha256.hash (stepInput (anchor 7 []) noopLeaf) = noopAnchor := by decide +kernel

theorem anchor_noopFirst : anchor 7 [noopFirst] = noopAnchor := by
  have hstep := anchor_concat 7 [] noopFirst
  rw [List.nil_append, hash_noopLeaf, hash_noopAnchor] at hstep
  exact hstep

/-- The strings hashed for the two entries. -/
def hashedOfTwo : List (List UInt8) :=
  [genesisInput 7, leafInput 7 noopFirst, stepInput (anchor 7 []) (Sha256.hash (leafInput 7 noopFirst)),
    leafInput 7 batchNext, stepInput (anchor 7 [noopFirst]) (Sha256.hash (leafInput 7 batchNext))]

theorem mem_hashedOfTwo {input : List UInt8} (h : Hashed 7 [noopFirst, batchNext] input) :
    input ∈ hashedOfTwo := by
  have hconcat : Hashed 7 ([noopFirst] ++ [batchNext]) input := h
  rcases hconcat.concat_cases with hfirst | rfl | rfl
  · have hsingle : Hashed 7 ([] ++ [noopFirst]) input := hfirst
    rcases hsingle.concat_cases with hnil | rfl | rfl
    · rw [hnil.nil_eq]
      exact List.mem_cons_self
    · simp only [hashedOfTwo, List.mem_cons, true_or, or_true]
    · simp only [hashedOfTwo, List.mem_cons, true_or, or_true]
  · simp only [hashedOfTwo, List.mem_cons, true_or, or_true]
  · simp only [hashedOfTwo, List.mem_cons, true_or, or_true]

theorem nodup_hashedOfTwo : (hashedOfTwo.map Sha256.hash).Nodup := by
  simp only [hashedOfTwo, List.map_cons, List.map_nil, hash_noopLeaf, hash_noopAnchor, anchor_noopFirst]
  decide +kernel

theorem anchor_commits_batchNext :
    Set.InjOn Sha256.hash
        {input | Hashed 7 [noopFirst, batchNext] input ∨ Hashed 7 [noopFirst, batchNext] input} ∧
      (7 = 7 ∧ [noopFirst, batchNext] = [noopFirst, batchNext]) := by
  have hinj : Set.InjOn Sha256.hash
      {input | Hashed 7 [noopFirst, batchNext] input ∨ Hashed 7 [noopFirst, batchNext] input} := by
    intro x hx y hy heq
    exact List.inj_on_of_nodup_map nodup_hashedOfTwo (mem_hashedOfTwo (or_self_iff.1 hx))
      (mem_hashedOfTwo (or_self_iff.1 hy)) heq
  have hfits : ∀ e ∈ [noopFirst, batchNext], e.Fits := by
    intro e he
    rcases List.mem_pair.1 he with rfl | rfl
    · exact ⟨by decide, by decide, trivial⟩
    · exact ⟨by decide, by decide, by decide, by decide, by decide, by decide, by decide, by decide⟩
  exact ⟨hinj, anchor_commits (by decide) (by decide) hfits hfits hinj rfl⟩

end History

end Zaxonlite
