import Zaxonlite.Command
import Zaxonlite.Lib.Decimal

/-!
# Certificate names

A certificate's common name says who presents it: `zaxon-node-<id>` is a storage node, `zaxon-admin-<name>`
an administrator. The side that issues writes one name for each principal. The side that reads a node's name
hands what follows `zaxon-node-` to the library's integer parser, which takes a plus sign, zeros in front
and underscores between the digits as well, so a node has other names besides the one it is issued.
-/

namespace Zaxonlite

namespace Enrollment

open Decimal (Signed parseInt)

def maxCommonName : ℕ := 64

def maxAdminName : ℕ := 32

/-- What follows `lead` in a name that starts with it: `startsWith` and the slice behind it. -/
def suffixOf (lead name : List UInt8) : Option (List UInt8) :=
  name.dropPrefix? lead

def nodePrefix : List UInt8 := asciiBytes "zaxon-node-"

def adminPrefix : List UInt8 := asciiBytes "zaxon-admin-"

def nodeCommonName (nodeId : UInt32) : List UInt8 :=
  nodePrefix ++ Decimal.ofNat nodeId.toNat

def parseNodeCommonName (name : List UInt8) : Option UInt32 := do
  let suffix ← suffixOf nodePrefix name
  if suffix.length = 0 then none
  else
    let id ← parseInt 4294967295 suffix
    if id = 0 then none else some (UInt32.ofNat id)

def adminCommonName (name : List UInt8) : List UInt8 :=
  adminPrefix ++ name

/-- A lowercase letter, a digit or a hyphen. -/
def AdminByte (byte : UInt8) : Prop :=
  97 ≤ byte ∧ byte ≤ 122 ∨ 48 ≤ byte ∧ byte ≤ 57 ∨ byte = 45

instance (byte : UInt8) : Decidable (AdminByte byte) :=
  inferInstanceAs (Decidable (_ ∨ _))

instance (suffix : List UInt8) : Decidable (∀ byte ∈ suffix, AdminByte byte) :=
  List.decidableBAll AdminByte suffix

def parseAdminCommonName (name : List UInt8) : Option (List UInt8) := do
  let suffix ← suffixOf adminPrefix name
  if suffix.length = 0 ∨ suffix.length > maxAdminName then none
  else if ∀ byte ∈ suffix, AdminByte byte then some suffix
  else none

/-- `requireNodeName`, for a name that was read out of its certificate. -/
def requireNodeName (name : List UInt8) (nodeId : UInt32) : Bool :=
  0 < name.length && name.length < maxCommonName && nodeCommonName nodeId == name

/-! ### What a name should mean -/

structure AdmissibleName (name : List UInt8) : Prop where
  nonempty : name ≠ []
  length_le : name.length ≤ maxAdminName
  bytes : ∀ byte ∈ name, AdminByte byte

/-- The name is read back to a principal exactly when it is the name that principal is issued, and to at
most one kind of principal. -/
structure Canonical (name : List UInt8) : Prop where
  node : ∀ id, parseNodeCommonName name = some id ↔ id ≠ 0 ∧ name = nodeCommonName id
  admin : ∀ a, parseAdminCommonName name = some a ↔ AdmissibleName a ∧ name = adminCommonName a
  apart : ¬((parseNodeCommonName name).isSome ∧ (parseAdminCommonName name).isSome)

/-- A node's name with its number spelt another way: a plus sign or a zero in front of it, or an
underscore in it. -/
def Respelled (name : List UInt8) : Prop :=
  ∃ suffix id, name = nodePrefix ++ suffix ∧ Signed 4294967295 suffix id ∧ id ≠ 0 ∧
    (suffix.head? = some 43 ∨ suffix.head? = some 48 ∨ 95 ∈ suffix)

/-! ### Reading -/

theorem suffixOf_eq_some {lead name suffix : List UInt8} :
    suffixOf lead name = some suffix ↔ name = lead ++ suffix := by
  rw [suffixOf, List.dropPrefix?_eq_some_iff]
  constructor
  · rintro ⟨lead', heq, hlead⟩
    rw [heq, eq_of_beq hlead]
  · intro heq
    exact ⟨lead, heq, beq_self_eq_true lead⟩

theorem parseNodeCommonName_eq_some {name : List UInt8} {id : UInt32} :
    parseNodeCommonName name = some id ↔
      id ≠ 0 ∧ ∃ suffix, name = nodePrefix ++ suffix ∧ Signed 4294967295 suffix id.toNat := by
  unfold parseNodeCommonName
  rw [Option.bind_eq_bind, Option.bind_eq_some_iff]
  constructor
  · rintro ⟨suffix, hsuffix, h⟩
    rw [Option.ite_none_left_eq_some, Option.bind_eq_bind, Option.bind_eq_some_iff] at h
    obtain ⟨-, n, hn, h⟩ := h
    rw [Option.ite_none_left_eq_some, Option.some.injEq] at h
    obtain ⟨hzero, rfl⟩ := h
    have hsigned := Decimal.parseInt_eq_some.1 hn
    have htoNat : (UInt32.ofNat n).toNat = n := UInt32.toNat_ofNat_of_lt' (hsigned.le_max.trans_lt (by decide))
    refine ⟨?_, suffix, suffixOf_eq_some.1 hsuffix, htoNat.symm ▸ hsigned⟩
    intro heq
    rw [heq] at htoNat
    exact hzero htoNat.symm
  · rintro ⟨hzero, suffix, hname, hsigned⟩
    refine ⟨suffix, suffixOf_eq_some.2 hname, ?_⟩
    rw [if_neg (by simpa using hsigned.ne_nil), Option.bind_eq_bind, Decimal.parseInt_eq_some.2 hsigned,
      Option.bind_some, if_neg, UInt32.ofNat_toNat]
    intro heq
    exact hzero (UInt32.toNat_inj.1 heq)

theorem parseAdminCommonName_eq_some {name a : List UInt8} :
    parseAdminCommonName name = some a ↔ AdmissibleName a ∧ name = adminCommonName a := by
  unfold parseAdminCommonName adminCommonName
  rw [Option.bind_eq_bind, Option.bind_eq_some_iff]
  constructor
  · rintro ⟨suffix, hsuffix, h⟩
    rw [Option.ite_none_left_eq_some, Option.ite_none_right_eq_some, Option.some.injEq, not_or] at h
    obtain ⟨⟨hne, hle⟩, hbytes, rfl⟩ := h
    exact ⟨⟨fun heq => hne (by rw [heq]; rfl), Nat.le_of_not_lt hle, hbytes⟩, suffixOf_eq_some.1 hsuffix⟩
  · rintro ⟨ha, hname⟩
    refine ⟨a, suffixOf_eq_some.2 hname, ?_⟩
    have hbounds : ¬(a.length = 0 ∨ a.length > maxAdminName) := by
      rw [not_or]
      exact ⟨fun heq => ha.nonempty (List.eq_nil_of_length_eq_zero heq), Nat.not_lt.2 ha.length_le⟩
    rw [if_neg hbounds, if_pos ha.bytes]

theorem prefixes_apart {s t : List UInt8} : nodePrefix ++ s ≠ adminPrefix ++ t := by
  intro heq
  have hseventh := congrArg (fun name => name[6]?) heq
  rw [List.getElem?_append_left (by decide), List.getElem?_append_left (by decide)] at hseventh
  exact absurd hseventh (by decide)

/-! ### Writing -/

theorem signed_ofNat (id : UInt32) : Signed 4294967295 (Decimal.ofNat id.toNat) id.toNat := by
  have hle : id.toNat ≤ 4294967295 := Nat.le_of_lt_succ id.toNat_lt
  have h := Signed.plain (Decimal.numeral_ofNat id.toNat) ((Decimal.value_ofNat id.toNat).symm ▸ hle)
  rw [Decimal.value_ofNat] at h
  exact h

theorem parseNodeCommonName_nodeCommonName {id : UInt32} (h : id ≠ 0) :
    parseNodeCommonName (nodeCommonName id) = some id :=
  parseNodeCommonName_eq_some.2 ⟨h, _, rfl, signed_ofNat id⟩

theorem length_nodeCommonName_lt (id : UInt32) : (nodeCommonName id).length < maxCommonName := by
  have hle : (Decimal.ofNat id.toNat).length ≤ 10 :=
    Decimal.length_ofNat_le (by decide) (id.toNat_lt.trans (by decide))
  have hprefix : nodePrefix.length = 11 := by decide
  have hmax : maxCommonName = 64 := rfl
  rw [nodeCommonName, List.length_append]
  omega

theorem requireNodeName_iff {name : List UInt8} {id : UInt32} :
    requireNodeName name id = true ↔ name = nodeCommonName id := by
  rw [requireNodeName, Bool.and_eq_true, Bool.and_eq_true, decide_eq_true_iff, decide_eq_true_iff,
    beq_iff_eq]
  constructor
  · intro h
    exact h.2.symm
  · rintro rfl
    refine ⟨⟨?_, length_nodeCommonName_lt id⟩, rfl⟩
    rw [nodeCommonName, List.length_append]
    exact Nat.add_pos_left (by decide) _

theorem not_respelled_nodeCommonName {id : UInt32} (h : id ≠ 0) : ¬Respelled (nodeCommonName id) := by
  rintro ⟨suffix, n, hname, -, -, hspelling⟩
  have hpos : 0 < id.toNat := Nat.pos_of_ne_zero fun heq => h (UInt32.toNat_inj.1 heq)
  rw [← List.append_cancel_left hname] at hspelling
  rcases hspelling with hplus | hzero | hunder
  · exact Decimal.not_mem_ofNat id.toNat (by decide) (List.mem_of_head? hplus)
  · exact Decimal.head?_ofNat hpos hzero
  · exact Decimal.not_mem_ofNat id.toNat (by decide) hunder

/-- A number that is not spelt another way is spelt the way it is written. -/
theorem eq_ofNat_of_signed {max n : ℕ} {suffix : List UInt8} (h : Signed max suffix n) (hn : n ≠ 0)
    (hplus : suffix.head? ≠ some 43) (hzero : suffix.head? ≠ some 48) (hunder : 95 ∉ suffix) :
    suffix = Decimal.ofNat n := by
  cases h with
  | plain hnum hmax =>
    refine (Decimal.ofNat_value hnum.nonempty (fun c hc => ?_) hzero).symm
    exact (hnum.figures c hc).resolve_left fun heq => hunder (heq ▸ hc)
  | plus hnum hmax => exact absurd rfl hplus
  | minus hnum hvalue => exact absurd rfl hn

/-! ### The names that are canonical -/

/-- **A name is canonical exactly when it is not another spelling of a node's name.** -/
theorem canonical_iff_not_respelled (name : List UInt8) : Canonical name ↔ ¬Respelled name := by
  constructor
  · rintro hcanonical hrespelled
    obtain ⟨suffix, n, hname, hsigned, hn, hspelling⟩ := id hrespelled
    have htoNat : (UInt32.ofNat n).toNat = n :=
      UInt32.toNat_ofNat_of_lt' (hsigned.le_max.trans_lt (by decide))
    have hne : UInt32.ofNat n ≠ 0 := by
      intro heq
      rw [heq] at htoNat
      exact hn htoNat.symm
    have hparse : parseNodeCommonName name = some (UInt32.ofNat n) :=
      parseNodeCommonName_eq_some.2 ⟨hne, suffix, hname, htoNat.symm ▸ hsigned⟩
    obtain ⟨-, hissued⟩ := (hcanonical.node _).1 hparse
    rw [hissued] at hrespelled
    exact not_respelled_nodeCommonName hne hrespelled
  · intro hplain
    refine ⟨fun id => ⟨?_, ?_⟩, fun a => parseAdminCommonName_eq_some, ?_⟩
    · intro hparse
      obtain ⟨hne, suffix, hname, hsigned⟩ := parseNodeCommonName_eq_some.1 hparse
      have hpos : id.toNat ≠ 0 := fun heq => hne (UInt32.toNat_inj.1 heq)
      have hspelling : ¬(suffix.head? = some 43 ∨ suffix.head? = some 48 ∨ 95 ∈ suffix) :=
        fun h => hplain ⟨suffix, id.toNat, hname, hsigned, hpos, h⟩
      rw [not_or, not_or] at hspelling
      obtain ⟨hplus, hzero, hunder⟩ := hspelling
      refine ⟨hne, ?_⟩
      rw [hname, nodeCommonName, ← eq_ofNat_of_signed hsigned hpos hplus hzero hunder]
    · rintro ⟨hne, rfl⟩
      exact parseNodeCommonName_nodeCommonName hne
    · rintro ⟨hnode, hadmin⟩
      obtain ⟨id, hid⟩ := Option.isSome_iff_exists.1 hnode
      obtain ⟨a, ha⟩ := Option.isSome_iff_exists.1 hadmin
      obtain ⟨-, suffix, hname, -⟩ := parseNodeCommonName_eq_some.1 hid
      obtain ⟨-, hname'⟩ := parseAdminCommonName_eq_some.1 ha
      exact prefixes_apart (hname.symm.trans hname')

/-- Node 7 has a second name, which the check at issue refuses. -/
theorem plus_seven_not_canonical :
    ¬Canonical (asciiBytes "zaxon-node-+7") ∧
      parseNodeCommonName (asciiBytes "zaxon-node-+7") = some 7 ∧
      parseNodeCommonName (asciiBytes "zaxon-node-7") = some 7 ∧
      requireNodeName (asciiBytes "zaxon-node-+7") 7 = false := by
  have hparse : parseNodeCommonName (asciiBytes "zaxon-node-+7") = some 7 := by decide
  refine ⟨?_, hparse, by decide, by decide⟩
  intro hcanonical
  exact absurd ((hcanonical.node 7).1 hparse).2 (by decide)

end Enrollment

end Zaxonlite
