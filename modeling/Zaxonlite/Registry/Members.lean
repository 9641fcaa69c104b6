import Zaxonlite.Lib.Decimal
import Zaxonlite.Registry.Lineage

/-!
# Members of the transport

The server turns the decided registry into a generation of peer addresses. The registry admits an
endpoint as printable text with a colon in it; the server splits it at its last colon and reads a
sixteen-bit port. The second reading is the stricter one, and it comes after the replacement is decided.
-/

namespace Zaxonlite

def maxU16 : ℕ := 65535

structure PeerAddress where
  id : ℕ
  host : List UInt8
  port : ℕ
  role : Role
  deriving DecidableEq

structure MemberGeneration where
  configurationId : ℕ
  members : List PeerAddress
  deriving DecidableEq

/-- `lastIndexOfScalar`, as the bytes before and after the place it finds. -/
def splitLast (c : UInt8) : List UInt8 → Option (List UInt8 × List UInt8)
  | [] => none
  | b :: rest =>
    match splitLast c rest with
    | some (front, back) => some (b :: front, back)
    | none => if b = c then some ([], rest) else none

/-- `parseEndpoint`: host and port around the last colon. -/
def parseEndpoint (endpoint : List UInt8) : Except RegistryError (List UInt8 × ℕ) :=
  match splitLast 58 endpoint with
  | none => .error .invalidEndpoint
  | some (host, text) =>
    if host = [] ∨ text = [] then .error .invalidEndpoint
    else
      match Decimal.parseInt maxU16 text with
      | none => .error .invalidEndpoint
      | some port => .ok (host, port)

/-- One turn of the loop of `buildMemberGeneration`. -/
def memberAddress (record : NodeRecord) : Except RegistryError PeerAddress :=
  match parseEndpoint record.endpoint with
  | .error e => .error e
  | .ok parsed => .ok ⟨record.id, parsed.1, parsed.2, record.role⟩

def memberAddresses : List NodeRecord → Except RegistryError (List PeerAddress)
  | [] => .ok []
  | record :: rest => do
    let member ← memberAddress record
    let members ← memberAddresses rest
    pure (member :: members)

/-- `buildMemberGeneration`: from the decided registry, or from the startup flags where the host keeps
flag-fixed membership. -/
def buildMemberGeneration (decidedRegistry : Option Decided) (configurationId : ℕ)
    (fallback : List PeerAddress) : Except RegistryError MemberGeneration :=
  match decidedRegistry with
  | some decided => do
    let members ← memberAddresses decided.nodes
    pure ⟨decided.configurationId, members⟩
  | none => .ok ⟨configurationId, fallback⟩

def memberMatches (member : PeerAddress) (record : NodeRecord) : Bool :=
  member.id = record.id && member.role = record.role &&
    match parseEndpoint record.endpoint with
    | .error _ => false
    | .ok parsed => member.port = parsed.2 && member.host = parsed.1

def membershipMatchesRegistry (generation : MemberGeneration) (decided : Decided) : Bool :=
  generation.members.length = decided.nodes.length &&
    (generation.members.zip decided.nodes).all fun p => memberMatches p.1 p.2

/-! ### The grammar of an address -/

/-- A host, a colon and a sixteen-bit port. -/
def Address (endpoint host : List UInt8) (port : ℕ) : Prop :=
  ∃ text, endpoint = host ++ 58 :: text ∧ host ≠ [] ∧ Decimal.Signed maxU16 text port

/-- Endpoints that are addresses, no two of the same place. -/
structure Addressable (endpoints : List (List UInt8)) : Prop where
  reads : ∀ e ∈ endpoints, ∃ host port, Address e host port
  apart : endpoints.Pairwise fun a b => ∀ host port, Address a host port → ¬Address b host port

theorem splitLast_eq_none {c : UInt8} {text : List UInt8} : splitLast c text = none ↔ c ∉ text := by
  induction text with
  | nil => exact ⟨fun _ => List.not_mem_nil, fun _ => rfl⟩
  | cons b rest ih =>
    rw [splitLast, List.mem_cons, not_or]
    cases hrest : splitLast c rest with
    | some found =>
      have hmem : c ∈ rest := by
        by_contra hno
        rw [ih.2 hno] at hrest
        cases hrest
      exact ⟨fun h => (by cases h), fun h => absurd hmem h.2⟩
    | none =>
      have hmem := ih.1 hrest
      by_cases hb : b = c
      · constructor
        · intro h
          rw [if_pos hb] at h
          cases h
        · intro h
          exact absurd hb.symm h.1
      · exact ⟨fun _ => ⟨fun h => hb h.symm, hmem⟩, fun _ => if_neg hb⟩

theorem splitLast_eq_some {c : UInt8} {text front back : List UInt8} :
    splitLast c text = some (front, back) ↔ text = front ++ c :: back ∧ c ∉ back := by
  induction text generalizing front with
  | nil =>
    constructor
    · intro h
      cases h
    · intro h
      exact absurd h.1 (by simp)
  | cons b rest ih =>
    rw [splitLast]
    cases hrest : splitLast c rest with
    | some found =>
      obtain ⟨front', back'⟩ := found
      dsimp only
      rw [Option.some.injEq, Prod.mk.injEq]
      constructor
      · rintro ⟨rfl, rfl⟩
        obtain ⟨hsplit, hno⟩ := ih.1 hrest
        exact ⟨by rw [hsplit, List.cons_append], hno⟩
      · rintro ⟨hsplit, hno⟩
        cases front with
        | nil =>
          obtain ⟨-, rfl⟩ := List.cons.inj hsplit
          rw [splitLast_eq_none.2 hno] at hrest
          cases hrest
        | cons f front =>
          obtain ⟨rfl, hrestSplit⟩ := List.cons.inj hsplit
          have hsame := ih.2 ⟨hrestSplit, hno⟩
          rw [hrest, Option.some.injEq, Prod.mk.injEq] at hsame
          exact ⟨by rw [hsame.1], hsame.2⟩
    | none =>
      have hno := splitLast_eq_none.1 hrest
      dsimp only
      rw [Option.ite_none_right_eq_some, Option.some.injEq, Prod.mk.injEq]
      constructor
      · rintro ⟨rfl, rfl, rfl⟩
        exact ⟨rfl, hno⟩
      · rintro ⟨hsplit, -⟩
        cases front with
        | nil =>
          obtain ⟨rfl, rfl⟩ := List.cons.inj hsplit
          exact ⟨rfl, rfl, rfl⟩
        | cons f front =>
          obtain ⟨rfl, rfl⟩ := List.cons.inj hsplit
          exact absurd (List.mem_append_right front List.mem_cons_self) hno

/-- **`parseEndpoint` reads exactly the addresses.** -/
theorem parseEndpoint_eq_ok {endpoint host : List UInt8} {port : ℕ} :
    parseEndpoint endpoint = .ok (host, port) ↔ Address endpoint host port := by
  unfold parseEndpoint Address
  constructor
  · intro h
    split at h
    · cases h
    · rename_i front text hsplit
      obtain ⟨hshape, -⟩ := splitLast_eq_some.1 hsplit
      split at h
      · cases h
      · rename_i hne
        split at h
        · cases h
        · rename_i value hport
          cases h
          exact ⟨text, hshape, fun hnil => hne (.inl hnil), Decimal.parseInt_eq_some.1 hport⟩
  · rintro ⟨text, hshape, hhost, hport⟩
    have hno : (58 : UInt8) ∉ text := hport.not_mem (by decide) (by decide) (by decide)
    have htext : text ≠ [] := by
      rintro rfl
      cases hport with
      | plain h => exact h.nonempty rfl
    rw [splitLast_eq_some.2 ⟨hshape, hno⟩]
    dsimp only
    rw [if_neg (not_or.2 ⟨hhost, htext⟩), Decimal.parseInt_eq_some.2 hport]

/-! ### A generation of a registry -/

theorem memberAddress_eq_ok {record : NodeRecord} {member : PeerAddress} :
    memberAddress record = .ok member ↔
      member.id = record.id ∧ member.role = record.role ∧
        Address record.endpoint member.host member.port := by
  unfold memberAddress
  rw [← parseEndpoint_eq_ok]
  cases hparse : parseEndpoint record.endpoint with
  | error e =>
    constructor
    · intro h
      cases h
    · intro h
      cases h.2.2
  | ok parsed =>
    constructor
    · intro h
      cases h
      exact ⟨rfl, rfl, rfl⟩
    · rintro ⟨hid, hrole, haddress⟩
      obtain rfl := Except.ok.inj haddress
      rw [← hid, ← hrole]

theorem memberMatches_iff {member : PeerAddress} {record : NodeRecord} :
    memberMatches member record = true ↔ memberAddress record = .ok member := by
  rw [memberAddress_eq_ok, ← parseEndpoint_eq_ok]
  unfold memberMatches
  cases hparse : parseEndpoint record.endpoint with
  | error e => simp
  | ok parsed =>
    obtain ⟨host, port⟩ := parsed
    simp only [Bool.and_eq_true, decide_eq_true_eq, Except.ok.injEq, Prod.mk.injEq]
    tauto

theorem memberAddresses_eq_ok {records : List NodeRecord} {members : List PeerAddress} :
    memberAddresses records = .ok members ↔ records.map memberAddress = members.map .ok := by
  induction records generalizing members with
  | nil =>
    cases members with
    | nil => exact ⟨fun _ => rfl, fun _ => rfl⟩
    | cons m ms => exact ⟨fun h => (by cases h), fun h => (by cases h)⟩
  | cons record rest ih =>
    rw [memberAddresses, Decided.bind_eq_ok, List.map_cons]
    constructor
    · rintro ⟨member, hmember, h⟩
      obtain ⟨ms, hms, h⟩ := Decided.bind_eq_ok.1 h
      obtain rfl := Except.ok.inj h
      rw [hmember, ih.1 hms, List.map_cons]
    · intro h
      cases members with
      | nil => cases h
      | cons m ms =>
        obtain ⟨hm, hms⟩ := List.cons.inj h
        exact ⟨m, hm, Decided.bind_eq_ok.2 ⟨ms, ih.2 hms, rfl⟩⟩

theorem exists_memberAddresses {records : List NodeRecord} :
    (∃ members, memberAddresses records = .ok members) ↔
      ∀ r ∈ records, ∃ host port, Address r.endpoint host port := by
  constructor
  · rintro ⟨members, h⟩ r hr
    have hmem := List.mem_map_of_mem (f := memberAddress) hr
    rw [memberAddresses_eq_ok.1 h] at hmem
    obtain ⟨member, -, hmember⟩ := List.mem_map.1 hmem
    exact ⟨_, _, (memberAddress_eq_ok.1 hmember.symm).2.2⟩
  · intro h
    induction records with
    | nil => exact ⟨[], rfl⟩
    | cons record rest ih =>
      obtain ⟨⟨host, port, haddress⟩, hrest⟩ := List.forall_mem_cons.1 h
      obtain ⟨members, hmembers⟩ := ih hrest
      have hmember : memberAddress record = .ok ⟨record.id, host, port, record.role⟩ :=
        memberAddress_eq_ok.2 ⟨rfl, rfl, haddress⟩
      refine ⟨⟨record.id, host, port, record.role⟩ :: members, memberAddresses_eq_ok.2 ?_⟩
      rw [List.map_cons, List.map_cons, hmember, memberAddresses_eq_ok.1 hmembers]

theorem membershipMatchesRegistry_of_built {d : Decided} {members : List PeerAddress}
    (h : memberAddresses d.nodes = .ok members) (configurationId : ℕ) :
    membershipMatchesRegistry ⟨configurationId, members⟩ d = true := by
  have hmap := memberAddresses_eq_ok.1 h
  have hlength : members.length = d.nodes.length := by
    have := congrArg List.length hmap
    rw [List.length_map, List.length_map] at this
    exact this.symm
  have hall : ∀ (members : List PeerAddress) (records : List NodeRecord),
      records.map memberAddress = members.map .ok →
        (members.zip records).all (fun p => memberMatches p.1 p.2) = true := by
    intro members
    induction members with
    | nil => exact fun _ _ => rfl
    | cons m ms ih =>
      intro records hmap
      cases records with
      | nil => rfl
      | cons r rs =>
        obtain ⟨hm, hms⟩ := List.cons.inj hmap
        rw [List.zip_cons_cons, List.all_cons, Bool.and_eq_true]
        exact ⟨memberMatches_iff.2 hm, ih rs hms⟩
  unfold membershipMatchesRegistry
  rw [Bool.and_eq_true, decide_eq_true_eq]
  exact ⟨hlength, hall members d.nodes hmap⟩

/-- Members are apart exactly when the endpoints they were read from are. -/
theorem pairwise_members {records : List NodeRecord} {members : List PeerAddress}
    (h : memberAddresses records = .ok members) :
    (members.Pairwise fun a b => ¬(a.host = b.host ∧ a.port = b.port)) ↔
      (records.map NodeRecord.endpoint).Pairwise fun a b =>
        ∀ host port, Address a host port → ¬Address b host port := by
  have hmap := memberAddresses_eq_ok.1 h
  have hlift : (members.Pairwise fun a b => ¬(a.host = b.host ∧ a.port = b.port)) ↔
      (members.map Except.ok).Pairwise fun (x y : Except RegistryError PeerAddress) =>
        ∀ a b, x = .ok a → y = .ok b → ¬(a.host = b.host ∧ a.port = b.port) := by
    rw [List.pairwise_map]
    refine List.Pairwise.iff_of_mem fun {a b} _ _ => ?_
    constructor
    · intro hapart a' b' ha hb
      rw [← Except.ok.inj ha, ← Except.ok.inj hb]
      exact hapart
    · intro hapart
      exact hapart a b rfl rfl
  rw [hlift, ← hmap, List.pairwise_map, List.pairwise_map]
  refine List.Pairwise.iff_of_mem fun {r s} hr hs => ?_
  simp only [memberAddress_eq_ok]
  constructor
  · intro hapart host port haddress haddress'
    exact hapart ⟨r.id, host, port, r.role⟩ ⟨s.id, host, port, s.role⟩ ⟨rfl, rfl, haddress⟩
      ⟨rfl, rfl, haddress'⟩ ⟨rfl, rfl⟩
  · rintro hapart a b ⟨-, -, ha⟩ ⟨-, -, hb⟩ ⟨hhost, hport⟩
    exact hapart a.host a.port ha (hhost ▸ hport ▸ hb)

/-- The decided registry yields a generation that matches it, with an address of its own for every
member. -/
def Startable (d : Decided) (configurationId : ℕ) (fallback : List PeerAddress) : Prop :=
  ∃ generation, buildMemberGeneration (some d) configurationId fallback = .ok generation ∧
    membershipMatchesRegistry generation d = true ∧
    generation.members.Pairwise fun a b => ¬(a.host = b.host ∧ a.port = b.port)

theorem startable_iff {d : Decided} {configurationId : ℕ} {fallback : List PeerAddress} :
    Startable d configurationId fallback ↔ Addressable (d.nodes.map NodeRecord.endpoint) := by
  have hreads : (∀ e ∈ d.nodes.map NodeRecord.endpoint, ∃ host port, Address e host port) ↔
      ∃ members, memberAddresses d.nodes = .ok members := by
    rw [exists_memberAddresses, List.forall_mem_map]
  constructor
  · rintro ⟨generation, hbuild, -, hapart⟩
    obtain ⟨members, hmembers, h⟩ := Decided.bind_eq_ok.1 hbuild
    obtain rfl := Except.ok.inj h
    exact ⟨hreads.2 ⟨members, hmembers⟩, (pairwise_members hmembers).1 hapart⟩
  · rintro ⟨hall, hapart⟩
    obtain ⟨members, hmembers⟩ := hreads.1 hall
    refine ⟨⟨d.configurationId, members⟩, Decided.bind_eq_ok.2 ⟨members, hmembers, rfl⟩,
      membershipMatchesRegistry_of_built hmembers _, (pairwise_members hmembers).2 hapart⟩

theorem Addressable.perm {es es' : List (List UInt8)} (h : Addressable es) (hperm : es.Perm es') :
    Addressable es' := by
  refine ⟨fun e he => h.reads e (hperm.mem_iff.2 he), ?_⟩
  refine (List.Perm.pairwise_iff (fun {a b} hab host port hb ha => ?_) hperm).1 h.apart
  exact hab host port ha hb

/-- The endpoints a replacement leaves in place, with the one it brings. -/
def endpointsAfter (d : Decided) (q : ReplacementRequest) : List (List UInt8) :=
  q.newEndpoint :: (d.nodes.filter fun r => r.id ≠ q.oldNodeId).map NodeRecord.endpoint

theorem endpoints_replaced {d : Decided} {q : ReplacementRequest} (hvalid : Decided.Valid d)
    (hfresh : Decided.Fresh d q) :
    ((d.replaced q (Decided.joining q)).nodes.map NodeRecord.endpoint).Perm (endpointsAfter d q) := by
  obtain ⟨front, r, back, hsplit, hid, -, hothers, hperm⟩ := hfresh.exchange hvalid
  have hkept : d.nodes.filter (fun r => r.id ≠ q.oldNodeId) = front ++ back := by
    have hfront : front.filter (fun r => decide (r.id ≠ q.oldNodeId)) = front :=
      List.filter_eq_self.2 fun s hs => decide_eq_true (hothers s (List.mem_append_left _ hs)).2
    have hback : back.filter (fun r => decide (r.id ≠ q.oldNodeId)) = back :=
      List.filter_eq_self.2 fun s hs => decide_eq_true (hothers s (List.mem_append_right _ hs)).2
    rw [hsplit, List.filter_append, hfront, List.filter_cons_of_neg (by simp [hid]), hback]
  rw [endpointsAfter, hkept]
  exact hperm.map _

theorem startable_replaced_iff {d : Decided} {q : ReplacementRequest} (hvalid : Decided.Valid d)
    (hfresh : d.validateRequest q = .ok .fresh) {identity : ℕ} {fallback : List PeerAddress} :
    Startable (d.replaced q (Decided.joining q)) identity fallback ↔
      Addressable (endpointsAfter d q) := by
  have hperm := endpoints_replaced hvalid (Decided.fresh_of_validateRequest hvalid hfresh)
  rw [startable_iff]
  exact ⟨fun ha => ha.perm hperm, fun ha => ha.perm hperm.symm⟩

/-- **A replacement leaves a startable cluster exactly when the endpoints are addresses.** From every
registry a lineage reaches, a fresh request succeeds, and the registry it leads to has a transport
generation of members that are apart if and only if the endpoints it keeps and the one it brings are
host and port, no two the same. -/
theorem Decided.Lineage.startable_iff_addressable {databaseId configurationId : ℕ}
    {records : List NodeRecord} {past : List Decided} {decided : List (Decided × ReplacementRequest)}
    {d : Decided} {q : ReplacementRequest}
    (h : Decided.Lineage databaseId configurationId records past decided d)
    (hfresh : d.validateRequest q = .ok .fresh) (identity : ℕ) (fallback : List PeerAddress) :
    ∃ next, d.successor q = .ok next ∧
      (Startable next identity fallback ↔ Addressable (endpointsAfter d q)) := by
  have hvalid := h.valid_last
  exact ⟨_, (Decided.successor_eq_ok hvalid).2 ⟨hfresh, rfl⟩, startable_replaced_iff hvalid hfresh⟩

/-! ### A small cluster -/

section Sample

open Decided

/-- Replace the second voter by a node at `endpoint`. -/
def requestAt (endpoint : List UInt8) : ReplacementRequest :=
  { sampleRequest with newEndpoint := endpoint }

theorem endpointsAfter_requestAt (endpoint : List UInt8) :
    endpointsAfter sampleRegistry (requestAt endpoint) = [endpoint, asciiBytes "a:1", asciiBytes "c:1"] :=
  rfl

theorem addressable_of_parse {endpoints : List (List UInt8)} (parsed : List (List UInt8 × ℕ))
    (h : endpoints.map parseEndpoint = parsed.map .ok) (hapart : parsed.Nodup) :
    Addressable endpoints := by
  have hok : ∀ e ∈ endpoints, ∃ p, parseEndpoint e = .ok p := by
    intro e he
    have hmem := List.mem_map_of_mem (f := parseEndpoint) he
    rw [h] at hmem
    obtain ⟨p, -, hp⟩ := List.mem_map.1 hmem
    exact ⟨p, hp.symm⟩
  refine ⟨fun e he => ?_, ?_⟩
  · obtain ⟨p, hp⟩ := hok e he
    exact ⟨p.1, p.2, parseEndpoint_eq_ok.1 hp⟩
  · have hlift : (parsed.map fun p => (.ok p : Except RegistryError _)).Pairwise (· ≠ ·) :=
      List.pairwise_map.2 (hapart.imp fun hne heq => hne (Except.ok.inj heq))
    rw [← h] at hlift
    refine (List.pairwise_map.1 hlift).imp fun {a b} hne host port ha hb => hne ?_
    rw [parseEndpoint_eq_ok.2 ha, parseEndpoint_eq_ok.2 hb]

theorem startable_iff_addressable_sample : ∃ next, sampleRegistry.successor sampleRequest = .ok next ∧
    Startable next 1 [] := by
  obtain ⟨next, hnext, hiff⟩ := (Lineage.bootstrap bootstrapAt_sample).startable_iff_addressable
    (q := sampleRequest) (by decide) 1 []
  have haddressable : Addressable (endpointsAfter sampleRegistry sampleRequest) :=
    addressable_of_parse [([100], 1), ([97], 1), ([99], 1)] (by decide) (by decide)
  exact ⟨next, hnext, hiff.2 haddressable⟩

/-- **An admitted endpoint may name no port, or the place of another member.** -/
theorem admitted_endpoint_unstartable :
    Lineage 7 1 sampleVoters [] [] sampleRegistry ∧
      (∃ next, sampleRegistry.validateRequest (requestAt (asciiBytes "d:")) = .ok .fresh ∧
        sampleRegistry.successor (requestAt (asciiBytes "d:")) = .ok next ∧
        ∀ generation, buildMemberGeneration (some next) 1 [] ≠ .ok generation) ∧
      ∃ next, sampleRegistry.validateRequest (requestAt (asciiBytes "a:01")) = .ok .fresh ∧
        sampleRegistry.successor (requestAt (asciiBytes "a:01")) = .ok next ∧ ¬Startable next 1 [] := by
  have hportless : sampleRegistry.validateRequest (requestAt (asciiBytes "d:")) = .ok .fresh := by decide
  have hshared : sampleRegistry.validateRequest (requestAt (asciiBytes "a:01")) = .ok .fresh := by decide
  refine ⟨.bootstrap bootstrapAt_sample,
    ⟨_, hportless, (successor_eq_ok sampleRegistry_valid).2 ⟨hportless, rfl⟩, ?_⟩,
    ⟨_, hshared, (successor_eq_ok sampleRegistry_valid).2 ⟨hshared, rfl⟩, ?_⟩⟩
  · intro generation hbuild
    obtain ⟨members, hmembers, -⟩ := bind_eq_ok.1 hbuild
    have hjoined : joining (requestAt (asciiBytes "d:")) ∈
        (sampleRegistry.replaced (requestAt (asciiBytes "d:"))
          (joining (requestAt (asciiBytes "d:")))).nodes :=
      (sortNodes_perm _).mem_iff.2 (by decide)
    obtain ⟨host, port, haddress⟩ := exists_memberAddresses.1 ⟨members, hmembers⟩ _ hjoined
    have hparse := parseEndpoint_eq_ok.2 haddress
    have herror : parseEndpoint (asciiBytes "d:") = .error .invalidEndpoint := by decide
    exact absurd (herror.symm.trans hparse) (by simp)
  · rw [startable_replaced_iff sampleRegistry_valid hshared, endpointsAfter_requestAt]
    intro haddressable
    have hone : Address (asciiBytes "a:1") [97] 1 := parseEndpoint_eq_ok.1 (by decide)
    have hother : Address (asciiBytes "a:01") [97] 1 := parseEndpoint_eq_ok.1 (by decide)
    exact (List.pairwise_cons.1 haddressable.apart).1 _ List.mem_cons_self [97] 1 hother hone

end Sample

end Zaxonlite
