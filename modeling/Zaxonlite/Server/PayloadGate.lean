import Mathlib.Data.List.AList
import Zaxonlite.Lib.Chronicle
import Zaxonlite.Storage.Payload
import Zaxonlite.Wire.Envelope

/-!
# The payload gate

A server gives an envelope that names a payload to its node only when the payload is stored. Until then the envelope is
held under the payload's hash and the peer is asked for the payload; the payload's arrival releases what is held under
its hash. The table is bounded, and what finds no place in it is dropped. What the node and the other threads do
meanwhile is given with each frame.
-/

namespace Zaxonlite

open Bytes (encodeLe readLe)

def heldHashLimit : ℕ := 64

def heldPerHash : ℕ := 8

/-- The envelopes that wait for one payload, and the peer that sent the last of them. -/
structure Held where
  envelopes : List Envelope
  peer : ℕ
  bound : envelopes.length ≤ heldPerHash

namespace Held

def empty : Held := ⟨[], 0, Nat.zero_le _⟩

/-- One envelope more, if there is room, and whether there is. -/
def hold (h : Held) (envelope : Envelope) (peer : ℕ) : Held × Bool :=
  if hroom : h.envelopes.length < heldPerHash then
    (⟨h.envelopes ++ [envelope], peer, by rw [List.length_append]; exact hroom⟩, true)
  else ({ h with peer := peer }, false)

end Held

structure GateNode where
  configurationId : ℕ
  /-- `join_descriptor != null`. -/
  joining : Bool
  store : PayloadStore

/-- What the gate shares with the rest of its server. -/
structure GateHost where
  node : GateNode
  transportConfigurationId : ℕ
  failed : Bool
  observedLeaderDecided : ℕ

/-- What the node and the rest of the server do while a frame is handled. -/
structure Surroundings where
  /-- `stepEnvelope`: the node it leaves, and whether it succeeds. -/
  stepEnvelope : Envelope → GateNode → GateNode × Bool
  pump : GateHost → GateHost
  /-- The peer has a sender. -/
  hasSender : Bool
  /-- The object of a payload can be read. -/
  readable : Bool
  /-- The store takes a payload. -/
  writable : Bool

/-- What a server does with the frames it receives. -/
inductive GateAction where
  /-- The connection is closed with `InvalidFrame`. -/
  | refuses (peer : ℕ)
  | requestsSnapshot (peer : ℕ)
  /-- An envelope passed every check but the one for its payload. -/
  | admits (peer : ℕ) (envelope : Envelope) (configurationId : ℕ) (host : GateHost)
  /-- The node, as it then is, is given an envelope; the store is the one its payload was looked up in. -/
  | steps (envelope : Envelope) (store : PayloadStore) (node : GateNode)
  | drops (envelope : Envelope)
  | requestsPayload (peer : ℕ) (hash : HashBytes)
  /-- A `payload_stored` frame, and the store it was sent from. -/
  | acknowledges (peer : ℕ) (hash : HashBytes) (store : PayloadStore)
  /-- A `payload_data` frame. -/
  | serves (peer : ℕ) (hash : HashBytes) (payload : List UInt8)

structure PayloadGate where
  nodeId : ℕ
  host : GateHost
  held : AList fun _ : HashBytes => Held
  heldTotal : ℕ

namespace PayloadGate

/-- A server that has received nothing yet. -/
def start (nodeId : ℕ) (host : GateHost) : PayloadGate := ⟨nodeId, host, ∅, 0⟩

def heldFor (g : PayloadGate) (hash : HashBytes) : List Envelope :=
  (g.held.lookup hash).elim [] Held.envelopes

def setHost (g : PayloadGate) (host : GateHost) : PayloadGate := { g with host := host }

/-- `holdEnvelope`, and whether the envelope is held. -/
def holdEnvelope (g : PayloadGate) (hash : HashBytes) (envelope : Envelope) (peer : ℕ) : PayloadGate × Bool :=
  match g.held.lookup hash with
  | none =>
    -- Bounded: what is dropped here is sent again.
    if g.heldTotal ≥ heldHashLimit then (g, false)
    else
      let (entry, isHeld) := Held.empty.hold envelope peer
      ({ g with held := g.held.insert hash entry, heldTotal := g.heldTotal + 1 }, isHeld)
  | some entry =>
    let (entry, isHeld) := entry.hold envelope peer
    ({ g with held := g.held.insert hash entry }, isHeld)

/-- `stepEnvelope`, and `failLocked` when it fails. -/
def give (w : Surroundings) (envelope : Envelope) (g : PayloadGate) : PayloadGate × Bool :=
  let (node, ok) := w.stepEnvelope envelope g.host.node
  (g.setHost { g.host with node := node, failed := g.host.failed || !ok }, ok)

/-- An envelope whose payload needs no waiting for. -/
def stepOne (w : Surroundings) (envelope : Envelope) (g : PayloadGate) : PayloadGate × List GateAction :=
  let (given, ok) := g.give w envelope
  (if ok then given.setHost (w.pump given.host) else given, [.steps envelope g.host.node.store g.host.node])

/-- The envelopes a payload releases, in the order they were held; a failure drops the rest. -/
def releaseAll (w : Surroundings) (store : PayloadStore) :
    List Envelope → PayloadGate → PayloadGate × List GateAction
  | [], g => (g.setHost (w.pump g.host), [])
  | envelope :: envelopes, g =>
    let (given, ok) := g.give w envelope
    if ok then
      let (released, actions) := releaseAll w store envelopes given
      (released, .steps envelope store g.host.node :: actions)
    else (given, .steps envelope store g.host.node :: envelopes.map .drops)

/-- What a heartbeat tells of the leader. -/
def observe (message : Message) (g : PayloadGate) : PayloadGate :=
  match message with
  | .heartbeat _ decidedThrough =>
    g.setHost { g.host with observedLeaderDecided := max g.host.observedLeaderDecided decidedThrough }
  | _ => g

/-- Payload before vote: the node is given what names no payload, or one that is stored. -/
def passPayload (w : Surroundings) (peer : ℕ) (envelope : Envelope) (g : PayloadGate) :
    PayloadGate × List GateAction :=
  match envelopePayloadHash envelope with
  | none => g.stepOne w envelope
  | some hash =>
    if w.readable && g.host.node.store.contains hash then g.stepOne w envelope
    else
      let (g, isHeld) := g.holdEnvelope hash envelope peer
      (g, (if isHeld then [] else [.drops envelope]) ++ if w.hasSender then [.requestsPayload peer hash] else [])

/-- An envelope that passed the checks of its frame. -/
def admitEnvelope (w : Surroundings) (peer : ℕ) (envelope : Envelope) (g : PayloadGate) :
    PayloadGate × List GateAction :=
  (g.observe envelope.message).passPayload w peer envelope

section Frames

-- The stop signs the consensus library's constructor accepts.
variable (createStop : StopSign → Bool)

def onEnvelopeFrame (w : Surroundings) (peer : ℕ) (body : List UInt8) (g : PayloadGate) :
    PayloadGate × List GateAction :=
  if body.length < 8 then (g, [.refuses peer])
  else
    let configurationId := readLe body 0 8
    match decodeEnvelope createStop (body.drop 8) with
    | .error _ => (g, [.refuses peer])
    | .ok envelope =>
      if envelope.sender ≠ peer ∨ envelope.receiver ≠ g.nodeId then (g, [.refuses peer])
      else if g.host.failed then (g, [])
      else if configurationId < g.host.node.configurationId then (g, [])
      else if configurationId > g.host.node.configurationId then (g, [.requestsSnapshot peer])
      else if g.host.node.configurationId ≠ g.host.transportConfigurationId then (g, [])
      else if g.host.node.joining then (g, [])
      else
        let (admitted, actions) := g.admitEnvelope w peer envelope
        (admitted, .admits peer envelope configurationId g.host :: actions)

def onPayloadData (w : Surroundings) (peer : ℕ) (body : List UInt8) (g : PayloadGate) :
    PayloadGate × List GateAction :=
  if body.length < 32 then (g, [.refuses peer])
  else
    let payload := body.drop 32
    let digest := Sha256.hash payload
    if body.take 32 ≠ digest.toList then (g, [.refuses peer])
    else if g.host.failed then (g, [])
    else if !w.writable then (g.setHost { g.host with failed := true }, [])
    else
      let store := g.host.node.store.put payload
      let stored := g.setHost { g.host with node := { g.host.node with store := store } }
      let acknowledged := if w.hasSender then [.acknowledges peer digest store] else []
      match stored.held.lookup digest with
      | none => (stored, acknowledged)
      | some entry =>
        let taken := { stored with held := stored.held.erase digest, heldTotal := stored.heldTotal - 1 }
        let (released, actions) := taken.releaseAll w store entry.envelopes
        (released, acknowledged ++ actions)

def onPayloadRequest (w : Surroundings) (peer : ℕ) (body : List UInt8) (g : PayloadGate) : List GateAction :=
  if h : body.length = 32 then
    if !w.hasSender then []
    else if !w.readable then []
    else
      let hash : HashBytes := ⟨body.toArray, h⟩
      (g.host.node.store.load hash).elim [] fun payload => [.serves peer hash payload]
  else []

inductive GateInput where
  | envelope (peer : ℕ) (body : List UInt8)
  | payloadData (peer : ℕ) (body : List UInt8)
  | payloadRequest (peer : ℕ) (body : List UInt8)
  /-- The rest of the server works between two frames. -/
  | elsewhere (host : GateHost)

/-- One input, `peer` being the authenticated node of the connection. -/
def handle (w : Surroundings) (input : GateInput) (g : PayloadGate) : PayloadGate × List GateAction :=
  match input with
  | .envelope peer body => g.onEnvelopeFrame createStop w peer body
  | .payloadData peer body => g.onPayloadData w peer body
  | .payloadRequest peer body => (g, g.onPayloadRequest w peer body)
  | .elsewhere host => (g.setHost host, [])

/-- A run, with everything the server did in it. -/
def run : List (Surroundings × GateInput) → PayloadGate → PayloadGate × List GateAction
  | [], g => (g, [])
  | (w, input) :: inputs, g =>
    let (handled, actions) := g.handle createStop w input
    let (last, rest) := run inputs handled
    (last, actions ++ rest)

end Frames

/-! ### What one frame does -/

section Keys

variable {κ : Type*} {β : κ → Type*} [DecidableEq κ] {a : κ} {s : AList β}

theorem length_keys_insert_of_mem (b : β a) (h : a ∈ s) : (s.insert a b).keys.length = s.keys.length := by
  rw [AList.keys_insert, List.length_cons, List.length_erase_add_one h]

theorem length_keys_insert_of_notMem (b : β a) (h : a ∉ s) : (s.insert a b).keys.length = s.keys.length + 1 := by
  rw [AList.keys_insert, List.length_cons, List.erase_of_not_mem h]

theorem length_keys_erase (h : a ∈ s) : (s.erase a).keys.length + 1 = s.keys.length := by
  rw [AList.keys_erase, List.length_erase_add_one h]

end Keys

/-- The envelope passed the checks of its frame. -/
structure Passed (nodeId peer : ℕ) (envelope : Envelope) (configurationId : ℕ) (host : GateHost) : Prop where
  sender : envelope.sender = peer
  receiver : envelope.receiver = nodeId
  running : host.failed = false
  joined : host.node.joining = false
  configuration : configurationId = host.node.configurationId
  transport : configurationId = host.transportConfigurationId

def Vouched (envelope : Envelope) (store : PayloadStore) : Prop :=
  ∀ hash, envelopePayloadHash envelope = some hash → store.contains hash = true

/-- An action that concerns no envelope. -/
inductive Plain : GateAction → Prop
  | refuses (peer : ℕ) : Plain (.refuses peer)
  | requestsSnapshot (peer : ℕ) : Plain (.requestsSnapshot peer)
  | acknowledges (peer : ℕ) {hash : HashBytes} {store : PayloadStore} (h : store.contains hash = true) :
    Plain (.acknowledges peer hash store)
  | serves (peer : ℕ) {hash : HashBytes} {payload : List UInt8} (h : Sha256.hash payload = hash) :
    Plain (.serves peer hash payload)

/-- The table is left alone. -/
structure SameTable (g g' : PayloadGate) : Prop where
  nodeId : g'.nodeId = g.nodeId
  held : g'.held = g.held
  heldTotal : g'.heldTotal = g.heldTotal

/-- The table takes an envelope, or has no room for it. -/
structure Takes (g g' : PayloadGate) (hash : HashBytes) (envelope : Envelope) (isHeld : Bool) : Prop where
  nodeId : g'.nodeId = g.nodeId
  total : g.heldTotal = g.held.keys.length → g'.heldTotal = g'.held.keys.length
  limit : g.heldTotal ≤ heldHashLimit → g'.heldTotal ≤ heldHashLimit
  mem : ∀ other, other ∈ g'.held → other ∈ g.held ∨ other = hash ∧ isHeld = true
  self : g'.heldFor hash = g.heldFor hash ++ if isHeld then [envelope] else []
  other : ∀ other, other ≠ hash → g'.heldFor other = g.heldFor other

/-- A payload takes what waited for it out of the table. -/
structure Frees (g g' : PayloadGate) (hash : HashBytes) : Prop where
  nodeId : g'.nodeId = g.nodeId
  held : g'.held = g.held.erase hash
  heldTotal : g'.heldTotal = g.heldTotal - 1

def stepsIn (store : PayloadStore) (given : Envelope × GateNode) : GateAction :=
  .steps given.1 store given.2

inductive Moved (g : PayloadGate) : PayloadGate → List GateAction → Prop
  | stays {g' : PayloadGate} {actions : List GateAction} (h : SameTable g g') (hactions : ∀ a ∈ actions, Plain a) :
    Moved g g' actions
  | steps {g' : PayloadGate} {peer : ℕ} {envelope : Envelope} {configurationId : ℕ} {host : GateHost}
    {store : PayloadStore} {node : GateNode} (h : SameTable g g')
    (hpassed : Passed g.nodeId peer envelope configurationId host) (hvouched : Vouched envelope store) :
    Moved g g' [.admits peer envelope configurationId host, .steps envelope store node]
  | holds {g' : PayloadGate} {peer : ℕ} {envelope : Envelope} {configurationId : ℕ} {host : GateHost}
    {hash : HashBytes} {isHeld : Bool} (h : Takes g g' hash envelope isHeld)
    (hpassed : Passed g.nodeId peer envelope configurationId host) (hhash : envelopePayloadHash envelope = some hash)
    (asks : Bool) :
    Moved g g' (.admits peer envelope configurationId host ::
      ((if isHeld then [] else [.drops envelope]) ++ if asks then [.requestsPayload peer hash] else []))
  | releases {g' : PayloadGate} {hash : HashBytes} {store : PayloadStore} {before : List GateAction}
    {given : List (Envelope × GateNode)} {lost : List Envelope} (h : Frees g g' hash) (hmem : hash ∈ g.held)
    (hbefore : ∀ a ∈ before, Plain a) (hstore : store.contains hash = true)
    (hheld : given.map Prod.fst ++ lost = g.heldFor hash) :
    Moved g g' (before ++ (given.map (stepsIn store) ++ lost.map .drops))

section Spec

variable {g : PayloadGate} {w : Surroundings}

theorem SameTable.setHost (host : GateHost) : SameTable g (g.setHost host) :=
  ⟨rfl, rfl, rfl⟩

theorem SameTable.trans {g' g'' : PayloadGate} (h : SameTable g g') (h' : SameTable g' g'') : SameTable g g'' :=
  ⟨h'.nodeId.trans h.nodeId, h'.held.trans h.held, h'.heldTotal.trans h.heldTotal⟩

theorem SameTable.heldFor {g' : PayloadGate} (h : SameTable g g') (hash : HashBytes) :
    g'.heldFor hash = g.heldFor hash := by
  rw [PayloadGate.heldFor, h.held, PayloadGate.heldFor]

theorem Takes.of_sameTable {o g' : PayloadGate} {hash : HashBytes} {envelope : Envelope} {isHeld : Bool}
    (h : Takes o g' hash envelope isHeld) (hsame : SameTable g o) : Takes g g' hash envelope isHeld where
  nodeId := h.nodeId.trans hsame.nodeId
  total htotal := h.total (by rw [hsame.heldTotal, hsame.held, htotal])
  limit hlimit := h.limit (by rwa [hsame.heldTotal])
  mem other hother := by
    rw [← hsame.held]
    exact h.mem other hother
  self := by rw [h.self, hsame.heldFor]
  other other hne := by rw [h.other other hne, hsame.heldFor]

theorem sameTable_give (envelope : Envelope) : SameTable g (g.give w envelope).1 :=
  SameTable.setHost _

theorem sameTable_stepOne (envelope : Envelope) : SameTable g (g.stepOne w envelope).1 := by
  rw [stepOne]
  dsimp only
  split
  · exact (sameTable_give envelope).trans (SameTable.setHost _)
  · exact sameTable_give envelope

/-- What is released is given to the node up to the first failure; the rest is dropped. -/
theorem releaseAll_spec (store : PayloadStore) (envelopes : List Envelope) (g : PayloadGate) :
    SameTable g (g.releaseAll w store envelopes).1 ∧
      ∃ (given : List (Envelope × GateNode)) (lost : List Envelope), given.map Prod.fst ++ lost = envelopes ∧
      (g.releaseAll w store envelopes).2 = given.map (stepsIn store) ++ lost.map .drops := by
  induction envelopes generalizing g with
  | nil => exact ⟨SameTable.setHost _, [], [], rfl, rfl⟩
  | cons envelope envelopes ih =>
    rw [releaseAll]
    dsimp only
    split
    · obtain ⟨hsame, given, lost, happend, hactions⟩ := ih (g.give w envelope).1
      refine ⟨(sameTable_give envelope).trans hsame, (envelope, g.host.node) :: given, lost, ?_, ?_⟩
      · rw [List.map_cons, List.cons_append, happend]
      · dsimp only
        rw [hactions, List.map_cons, List.cons_append, stepsIn]
    · exact ⟨sameTable_give envelope, [(envelope, g.host.node)], envelopes, rfl, rfl⟩

theorem heldFor_of_lookup {hash : HashBytes} {entry : Held} (h : g.held.lookup hash = some entry) :
    g.heldFor hash = entry.envelopes := by
  rw [heldFor, h, Option.elim_some]

theorem heldFor_insert (g : PayloadGate) (hash : HashBytes) (entry : Held) (total : ℕ) :
    heldFor { g with held := g.held.insert hash entry, heldTotal := total } hash = entry.envelopes := by
  rw [heldFor, AList.lookup_insert, Option.elim_some]

theorem heldFor_insert_ne (g : PayloadGate) {hash other : HashBytes} (entry : Held) (total : ℕ) (h : other ≠ hash) :
    heldFor { g with held := g.held.insert hash entry, heldTotal := total } other = g.heldFor other := by
  rw [heldFor, AList.lookup_insert_ne h, heldFor]

theorem hold_envelopes (entry : Held) (envelope : Envelope) (peer : ℕ) :
    (entry.hold envelope peer).1.envelopes =
      entry.envelopes ++ if (entry.hold envelope peer).2 then [envelope] else [] := by
  rw [Held.hold]
  split
  · rfl
  · exact (List.append_nil _).symm

theorem takes_holdEnvelope (g : PayloadGate) (hash : HashBytes) (envelope : Envelope) (peer : ℕ) :
    Takes g (g.holdEnvelope hash envelope peer).1 hash envelope (g.holdEnvelope hash envelope peer).2 := by
  rw [holdEnvelope]
  cases hlookup : g.held.lookup hash with
  | none =>
    dsimp only
    have hnot : hash ∉ g.held := AList.lookup_eq_none.1 hlookup
    split
    · exact ⟨rfl, id, id, fun _ => Or.inl, (List.append_nil _).symm, fun _ _ => rfl⟩
    · next hroom =>
      have hheld : (Held.empty.hold envelope peer).2 = true := rfl
      have hnone : g.heldFor hash = [] := by rw [heldFor, hlookup, Option.elim_none]
      refine ⟨rfl, fun htotal => ?_, fun _ => ?_, fun other hother => ?_, ?_,
        fun other hne => heldFor_insert_ne g _ _ hne⟩
      · rw [length_keys_insert_of_notMem _ hnot, htotal]
      · exact Nat.lt_of_not_le hroom
      · exact (AList.mem_insert g.held |>.1 hother).elim (fun h => Or.inr ⟨h, hheld⟩) Or.inl
      · rw [heldFor_insert, hold_envelopes, hnone]
        rfl
  | some entry =>
    dsimp only
    have hmem : hash ∈ g.held := AList.lookup_isSome.1 (by rw [hlookup]; rfl)
    refine ⟨rfl, fun htotal => ?_, id, fun other hother => ?_, ?_, fun other hne => heldFor_insert_ne g _ _ hne⟩
    · rw [length_keys_insert_of_mem _ hmem]
      exact htotal
    · exact Or.inl ((AList.mem_insert g.held |>.1 hother).elim (fun h => h ▸ hmem) id)
    · rw [heldFor_insert, hold_envelopes, heldFor_of_lookup hlookup]

theorem contains_put (store : PayloadStore) (payload : List UInt8) :
    (store.put payload).contains (Sha256.hash payload) = true := by
  obtain ⟨stored, hstored⟩ := store.load_put_self payload
  rw [PayloadStore.contains, hstored]
  rfl

theorem hash_of_load {store : PayloadStore} {hash : HashBytes} {payload : List UInt8}
    (h : store.load hash = some payload) : Sha256.hash payload = hash :=
  beq_iff_eq.1 (Option.filter_eq_some_iff.1 h).2

theorem sameTable_observe (message : Message) : SameTable g (g.observe message) := by
  cases message with
  | heartbeat => exact SameTable.setHost _
  | _ => exact ⟨rfl, rfl, rfl⟩

theorem moved_admit {peer : ℕ} {envelope : Envelope} {configurationId : ℕ} {host : GateHost}
    (hpassed : Passed g.nodeId peer envelope configurationId host) :
    Moved g (g.admitEnvelope w peer envelope).1
      (.admits peer envelope configurationId host :: (g.admitEnvelope w peer envelope).2) := by
  have hsame : SameTable g (g.observe envelope.message) := sameTable_observe _
  rw [admitEnvelope, passPayload]
  cases hhash : envelopePayloadHash envelope with
  | none =>
    refine .steps (hsame.trans (sameTable_stepOne envelope)) hpassed fun hash h => ?_
    rw [hhash] at h
    cases h
  | some hash =>
    dsimp only
    split
    · next hcontains =>
      refine .steps (hsame.trans (sameTable_stepOne envelope)) hpassed fun other h => ?_
      rw [hhash] at h
      obtain rfl := Option.some.inj h
      exact (Bool.and_eq_true_iff.1 hcontains).2
    · exact .holds ((takes_holdEnvelope _ hash envelope peer).of_sameTable hsame) hpassed hhash w.hasSender

section Frames

variable (createStop : StopSign → Bool)

theorem moved_onEnvelopeFrame (peer : ℕ) (body : List UInt8) :
    Moved g (g.onEnvelopeFrame createStop w peer body).1 (g.onEnvelopeFrame createStop w peer body).2 := by
  have hplain {actions : List GateAction} (h : ∀ a ∈ actions, Plain a) : Moved g g actions := .stays ⟨rfl, rfl, rfl⟩ h
  have hrefuses : ∀ a ∈ [GateAction.refuses peer], Plain a := fun a ha => List.mem_singleton.1 ha ▸ .refuses peer
  rw [onEnvelopeFrame]
  split
  · exact hplain hrefuses
  · dsimp only
    split
    · exact hplain hrefuses
    · next envelope _ =>
      split_ifs with haddressed hfailed hold hnew htransport hjoining
      · exact hplain hrefuses
      · exact hplain nofun
      · exact hplain nofun
      · exact hplain fun a ha => List.mem_singleton.1 ha ▸ .requestsSnapshot peer
      · exact hplain nofun
      · exact hplain nofun
      · obtain ⟨hsender, hreceiver⟩ := not_or.1 haddressed
        have hconfiguration : readLe body 0 8 = g.host.node.configurationId := by omega
        exact moved_admit ⟨not_not.1 hsender, not_not.1 hreceiver, Bool.eq_false_of_not_eq_true hfailed,
          Bool.eq_false_of_not_eq_true hjoining, hconfiguration, hconfiguration.trans (not_not.1 htransport)⟩

theorem moved_onPayloadData (peer : ℕ) (body : List UInt8) :
    Moved g (g.onPayloadData w peer body).1 (g.onPayloadData w peer body).2 := by
  have hplain {actions : List GateAction} (h : ∀ a ∈ actions, Plain a) : Moved g g actions := .stays ⟨rfl, rfl, rfl⟩ h
  have hrefuses : ∀ a ∈ [GateAction.refuses peer], Plain a := fun a ha => List.mem_singleton.1 ha ▸ .refuses peer
  rw [onPayloadData]
  split
  · exact hplain hrefuses
  · dsimp only
    split
    · exact hplain hrefuses
    · split
      · exact hplain nofun
      · split
        · exact .stays (SameTable.setHost _) nofun
        · have hcontains := contains_put g.host.node.store (body.drop 32)
          have hacknowledged : ∀ a ∈ (if w.hasSender then [GateAction.acknowledges peer (Sha256.hash (body.drop 32))
              (g.host.node.store.put (body.drop 32))] else []), Plain a := by
            intro a ha
            split at ha
            · exact List.mem_singleton.1 ha ▸ .acknowledges peer hcontains
            · cases ha
          split
          · exact .stays (SameTable.setHost _) hacknowledged
          · next entry hlookup =>
            have hmem : Sha256.hash (body.drop 32) ∈ g.held := AList.lookup_isSome.1 (Option.isSome_of_eq_some hlookup)
            obtain ⟨hsame, given, lost, happend, hactions⟩ := releaseAll_spec (w := w)
              (g.host.node.store.put (body.drop 32)) entry.envelopes _
            rw [hactions]
            exact .releases ⟨hsame.nodeId, hsame.held, hsame.heldTotal⟩ hmem hacknowledged hcontains
              (happend.trans (heldFor_of_lookup hlookup).symm)

theorem moved_onPayloadRequest (peer : ℕ) (body : List UInt8) : Moved g g (g.onPayloadRequest w peer body) := by
  refine .stays ⟨rfl, rfl, rfl⟩ fun a ha => ?_
  rw [onPayloadRequest] at ha
  split at ha
  · split_ifs at ha
    · cases ha
    · cases ha
    · dsimp only at ha
      cases hload : g.host.node.store.load ⟨body.toArray, by assumption⟩ with
      | none =>
        rw [hload] at ha
        cases ha
      | some payload =>
        rw [hload] at ha
        exact List.mem_singleton.1 ha ▸ .serves peer (hash_of_load hload)
  · cases ha

theorem moved_handle (input : GateInput) :
    Moved g (g.handle createStop w input).1 (g.handle createStop w input).2 := by
  cases input with
  | envelope peer body => exact moved_onEnvelopeFrame createStop peer body
  | payloadData peer body => exact moved_onPayloadData peer body
  | payloadRequest peer body => exact moved_onPayloadRequest peer body
  | elsewhere host => exact .stays (SameTable.setHost _) nofun

end Frames

end Spec

/-! ### What a run does -/

/-- The envelopes that passed the checks of their frames. -/
def admitted (actions : List GateAction) : List Envelope :=
  actions.filterMap fun
    | .admits _ envelope _ _ => some envelope
    | _ => none

/-- The envelopes the node was given. -/
def stepped (actions : List GateAction) : List Envelope :=
  actions.filterMap fun
    | .steps envelope _ _ => some envelope
    | _ => none

def dropped (actions : List GateAction) : List Envelope :=
  actions.filterMap fun
    | .drops envelope => some envelope
    | _ => none

/-- How often an envelope waits. -/
def waiting (g : PayloadGate) (envelope : Envelope) : ℕ :=
  ((envelopePayloadHash envelope).elim [] g.heldFor).count envelope

/-- The table after a run: bounded, every envelope under the hash it waits for, and every envelope that was admitted
given to the node, dropped, or waiting. -/
structure Accounted (g : PayloadGate) (log : List GateAction) : Prop where
  total : g.heldTotal = g.held.keys.length
  limit : g.heldTotal ≤ heldHashLimit
  filled : ∀ hash ∈ g.held, g.heldFor hash ≠ []
  named : ∀ hash, ∀ e ∈ g.heldFor hash, envelopePayloadHash e = some hash
  conserved : ∀ e, (admitted log).count e = (stepped log).count e + (dropped log).count e + g.waiting e

def Allowed (nodeId : ℕ) (before : List GateAction) : GateAction → Prop
  | .admits peer envelope configurationId host => Passed nodeId peer envelope configurationId host
  | .steps envelope store _ => envelope ∈ admitted before ∧ Vouched envelope store
  | .drops envelope => envelope ∈ admitted before ∧ (envelopePayloadHash envelope).isSome = true
  | .requestsPayload peer hash =>
    ∃ envelope ∈ admitted before, envelope.sender = peer ∧ envelopePayloadHash envelope = some hash
  | .acknowledges _ hash store => store.contains hash = true
  | .serves _ hash payload => Sha256.hash payload = hash
  | .refuses _ => True
  | .requestsSnapshot _ => True

section Runs

variable {g g' : PayloadGate} {log actions : List GateAction} {nodeId : ℕ}

theorem admitted_append (xs ys : List GateAction) : admitted (xs ++ ys) = admitted xs ++ admitted ys :=
  List.filterMap_append

theorem stepped_append (xs ys : List GateAction) : stepped (xs ++ ys) = stepped xs ++ stepped ys :=
  List.filterMap_append

theorem dropped_append (xs ys : List GateAction) : dropped (xs ++ ys) = dropped xs ++ dropped ys :=
  List.filterMap_append

theorem quiet_of_plain (h : ∀ a ∈ actions, Plain a) :
    admitted actions = [] ∧ stepped actions = [] ∧ dropped actions = [] := by
  refine ⟨List.filterMap_eq_nil_iff.2 ?_, List.filterMap_eq_nil_iff.2 ?_, List.filterMap_eq_nil_iff.2 ?_⟩ <;>
  · intro a ha
    cases h a ha <;> rfl

theorem released_actions (given : List (Envelope × GateNode)) (lost : List Envelope) (store : PayloadStore) :
    admitted (given.map (stepsIn store) ++ lost.map .drops) = [] ∧
      stepped (given.map (stepsIn store) ++ lost.map .drops) = given.map Prod.fst ∧
      dropped (given.map (stepsIn store) ++ lost.map .drops) = lost := by
  simp [admitted, stepped, dropped, stepsIn, List.filterMap_map, Function.comp_def]

theorem waiting_of_same (h : ∀ hash, g'.heldFor hash = g.heldFor hash) (e : Envelope) : g'.waiting e = g.waiting e := by
  rw [waiting, waiting, funext h]

theorem Accounted.mem_admitted (h : Accounted g log) {hash : HashBytes} {e : Envelope} (he : e ∈ g.heldFor hash) :
    e ∈ admitted log := by
  have hpositive : 0 < g.waiting e := by
    rw [waiting, h.named hash e he, Option.elim_some]
    exact List.count_pos_iff.2 he
  have hconserved := h.conserved e
  exact List.count_pos_iff.1 (by omega)

theorem accounted_start (nodeId : ℕ) (host : GateHost) : Accounted (start nodeId host) [] where
  total := rfl
  limit := Nat.zero_le _
  filled hash h := absurd h (AList.notMem_empty hash)
  named hash e he := by
    rw [heldFor, start, AList.lookup_empty] at he
    cases he
  conserved e := by
    rw [waiting]
    cases envelopePayloadHash e with
    | none => rfl
    | some hash => rw [Option.elim_some, heldFor, start, AList.lookup_empty]; rfl

theorem Accounted.of_sameTable (h : Accounted g log) (hsame : SameTable g g') {actions : List GateAction}
    (hactions : ∀ e, (admitted actions).count e = (stepped actions).count e + (dropped actions).count e) :
    Accounted g' (log ++ actions) where
  total := by rw [hsame.heldTotal, hsame.held, h.total]
  limit := by rw [hsame.heldTotal]; exact h.limit
  filled hash hmem := by
    rw [hsame.held] at hmem
    rw [hsame.heldFor]
    exact h.filled hash hmem
  named hash e he := by
    rw [hsame.heldFor] at he
    exact h.named hash e he
  conserved e := by
    have hlog := h.conserved e
    have hnew := hactions e
    rw [admitted_append, stepped_append, dropped_append, waiting_of_same hsame.heldFor]
    simp only [List.count_append]
    omega

theorem Accounted.of_takes (h : Accounted g log) {envelope : Envelope} {hash : HashBytes} {isHeld : Bool}
    (htakes : Takes g g' hash envelope isHeld) (hhash : envelopePayloadHash envelope = some hash)
    (hadmitted : admitted actions = [envelope]) (hstepped : stepped actions = [])
    (hdropped : dropped actions = if isHeld then [] else [envelope]) :
    Accounted g' (log ++ actions) where
  total := htakes.total h.total
  limit := htakes.limit h.limit
  filled other hother := by
    by_cases hne : other = hash
    · subst hne
      rw [htakes.self]
      rcases htakes.mem other hother with hmem | ⟨-, hheld⟩
      · exact fun hnil => h.filled other hmem (List.append_eq_nil_iff.1 hnil).1
      · rw [hheld]
        exact fun hnil => List.cons_ne_nil _ _ (List.append_eq_nil_iff.1 hnil).2
    · rw [htakes.other other hne]
      exact h.filled other ((htakes.mem other hother).elim id fun h => absurd h.1 hne)
  named other e he := by
    by_cases hne : other = hash
    · subst hne
      rw [htakes.self, List.mem_append] at he
      refine he.elim (h.named other e) fun he => ?_
      split at he
      · rw [List.mem_singleton.1 he, hhash]
      · cases he
    · rw [htakes.other other hne] at he
      exact h.named other e he
  conserved e := by
    have hlog := h.conserved e
    have hwaiting : g'.waiting e = g.waiting e + if isHeld then [envelope].count e else 0 := by
      by_cases heq : envelopePayloadHash e = some hash
      · rw [waiting, waiting, heq, Option.elim_some, Option.elim_some, htakes.self, List.count_append]
        split <;> rfl
      · have hne : e ≠ envelope := fun h => heq (h ▸ hhash)
        have hzero : [envelope].count e = 0 := List.count_eq_zero.2 fun h => hne (List.mem_singleton.1 h)
        have hsame : g'.waiting e = g.waiting e := by
          rw [waiting, waiting]
          cases hcase : envelopePayloadHash e with
          | none => rfl
          | some other => rw [Option.elim_some, Option.elim_some, htakes.other other fun h => heq (h ▸ hcase)]
        rw [hzero, hsame, ite_self, Nat.add_zero]
    rw [admitted_append, stepped_append, dropped_append, hadmitted, hstepped, hdropped, hwaiting]
    rw [List.count_append, List.append_nil, List.count_append]
    cases isHeld with
    | true =>
      rw [if_pos rfl, if_pos rfl, List.count_nil]
      omega
    | false =>
      rw [if_neg Bool.false_ne_true, if_neg Bool.false_ne_true]
      omega

theorem Accounted.of_frees (h : Accounted g log) {hash : HashBytes} (hfrees : Frees g g' hash) (hmem : hash ∈ g.held)
    {given lost : List Envelope} (hheld : given ++ lost = g.heldFor hash) (hadmitted : admitted actions = [])
    (hstepped : stepped actions = given) (hdropped : dropped actions = lost) :
    Accounted g' (log ++ actions) := by
  have hself : g'.heldFor hash = [] := by rw [heldFor, hfrees.held, AList.lookup_erase, Option.elim_none]
  have hother (other : HashBytes) (hne : other ≠ hash) : g'.heldFor other = g.heldFor other := by
    rw [heldFor, hfrees.held, AList.lookup_erase_ne hne, heldFor]
  have hkeys := length_keys_erase hmem
  have htotal := h.total
  have hlimit := h.limit
  refine ⟨?_, ?_, fun other hother' => ?_, fun other e he => ?_, fun e => ?_⟩
  · rw [hfrees.heldTotal, hfrees.held]
    omega
  · rw [hfrees.heldTotal]
    omega
  · rw [hfrees.held, AList.mem_erase] at hother'
    rw [hother other hother'.1]
    exact h.filled other hother'.2
  · by_cases hne : other = hash
    · rw [hne, hself] at he
      cases he
    · rw [hother other hne] at he
      exact h.named other e he
  · have hlog := h.conserved e
    have hwaiting : g.waiting e = g'.waiting e + (given ++ lost).count e := by
      rw [hheld]
      by_cases heq : envelopePayloadHash e = some hash
      · rw [waiting, waiting, heq, Option.elim_some, Option.elim_some, hself, List.count_nil, Nat.zero_add]
      · have hzero : (g.heldFor hash).count e = 0 := List.count_eq_zero.2 fun he => heq (h.named hash e he)
        rw [hzero, Nat.add_zero, waiting, waiting]
        cases hcase : envelopePayloadHash e with
        | none => rfl
        | some other => rw [Option.elim_some, Option.elim_some, hother other fun h => heq (h ▸ hcase)]
    rw [admitted_append, stepped_append, dropped_append, hadmitted, hstepped, hdropped]
    simp only [List.count_append, List.count_nil] at hwaiting ⊢
    omega

theorem Accounted.moved (h : Accounted g log) (hmoved : Moved g g' actions) : Accounted g' (log ++ actions) := by
  cases hmoved with
  | stays hsame hactions =>
    obtain ⟨hadmitted, hstepped, hdropped⟩ := quiet_of_plain hactions
    exact h.of_sameTable hsame fun e => by rw [hadmitted, hstepped, hdropped]; rfl
  | steps hsame hpassed hvouched => exact h.of_sameTable hsame fun e => rfl
  | @holds peer envelope configurationId host hash isHeld htakes hpassed hhash asks =>
    refine h.of_takes htakes hhash ?_ ?_ ?_ <;> cases isHeld <;> cases asks <;> rfl
  | releases hfrees hmem hbefore hstore hheld =>
    obtain ⟨hadmitted, hstepped, hdropped⟩ := quiet_of_plain hbefore
    obtain ⟨hadmitted', hstepped', hdropped'⟩ := released_actions _ _ _
    refine h.of_frees hfrees hmem hheld ?_ ?_ ?_
    · rw [admitted_append, hadmitted, hadmitted', List.append_nil]
    · rw [stepped_append, hstepped, hstepped', List.nil_append]
    · rw [dropped_append, hdropped, hdropped', List.nil_append]

theorem Allowed.mono {action : GateAction} (more : List GateAction) (h : Allowed nodeId log action) :
    Allowed nodeId (log ++ more) action := by
  cases action with
  | steps envelope store node => exact ⟨admitted_append _ _ ▸ List.mem_append_left _ h.1, h.2⟩
  | drops envelope => exact ⟨admitted_append _ _ ▸ List.mem_append_left _ h.1, h.2⟩
  | requestsPayload peer hash =>
    obtain ⟨envelope, hmem, hrest⟩ := h
    exact ⟨envelope, admitted_append _ _ ▸ List.mem_append_left _ hmem, hrest⟩
  | _ => exact h

theorem allowed_of_plain {action : GateAction} (h : Plain action) : Allowed nodeId log action := by
  cases h with
  | refuses | requestsSnapshot => trivial
  | acknowledges peer h => exact h
  | serves peer h => exact h

open Chronicle (Legal legal_append legal_of_forall)

theorem legal_of_moved (h : Accounted g log) (hmoved : Moved g g' actions) :
    Legal (Allowed g.nodeId) log actions := by
  have hmono (before more : List GateAction) (action : GateAction) (h : Allowed g.nodeId before action) :
      Allowed g.nodeId (before ++ more) action := h.mono more
  have hself (peer configurationId : ℕ) (host : GateHost) (envelope : Envelope) :
      envelope ∈ admitted (log ++ [.admits peer envelope configurationId host]) := by
    rw [admitted_append]
    exact List.mem_append_right _ List.mem_cons_self
  cases hmoved with
  | stays _ hactions => exact legal_of_forall hmono fun a ha => allowed_of_plain (hactions a ha)
  | steps _ hpassed hvouched => exact ⟨hpassed, ⟨hself _ _ _ _, hvouched⟩, trivial⟩
  | @holds peer envelope configurationId host hash isHeld _ hpassed hhash asks =>
    refine ⟨hpassed, legal_of_forall hmono fun a ha => ?_⟩
    rcases List.mem_append.1 ha with ha | ha
    · split at ha
      · cases ha
      · obtain rfl := List.mem_singleton.1 ha
        exact ⟨hself _ _ _ _, by rw [hhash]; rfl⟩
    · split at ha
      · obtain rfl := List.mem_singleton.1 ha
        exact ⟨envelope, hself _ _ _ _, hpassed.sender, hhash⟩
      · cases ha
  | @releases hash store before given lost _ _ hbefore hstore hheld =>
    have hadmitted (e : Envelope) (he : e ∈ given.map Prod.fst ++ lost) : e ∈ admitted log :=
      h.mem_admitted (hheld ▸ he)
    have hnamed (e : Envelope) (he : e ∈ given.map Prod.fst ++ lost) : envelopePayloadHash e = some hash :=
      h.named hash e (hheld ▸ he)
    refine legal_of_forall hmono fun a ha => ?_
    rcases List.mem_append.1 ha with ha | ha
    · exact allowed_of_plain (hbefore a ha)
    rcases List.mem_append.1 ha with ha | ha
    · obtain ⟨e, he, rfl⟩ := List.mem_map.1 ha
      have hmem := List.mem_append_left lost (List.mem_map_of_mem (f := Prod.fst) he)
      refine ⟨hadmitted e.1 hmem, fun other hother => ?_⟩
      obtain rfl := Option.some.inj ((hnamed e.1 hmem).symm.trans hother)
      exact hstore
    · obtain ⟨e, he, rfl⟩ := List.mem_map.1 ha
      have hmem := List.mem_append_right (given.map Prod.fst) he
      exact ⟨hadmitted e hmem, by rw [hnamed e hmem]; rfl⟩

theorem Moved.nodeId_eq (hmoved : Moved g g' actions) : g'.nodeId = g.nodeId := by
  cases hmoved with
  | stays h _ => exact h.nodeId
  | steps h _ _ => exact h.nodeId
  | holds h _ _ _ => exact h.nodeId
  | releases h _ _ _ _ => exact h.nodeId

variable (createStop : StopSign → Bool)

theorem run_spec (inputs : List (Surroundings × GateInput)) (g : PayloadGate) (log : List GateAction)
    (h : Accounted g log) :
    Accounted (g.run createStop inputs).1 (log ++ (g.run createStop inputs).2) ∧
      Legal (Allowed g.nodeId) log (g.run createStop inputs).2 := by
  induction inputs generalizing g log with
  | nil =>
    rw [run, List.append_nil]
    exact ⟨h, trivial⟩
  | cons input inputs ih =>
    have hmoved := moved_handle (g := g) (w := input.1) createStop input.2
    obtain ⟨haccounted, hlegal⟩ := ih _ _ (h.moved hmoved)
    rw [List.append_assoc] at haccounted
    rw [hmoved.nodeId_eq] at hlegal
    exact ⟨haccounted, legal_append.2 ⟨legal_of_moved h hmoved, hlegal⟩⟩

/-- Over any run, the node is given only envelopes that passed the checks of their frames and whose payload was in the
store when it was looked up; what is asked for, acknowledged and served is what the peers and the store account for. -/
theorem legal_run (inputs : List (Surroundings × GateInput)) (nodeId : ℕ) (host : GateHost) :
    Legal (Allowed nodeId) [] ((start nodeId host).run createStop inputs).2 :=
  (run_spec createStop inputs (start nodeId host) [] (accounted_start nodeId host)).2

/-- Over any run, the table is bounded and holds every envelope under the hash it waits for, and every envelope that was
admitted was given to the node, was dropped, or waits. -/
theorem accounted_run (inputs : List (Surroundings × GateInput)) (nodeId : ℕ) (host : GateHost) :
    Accounted ((start nodeId host).run createStop inputs).1 ((start nodeId host).run createStop inputs).2 :=
  (run_spec createStop inputs (start nodeId host) [] (accounted_start nodeId host)).1

/-- An envelope framed for this node and its configuration passes the checks. -/
theorem onEnvelopeFrame_frame {createStop : StopSign → Bool} {w : Surroundings} {envelope : Envelope}
    {configurationId : ℕ} (hcanonical : envelope.Canonical createStop) (hwidth : configurationId < 256 ^ 8)
    (hpassed : Passed g.nodeId envelope.sender envelope configurationId g.host) :
    g.onEnvelopeFrame createStop w envelope.sender (encodeLe 8 configurationId ++ encodeEnvelope envelope) =
      ((g.admitEnvelope w envelope.sender envelope).1,
        .admits envelope.sender envelope configurationId g.host :: (g.admitEnvelope w envelope.sender envelope).2) := by
  have hlength : ¬(encodeLe 8 configurationId ++ encodeEnvelope envelope).length < 8 := by
    rw [List.length_append, Bytes.length_encodeLe]
    omega
  have hdecode : decodeEnvelope createStop ((encodeLe 8 configurationId ++ encodeEnvelope envelope).drop 8) =
      .ok envelope := by
    rw [List.drop_left' (Bytes.length_encodeLe _ _), decodeEnvelope_encodeEnvelope hcanonical]
  rw [onEnvelopeFrame, if_neg hlength]
  dsimp only
  rw [hdecode, Bytes.readLe_encodeLe hwidth]
  dsimp only
  rw [if_neg (not_or.2 ⟨not_not.2 rfl, not_not.2 hpassed.receiver⟩), hpassed.running, if_neg Bool.false_ne_true,
    ← hpassed.configuration, ← hpassed.transport, if_neg (lt_irrefl _), if_neg (lt_irrefl _), if_neg (not_not.2 rfl),
    hpassed.joined, if_neg Bool.false_ne_true]

theorem admit_of_missing {w : Surroundings} {envelope : Envelope} {hash : HashBytes} (peer : ℕ)
    (hhash : envelopePayloadHash envelope = some hash) (hmissing : g.host.node.store.contains hash = false) :
    (g.admitEnvelope w peer envelope).1 = (g.holdEnvelope hash envelope peer).1 := by
  have hobserve : g.observe envelope.message = g := by
    cases hmessage : envelope.message with
    | heartbeat =>
      rw [envelopePayloadHash, hmessage] at hhash
      cases hhash
    | _ => rfl
  rw [admitEnvelope, hobserve, passPayload, hhash]
  dsimp only
  rw [hmissing, Bool.and_false, if_neg Bool.false_ne_true]

/-- A payload gives the node what was held for it. -/
theorem onPayloadData_frame {w : Surroundings} {payload : List UInt8} {entry : Held} (peer : ℕ)
    (hrunning : g.host.failed = false) (hwritable : w.writable = true) (hsender : w.hasSender = false)
    (hlookup : g.held.lookup (Sha256.hash payload) = some entry) :
    (g.onPayloadData w peer ((Sha256.hash payload).toList ++ payload)).2 =
      (releaseAll w (g.host.node.store.put payload) entry.envelopes
        { g with
          host := { g.host with node := { g.host.node with store := g.host.node.store.put payload } }
          held := g.held.erase (Sha256.hash payload)
          heldTotal := g.heldTotal - 1 }).2 := by
  have hdigest : (Sha256.hash payload).toList.length = 32 := Vector.length_toList
  have hlength : ¬((Sha256.hash payload).toList ++ payload).length < 32 := by
    rw [List.length_append, hdigest]
    omega
  rw [onPayloadData, if_neg hlength]
  dsimp only
  rw [List.drop_left' hdigest, List.take_left' hdigest, if_neg (not_not.2 rfl), if_neg (Bool.eq_false_iff.1 hrunning),
    hwritable, if_neg (by decide), hsender, if_neg Bool.false_ne_true]
  simp only [setHost, hlookup, List.nil_append]

/-- The configuration is not looked at again when an envelope is released: what was framed for one configuration can
reach the node in the next. -/
theorem steps_overtaken {createStop : StopSign → Bool} {envelope : Envelope} {payload : List UInt8}
    {configurationId : ℕ} (hcanonical : envelope.Canonical createStop)
    (hhash : envelopePayloadHash envelope = some (Sha256.hash payload)) (hwidth : configurationId < 256 ^ 8) :
    ∃ inputs host before store node,
      ((start envelope.receiver host).run createStop inputs).2 = before ++ [.steps envelope store node] ∧
        .admits envelope.sender envelope configurationId host ∈ before ∧
        node.configurationId = configurationId + 1 := by
  let w : Surroundings := ⟨fun _ node => (node, true), id, false, true, true⟩
  let host (c : ℕ) : GateHost := ⟨⟨c, false, PayloadStore.empty⟩, c, false, 0⟩
  let g := start envelope.receiver (host configurationId)
  have hframe := onEnvelopeFrame_frame (w := w) (g := g) hcanonical hwidth ⟨rfl, rfl, rfl, rfl, rfl, rfl⟩
  let entry := (Held.empty.hold envelope envelope.sender).1
  let held : PayloadGate :=
    ⟨envelope.receiver, host (configurationId + 1),
      (∅ : AList fun _ : HashBytes => Held).insert (Sha256.hash payload) entry, 1⟩
  have hheld : (g.admitEnvelope w envelope.sender envelope).1.setHost (host (configurationId + 1)) = held := by
    rw [admit_of_missing envelope.sender hhash rfl]
    rfl
  have hreleased :=
    onPayloadData_frame (g := held) (w := w) envelope.sender rfl rfl rfl (AList.lookup_insert ∅)
  refine ⟨[(w, .envelope envelope.sender (encodeLe 8 configurationId ++ encodeEnvelope envelope)),
    (w, .elsewhere (host (configurationId + 1))),
    (w, .payloadData envelope.sender ((Sha256.hash payload).toList ++ payload))], host configurationId,
    .admits envelope.sender envelope configurationId (host configurationId) ::
      (g.admitEnvelope w envelope.sender envelope).2,
    PayloadStore.empty.put payload, ⟨configurationId + 1, false, PayloadStore.empty.put payload⟩, ?_,
    List.mem_cons_self, rfl⟩
  change (g.onEnvelopeFrame createStop w envelope.sender
      (encodeLe 8 configurationId ++ encodeEnvelope envelope)).2 ++ ([] ++
    ((((g.onEnvelopeFrame createStop w envelope.sender
        (encodeLe 8 configurationId ++ encodeEnvelope envelope)).1.setHost (host (configurationId + 1))).onPayloadData w
      envelope.sender ((Sha256.hash payload).toList ++ payload)).2 ++ [])) = _
  rw [hframe]
  dsimp only
  rw [hheld, hreleased, List.nil_append, List.append_nil]
  rfl

end Runs

end PayloadGate

end Zaxonlite
