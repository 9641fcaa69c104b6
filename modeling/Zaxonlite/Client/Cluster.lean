import Zaxonlite.Lib.Chronicle
import Zaxonlite.Wire.Request

/-!
# Calls that follow the leader

`ClusterConnection` sends a request to one of the configured endpoints and follows what a node that does not lead
says about the leader. What the network and the servers do in one round of the loop is an answer the round is given,
whether the call was cancelled meanwhile included.
-/

namespace Zaxonlite

open Chronicle (Legal legal_append)

namespace Cluster

/-! ### Endpoints and answers -/

structure Endpoint where
  host : List UInt8
  port : ℕ
  /-- Set for a Unix socket, which has neither host nor port. -/
  unixPath : Option (List UInt8)
  /-- The node identity a mutually authenticated connection is pinned to. -/
  expectedNodeId : Option ℕ
  deriving DecidableEq

/-- A leader advertisement the client saw and refused to follow. -/
structure RefusedLeaderHint where
  nodeId : ℕ
  port : ℕ
  host : List UInt8

inductive Redirect where
  | notRedirect
  | rotate
  | redirect (target : Endpoint)

mutual

/-- No object of a document repeats a name; `std.json` refuses one that does. -/
def distinctNames : Json.Value → Bool
  | .array items => distinctItems items
  | .object members => distinctMembers members
  | _ => true

def distinctItems : List Json.Value → Bool
  | [] => true
  | item :: items => distinctNames item && distinctItems items

def distinctMembers : List (List UInt8 × Json.Value) → Bool
  | [] => true
  | (name, item) :: members =>
    !(members.map Prod.fst).contains name && distinctNames item && distinctMembers members

end

/-- `std.json.parseFromSlice` into an object. -/
def parseObject (body : List UInt8) : Option (List (List UInt8 × Json.Value)) :=
  match Json.parse body with
  | some (.object members) => if distinctMembers members then some members else none
  | _ => none

/-- A leader as a `not_leader` answer advertises it, when its fields are well formed. -/
def advertised (leader : List (List UInt8 × Json.Value)) : Option RefusedLeaderHint := do
  let nodeId ← jsonBelow (2 ^ 32) (← leader.lookup (asciiBytes "id"))
  let host ← jsonString (← leader.lookup (asciiBytes "host"))
  let port ← jsonBelow (2 ^ 16) (← leader.lookup (asciiBytes "port"))
  if nodeId = 0 then none else pure ⟨nodeId, port, host⟩

section Redirects

-- `isAddress` is `std.Io.net.IpAddress.parse`.
variable (isAddress : List UInt8 → Bool)

/-- `resolveLeaderRedirect`, with the hint it leaves. -/
def resolveLeaderRedirect (endpoints : List Endpoint) (leader : List (List UInt8 × Json.Value))
    (allowAuthenticatedAdvertisement : Bool) : Redirect × Option RefusedLeaderHint :=
  (advertised leader).elim (.rotate, none) fun hint =>
    (endpoints.find? fun candidate =>
      candidate.unixPath.isNone && candidate.port == hint.port && candidate.host == hint.host).elim
      (if allowAuthenticatedAdvertisement then
        -- The host goes through a buffer of 64 bytes.
        if hint.host.length ≤ 64 ∧ isAddress hint.host then
          (.redirect ⟨hint.host, hint.port, none, some hint.nodeId⟩, none)
        else (.rotate, none)
      else if hint.host.length ≤ 64 then (.rotate, some hint)
      else (.rotate, none))
      fun candidate =>
        (.redirect
          (if allowAuthenticatedAdvertisement then { candidate with expectedNodeId := some hint.nodeId }
          else candidate), none)

/-- The members of an answer that says the node does not lead: `ok` is there and not true, and the error is
`not_leader`. -/
def notLeader (body : List UInt8) : Option (List (List UInt8 × Json.Value)) := do
  let object ← parseObject body
  let ok ← object.lookup (asciiBytes "ok")
  let code ← jsonString (← object.lookup (asciiBytes "error"))
  if jsonBool ok = some true ∨ code ≠ asciiBytes "not_leader" then none else pure object

def leaderRedirect (endpoints : List Endpoint) (body : List UInt8) (allowAuthenticatedAdvertisement : Bool) :
    Redirect × Option RefusedLeaderHint :=
  (notLeader body).elim (.notRedirect, none) fun object =>
    match object.lookup (asciiBytes "leader") with
    | some (.object leader) => resolveLeaderRedirect isAddress endpoints leader allowAuthenticatedAdvertisement
    | _ => (.rotate, none)

/-! ### The connection -/

inductive CallError where
  | noEndpoints
  | canceled
  | noLeaderReachable
  /-- The error of the connection the request was sent on. -/
  | connection
  deriving DecidableEq

structure CallResult where
  body : List UInt8
  endpoint : Endpoint

/-- The connection that is kept and the endpoint it leads to are set and cleared together. -/
structure ClusterConnection where
  endpoints : List Endpoint
  /-- `transport.tls != null`. -/
  tls : Bool
  connection : Option Endpoint
  nextEndpoint : ℕ
  refusedLeaderHint : Option RefusedLeaderHint

inductive Dial where
  | connected
  | failed
  | canceled
  deriving DecidableEq

inductive Answer where
  | body (text : List UInt8)
  | failed
  | canceled

structure Round where
  dial : Dial
  answer : Answer
  /-- The call was cancelled by the end of the round's delay. -/
  delayCanceled : Bool

/-- A request sent and the answer it got. Without an answer it may have been executed or not. -/
structure Exchange where
  endpoint : Endpoint
  answer : Option (List UInt8)
  deriving DecidableEq

/-- What a call does on the network. -/
inductive Event where
  | dials (endpoint : Endpoint)
  | sends (exchange : Exchange)
  deriving DecidableEq

/-- A round, with what it leads to: the end of the call, or the redirect of the next round. -/
structure Passed where
  next : Except CallError CallResult ⊕ Option Endpoint
  client : ClusterConnection
  events : List Event

structure Trace where
  result : Except CallError CallResult
  client : ClusterConnection
  events : List Event

/-- The requests among the events. -/
def exchanges (events : List Event) : List Exchange :=
  events.filterMap fun
    | .dials _ => none
    | .sends exchange => some exchange

namespace ClusterConnection

def disconnect (c : ClusterConnection) : ClusterConnection :=
  { c with connection := none }

/-- The endpoint a round without a connection dials: the redirect, or the next of the seeds. -/
def select (c : ClusterConnection) (redirect : Option Endpoint) : Option Endpoint × ClusterConnection :=
  match redirect with
  | some endpoint => (some endpoint, c)
  | none =>
    (c.endpoints[c.nextEndpoint % c.endpoints.length]?, { c with nextEndpoint := (c.nextEndpoint + 1) % 2 ^ 64 })

/-- `result`: the seed the answer came from, with the pinned identity, or the endpoint itself. -/
def result (c : ClusterConnection) (body : List UInt8) (endpoint : Endpoint) : CallResult :=
  ((c.endpoints.find? fun candidate =>
    if endpoint.unixPath.isSome then candidate.unixPath == endpoint.unixPath
    else candidate.unixPath.isNone && candidate.port == endpoint.port && candidate.host == endpoint.host).elim
    ⟨body, if endpoint.unixPath.isSome then { endpoint with unixPath := some endpoint.host } else endpoint⟩
    fun candidate => ⟨body, { candidate with expectedNodeId := endpoint.expectedNodeId }⟩)

/-- What follows an answer that is not final: the delay, and the next round without a connection. -/
def retry (r : Round) (redirect : Option Endpoint) (c : ClusterConnection) (events : List Event) : Passed :=
  ⟨if r.delayCanceled then .inl (.error .canceled) else .inr redirect, c.disconnect, events⟩

/-- The request on the connection there is, and what its answer leads to. -/
def exchange (requireLeader : Bool) (r : Round) (c : ClusterConnection) (endpoint : Endpoint) : Passed :=
  match r.answer with
  | .canceled => ⟨.inl (.error .canceled), c.disconnect, [.sends ⟨endpoint, none⟩]⟩
  | .failed => ⟨.inl (.error .connection), c.disconnect, [.sends ⟨endpoint, none⟩]⟩
  | .body text =>
    let sent : List Event := [.sends ⟨endpoint, some text⟩]
    if requireLeader then
      let leader := leaderRedirect isAddress c.endpoints text c.tls
      let c := { c with refusedLeaderHint := leader.2.or c.refusedLeaderHint }
      match leader.1 with
      | .notRedirect => ⟨.inl (.ok (c.result text endpoint)), c, sent⟩
      | .rotate => c.retry r none sent
      | .redirect target => c.retry r (some target) sent
    else ⟨.inl (.ok (c.result text endpoint)), c, sent⟩

/-- A dial, and the request if it succeeds. -/
def dial (requireLeader : Bool) (r : Round) (c : ClusterConnection) (endpoint : Endpoint) : Passed :=
  match r.dial with
  | .canceled => ⟨.inl (.error .canceled), c, [.dials endpoint]⟩
  | .failed => c.retry r none [.dials endpoint]
  | .connected =>
    let passed := { c with connection := some endpoint }.exchange isAddress requireLeader r endpoint
    { passed with events := .dials endpoint :: passed.events }

/-- One round of `callInternal`. -/
def round (requireLeader : Bool) (r : Round) (redirect : Option Endpoint) (c : ClusterConnection) : Passed :=
  c.connection.elim
    ((c.select redirect).1.elim ⟨.inl (.error .noEndpoints), c, []⟩
      ((c.select redirect).2.dial isAddress requireLeader r))
    (c.exchange isAddress requireLeader r)

/-- The loop of `callInternal`, with the rounds it has left. -/
def rounds (requireLeader : Bool) : ℕ → (ℕ → Round) → Option Endpoint → ClusterConnection → Trace
  | 0, _, _, c => ⟨.error .noLeaderReachable, c, []⟩
  | left + 1, answers, redirect, c =>
    let passed := c.round isAddress requireLeader (answers 0) redirect
    match passed.next with
    | .inl result => ⟨result, passed.client, passed.events⟩
    | .inr redirect =>
      let rest := rounds requireLeader left (fun k => answers (k + 1)) redirect passed.client
      { rest with events := passed.events ++ rest.events }

def maxAttempts : ℕ := 12

def call (requireLeader : Bool) (answers : ℕ → Round) (c : ClusterConnection) : Trace :=
  if c.endpoints.isEmpty then ⟨.error .noEndpoints, c, []⟩
  else rounds isAddress requireLeader maxAttempts answers none { c with refusedLeaderHint := none }

end ClusterConnection

/-! ### What is sent again -/

/-- Answered by a node that says it does not lead. -/
def Refused (e : Exchange) : Prop :=
  ∃ body, e.answer = some body ∧ (notLeader body).isSome = true

/-- What the result of a call tells about the requests it sent. -/
structure Sent (requireLeader : Bool) (endpoints : List Endpoint) (result : Except CallError CallResult)
    (sent : List Exchange) : Prop where
  /-- A request is only followed by another one if it was refused. -/
  again : ∀ e ∈ sent.dropLast, requireLeader = true ∧ Refused e
  ok : ∀ r, result = .ok r → ∃ e, sent.getLast? = some e ∧ e.answer = some r.body ∧
    (∃ c : ClusterConnection, c.endpoints = endpoints ∧ r = c.result r.body e.endpoint) ∧
    (requireLeader = true → notLeader r.body = none)
  /-- Of a failed connection's request nothing is known. -/
  lost : result = .error .connection → ∃ e, sent.getLast? = some e ∧ e.answer = none
  /-- Where no leader was reached, nothing was executed. -/
  exhausted : result = .error .noLeaderReachable → ∀ e ∈ sent, Refused e

theorem resolveLeaderRedirect_ne (endpoints : List Endpoint) (leader : List (List UInt8 × Json.Value)) (allow : Bool) :
    (resolveLeaderRedirect isAddress endpoints leader allow).1 ≠ .notRedirect := by
  rw [resolveLeaderRedirect]
  cases advertised leader with
  | none => exact Redirect.noConfusion
  | some hint =>
    rw [Option.elim_some]
    cases endpoints.find? _ with
    | some candidate => exact Redirect.noConfusion
    | none =>
      rw [Option.elim_none]
      split_ifs <;> exact Redirect.noConfusion

theorem leaderRedirect_eq_notRedirect {endpoints : List Endpoint} {body : List UInt8} {allow : Bool} :
    (leaderRedirect isAddress endpoints body allow).1 = .notRedirect ↔ notLeader body = none := by
  rw [leaderRedirect]
  cases notLeader body with
  | none => exact iff_of_true rfl rfl
  | some object =>
    refine iff_of_false ?_ (Option.some_ne_none _)
    rw [Option.elim_some]
    split
    · exact resolveLeaderRedirect_ne isAddress _ _ _
    · exact Redirect.noConfusion

/-- What one round leaves: a final answer, or nothing but refusals. -/
def Passes (requireLeader : Bool) (endpoints : List Endpoint) (passed : Passed) : Prop :=
  passed.client.endpoints = endpoints ∧ (exchanges passed.events).length ≤ 1 ∧
    (∀ result, passed.next = .inl result → Sent requireLeader endpoints result (exchanges passed.events)) ∧
    ∀ redirect, passed.next = .inr redirect → ∀ e ∈ exchanges passed.events, requireLeader = true ∧ Refused e

section Rounds

variable {requireLeader : Bool} {c : ClusterConnection}

theorem passes_retry {r : Round} {redirect : Option Endpoint} {events : List Event}
    (hlength : (exchanges events).length ≤ 1) (h : ∀ e ∈ exchanges events, requireLeader = true ∧ Refused e) :
    Passes requireLeader c.endpoints (c.retry r redirect events) := by
  refine ⟨rfl, hlength, fun result hresult => ?_, fun _ _ => h⟩
  have hcanceled : result = .error .canceled := by
    rw [ClusterConnection.retry] at hresult
    dsimp only at hresult
    split at hresult
    · exact (Sum.inl.inj hresult).symm
    · cases hresult
  subst hcanceled
  exact ⟨fun e he => h e (List.dropLast_subset _ he), nofun, nofun, nofun⟩

theorem passes_exchange (requireLeader : Bool) (r : Round) (c : ClusterConnection) (endpoint : Endpoint) :
    Passes requireLeader c.endpoints (c.exchange isAddress requireLeader r endpoint) := by
  rw [ClusterConnection.exchange]
  have hone (x : Exchange) : (exchanges [.sends x]).length ≤ 1 := le_rfl
  cases hanswer : r.answer with
  | canceled =>
    refine ⟨rfl, hone _, fun result hresult => ?_, nofun⟩
    cases hresult
    exact ⟨nofun, nofun, nofun, nofun⟩
  | failed =>
    refine ⟨rfl, hone _, fun result hresult => ?_, nofun⟩
    cases hresult
    exact ⟨nofun, nofun, fun _ => ⟨_, rfl, rfl⟩, nofun⟩
  | body text =>
    have hfinal (c' : ClusterConnection) (hc' : c'.endpoints = c.endpoints)
        (hleader : requireLeader = true → notLeader text = none) :
        Passes requireLeader c.endpoints ⟨.inl (.ok (c.result text endpoint)), c', [.sends ⟨endpoint, some text⟩]⟩ := by
      refine ⟨hc', hone _, fun result hresult => ?_, nofun⟩
      cases hresult
      refine ⟨nofun, fun r hr => ?_, nofun, nofun⟩
      cases hr
      have hbody : (c.result text endpoint).body = text := by
        rw [ClusterConnection.result]
        cases c.endpoints.find? _ <;> rfl
      rw [hbody]
      exact ⟨_, rfl, rfl, ⟨c, rfl, rfl⟩, hleader⟩
    dsimp only
    split
    · next hrequire =>
      have hrefused (h : (leaderRedirect isAddress c.endpoints text c.tls).1 ≠ .notRedirect) :
          ∀ e ∈ exchanges [.sends ⟨endpoint, some text⟩], requireLeader = true ∧ Refused e := by
        rintro e ⟨⟩
        · refine ⟨hrequire, text, rfl, ?_⟩
          exact Option.isSome_iff_ne_none.2 fun hnone => h ((leaderRedirect_eq_notRedirect isAddress).2 hnone)
        · next h => cases h
      split
      · next h => exact hfinal _ rfl fun _ => (leaderRedirect_eq_notRedirect isAddress).1 h
      · next h => exact passes_retry (hone _) (hrefused (by rw [h]; exact Redirect.noConfusion))
      · next h => exact passes_retry (hone _) (hrefused (by rw [h]; exact Redirect.noConfusion))
    · next hrequire => exact hfinal c rfl fun h => absurd h hrequire

theorem passes_dial (requireLeader : Bool) (r : Round) (c : ClusterConnection) (endpoint : Endpoint) :
    Passes requireLeader c.endpoints (c.dial isAddress requireLeader r endpoint) := by
  rw [ClusterConnection.dial]
  cases r.dial with
  | canceled =>
    refine ⟨rfl, Nat.zero_le _, fun result hresult => ?_, nofun⟩
    cases hresult
    exact ⟨nofun, nofun, nofun, nofun⟩
  | failed => exact passes_retry (Nat.zero_le _) nofun
  | connected => exact passes_exchange isAddress requireLeader r { c with connection := some endpoint } endpoint

theorem select_endpoints (redirect : Option Endpoint) : (c.select redirect).2.endpoints = c.endpoints := by
  cases redirect <;> rfl

theorem passes_round (requireLeader : Bool) (r : Round) (redirect : Option Endpoint) (c : ClusterConnection) :
    Passes requireLeader c.endpoints (c.round isAddress requireLeader r redirect) := by
  rw [ClusterConnection.round]
  cases c.connection with
  | some endpoint => exact passes_exchange isAddress _ _ _ _
  | none =>
    rw [Option.elim_none]
    cases (c.select redirect).1 with
    | none =>
      refine ⟨rfl, Nat.zero_le _, fun result hresult => ?_, nofun⟩
      cases hresult
      exact ⟨nofun, nofun, nofun, nofun⟩
    | some endpoint =>
      have h := passes_dial isAddress requireLeader r (c.select redirect).2 endpoint
      rwa [select_endpoints] at h

theorem exchanges_append (xs ys : List Event) : exchanges (xs ++ ys) = exchanges xs ++ exchanges ys :=
  List.filterMap_append

/-- Refusals before what is sent change nothing of what the result tells. -/
theorem Sent.after {endpoints : List Endpoint} {result : Except CallError CallResult} {before sent : List Exchange}
    (hbefore : ∀ e ∈ before, requireLeader = true ∧ Refused e) (h : Sent requireLeader endpoints result sent) :
    Sent requireLeader endpoints result (before ++ sent) where
  again e he := by
    by_cases hsent : sent = []
    · rw [hsent, List.append_nil] at he
      exact hbefore e (List.dropLast_subset _ he)
    · rw [List.dropLast_append_of_ne_nil hsent, List.mem_append] at he
      exact he.elim (hbefore e) (h.again e)
  ok r hr := by
    obtain ⟨e, hlast, hrest⟩ := h.ok r hr
    exact ⟨e, by rw [List.getLast?_append, hlast, Option.some_or], hrest⟩
  lost hr := by
    obtain ⟨e, hlast, hrest⟩ := h.lost hr
    exact ⟨e, by rw [List.getLast?_append, hlast, Option.some_or], hrest⟩
  exhausted hr e he := (List.mem_append.1 he).elim (fun he => (hbefore e he).2) (h.exhausted hr e)

theorem sent_rounds (left : ℕ) (answers : ℕ → Round) (redirect : Option Endpoint) (c : ClusterConnection) :
    (exchanges (c.rounds isAddress requireLeader left answers redirect).events).length ≤ left ∧
      Sent requireLeader c.endpoints (c.rounds isAddress requireLeader left answers redirect).result
        (exchanges (c.rounds isAddress requireLeader left answers redirect).events) := by
  induction left generalizing answers redirect c with
  | zero => exact ⟨le_rfl, nofun, nofun, nofun, nofun⟩
  | succ left ih =>
    obtain ⟨hendpoints, hlength, hfinal, hagain⟩ :=
      passes_round isAddress requireLeader (answers 0) redirect c
    rw [ClusterConnection.rounds]
    dsimp only
    split
    · next result hnext => exact ⟨hlength.trans (Nat.succ_le_succ (Nat.zero_le _)), hfinal result hnext⟩
    · next redirect' hnext =>
      obtain ⟨hrest, hsent⟩ :=
        ih (fun k => answers (k + 1)) redirect' (c.round isAddress requireLeader (answers 0) redirect).client
      rw [hendpoints] at hsent
      dsimp only
      rw [exchanges_append, List.length_append]
      exact ⟨by omega, hsent.after (hagain redirect' hnext)⟩

end Rounds

/-- A call sends its request at most twelve times, and again only after a node answered that it does not lead: at most
one of the nodes it was sent to can have executed it. -/
theorem sent_call (requireLeader : Bool) (answers : ℕ → Round) (c : ClusterConnection) :
    (exchanges (c.call isAddress requireLeader answers).events).length ≤ 12 ∧
      Sent requireLeader c.endpoints (c.call isAddress requireLeader answers).result
        (exchanges (c.call isAddress requireLeader answers).events) := by
  rw [ClusterConnection.call]
  split
  · exact ⟨Nat.zero_le _, nofun, nofun, nofun, nofun⟩
  · exact sent_rounds isAddress _ _ _ _

/-! ### Where it is sent -/

/-- The answer to one of the requests named this leader. -/
def Advertised (events : List Event) (hint : RefusedLeaderHint) : Prop :=
  ∃ e body object leader, .sends e ∈ events ∧ e.answer = some body ∧ notLeader body = some object ∧
    object.lookup (asciiBytes "leader") = some (.object leader) ∧ advertised leader = some hint

/-- The endpoints that may be dialled after these events: the seeds, and with TLS a seed or a numeric address that was
advertised as the leader's, pinned to the advertised identity. -/
inductive Trusted (seeds : List Endpoint) (tls : Bool) (events : List Event) : Endpoint → Prop
  | seed {e : Endpoint} (h : e ∈ seeds) : Trusted seeds tls events e
  | pinnedSeed {seed : Endpoint} {hint : RefusedLeaderHint} (hseed : seed ∈ seeds) (htls : tls = true)
    (hhint : Advertised events hint) (hhost : seed.host = hint.host) (hport : seed.port = hint.port) :
    Trusted seeds tls events { seed with expectedNodeId := some hint.nodeId }
  | pinned {hint : RefusedLeaderHint} (htls : tls = true) (hhint : Advertised events hint)
    (haddress : isAddress hint.host = true) :
    Trusted seeds tls events ⟨hint.host, hint.port, none, some hint.nodeId⟩

/-- An event after the others: a dial to an endpoint that may be dialled, a request to one that was. -/
def Admissible (seeds : List Endpoint) (tls : Bool) (events : List Event) : Event → Prop
  | .dials e => Trusted isAddress seeds tls events e
  | .sends e => .dials e.endpoint ∈ events

section Confinement

variable {seeds : List Endpoint} {tls : Bool} {before events : List Event}

theorem trusted_of_redirect {body : List UInt8} {e : Exchange} {target : Endpoint} (he : .sends e ∈ events)
    (hbody : e.answer = some body) (h : (leaderRedirect isAddress seeds body tls).1 = .redirect target) :
    Trusted isAddress seeds tls events target := by
  rw [leaderRedirect] at h
  cases hobject : notLeader body with
  | none =>
    rw [hobject] at h
    cases h
  | some object =>
    rw [hobject, Option.elim_some] at h
    split at h
    · next leader hleader =>
      rw [resolveLeaderRedirect] at h
      cases hhint : advertised leader with
      | none =>
        rw [hhint] at h
        cases h
      | some hint =>
        have hadvertised : Advertised events hint := ⟨e, body, object, leader, he, hbody, hobject, hleader, hhint⟩
        rw [hhint, Option.elim_some] at h
        cases hcandidate : seeds.find? fun candidate =>
            candidate.unixPath.isNone && candidate.port == hint.port && candidate.host == hint.host with
        | some candidate =>
          rw [hcandidate, Option.elim_some] at h
          obtain rfl := Redirect.redirect.inj h
          have hmem := List.mem_of_find?_eq_some hcandidate
          have hfound := List.find?_some hcandidate
          rw [Bool.and_eq_true, Bool.and_eq_true, beq_iff_eq, beq_iff_eq] at hfound
          split
          · next htls => exact .pinnedSeed hmem htls hadvertised hfound.2 hfound.1.2
          · exact .seed hmem
        | none =>
          rw [hcandidate, Option.elim_none] at h
          split at h
          · next htls =>
            split at h
            · next haddress =>
              obtain rfl := Redirect.redirect.inj h
              exact .pinned htls hadvertised haddress.2
            · cases h
          · split at h <;> cases h
    · cases h

/-- Where a round stands: what it dialled before and what it may dial next. -/
structure Placed (before : List Event) (c : ClusterConnection) (redirect : Option Endpoint) : Prop where
  connection : ∀ e, c.connection = some e → .dials e ∈ before
  redirect : ∀ e, redirect = some e → Trusted isAddress c.endpoints c.tls before e

variable {r : Round} {c : ClusterConnection} {endpoint : Endpoint}

/-- What one round does and where it leaves the next. -/
def Keeps (before : List Event) (c : ClusterConnection) (passed : Passed) : Prop :=
  passed.client.endpoints = c.endpoints ∧ passed.client.tls = c.tls ∧
    Legal (Admissible isAddress c.endpoints c.tls) before passed.events ∧
    (∀ e, passed.client.connection = some e → .dials e ∈ before ++ passed.events) ∧
    ∀ redirect, passed.next = .inr redirect → ∀ e, redirect = some e →
      Trusted isAddress c.endpoints c.tls (before ++ passed.events) e

theorem keeps_retry {redirect : Option Endpoint} (hlegal : Legal (Admissible isAddress c.endpoints c.tls) before events)
    (h : ∀ e, redirect = some e → Trusted isAddress c.endpoints c.tls (before ++ events) e) :
    Keeps isAddress before c (c.retry r redirect events) := by
  refine ⟨rfl, rfl, hlegal, nofun, fun redirect' hnext e he => ?_⟩
  rw [ClusterConnection.retry] at hnext
  dsimp only at hnext
  split at hnext
  · cases hnext
  · cases hnext
    exact h e he

theorem keeps_exchange (requireLeader : Bool) (r : Round) (hdialled : .dials endpoint ∈ before)
    (hconnection : c.connection = some endpoint) :
    Keeps isAddress before c (c.exchange isAddress requireLeader r endpoint) := by
  have hsent (answer : Option (List UInt8)) :
      Legal (Admissible isAddress c.endpoints c.tls) before [.sends ⟨endpoint, answer⟩] := ⟨hdialled, trivial⟩
  have hkept (c' : ClusterConnection) (hc' : c'.connection = c.connection) (events : List Event) (e : Endpoint)
      (he : c'.connection = some e) : .dials e ∈ before ++ events := by
    obtain rfl := Option.some.inj (hconnection.symm.trans (hc'.symm.trans he))
    exact List.mem_append_left _ hdialled
  rw [ClusterConnection.exchange]
  cases r.answer with
  | canceled => exact ⟨rfl, rfl, hsent none, nofun, nofun⟩
  | failed => exact ⟨rfl, rfl, hsent none, nofun, nofun⟩
  | body text =>
    dsimp only
    split
    · split
      · exact ⟨rfl, rfl, hsent _, hkept _ rfl _, nofun⟩
      · exact keeps_retry isAddress (c := { c with refusedLeaderHint := _ }) (hsent _) nofun
      · next target htarget =>
        refine keeps_retry isAddress (c := { c with refusedLeaderHint := _ }) (hsent _) fun e he => ?_
        obtain rfl := Option.some.inj he
        exact trusted_of_redirect isAddress (List.mem_append_right _ List.mem_cons_self) rfl htarget
    · exact ⟨rfl, rfl, hsent _, hkept c rfl _, nofun⟩

theorem keeps_dial (requireLeader : Bool) (r : Round)
    (htrusted : Trusted isAddress c.endpoints c.tls before endpoint) (hnone : c.connection = none) :
    Keeps isAddress before c (c.dial isAddress requireLeader r endpoint) := by
  have hdials : Legal (Admissible isAddress c.endpoints c.tls) before [.dials endpoint] := ⟨htrusted, trivial⟩
  rw [ClusterConnection.dial]
  cases r.dial with
  | canceled => exact ⟨rfl, rfl, hdials, fun e he => absurd (hnone.symm.trans he) (by simp), nofun⟩
  | failed => exact keeps_retry isAddress hdials nofun
  | connected =>
    obtain ⟨hendpoints, htls, hlegal, hconnection, hredirect⟩ :=
      keeps_exchange isAddress (c := { c with connection := some endpoint }) requireLeader r
        (List.mem_append_right before List.mem_cons_self) rfl
    rw [List.append_assoc] at hconnection
    refine ⟨hendpoints, htls, ⟨htrusted, hlegal⟩, hconnection, fun redirect hnext e he => ?_⟩
    have h := hredirect redirect hnext e he
    rwa [List.append_assoc] at h

theorem keeps_round (requireLeader : Bool) (r : Round) {redirect : Option Endpoint}
    (h : Placed isAddress before c redirect) :
    Keeps isAddress before c (c.round isAddress requireLeader r redirect) := by
  rw [ClusterConnection.round]
  cases hconnection : c.connection with
  | some endpoint => exact keeps_exchange isAddress requireLeader r (h.connection endpoint hconnection) hconnection
  | none =>
    rw [Option.elim_none]
    cases hselected : (c.select redirect).1 with
    | none => exact ⟨rfl, rfl, trivial, fun e he => absurd (hconnection.symm.trans he) (by simp), nofun⟩
    | some endpoint =>
      have htrusted : Trusted isAddress c.endpoints c.tls before endpoint := by
        cases redirect with
        | some target => exact h.redirect endpoint hselected
        | none => exact .seed (List.mem_of_getElem? hselected)
      rw [Option.elim_some]
      cases redirect with
      | some target => exact keeps_dial isAddress requireLeader r htrusted hconnection
      | none => exact keeps_dial isAddress (c := (c.select none).2) requireLeader r htrusted hconnection

theorem keeps_rounds (requireLeader : Bool) (left : ℕ) (answers : ℕ → Round) {redirect : Option Endpoint}
    (h : Placed isAddress before c redirect) :
    (c.rounds isAddress requireLeader left answers redirect).client.endpoints = c.endpoints ∧
      (c.rounds isAddress requireLeader left answers redirect).client.tls = c.tls ∧
      Legal (Admissible isAddress c.endpoints c.tls) before
        (c.rounds isAddress requireLeader left answers redirect).events ∧
      ∀ e, (c.rounds isAddress requireLeader left answers redirect).client.connection = some e →
        .dials e ∈ before ++ (c.rounds isAddress requireLeader left answers redirect).events := by
  induction left generalizing answers redirect c before with
  | zero =>
    refine ⟨rfl, rfl, trivial, fun e he => ?_⟩
    rw [ClusterConnection.rounds, List.append_nil]
    exact h.connection e he
  | succ left ih =>
    obtain ⟨hendpoints, htls, hlegal, hconnection, hredirect⟩ :=
      keeps_round isAddress requireLeader (answers 0) h
    rw [ClusterConnection.rounds]
    dsimp only
    split
    · exact ⟨hendpoints, htls, hlegal, hconnection⟩
    · next redirect' hnext =>
      have hplaced : Placed isAddress (before ++ (c.round isAddress requireLeader (answers 0) redirect).events)
          (c.round isAddress requireLeader (answers 0) redirect).client redirect' := by
        refine ⟨hconnection, fun e he => ?_⟩
        rw [hendpoints, htls]
        exact hredirect redirect' hnext e he
      obtain ⟨hendpoints', htls', hlegal', hconnection'⟩ := ih (fun k => answers (k + 1)) hplaced
      rw [hendpoints, htls] at hlegal'
      refine ⟨hendpoints'.trans hendpoints, htls'.trans htls, legal_append.2 ⟨hlegal, hlegal'⟩, ?_⟩
      rw [List.append_assoc] at hconnection'
      exact hconnection'

/-- A client after some calls, whatever the network answered, and everything it did in them. -/
inductive Called (c₀ : ClusterConnection) : ClusterConnection → List Event → Prop
  | start : Called c₀ c₀ []
  | call {c : ClusterConnection} {events : List Event} (h : Called c₀ c events) (requireLeader : Bool)
    (answers : ℕ → Round) :
    Called c₀ (c.call isAddress requireLeader answers).client
      (events ++ (c.call isAddress requireLeader answers).events)

theorem keeps_called {c₀ : ClusterConnection} (hfresh : c₀.connection = none) (h : Called isAddress c₀ c events) :
    c.endpoints = c₀.endpoints ∧ c.tls = c₀.tls ∧ Legal (Admissible isAddress c₀.endpoints c₀.tls) [] events ∧
      ∀ e, c.connection = some e → .dials e ∈ events := by
  induction h with
  | start => exact ⟨rfl, rfl, trivial, fun e he => absurd (hfresh.symm.trans he) (by simp)⟩
  | @call c events h requireLeader answers ih =>
    obtain ⟨hendpoints, htls, hlegal, hconnection⟩ := ih
    rw [ClusterConnection.call]
    split
    · rw [List.append_nil]
      exact ⟨hendpoints, htls, hlegal, hconnection⟩
    · have hplaced : Placed isAddress events { c with refusedLeaderHint := none } none := ⟨hconnection, nofun⟩
      obtain ⟨hendpoints', htls', hlegal', hconnection'⟩ :=
        keeps_rounds isAddress requireLeader ClusterConnection.maxAttempts answers hplaced
      refine ⟨hendpoints'.trans hendpoints, htls'.trans htls, ?_, hconnection'⟩
      rw [← hendpoints, ← htls] at hlegal ⊢
      exact legal_append.2 ⟨hlegal, hlegal'⟩

/-- Over any calls, a client that starts without a connection dials seeds only, or with TLS what an answer before it
advertised, pinned to the identity it advertised, and sends requests on what it dialled. -/
theorem admissible_of_called {c₀ : ClusterConnection} (hfresh : c₀.connection = none)
    (h : Called isAddress c₀ c events) {event : Event} {after : List Event}
    (hevents : events = before ++ event :: after) :
    Admissible isAddress c₀.endpoints c₀.tls before event := by
  subst hevents
  exact (keeps_called isAddress hfresh h).2.2.1.at_event

end Confinement

end Redirects

/-! ### A redirect with mutual TLS -/

def seedSample : Endpoint :=
  ⟨asciiBytes "127.0.0.1", 7001, none, some 1⟩

def leaderSample : Endpoint :=
  ⟨asciiBytes "127.0.0.2", 7002, none, some 2⟩

/-- The seed says who leads. -/
def answerSample : List UInt8 :=
  asciiBytes ("\x7b\"ok\":false,\"error\":\"not_leader\"," ++
    "\"leader\":\x7b\"id\":2,\"host\":\"127.0.0.2\",\"port\":7002\x7d\x7d")

def seededSample : ClusterConnection :=
  ⟨[seedSample], true, none, 0, none⟩

/-- The seed redirects, and the leader's answer is lost. -/
def roundsSample (k : ℕ) : Round :=
  if k = 0 then ⟨.connected, .body answerSample, false⟩ else ⟨.connected, .failed, false⟩

theorem events_seededSample : (seededSample.call (fun _ => true) true roundsSample).events =
    [.dials seedSample, .sends ⟨seedSample, some answerSample⟩, .dials leaderSample, .sends ⟨leaderSample, none⟩] := by
  decide +kernel

/-- The leader is dialled on the seed's word. -/
theorem admissible_seededSample :
    Admissible (fun _ => true) seededSample.endpoints true
      [.dials seedSample, .sends ⟨seedSample, some answerSample⟩] (.dials leaderSample) := by
  have hstart : Called (fun _ => true) seededSample seededSample [] := .start
  have hcalled := hstart.call true roundsSample
  rw [events_seededSample, List.nil_append] at hcalled
  have hevents : [.dials seedSample, .sends ⟨seedSample, some answerSample⟩, .dials leaderSample,
      .sends ⟨leaderSample, none⟩] = [.dials seedSample, .sends ⟨seedSample, some answerSample⟩] ++
        Event.dials leaderSample :: [.sends ⟨leaderSample, none⟩] := rfl
  exact admissible_of_called (fun _ => true) rfl hcalled hevents

end Cluster

end Zaxonlite
