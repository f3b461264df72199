import BrainCore.Foundation.Machine

/-!
# The idempotency plugin

A request with an idempotency key probes the store and marks the key before its
handler runs; on the way out the response is stored, or the key is discarded
when the status is an error.  Both hooks run for every request with a key, also
for those the plugin answers itself.  On Redis the probe is a `GET`, a `SET NX`
and another `GET`, and other requests may come in between; the in-memory store
probes in one step.
-/

namespace BrainCore.Shared.Idempotency

open BrainCore.Foundation

/-! ## The store -/

structure StoredResponse where
  status : Nat
  body : String
deriving Repr, DecidableEq

/-- What is stored under a key. -/
inductive StoredValue where
  | inFlight (bodyHash : String) (startedAt : Nat)
  | done (bodyHash : String) (response : StoredResponse)
  /-- A text that is neither. -/
  | unreadable
deriving Repr, DecidableEq

inductive IdempotencyLookup where
  | miss
  | inFlight (bodyHash : String)
  | done (bodyHash : String) (response : StoredResponse)
  | conflict (storedBodyHash suppliedBodyHash : String)
deriving Repr, DecidableEq

def interpretExisting (value : StoredValue) (suppliedBodyHash : String) : IdempotencyLookup :=
  match value with
  | .done storedHash response =>
      if storedHash ≠ suppliedBodyHash then .conflict storedHash suppliedBodyHash
      else .done storedHash response
  | .inFlight storedHash _ =>
      if storedHash ≠ suppliedBodyHash then .conflict storedHash suppliedBodyHash
      else .inFlight storedHash
  | .unreadable => .miss

def idempotencyRedisKey (tenantId key : String) : String := "idemp:" ++ tenantId ++ ":" ++ key

inductive StoreKind where
  | redis
  | inMemory
deriving Repr, DecidableEq

/-- An entry is still there in its last millisecond on Redis, and gone in it in memory. -/
def StoreKind.alive : StoreKind → Nat → Nat → Bool
  | .redis, expiresAt, now => now ≤ expiresAt
  | .inMemory, expiresAt, now => now < expiresAt

structure IdempotencyPluginOptions where
  store : StoreKind
  ttlSeconds : Nat
  positive : 0 < ttlSeconds

/-! ## The hook on the way in -/

/-- A request body as the plugin sees it: a buffer by its text, anything else by its JSON. -/
inductive Body where
  | undefined
  | null
  | string (text : String)
  | buffer (utf8 : String)
  | value (json : String)
deriving Repr, DecidableEq

def serializeBody : Body → String
  | .undefined | .null => ""
  | .string text => text
  | .buffer utf8 => utf8
  | .value json => json

/-- The `Idempotency-Key` header. -/
inductive KeyHeader where
  | absent
  | single (rawKey : String)
  | repeated
deriving Repr, DecidableEq

/-- A request as it reaches the plugin. -/
structure Incoming where
  idempotent : Bool
  header : KeyHeader
  principalTenantId : Option String
  body : Body
deriving Repr, DecidableEq

/-- What the plugin refuses a request for. -/
inductive Refusal where
  | malformedKey
  | principalRequired
  | stillInFlight
  | differentBody (storedBodyHash suppliedBodyHash : String)
deriving Repr, DecidableEq

namespace Refusal

def code : Refusal → String
  | malformedKey => "request_params_invalid"
  | principalRequired => "auth_token_missing"
  | stillInFlight | differentBody _ _ => "execution_idempotency_conflict"

def message : Refusal → String
  | malformedKey => "malformed Idempotency-Key header"
  | principalRequired => "principal required for idempotent write"
  | stillInFlight => "a concurrent request with this Idempotency-Key is still in flight"
  | differentBody _ _ => "Idempotency-Key reused with a different request body"

def status : Refusal → Nat
  | malformedKey => 400
  | principalRequired => 401
  | stillInFlight | differentBody _ _ => 409

end Refusal

/-- `MAX_KEY_LEN`. -/
def maxKeyLen : Nat := 256

/-- The key of a request in the store, and the hash of its body. -/
structure Slot where
  redisKey : String
  bodyHash : String
deriving Repr, DecidableEq

/-- What the hook sets on the request before it probes the store. -/
def readSlot (hashBody : String → String) (incoming : Incoming) : Except Refusal (Option Slot) :=
  if !incoming.idempotent then .ok none
  else match incoming.header with
    | .absent => .ok none
    | .repeated => .error .malformedKey
    | .single rawKey =>
        if rawKey.length = 0 ∨ maxKeyLen < rawKey.length then .error .malformedKey
        else match incoming.principalTenantId with
          | none => .error .principalRequired
          | some tenantId =>
              .ok (some ⟨idempotencyRedisKey tenantId rawKey,
                hashBody (serializeBody incoming.body)⟩)

/-! ## Requests -/

/-- What a request is answered with. -/
inductive Reply where
  | handled (status : Nat) (body : String)
  | replayed (response : StoredResponse)
  | refused (refusal : Refusal)
  /-- The store threw. -/
  | failed
deriving Repr, DecidableEq

namespace Reply

def status : Reply → Nat
  | handled status _ => status
  | replayed response => response.status
  | refused refusal => refusal.status
  | failed => 500

/-- The payload of a reply that is stored. -/
def payload : Reply → String
  | handled _ body => body
  | replayed response => response.body
  | refused refusal => refusal.message
  | failed => ""

end Reply

/-- Where a request is. -/
inductive Phase where
  | probing
  /-- `GET` found nothing. -/
  | marking
  /-- `SET NX` was refused. -/
  | rechecking
  | running
  /-- A reply on its way to `onSend`. -/
  | sending (reply : Reply)
  | answered (reply : Reply)
  | crashed
deriving Repr, DecidableEq

structure Request where
  slot : Option Slot
  phase : Phase
  /-- The response that was stored for its body when it came in, and until when. -/
  owed : Option (StoredResponse × Nat) := none
  probedAt : Option Nat := none
deriving Repr, DecidableEq

/-- An entry of the store, and the request that marked the key. -/
structure Cell where
  value : StoredValue
  expiresAt : Nat
  owner : Nat
deriving Repr, DecidableEq

/-- A handler that completed with a status that is stored, and until when its entry is kept. -/
structure Success where
  owner : Nat
  redisKey : String
  ranAt : Nat
  keptUntil : Nat
deriving Repr, DecidableEq

/-- The store, the requests in the order they came in, and the handlers that succeeded. -/
structure Plugin where
  store : String → Option Cell := fun _ => none
  clock : Nat := 0
  requests : List Request := []
  successes : List Success := []

inductive Action where
  | receive (incoming : Incoming)
  | probe (i : Nat)
  | mark (i : Nat)
  | recheck (i : Nat)
  | handle (i : Nat) (status : Nat) (body : String)
  | send (i : Nat)
  /-- The store throws, before or after the command took effect; after `onSend` threw, the error
  reply may go through `onSend` again. -/
  | storeFails (i : Nat) (ran resend : Bool)
  | crash (i : Nat)
deriving Repr, DecidableEq

namespace Plugin

variable (options : IdempotencyPluginOptions)

/-- The entry of a key, unless it has expired. -/
def lookup (s : Plugin) (now : Nat) (redisKey : String) : Option Cell :=
  (s.store redisKey).filter fun cell => options.store.alive cell.expiresAt now

/-- `EX ttlSeconds`. -/
def expiry (now : Nat) : Nat := now + options.ttlSeconds * 1000

def put (s : Plugin) (redisKey : String) (cell : Option Cell) : Plugin :=
  { s with store := Function.update s.store redisKey cell }

def setRequest (s : Plugin) (i : Nat) (request : Request) : Plugin :=
  { s with requests := s.requests.set i request }

/-- The in-flight marker. -/
def marker (i now : Nat) (slot : Slot) : Cell where
  value := .inFlight slot.bodyHash now
  expiresAt := expiry options now
  owner := i

/-- What the hook does with an entry it finds. -/
def onFound (slot : Slot) (cell : Cell) : Phase :=
  match interpretExisting cell.value slot.bodyHash with
  | .miss => .running
  | .inFlight _ => .sending (.refused .stillInFlight)
  | .conflict stored supplied => .sending (.refused (.differentBody stored supplied))
  | .done _ response => .sending (.replayed response)

/-- The response stored for a body, with its expiry. -/
def owedTo (cell : Option Cell) (slot : Slot) : Option (StoredResponse × Nat) :=
  match cell with
  | some ⟨.done bodyHash response, expiresAt, _⟩ =>
      if bodyHash = slot.bodyHash then some (response, expiresAt) else none
  | _ => none

def receive (hashBody : String → String) (s : Plugin) (now : Nat) (incoming : Incoming) : Plugin :=
  let request : Request := match readSlot hashBody incoming with
    | .error refusal => { slot := none, phase := .sending (.refused refusal) }
    | .ok none => { slot := none, phase := .running }
    | .ok (some slot) => { slot := some slot, phase := .probing
                           owed := owedTo (s.lookup options now slot.redisKey) slot }
  { s with requests := s.requests ++ [request] }

/-- The first `GET`; in memory the whole of `probeAndMark`. -/
def probe (s : Plugin) (now i : Nat) (request : Request) (slot : Slot) : Plugin :=
  let probed := { request with probedAt := some now }
  match s.lookup options now slot.redisKey, options.store with
  | some cell, _ => s.setRequest i { probed with phase := onFound slot cell }
  | none, .redis => s.setRequest i { probed with phase := .marking }
  | none, .inMemory =>
      (s.put slot.redisKey (some (marker options i now slot))).setRequest i
        { probed with phase := .running }

/-- `SET NX`. -/
def mark (s : Plugin) (now i : Nat) (request : Request) (slot : Slot) : Plugin :=
  match s.lookup options now slot.redisKey with
  | some _ => s.setRequest i { request with phase := .rechecking }
  | none => (s.put slot.redisKey (some (marker options i now slot))).setRequest i
      { request with phase := .running }

/-- The second `GET`. -/
def recheck (s : Plugin) (now i : Nat) (request : Request) (slot : Slot) : Plugin :=
  match s.lookup options now slot.redisKey with
  | some cell => s.setRequest i { request with phase := onFound slot cell }
  | none => s.setRequest i { request with phase := .running }

/-- The handler completes. -/
def handle (s : Plugin) (now i : Nat) (request : Request) (status : Nat) (body : String) : Plugin :=
  let s' := s.setRequest i { request with phase := .sending (.handled status body) }
  match request.slot with
  | none => s'
  | some slot =>
      if status < 400 then
        { s' with successes := s.successes ++ [⟨i, slot.redisKey, now,
          ((s.store slot.redisKey).map Cell.expiresAt).getD now⟩] }
      else s'

/-- The entries of a request are kept until a new time. -/
def renew (successes : List Success) (owner keptUntil : Nat) : List Success :=
  successes.map fun success =>
    if success.owner = owner then { success with keptUntil := keptUntil } else success

/-- The request whose handler made the reply. -/
def madeBy (s : Plugin) (now i : Nat) (slot : Slot) : Reply → Nat
  | .replayed _ => ((s.lookup options now slot.redisKey).map Cell.owner).getD i
  | _ => i

/-- `complete`. -/
def complete (s : Plugin) (now : Nat) (slot : Slot) (reply : Reply) (owner : Nat) : Plugin :=
  { s.put slot.redisKey (some ⟨.done slot.bodyHash ⟨reply.status, reply.payload⟩,
      expiry options now, owner⟩) with successes := renew s.successes owner (expiry options now) }

/-- What `onSend` does to the store: `discard`, or `complete`. -/
def onSend (s : Plugin) (now i : Nat) (slot : Slot) (reply : Reply) : Plugin :=
  if 400 ≤ reply.status then s.put slot.redisKey none
  else s.complete options now slot reply (s.madeBy options now i slot reply)

def send (s : Plugin) (now i : Nat) (request : Request) (reply : Reply) : Plugin :=
  match request.slot with
  | none => s.setRequest i { request with phase := .answered reply }
  | some slot => (s.onSend options now i slot reply).setRequest i
      { request with phase := .answered reply }

/-- A command on the store throws. -/
def storeFails (s : Plugin) (now i : Nat) (request : Request) (slot : Slot) (ran resend : Bool) :
    Option Plugin :=
  match request.phase with
  | .probing => some (s.setRequest i
      { request with phase := .sending .failed, probedAt := some now })
  | .rechecking => some (s.setRequest i { request with phase := .sending .failed })
  | .marking =>
      let s' := if ran && (s.lookup options now slot.redisKey).isNone then
        s.put slot.redisKey (some (marker options i now slot)) else s
      some (s'.setRequest i { request with phase := .sending .failed })
  | .sending reply =>
      let s' := if ran then s.onSend options now i slot reply else s
      some (s'.setRequest i
        { request with phase := if resend then .sending .failed else .answered .failed })
  | _ => none

/-- One step of one request. -/
def act (hashBody : String → String) (s : Plugin) (now : Nat) : Action → Option Plugin
  | .receive incoming => some (s.receive options hashBody now incoming)
  | .probe i => match s.requests[i]? with
      | some request => match request.phase, request.slot with
          | .probing, some slot => some (s.probe options now i request slot)
          | _, _ => none
      | none => none
  | .mark i => match s.requests[i]? with
      | some request => match request.phase, request.slot with
          | .marking, some slot => some (s.mark options now i request slot)
          | _, _ => none
      | none => none
  | .recheck i => match s.requests[i]? with
      | some request => match request.phase, request.slot with
          | .rechecking, some slot => some (s.recheck options now i request slot)
          | _, _ => none
      | none => none
  | .handle i status body => match s.requests[i]? with
      | some request => match request.phase with
          | .running => some (s.handle now i request status body)
          | _ => none
      | none => none
  | .send i => match s.requests[i]? with
      | some request => match request.phase with
          | .sending reply => some (s.send options now i request reply)
          | _ => none
      | none => none
  | .storeFails i ran resend => match s.requests[i]?, options.store with
      | some request, .redis => match request.slot with
          | some slot => s.storeFails options now i request slot ran resend
          | none => none
      | _, _ => none
  | .crash i => match s.requests[i]? with
      | some request => some (s.setRequest i { request with phase := .crashed })
      | none => none

end Plugin

/-- Requests that take their steps in any order, under a clock that does not go back. -/
def pluginMachine (options : IdempotencyPluginOptions) (hashBody : String → String) :
    Machine Plugin (Nat × Action) :=
  ⟨fun s label =>
    if s.clock ≤ label.1 then
      (s.act options hashBody label.1 label.2).map fun next => { next with clock := label.1 }
    else none⟩

end BrainCore.Shared.Idempotency
