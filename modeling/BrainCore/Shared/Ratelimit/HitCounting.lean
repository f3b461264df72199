import BrainCore.Foundation.Digits
import BrainCore.Foundation.Machine
import BrainCore.Foundation.TimedSet

/-!
# The dual sliding window of the API

One hit is decided against the window of its key and the window of its tenant.
Redis runs a script over two sorted sets whose scores are epoch milliseconds;
the in-memory double keeps a map of maps.  Rejected attempts are counted in the
decision and recorded nowhere.
-/

namespace BrainCore.Shared.Ratelimit

open BrainCore.Foundation

structure ApiRateLimitPolicy where
  tierId : String
  entitlementVersion : Nat
  windowSeconds : Int
  keyLimit : Int
  tenantLimit : Int
deriving Repr, DecidableEq

/-- Which bucket rejected the request. -/
inductive RejectedBy where
  | key
  | tenant
  | keyAndTenant
deriving Repr, DecidableEq

structure ApiRateLimitDecision where
  allowed : Bool
  count : Nat
  limit : Int
  tenantCount : Nat
  tenantLimit : Int
  rejectedBy : Option RejectedBy
  policy : ApiRateLimitPolicy
deriving Repr, DecidableEq

structure ApiSlidingWindowHit where
  keyBucket : String
  tenantBucket : String
  requestId : String
  policy : ApiRateLimitPolicy
deriving Repr, DecidableEq

namespace ApiSlidingWindowHit

variable (hit : ApiSlidingWindowHit)

def windowMs : Int := hit.policy.windowSeconds * 1000

/-- The hit is decided against this bucket. -/
def Touches (bucket : String) : Prop := bucket = hit.keyBucket ∨ bucket = hit.tenantBucket

instance instDecidableTouches (bucket : String) : Decidable (hit.Touches bucket) :=
  inferInstanceAs (Decidable (_ ∨ _))

end ApiSlidingWindowHit

/-- Both implementations read the rejecting bucket off the counts. -/
def rejectedBy (keyRejected tenantRejected : Bool) : Option RejectedBy :=
  if keyRejected && tenantRejected then some .keyAndTenant
  else if keyRejected then some .key
  else if tenantRejected then some .tenant
  else none

/-- The decision that is returned for two counts. -/
def decision (policy : ApiRateLimitPolicy) (allowed : Bool) (keyCount tenantCount : Nat) :
    ApiRateLimitDecision where
  allowed := allowed
  count := keyCount
  limit := policy.keyLimit
  tenantCount := tenantCount
  tenantLimit := policy.tenantLimit
  rejectedBy := rejectedBy (decide (policy.keyLimit < keyCount))
    (decide (policy.tenantLimit < tenantCount))
  policy := policy

/-! ## Redis -/

/-- A sorted set and the time it expires at; a missing key is a set without members. -/
structure SortedSet where
  members : TimedSet String := TimedSet.empty
  expiresAt : Option Int := none

abbrev Redis := String → SortedSet

namespace Redis

/-- The keys that have not expired; the time stands still while a script runs. -/
def alive (redis : Redis) (now : Nat) : Redis := fun key =>
  match (redis key).expiresAt with
  | some expiresAt => if expiresAt < now then {} else redis key
  | none => redis key

/-- A set that has lost its last member is no key any more. -/
def store (redis : Redis) (key : String) (set : SortedSet) : Redis :=
  Function.update redis key (if set.members.card = 0 then {} else set)

/-- `ZREMRANGEBYSCORE key 0 max`. -/
def zremrangebyscore (redis : Redis) (key : String) (max : Int) : Redis :=
  redis.store key { redis key with members := (redis key).members.prune max }

def zcard (redis : Redis) (key : String) : Nat := (redis key).members.card

def zscore (redis : Redis) (key member : String) : Option Nat := (redis key).members.time? member

/-- `ZADD key NX score member`. -/
def zaddNx (redis : Redis) (key : String) (score : Nat) (member : String) : Redis :=
  redis.store key { redis key with members := (redis key).members.recordNew member score }

/-- `PEXPIRE key ms`; a time that is not positive deletes the key. -/
def pexpire (redis : Redis) (key : String) (now : Nat) (ms : Int) : Redis :=
  if ms ≤ 0 then Function.update redis key {}
  else redis.store key { redis key with expiresAt := some (now + ms) }

end Redis

/-- What the script returns. -/
structure ScriptReply where
  allowed : Nat
  keyCount : Nat
  tenantCount : Nat
deriving Repr, DecidableEq

/-- `API_DUAL_SLIDING_WINDOW_LUA`. -/
def apiDualSlidingWindowLua (redis : Redis) (keyBucket tenantBucket : String) (now : Nat)
    (cutoff windowMs keyLimit tenantLimit : Int) (member : String) : ScriptReply × Redis :=
  let redis := redis.alive now
  let redis := redis.zremrangebyscore keyBucket cutoff
  let redis := redis.zremrangebyscore tenantBucket cutoff
  let keyCount := redis.zcard keyBucket
  let tenantCount := redis.zcard tenantBucket
  if (redis.zscore keyBucket member).isSome && (redis.zscore tenantBucket member).isSome then
    (⟨1, keyCount, tenantCount⟩, redis)
  else if (keyCount + 1 : Nat) ≤ keyLimit ∧ (tenantCount + 1 : Nat) ≤ tenantLimit then
    let redis := redis.zaddNx keyBucket now member
    let redis := redis.zaddNx tenantBucket now member
    let redis := redis.pexpire keyBucket now windowMs
    let redis := redis.pexpire tenantBucket now windowMs
    (⟨1, redis.zcard keyBucket, redis.zcard tenantBucket⟩, redis)
  else (⟨0, keyCount + 1, tenantCount + 1⟩, redis)

/-- How the call of the script ends for the caller. -/
inductive Transport where
  | answered
  /-- No reply in time; the script may have run. -/
  | timedOut (ran : Bool)
  /-- The client reports an error; the script may have run. -/
  | failed (error : String) (ran : Bool)
deriving Repr, DecidableEq

/-- `Number.MAX_SAFE_INTEGER`. -/
def maxSafeInteger : Nat := 2 ^ 53 - 1

/-- What the wrapper makes of the reply of the script. -/
def readReply (policy : ApiRateLimitPolicy) (reply : ScriptReply) :
    Except String ApiRateLimitDecision :=
  if (reply.allowed ≠ 0 ∧ reply.allowed ≠ 1) ∨ maxSafeInteger < reply.keyCount ∨
      maxSafeInteger < reply.tenantCount then
    .error "Redis returned malformed API rate-limit counters"
  else .ok (decision policy (reply.allowed == 1) reply.keyCount reply.tenantCount)

/-- `hit` of the limiter on Redis. -/
def redisHit (redis : Redis) (now : Nat) (hit : ApiSlidingWindowHit) (transport : Transport) :
    Except String ApiRateLimitDecision × Redis :=
  let ran := apiDualSlidingWindowLua redis hit.keyBucket hit.tenantBucket now (now - hit.windowMs)
    hit.windowMs hit.policy.keyLimit hit.policy.tenantLimit hit.requestId
  match transport with
  | .answered => (readReply hit.policy ran.1, ran.2)
  | .timedOut true => (.error "Redis API rate-limit decision timed out", ran.2)
  | .timedOut false => (.error "Redis API rate-limit decision timed out", redis)
  | .failed error true => (.error error, ran.2)
  | .failed error false => (.error error, redis)

/-! ## The in-memory double -/

abbrev Buckets := String → TimedSet String

/-- Drops the events at or before the cutoff from the bucket. -/
def activeEvents (buckets : Buckets) (bucket : String) (cutoff : Int) : Buckets :=
  Function.update buckets bucket ((buckets bucket).prune cutoff)

/-- `events.set(requestId, now)` in the bucket. -/
def setEvent (buckets : Buckets) (bucket requestId : String) (now : Nat) : Buckets :=
  Function.update buckets bucket ((buckets bucket).record requestId now)

/-- `hit` of the in-memory limiter. -/
def memoryHit (buckets : Buckets) (now : Nat) (hit : ApiSlidingWindowHit) :
    ApiRateLimitDecision × Buckets :=
  let cutoff : Int := now - hit.windowMs
  let buckets := activeEvents (activeEvents buckets hit.keyBucket cutoff) hit.tenantBucket cutoff
  let keyEvents := buckets hit.keyBucket
  let tenantEvents := buckets hit.tenantBucket
  let alreadyRecorded := (keyEvents.time? hit.requestId).isSome &&
    (tenantEvents.time? hit.requestId).isSome
  let keyCount := keyEvents.card + if alreadyRecorded then 0 else 1
  let tenantCount := tenantEvents.card + if alreadyRecorded then 0 else 1
  let allowed := !decide (hit.policy.keyLimit < keyCount) &&
    !decide (hit.policy.tenantLimit < tenantCount)
  (decision hit.policy allowed keyCount tenantCount,
    if allowed && !alreadyRecorded then
      setEvent (setEvent buckets hit.keyBucket hit.requestId now) hit.tenantBucket hit.requestId now
    else buckets)

/-! ## Both on one sequence of hits -/

/-- A hit and what the two implementations returned for it. -/
structure Outcome where
  now : Nat
  hit : ApiSlidingWindowHit
  redis : Except String ApiRateLimitDecision
  memory : ApiRateLimitDecision

/-- The two stores, the clock, and the hits so far, newest first. -/
structure Limiters where
  redis : Redis := fun _ => {}
  memory : Buckets := fun _ => TimedSet.empty
  clock : Nat := 0
  history : List Outcome := []

/-- A hit at a time. -/
structure TimedHit where
  now : Nat
  hit : ApiSlidingWindowHit
  transport : Transport := .answered
deriving Repr, DecidableEq

def Limiters.record (s : Limiters) (timed : TimedHit) : Limiters :=
  let onRedis := redisHit s.redis timed.now timed.hit timed.transport
  let inMemory := memoryHit s.memory timed.now timed.hit
  { redis := onRedis.2
    memory := inMemory.2
    clock := timed.now
    history := ⟨timed.now, timed.hit, onRedis.1, inMemory.1⟩ :: s.history }

/-- Hits with a clock that does not go back. -/
def limiterMachine : Machine Limiters TimedHit :=
  ⟨fun s timed => if s.clock ≤ timed.now then some (s.record timed) else none⟩

/-!
## The sliding window of one key

`RedisSlidingWindowRateLimiter` of `shared/src/ratelimit/sliding-window.ts`, used
by any number of processes on one key.  A hit reads its process' clock and draws
the next number of its process; Redis runs its transaction later, in any order
among the hits in flight.  The member of a hit is its time and its number, and
numbers are drawn by each process for itself.
-/

structure RateLimitDecision where
  allowed : Bool
  count : Nat
  limit : Int
deriving Repr, DecidableEq

structure SlidingWindowOptions where
  windowSeconds : Int
  limit : Int

namespace SlidingWindowOptions

variable (opts : SlidingWindowOptions)

def windowMs : Int := opts.windowSeconds * 1000

/-- A count that cannot be read is zero, and lets the hit through. -/
def decide (count : Nat) : RateLimitDecision :=
  if count = 0 then ⟨true, 0, opts.limit⟩ else ⟨count ≤ opts.limit, count, opts.limit⟩

end SlidingWindowOptions

/-! ## One hit -/

/-- What a hit sends: the time its process read and the number it drew. -/
structure Hit where
  process : Nat
  time : Nat
  seq : Nat
deriving Repr, DecidableEq

/-- `${now}-${memberSeq}`. -/
def Hit.member (hit : Hit) : String := toString hit.time ++ "-" ++ toString hit.seq

/-- `ZADD key score member`. -/
def Redis.zadd (redis : Redis) (key : String) (score : Nat) (member : String) : Redis :=
  redis.store key { redis key with members := (redis key).members.record member score }

/-- The transaction of a hit, run when Redis' clock shows `clock`, and the reply of its `ZCARD`. -/
def hitTransaction (opts : SlidingWindowOptions) (redis : Redis) (key : String) (clock : Nat)
    (hit : Hit) : Nat × Redis :=
  let redis := redis.alive clock
  let redis := redis.zadd key hit.time hit.member
  let redis := redis.zremrangebyscore key (hit.time - opts.windowMs)
  (redis.zcard key, redis.pexpire key clock opts.windowMs)

/-! ## Runs of all processes -/

/-- A hit whose transaction ran, and when. -/
structure Recorded where
  hit : Hit
  ranAt : Nat
deriving Repr, DecidableEq

/-- A decision, what was recorded when it was taken, and the time its process had read. -/
structure Counted where
  now : Nat
  recorded : List Recorded
  decision : RateLimitDecision

/-- Redis, the counters of the processes, and the hits in flight; with the hits recorded and the
decisions taken so far, newest first. -/
structure Processes where
  redis : Redis := fun _ => {}
  memberSeq : Nat → Nat := fun _ => 0
  inFlight : List Hit := []
  recorded : List Recorded := []
  decisions : List Counted := []

/-- How the call of the transaction ends for its process. -/
inductive Ending where
  | answered
  /-- A reply without a count; the transaction may have run. -/
  | unread (ran : Bool)
  /-- The client throws; the transaction may have run. -/
  | threw (ran : Bool)
deriving DecidableEq

def Ending.ran : Ending → Bool
  | .answered => true
  | .unread ran | .threw ran => ran

inductive HitLabel where
  /-- A process reads its clock and sends a hit. -/
  | send (process now : Nat)
  /-- A process draws a number for a hit on another key. -/
  | elsewhere (process : Nat)
  /-- A process starts again, with a new counter. -/
  | restart (process : Nat)
  /-- Redis gets to a hit in flight. -/
  | finish (hit : Hit) (clock : Nat) (ending : Ending)
deriving DecidableEq

namespace Processes

variable (opts : SlidingWindowOptions) (key : String) (s : Processes)

/-- `memberSeq = (memberSeq + 1) % Number.MAX_SAFE_INTEGER`. -/
def draw (process : Nat) : Processes :=
  { s with
    memberSeq := Function.update s.memberSeq process ((s.memberSeq process + 1) % maxSafeInteger) }

def send (process now : Nat) : Processes :=
  let drawn := s.draw process
  { drawn with inFlight := ⟨process, now, drawn.memberSeq process⟩ :: s.inFlight }

/-- The hits recorded once the transaction has ended. -/
def recordedAfter (hit : Hit) (clock : Nat) (ending : Ending) : List Recorded :=
  if ending.ran then ⟨hit, clock⟩ :: s.recorded else s.recorded

/-- The count the process reads, unless the call throws. -/
def countRead (hit : Hit) (clock : Nat) : Ending → Option Nat
  | .answered => some (hitTransaction opts s.redis key clock hit).1
  | .unread _ => some 0
  | .threw _ => none

def finish (hit : Hit) (clock : Nat) (ending : Ending) : Processes :=
  { s with
    redis := if ending.ran then (hitTransaction opts s.redis key clock hit).2 else s.redis
    inFlight := s.inFlight.erase hit
    recorded := s.recordedAfter hit clock ending
    decisions := ((s.countRead opts key hit clock ending).map fun count =>
      ⟨hit.time, s.recordedAfter hit clock ending, opts.decide count⟩).toList ++ s.decisions }

def step : HitLabel → Option Processes
  | .send process now => some (s.send process now)
  | .elsewhere process => some (s.draw process)
  | .restart process => some { s with memberSeq := Function.update s.memberSeq process 0 }
  | .finish hit clock ending => if hit ∈ s.inFlight then some (s.finish opts key hit clock ending) else none

end Processes

/-- Processes that hit one key. -/
def hitMachine (opts : SlidingWindowOptions) (key : String) : Machine Processes HitLabel :=
  ⟨fun s label => s.step opts key label⟩

end BrainCore.Shared.Ratelimit
