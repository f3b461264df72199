import BrainCore.Shared.Ratelimit.HitCounting

/-!
# Agreement of the two limiters

The sets on Redis stay within the maps of the double, and every event of a map
is a hit that was accepted when it was recorded.  A hit that finds every request
id accepted inside its window still recorded finds the same window on both
sides, so both decide alike, and the window bounds what was accepted.
-/

namespace BrainCore.Shared.Ratelimit

open BrainCore.Foundation

/-! ## The windows of a hit -/

/-- The first millisecond is the last that is outside the window of the hit. -/
def TimedHit.cutoff (timed : TimedHit) : Int := timed.now - timed.hit.windowMs

/-- The sets of both buckets without what is outside the window. -/
def pruned (buckets : Buckets) (timed : TimedHit) : Buckets :=
  activeEvents (activeEvents buckets timed.hit.keyBucket timed.cutoff) timed.hit.tenantBucket
    timed.cutoff

/-- The hit's id is recorded in both buckets. -/
def alreadyRecorded (buckets : Buckets) (timed : TimedHit) : Bool :=
  ((pruned buckets timed timed.hit.keyBucket).time? timed.hit.requestId).isSome &&
    ((pruned buckets timed timed.hit.tenantBucket).time? timed.hit.requestId).isSome

/-- One more event in each bucket is within the limits. -/
def Fits (buckets : Buckets) (timed : TimedHit) : Prop :=
  ((pruned buckets timed timed.hit.keyBucket).card + 1 : Nat) ≤ timed.hit.policy.keyLimit ∧
    ((pruned buckets timed timed.hit.tenantBucket).card + 1 : Nat) ≤ timed.hit.policy.tenantLimit

/-- The events in both buckets as they are do not exceed the limits. -/
def WithinLimits (buckets : Buckets) (timed : TimedHit) : Prop :=
  ((pruned buckets timed timed.hit.keyBucket).card : Int) ≤ timed.hit.policy.keyLimit ∧
    ((pruned buckets timed timed.hit.tenantBucket).card : Int) ≤ timed.hit.policy.tenantLimit

theorem activeEvents_apply (buckets : Buckets) (bucket other : String) (cutoff : Int) :
    activeEvents buckets bucket cutoff other =
      if other = bucket then (buckets other).prune cutoff else buckets other := by
  rw [activeEvents, Function.update_apply]
  split
  · rename_i h
    rw [h]
  · rfl

theorem pruned_apply (buckets : Buckets) (timed : TimedHit) (bucket : String) :
    pruned buckets timed bucket =
      if timed.hit.Touches bucket then (buckets bucket).prune timed.cutoff else buckets bucket := by
  rw [pruned, activeEvents_apply, activeEvents_apply]
  by_cases htenant : bucket = timed.hit.tenantBucket
  · rw [if_pos htenant, if_pos (show timed.hit.Touches bucket from .inr htenant)]
    by_cases hkey : bucket = timed.hit.keyBucket
    · rw [if_pos hkey, TimedSet.prune_prune]
    · rw [if_neg hkey]
  · rw [if_neg htenant]
    by_cases hkey : bucket = timed.hit.keyBucket
    · rw [if_pos hkey, if_pos (show timed.hit.Touches bucket from .inl hkey)]
    · rw [if_neg hkey, if_neg (show ¬timed.hit.Touches bucket from fun h => h.elim hkey htenant)]

theorem time?_pruned {buckets : Buckets} {timed : TimedHit} {bucket member : String} {time : Nat} :
    (pruned buckets timed bucket).time? member = some time ↔
      (buckets bucket).time? member = some time ∧
        (timed.hit.Touches bucket → timed.cutoff < time) := by
  rw [pruned_apply]
  by_cases h : timed.hit.Touches bucket
  · rw [if_pos h, TimedSet.time?_prune]
    exact and_congr_right fun _ => ⟨fun hafter _ => hafter, fun hafter => hafter h⟩
  · rw [if_neg h]
    exact ⟨fun htime => ⟨htime, fun hcontra => absurd hcontra h⟩, And.left⟩

/-- The id is in a bucket the hit is decided against. -/
theorem recorded_of_alreadyRecorded {buckets : Buckets} {timed : TimedHit} {bucket : String}
    (h : alreadyRecorded buckets timed = true) (htouches : timed.hit.Touches bucket) :
    ∃ time, (pruned buckets timed bucket).time? timed.hit.requestId = some time := by
  rw [alreadyRecorded, Bool.and_eq_true, Option.isSome_iff_exists, Option.isSome_iff_exists] at h
  rcases htouches with rfl | rfl
  · exact h.1
  · exact h.2

/-- The hit's id recorded at its time in both buckets. -/
def recorded (buckets : Buckets) (timed : TimedHit) : Buckets :=
  setEvent (setEvent (pruned buckets timed) timed.hit.keyBucket timed.hit.requestId timed.now)
    timed.hit.tenantBucket timed.hit.requestId timed.now

theorem time?_setEvent (buckets : Buckets) (bucket requestId other member : String) (now : Nat) :
    (setEvent buckets bucket requestId now other).time? member =
      if other = bucket ∧ member = requestId then some now else (buckets other).time? member := by
  rw [setEvent, Function.update_apply]
  by_cases hbucket : other = bucket
  · subst hbucket
    rw [if_pos rfl, TimedSet.time?_record]
    simp
  · rw [if_neg hbucket, if_neg fun h => hbucket h.1]

theorem time?_recorded (buckets : Buckets) (timed : TimedHit) (bucket member : String) :
    (recorded buckets timed bucket).time? member =
      if timed.hit.Touches bucket ∧ member = timed.hit.requestId then some timed.now
      else (pruned buckets timed bucket).time? member := by
  rw [recorded, time?_setEvent, time?_setEvent]
  by_cases hmember : member = timed.hit.requestId
  · by_cases htenant : bucket = timed.hit.tenantBucket
    · simp [ApiSlidingWindowHit.Touches, htenant, hmember]
    · simp [ApiSlidingWindowHit.Touches, htenant, hmember]
  · simp [hmember]

/-! ## What the script leaves on Redis -/

namespace Redis

/-- The sets of a Redis, whatever their expiry. -/
def sets (redis : Redis) : Buckets := fun key => (redis key).members

theorem sets_store (redis : Redis) (key : String) (set : SortedSet) :
    (redis.store key set).sets = Function.update redis.sets key set.members := by
  funext other
  rw [sets, store, Function.update_apply, Function.update_apply]
  by_cases hkey : other = key
  · rw [if_pos hkey, if_pos hkey]
    by_cases hempty : set.members.card = 0
    · rw [if_pos hempty]
      exact Table.ext (List.length_eq_zero_iff.mp hempty).symm
    · rw [if_neg hempty]
  · rw [if_neg hkey, if_neg hkey]
    rfl

theorem sets_zremrangebyscore (redis : Redis) (key : String) (max : Int) :
    (redis.zremrangebyscore key max).sets = activeEvents redis.sets key max :=
  sets_store redis key _

theorem sets_zaddNx (redis : Redis) (key : String) (score : Nat) (member : String) :
    (redis.zaddNx key score member).sets =
      Function.update redis.sets key ((redis.sets key).recordNew member score) :=
  sets_store redis key _

theorem sets_pexpire (redis : Redis) (key : String) (now : Nat) {ms : Int} (hms : 0 < ms) :
    (redis.pexpire key now ms).sets = redis.sets := by
  rw [pexpire, if_neg (by omega), sets_store]
  exact Function.update_eq_self key redis.sets

/-- What has not expired is what was stored. -/
theorem alive_within (redis : Redis) (now : Nat) (key : String) :
    ((redis.alive now).sets key).Within (redis.sets key) := by
  intro member time htime
  rw [sets, alive] at htime
  split at htime
  · split at htime
    · cases htime
    · exact htime
  · exact htime

end Redis

/-- The sets of a Redis as the script finds them. -/
def found (redis : Redis) (timed : TimedHit) : Buckets := (redis.alive timed.now).sets

/-- The script with the arguments of a hit. -/
def runLua (redis : Redis) (timed : TimedHit) : ScriptReply × Redis :=
  apiDualSlidingWindowLua redis timed.hit.keyBucket timed.hit.tenantBucket timed.now timed.cutoff
    timed.hit.windowMs timed.hit.policy.keyLimit timed.hit.policy.tenantLimit timed.hit.requestId

/-- Redis after both removals of the script. -/
def trimmed (redis : Redis) (timed : TimedHit) : Redis :=
  ((redis.alive timed.now).zremrangebyscore timed.hit.keyBucket timed.cutoff).zremrangebyscore
    timed.hit.tenantBucket timed.cutoff

/-- Redis after both additions of the script. -/
def extended (redis : Redis) (timed : TimedHit) : Redis :=
  ((((trimmed redis timed).zaddNx timed.hit.keyBucket timed.now timed.hit.requestId).zaddNx
    timed.hit.tenantBucket timed.now timed.hit.requestId).pexpire timed.hit.keyBucket timed.now
      timed.hit.windowMs).pexpire timed.hit.tenantBucket timed.now timed.hit.windowMs

theorem sets_trimmed (redis : Redis) (timed : TimedHit) :
    (trimmed redis timed).sets = pruned (found redis timed) timed := by
  rw [trimmed, Redis.sets_zremrangebyscore, Redis.sets_zremrangebyscore]
  rfl

instance instDecidableFits (buckets : Buckets) (timed : TimedHit) :
    Decidable (Fits buckets timed) := inferInstanceAs (Decidable (_ ∧ _))

/-- The script over the sets it finds. -/
theorem runLua_eq (redis : Redis) (timed : TimedHit) : runLua redis timed =
    if alreadyRecorded (found redis timed) timed then
      (⟨1, (pruned (found redis timed) timed timed.hit.keyBucket).card,
        (pruned (found redis timed) timed timed.hit.tenantBucket).card⟩, trimmed redis timed)
    else if Fits (found redis timed) timed then
      (⟨1, ((extended redis timed).sets timed.hit.keyBucket).card,
        ((extended redis timed).sets timed.hit.tenantBucket).card⟩, extended redis timed)
    else
      (⟨0, (pruned (found redis timed) timed timed.hit.keyBucket).card + 1,
        (pruned (found redis timed) timed timed.hit.tenantBucket).card + 1⟩,
        trimmed redis timed) := by
  simp only [alreadyRecorded, Fits, ← sets_trimmed]
  rfl

section Script

variable {redis : Redis} {timed : TimedHit}

/-- Both sorted sets have the id of the hit added where it is new. -/
theorem time?_recordNew_twice {buckets : Buckets} {keyBucket tenantBucket requestId : String}
    (now : Nat) (hkey : (buckets keyBucket).time? requestId = none)
    (htenant : (buckets tenantBucket).time? requestId = none) :
    let first := Function.update buckets keyBucket ((buckets keyBucket).recordNew requestId now)
    ∀ bucket member, (Function.update first tenantBucket
        ((first tenantBucket).recordNew requestId now) bucket).time? member =
      (setEvent (setEvent buckets keyBucket requestId now) tenantBucket requestId now
        bucket).time? member := by
  intro first bucket member
  have hfirst : first = setEvent buckets keyBucket requestId now := by
    rw [setEvent, ← TimedSet.recordNew_of_missing hkey]
  rw [hfirst, time?_setEvent, Function.update_apply]
  by_cases hbucket : bucket = tenantBucket
  · subst hbucket
    rw [if_pos rfl]
    by_cases hsame : bucket = keyBucket
    · have hstored : (setEvent buckets keyBucket requestId now bucket).time? requestId =
          some now := by
        rw [time?_setEvent, if_pos ⟨hsame, rfl⟩]
      rw [TimedSet.recordNew_of_recorded hstored]
      split
      · rename_i hmember
        rw [hmember.2, hstored]
      · rfl
    · have hmissing : (setEvent buckets keyBucket requestId now bucket).time? requestId =
          none := by
        rw [time?_setEvent, if_neg fun h => hsame h.1, htenant]
      rw [TimedSet.recordNew_of_missing hmissing, TimedSet.time?_record]
      simp
  · rw [if_neg hbucket, if_neg fun h => hbucket h.1]

/-- The sets after the additions, of an id that was in neither set. -/
theorem time?_extended (hnew : ∀ bucket, timed.hit.Touches bucket →
      (pruned (found redis timed) timed bucket).time? timed.hit.requestId = none)
    (hms : 0 < timed.hit.windowMs) (bucket member : String) :
    ((extended redis timed).sets bucket).time? member =
      (recorded (found redis timed) timed bucket).time? member := by
  rw [extended, Redis.sets_pexpire _ _ _ hms, Redis.sets_pexpire _ _ _ hms, Redis.sets_zaddNx,
    Redis.sets_zaddNx, sets_trimmed]
  exact time?_recordNew_twice timed.now (hnew _ (.inl rfl)) (hnew _ (.inr rfl)) bucket member

end Script

/-! ## What is promised, and when it holds -/

/-- An event of the set was dropped only when it left the window of the hit. -/
def OnlyPruned (timed : TimedHit) (before after : Buckets) : Prop :=
  ∀ bucket member time, (after bucket).time? member = some time ↔
    (before bucket).time? member = some time ∧ (timed.hit.Touches bucket → timed.cutoff < time)

/-- Both limiters decide alike, and a rejected hit leaves both windows as they are. -/
structure DecidesAlike (s : Limiters) (timed : TimedHit) : Prop where
  agree : (redisHit s.redis timed.now timed.hit timed.transport).1 =
    .ok (memoryHit s.memory timed.now timed.hit).1
  exact : (memoryHit s.memory timed.now timed.hit).1.allowed = true ↔
    (memoryHit s.memory timed.now timed.hit).1.rejectedBy = none
  redisKept : (memoryHit s.memory timed.now timed.hit).1.allowed = false →
    OnlyPruned timed (found s.redis timed)
      (redisHit s.redis timed.now timed.hit timed.transport).2.sets
  memoryKept : (memoryHit s.memory timed.now timed.hit).1.allowed = false →
    OnlyPruned timed s.memory (memoryHit s.memory timed.now timed.hit).2

/-- The request ids of the accepted hits on a bucket after a time. -/
def acceptedIds (history : List Outcome) (bucket : String) (after : Int) : List String :=
  (history.filter fun outcome => outcome.memory.allowed &&
    decide (outcome.hit.Touches bucket) && decide (after < outcome.now)).map (·.hit.requestId)

/-- At most `limit` distinct ids were accepted on the bucket in a window that ends at or after the
last hit. -/
def WindowHolds (outcome : Outcome) (earlier : List Outcome) (bucket : String) (limit : Int) :
    Prop :=
  ∀ ending : Nat, outcome.now ≤ ending → ((acceptedIds (outcome :: earlier) bucket
    (ending - outcome.hit.windowMs)).dedup.length : Int) ≤ limit

/-- Every window that an accepted hit is the last one in is within the limits of that hit. -/
def WindowsBounded (history : List Outcome) : Prop :=
  ∀ later outcome earlier, history = later ++ outcome :: earlier → outcome.memory.allowed = true →
    WindowHolds outcome earlier outcome.hit.keyBucket outcome.hit.policy.keyLimit ∧
      WindowHolds outcome earlier outcome.hit.tenantBucket outcome.hit.policy.tenantLimit

/-- The hits on which the limiters do what they promise. -/
structure Admissible (s : Limiters) (timed : TimedHit) : Prop where
  answered : timed.transport = .answered
  positive : 0 < timed.hit.policy.windowSeconds
  /-- The sets still record, inside the window, each request id accepted inside the window. -/
  remembered : ∀ outcome ∈ s.history, outcome.memory.allowed = true → ∀ bucket,
    timed.hit.Touches bucket → outcome.hit.Touches bucket → timed.cutoff < outcome.now →
      ∃ time, (pruned (found s.redis timed) timed bucket).time? outcome.hit.requestId = some time
  /-- A replay finds no more events than the limits it comes with. -/
  replay : alreadyRecorded (found s.redis timed) timed = true →
    WithinLimits (found s.redis timed) timed
  /-- An id that is in one of the buckets is in both. -/
  together : alreadyRecorded (found s.redis timed) timed = false →
    Fits (found s.redis timed) timed → ∀ bucket, timed.hit.Touches bucket →
      (pruned (found s.redis timed) timed bucket).time? timed.hit.requestId = none
  countable : ∀ bucket, timed.hit.Touches bucket →
    (pruned (found s.redis timed) timed bucket).card < maxSafeInteger

/-! ## The simulation -/

/-- What every guarded run keeps. -/
structure Simulates (s : Limiters) : Prop where
  within : ∀ bucket, (s.redis.sets bucket).Within (s.memory bucket)
  /-- Each event of the double was accepted at its time. -/
  accepted : ∀ bucket member time, (s.memory bucket).time? member = some time →
    ∃ outcome ∈ s.history, outcome.memory.allowed = true ∧ outcome.hit.Touches bucket ∧
      outcome.hit.requestId = member ∧ outcome.now = time
  bounded : WindowsBounded s.history
  decided : ∀ outcome ∈ s.history, outcome.redis = .ok outcome.memory ∧
    (outcome.memory.allowed = true ↔ outcome.memory.rejectedBy = none)

/-- The double over the windows it finds. -/
theorem memoryHit_eq (buckets : Buckets) (timed : TimedHit) :
    memoryHit buckets timed.now timed.hit =
      (decision timed.hit.policy
        (!decide (timed.hit.policy.keyLimit < ((pruned buckets timed timed.hit.keyBucket).card +
            if alreadyRecorded buckets timed then 0 else 1 : Nat)) &&
          !decide (timed.hit.policy.tenantLimit <
            ((pruned buckets timed timed.hit.tenantBucket).card +
              if alreadyRecorded buckets timed then 0 else 1 : Nat)))
        ((pruned buckets timed timed.hit.keyBucket).card +
          if alreadyRecorded buckets timed then 0 else 1)
        ((pruned buckets timed timed.hit.tenantBucket).card +
          if alreadyRecorded buckets timed then 0 else 1),
      if (!decide (timed.hit.policy.keyLimit < ((pruned buckets timed timed.hit.keyBucket).card +
            if alreadyRecorded buckets timed then 0 else 1 : Nat)) &&
          !decide (timed.hit.policy.tenantLimit <
            ((pruned buckets timed timed.hit.tenantBucket).card +
              if alreadyRecorded buckets timed then 0 else 1 : Nat))) &&
          !alreadyRecorded buckets timed then recorded buckets timed
      else pruned buckets timed) := rfl

/-- A decision rejects in the bucket whose count is over its limit. -/
theorem rejectedBy_eq_none (keyRejected tenantRejected : Bool) :
    rejectedBy keyRejected tenantRejected = none ↔ keyRejected = false ∧ tenantRejected = false := by
  cases keyRejected <;> cases tenantRejected <;> simp [rejectedBy]

theorem memoryHit_exact (buckets : Buckets) (timed : TimedHit) :
    (memoryHit buckets timed.now timed.hit).1.allowed = true ↔
      (memoryHit buckets timed.now timed.hit).1.rejectedBy = none := by
  rw [memoryHit_eq]
  simp only [decision]
  rw [rejectedBy_eq_none, Bool.and_eq_true, Bool.not_eq_true', Bool.not_eq_true']

/-- The double that finds a replay. -/
theorem memoryHit_of_alreadyRecorded {buckets : Buckets} {timed : TimedHit}
    (h : alreadyRecorded buckets timed = true) (hlimits : WithinLimits buckets timed) :
    memoryHit buckets timed.now timed.hit =
      (decision timed.hit.policy true (pruned buckets timed timed.hit.keyBucket).card
        (pruned buckets timed timed.hit.tenantBucket).card, pruned buckets timed) := by
  have hkey := Int.not_lt.mpr hlimits.1
  have htenant := Int.not_lt.mpr hlimits.2
  rw [memoryHit_eq]
  simp [h, hkey, htenant]

/-- The double that has room for the hit. -/
theorem memoryHit_of_fits {buckets : Buckets} {timed : TimedHit}
    (h : alreadyRecorded buckets timed = false) (hfits : Fits buckets timed) :
    memoryHit buckets timed.now timed.hit =
      (decision timed.hit.policy true ((pruned buckets timed timed.hit.keyBucket).card + 1)
        ((pruned buckets timed timed.hit.tenantBucket).card + 1), recorded buckets timed) := by
  have hkey := Int.not_lt.mpr hfits.1
  have htenant := Int.not_lt.mpr hfits.2
  rw [memoryHit_eq, h]
  simp only [Bool.false_eq_true, if_false]
  rw [decide_eq_false hkey, decide_eq_false htenant]
  rfl

/-- The double that has no room for the hit. -/
theorem memoryHit_of_over {buckets : Buckets} {timed : TimedHit}
    (h : alreadyRecorded buckets timed = false) (hover : ¬Fits buckets timed) :
    memoryHit buckets timed.now timed.hit =
      (decision timed.hit.policy false ((pruned buckets timed timed.hit.keyBucket).card + 1)
        ((pruned buckets timed timed.hit.tenantBucket).card + 1), pruned buckets timed) := by
  have hnone : (!decide (timed.hit.policy.keyLimit <
        ((pruned buckets timed timed.hit.keyBucket).card + 1 : Nat)) &&
      !decide (timed.hit.policy.tenantLimit <
        ((pruned buckets timed timed.hit.tenantBucket).card + 1 : Nat))) = false := by
    rw [Bool.eq_false_iff, Ne, Bool.and_eq_true, Bool.not_eq_true', Bool.not_eq_true',
      decide_eq_false_iff_not, decide_eq_false_iff_not, Int.not_lt, Int.not_lt]
    exact hover
  rw [memoryHit_eq, h]
  simp only [Bool.false_eq_true, if_false]
  rw [hnone]
  rfl

/-- Two stores in which the hit finds the same windows. -/
def SameWindows (timed : TimedHit) (first second : Buckets) : Prop :=
  ∀ bucket, timed.hit.Touches bucket → ∀ member,
    (pruned first timed bucket).time? member = (pruned second timed bucket).time? member

namespace SameWindows

variable {timed : TimedHit} {first second : Buckets}

theorem card (h : SameWindows timed first second) {bucket : String}
    (htouches : timed.hit.Touches bucket) :
    (pruned first timed bucket).card = (pruned second timed bucket).card :=
  TimedSet.card_congr (h bucket htouches)

theorem alreadyRecorded_eq (h : SameWindows timed first second) :
    alreadyRecorded first timed = alreadyRecorded second timed := by
  rw [alreadyRecorded, alreadyRecorded, h _ (.inl rfl), h _ (.inr rfl)]

theorem fits_iff (h : SameWindows timed first second) : Fits first timed ↔ Fits second timed := by
  rw [Fits, Fits, h.card (.inl rfl), h.card (.inr rfl)]

theorem withinLimits_iff (h : SameWindows timed first second) :
    WithinLimits first timed ↔ WithinLimits second timed := by
  rw [WithinLimits, WithinLimits, h.card (.inl rfl), h.card (.inr rfl)]

end SameWindows

section Step

variable {s : Limiters} {timed : TimedHit}

/-- What a hit leaves of the sets on Redis is in what it leaves of the maps. -/
theorem pruned_within (h : Simulates s) (bucket : String) :
    (pruned (found s.redis timed) timed bucket).Within (pruned s.memory timed bucket) := by
  intro member time htime
  obtain ⟨hfound, hafter⟩ := time?_pruned.mp htime
  have hstored := Redis.alive_within s.redis timed.now bucket member time hfound
  exact time?_pruned.mpr ⟨h.within bucket member time hstored, hafter⟩

/-- With the accepted ids still recorded, the hit finds the same windows on both sides. -/
theorem sameWindows (h : Simulates s) (hadm : Admissible s timed) :
    SameWindows timed (found s.redis timed) s.memory := by
  intro bucket htouches
  apply (pruned_within h bucket).time?_eq
  intro member time htime
  obtain ⟨hstored, hafter⟩ := time?_pruned.mp htime
  obtain ⟨outcome, hmem, hallowed, htouched, rfl, rfl⟩ := h.accepted bucket member time hstored
  exact hadm.remembered outcome hmem hallowed bucket htouches htouched (hafter htouches)

/-- One more event in a window, of an id that was not in it. -/
theorem card_recorded {buckets : Buckets} {bucket : String}
    (hnew : (pruned buckets timed bucket).time? timed.hit.requestId = none)
    (htouches : timed.hit.Touches bucket) :
    (recorded buckets timed bucket).card = (pruned buckets timed bucket).card + 1 := by
  rw [← TimedSet.card_record_of_missing hnew timed.now]
  apply TimedSet.card_congr
  intro member
  rw [time?_recorded, TimedSet.time?_record]
  simp [htouches]

theorem readReply_of_countable (policy : ApiRateLimitPolicy) (allowed : Bool)
    {keyCount tenantCount : Nat} (hkey : keyCount ≤ maxSafeInteger) (htenant : tenantCount ≤ maxSafeInteger) :
    readReply policy ⟨if allowed then 1 else 0, keyCount, tenantCount⟩ =
      .ok (decision policy allowed keyCount tenantCount) := by
  rw [readReply, if_neg]
  · cases allowed <;> rfl
  · cases allowed <;> simp <;> omega

/-- The ways an admissible hit goes, which are the same on both sides. -/
inductive HitCase (s : Limiters) (timed : TimedHit) : Prop where
  | replay (already : alreadyRecorded (found s.redis timed) timed = true)
      (limits : WithinLimits (found s.redis timed) timed) (shown : ApiRateLimitDecision)
      (allowed : shown.allowed = true)
      (redis : redisHit s.redis timed.now timed.hit timed.transport =
        (.ok shown, trimmed s.redis timed))
      (memory : memoryHit s.memory timed.now timed.hit = (shown, pruned s.memory timed))
  | accepted (fits : Fits (found s.redis timed) timed)
      (new : ∀ bucket, timed.hit.Touches bucket →
        (pruned (found s.redis timed) timed bucket).time? timed.hit.requestId = none)
      (shown : ApiRateLimitDecision) (allowed : shown.allowed = true)
      (redis : redisHit s.redis timed.now timed.hit timed.transport =
        (.ok shown, extended s.redis timed))
      (memory : memoryHit s.memory timed.now timed.hit = (shown, recorded s.memory timed))
  | rejected (shown : ApiRateLimitDecision) (rejected : shown.allowed = false)
      (redis : redisHit s.redis timed.now timed.hit timed.transport =
        (.ok shown, trimmed s.redis timed))
      (memory : memoryHit s.memory timed.now timed.hit = (shown, pruned s.memory timed))

theorem redisHit_of_answered (h : timed.transport = .answered) :
    redisHit s.redis timed.now timed.hit timed.transport =
      (readReply timed.hit.policy (runLua s.redis timed).1, (runLua s.redis timed).2) := by
  rw [h]
  rfl

theorem hitCases (h : Simulates s) (hadm : Admissible s timed) : HitCase s timed := by
  have hsame := sameWindows h hadm
  have hkeyCard := hsame.card (.inl rfl)
  have htenantCard := hsame.card (.inr rfl)
  have hkeyCount := hadm.countable _ (.inl rfl)
  have htenantCount := hadm.countable _ (.inr rfl)
  have hanswer := redisHit_of_answered (s := s) hadm.answered
  cases halready : alreadyRecorded (found s.redis timed) timed with
  | true =>
      have hlimits := hadm.replay halready
      have hmemory := memoryHit_of_alreadyRecorded (hsame.alreadyRecorded_eq ▸ halready)
        (hsame.withinLimits_iff.mp hlimits)
      refine .replay halready hlimits _ rfl ?_ hmemory
      rw [hanswer, runLua_eq, if_pos halready, ← hkeyCard, ← htenantCard]
      exact congrArg (·, trimmed s.redis timed)
        (readReply_of_countable timed.hit.policy true hkeyCount.le htenantCount.le)
  | false =>
      have hmemoryNew := hsame.alreadyRecorded_eq ▸ halready
      have hnot := Bool.eq_false_iff.mp halready
      by_cases hfits : Fits (found s.redis timed) timed
      · have hnew := hadm.together halready hfits
        have hms : 0 < timed.hit.windowMs := by
          have := hadm.positive
          unfold ApiSlidingWindowHit.windowMs
          omega
        have hcards : ∀ bucket, timed.hit.Touches bucket →
            ((extended s.redis timed).sets bucket).card =
              (pruned (found s.redis timed) timed bucket).card + 1 := by
          intro bucket htouches
          rw [← card_recorded (hnew bucket htouches) htouches]
          exact TimedSet.card_congr (time?_extended hnew hms bucket)
        refine .accepted hfits hnew _ rfl ?_
          (memoryHit_of_fits hmemoryNew (hsame.fits_iff.mp hfits))
        rw [hanswer, runLua_eq, if_neg hnot, if_pos hfits, hcards _ (.inl rfl),
          hcards _ (.inr rfl), ← hkeyCard, ← htenantCard]
        exact congrArg (·, extended s.redis timed)
          (readReply_of_countable timed.hit.policy true hkeyCount htenantCount)
      · refine .rejected _ rfl ?_ (memoryHit_of_over hmemoryNew (hsame.fits_iff.not.mp hfits))
        rw [hanswer, runLua_eq, if_neg hnot, if_neg hfits, ← hkeyCard, ← htenantCard]
        exact congrArg (·, trimmed s.redis timed)
          (readReply_of_countable timed.hit.policy false hkeyCount htenantCount)

theorem decidesAlike (h : Simulates s) (hadm : Admissible s timed) : DecidesAlike s timed := by
  have hsets : (trimmed s.redis timed).sets = pruned (found s.redis timed) timed :=
    sets_trimmed s.redis timed
  refine ⟨?_, memoryHit_exact s.memory timed, fun hnone => ?_, fun hnone => ?_⟩
  · cases hitCases h hadm with
    | replay _ _ shown _ hredis hmemory => rw [hredis, hmemory]
    | accepted _ _ shown _ hredis hmemory => rw [hredis, hmemory]
    | rejected shown _ hredis hmemory => rw [hredis, hmemory]
  · cases hitCases h hadm with
    | replay _ _ shown hallowed _ hmemory => rw [hmemory, hallowed] at hnone; cases hnone
    | accepted _ _ shown hallowed _ hmemory => rw [hmemory, hallowed] at hnone; cases hnone
    | rejected shown _ hredis hmemory =>
        rw [hredis, hsets]
        exact fun bucket member time => time?_pruned
  · cases hitCases h hadm with
    | replay _ _ shown hallowed _ hmemory => rw [hmemory, hallowed] at hnone; cases hnone
    | accepted _ _ shown hallowed _ hmemory => rw [hmemory, hallowed] at hnone; cases hnone
    | rejected shown _ hredis hmemory =>
        rw [hmemory]
        exact fun bucket member time => time?_pruned

/-! ## What a hit keeps -/

/-- The outcome of a hit. -/
def outcomeOf (s : Limiters) (timed : TimedHit) : Outcome :=
  ⟨timed.now, timed.hit, (redisHit s.redis timed.now timed.hit timed.transport).1,
    (memoryHit s.memory timed.now timed.hit).1⟩

theorem record_within (h : Simulates s) (hadm : Admissible s timed) (bucket : String) :
    ((s.record timed).redis.sets bucket).Within ((s.record timed).memory bucket) := by
  have hpruned : (pruned (found s.redis timed) timed bucket).Within
      (pruned s.memory timed bucket) := pruned_within h bucket
  rw [Limiters.record]
  cases hitCases h hadm with
  | replay _ _ shown _ hredis hmemory =>
      rw [hredis, hmemory, sets_trimmed]
      exact hpruned
  | accepted _ hnew shown _ hredis hmemory =>
      rw [hredis, hmemory]
      intro member time htime
      have hms : 0 < timed.hit.windowMs := by
        have := hadm.positive
        unfold ApiSlidingWindowHit.windowMs
        omega
      rw [time?_extended hnew hms, time?_recorded] at htime
      rw [time?_recorded]
      split at htime
      · rename_i hboth
        rw [if_pos hboth]
        exact htime
      · rename_i hboth
        rw [if_neg hboth]
        exact hpruned member time htime
  | rejected shown _ hredis hmemory =>
      rw [hredis, hmemory, sets_trimmed]
      exact hpruned

theorem record_accepted (h : Simulates s) (hadm : Admissible s timed) (bucket member : String)
    (time : Nat) (htime : ((s.record timed).memory bucket).time? member = some time) :
    ∃ outcome ∈ (s.record timed).history, outcome.memory.allowed = true ∧
      outcome.hit.Touches bucket ∧ outcome.hit.requestId = member ∧ outcome.now = time := by
  have hold : (pruned s.memory timed bucket).time? member = some time →
      ∃ outcome ∈ (s.record timed).history, outcome.memory.allowed = true ∧
        outcome.hit.Touches bucket ∧ outcome.hit.requestId = member ∧ outcome.now = time := by
    intro hpruned
    obtain ⟨outcome, hmem, hrest⟩ := h.accepted bucket member time (time?_pruned.mp hpruned).1
    exact ⟨outcome, List.mem_cons_of_mem _ hmem, hrest⟩
  cases hitCases h hadm with
  | replay _ _ shown _ hredis hmemory =>
      apply hold
      rw [Limiters.record, hmemory] at htime
      exact htime
  | accepted _ _ shown hallowed hredis hmemory =>
      rw [Limiters.record, hmemory] at htime
      rw [time?_recorded] at htime
      split at htime
      · rename_i hboth
        refine ⟨outcomeOf s timed, List.mem_cons_self, ?_, hboth.1, hboth.2.symm,
          Option.some.inj htime⟩
        rw [outcomeOf, hmemory]
        exact hallowed
      · exact hold htime
  | rejected shown _ hredis hmemory =>
      apply hold
      rw [Limiters.record, hmemory] at htime
      exact htime

/-- The ids accepted in a window are recorded in the set, whatever is recorded besides. -/
theorem acceptedIds_length_le (hadm : Admissible s timed) {set : TimedSet String} {bucket : String}
    (htouches : timed.hit.Touches bucket)
    (hset : ∀ member time, (pruned (found s.redis timed) timed bucket).time? member = some time →
      ∃ time, set.time? member = some time)
    (hself : ∃ time, set.time? timed.hit.requestId = some time) {ending : Nat}
    (huntil : timed.now ≤ ending) :
    (acceptedIds (outcomeOf s timed :: s.history) bucket
      (ending - timed.hit.windowMs)).dedup.length ≤ set.card := by
  apply TimedSet.dedup_length_le
  intro member hmember
  rw [acceptedIds, List.mem_map] at hmember
  obtain ⟨outcome, hfilter, rfl⟩ := hmember
  rw [List.mem_filter, Bool.and_eq_true, Bool.and_eq_true, decide_eq_true_iff,
    decide_eq_true_iff] at hfilter
  obtain ⟨hmem, ⟨hallowed, htouched⟩, hafter⟩ := hfilter
  rcases List.mem_cons.mp hmem with rfl | hmem
  · exact hself
  · have hcutoff : timed.cutoff < outcome.now := by
      unfold TimedHit.cutoff
      omega
    obtain ⟨time, htime⟩ := hadm.remembered outcome hmem hallowed bucket htouches htouched hcutoff
    exact hset _ time htime

theorem windowHolds_record (h : Simulates s) (hadm : Admissible s timed)
    (hallowed : (outcomeOf s timed).memory.allowed = true) :
    WindowHolds (outcomeOf s timed) s.history timed.hit.keyBucket timed.hit.policy.keyLimit ∧
      WindowHolds (outcomeOf s timed) s.history timed.hit.tenantBucket
        timed.hit.policy.tenantLimit := by
  have hbound : ∀ bucket limit, timed.hit.Touches bucket →
      (∃ set : TimedSet String, (set.card : Int) ≤ limit ∧
        (∀ member time, (pruned (found s.redis timed) timed bucket).time? member = some time →
          ∃ time, set.time? member = some time) ∧
        ∃ time, set.time? timed.hit.requestId = some time) →
      WindowHolds (outcomeOf s timed) s.history bucket limit := by
    rintro bucket limit htouches ⟨set, hcard, hset, hself⟩ ending huntil
    have hlength := acceptedIds_length_le hadm htouches hset hself huntil
    exact le_trans (Int.ofNat_le.mpr hlength) hcard
  cases hitCases h hadm with
  | replay halready hlimits _ _ _ _ =>
      constructor
      · exact hbound _ _ (.inl rfl) ⟨_, hlimits.1, fun _ time htime => ⟨time, htime⟩,
          recorded_of_alreadyRecorded halready (.inl rfl)⟩
      · exact hbound _ _ (.inr rfl) ⟨_, hlimits.2, fun _ time htime => ⟨time, htime⟩,
          recorded_of_alreadyRecorded halready (.inr rfl)⟩
  | accepted hfits hnew _ _ _ _ =>
      have hkept : ∀ bucket member time,
          (pruned (found s.redis timed) timed bucket).time? member = some time →
          ∃ time, (recorded (found s.redis timed) timed bucket).time? member = some time := by
        intro bucket member time htime
        rw [time?_recorded]
        split
        · exact ⟨_, rfl⟩
        · exact ⟨time, htime⟩
      have hself : ∀ bucket, timed.hit.Touches bucket → ∃ time,
          (recorded (found s.redis timed) timed bucket).time? timed.hit.requestId = some time :=
        fun bucket htouches => ⟨timed.now, by rw [time?_recorded, if_pos ⟨htouches, rfl⟩]⟩
      constructor
      · refine hbound _ _ (.inl rfl) ⟨recorded (found s.redis timed) timed _, ?_,
          hkept _, hself _ (.inl rfl)⟩
        rw [card_recorded (hnew _ (.inl rfl)) (.inl rfl)]
        exact hfits.1
      · refine hbound _ _ (.inr rfl) ⟨recorded (found s.redis timed) timed _, ?_,
          hkept _, hself _ (.inr rfl)⟩
        rw [card_recorded (hnew _ (.inr rfl)) (.inr rfl)]
        exact hfits.2
  | rejected shown hrejected _ hmemory =>
      rw [outcomeOf, hmemory] at hallowed
      rw [hrejected] at hallowed
      cases hallowed

theorem WindowsBounded.cons {outcome : Outcome} {history : List Outcome}
    (h : WindowsBounded history)
    (hnew : outcome.memory.allowed = true →
      WindowHolds outcome history outcome.hit.keyBucket outcome.hit.policy.keyLimit ∧
        WindowHolds outcome history outcome.hit.tenantBucket outcome.hit.policy.tenantLimit) :
    WindowsBounded (outcome :: history) := by
  intro later other earlier hsplit hallowed
  cases later with
  | nil =>
      cases hsplit
      exact hnew hallowed
  | cons first later =>
      rw [List.cons_append] at hsplit
      exact h later other earlier (List.cons.inj hsplit).2 hallowed

theorem Simulates.record (h : Simulates s) (hadm : Admissible s timed) :
    Simulates (s.record timed) := by
  have halike := decidesAlike h hadm
  constructor
  · exact record_within h hadm
  · exact record_accepted h hadm
  · exact h.bounded.cons (windowHolds_record h hadm)
  · intro outcome hmem
    rcases List.mem_cons.mp hmem with rfl | hmem
    · exact ⟨halike.agree, halike.exact⟩
    · exact h.decided outcome hmem

end Step

theorem simulates_start : Simulates {} where
  within _ _ _ htime := htime
  accepted _ _ _ htime := by cases htime
  bounded later outcome earlier hsplit := by
    cases later <;> cases hsplit
  decided _ hmem := by cases hmem

theorem simulates_of_run {hits : List TimedHit} {s : Limiters}
    (meets : limiterMachine.Meets Admissible {} hits)
    (hrun : limiterMachine.run {} hits = some s) : Simulates s := by
  refine limiterMachine.invariant_of_meets ?_ simulates_start meets hrun
  intro state timed next hadm h hstep
  unfold limiterMachine at hstep
  dsimp only at hstep
  split at hstep
  · cases hstep
    exact h.record hadm
  · cases hstep

/-- A hit of one key with a minute's window. -/
def minuteHit (now : Nat) (requestId : String) (keyLimit tenantLimit : Int) : TimedHit where
  now := now
  hit := ⟨"key", "tenant", requestId, ⟨"starter_v1", 3, 60, keyLimit, tenantLimit⟩⟩

/-- The first hit of all is admissible. -/
theorem admissible_first : Admissible {} (minuteHit 1000 "req_1" 2 3) where
  answered := rfl
  positive := by decide
  remembered _ hmem := by cases hmem
  replay halready := by cases halready
  together _ _ bucket _ := by
    rw [pruned_apply]
    split <;> rfl
  countable bucket _ := by
    rw [pruned_apply]
    split <;> exact Nat.zero_lt_succ _

end BrainCore.Shared.Ratelimit
