import BrainCore.Shared.Idempotency.Plugin

/-!
# What a step of the plugin can do

A step takes in a request, moves one request on without touching the store,
marks a key, completes a handler, or lets `onSend` discard or store an entry.
-/

namespace BrainCore.Shared.Idempotency

open BrainCore.Foundation

variable {options : IdempotencyPluginOptions} {hashBody : String → String}

theorem StoreKind.alive_of_le {kind : StoreKind} {first second now : Nat} (h : first ≤ second)
    (halive : kind.alive first now = true) : kind.alive second now = true := by
  cases kind <;> simp [StoreKind.alive] at halive ⊢ <;> omega

theorem StoreKind.alive_earlier {kind : StoreKind} {expiresAt now later : Nat} (h : now ≤ later)
    (halive : kind.alive expiresAt later = true) : kind.alive expiresAt now = true := by
  cases kind <;> simp [StoreKind.alive] at halive ⊢ <;> omega

/-- What has expired stays expired. -/
theorem StoreKind.dead_later {kind : StoreKind} {expiresAt now later : Nat} (h : now ≤ later)
    (hdead : kind.alive expiresAt now = false) : kind.alive expiresAt later = false := by
  cases hlater : kind.alive expiresAt later with
  | false => rfl
  | true => rw [alive_earlier h hlater] at hdead; cases hdead

namespace Plugin

variable {s next : Plugin} {now : Nat}

theorem lookup_eq_some {redisKey : String} {cell : Cell} :
    s.lookup options now redisKey = some cell ↔
      s.store redisKey = some cell ∧ options.store.alive cell.expiresAt now = true := by
  rw [lookup, Option.filter_eq_some_iff]

theorem lookup_eq_none {redisKey : String} (h : s.lookup options now redisKey = none) {cell : Cell}
    (hcell : s.store redisKey = some cell) : options.store.alive cell.expiresAt now = false := by
  rw [lookup, hcell] at h
  cases halive : options.store.alive cell.expiresAt now with
  | false => rfl
  | true => simp [Option.filter, halive] at h

/-! ## Phases -/

end Plugin

/-- The handler of the request runs, or has completed with a status that is stored. -/
def Phase.Working : Phase → Prop
  | .running => True
  | .sending (.handled status _) => status < 400
  | _ => False

/-- The request has its reply. -/
def Phase.Ended : Phase → Prop
  | .sending _ | .answered _ | .crashed => True
  | _ => False

/-- The request is on its way to the stored response, or the store or the process failed it. -/
def Phase.Answers (response : StoredResponse) : Phase → Prop
  | .sending reply | .answered reply => reply = .replayed response ∨ reply = .failed
  | .crashed => True
  | _ => False

/-- The action has the `onSend` hook of the request change the store. -/
def Action.Sends (i : Nat) : Action → Prop
  | .send j => j = i
  | .storeFails j ran _ => j = i ∧ ran = true
  | _ => False

namespace Plugin

variable {s next : Plugin} {now : Nat}

/-- The ways a request moves on without a change of the store. -/
inductive QuietMove (options : IdempotencyPluginOptions) (s : Plugin) (now i : Nat)
    (request : Request) : Action → Request → Prop where
  | probed (slot : Slot) (cell : Cell) (keyed : request.slot = some slot)
      (phase : request.phase = .probing)
      (found : s.lookup options now slot.redisKey = some cell) :
      QuietMove options s now i request (.probe i)
        { request with phase := onFound slot cell, probedAt := some now }
  | missed (slot : Slot) (keyed : request.slot = some slot) (phase : request.phase = .probing)
      (none : s.lookup options now slot.redisKey = none) :
      QuietMove options s now i request (.probe i)
        { request with phase := .marking, probedAt := some now }
  | refused (phase : request.phase = .marking) :
      QuietMove options s now i request (.mark i) { request with phase := .rechecking }
  | rechecked (slot : Slot) (cell : Cell) (keyed : request.slot = some slot)
      (phase : request.phase = .rechecking)
      (found : s.lookup options now slot.redisKey = some cell) :
      QuietMove options s now i request (.recheck i) { request with phase := onFound slot cell }
  | vanished (slot : Slot) (keyed : request.slot = some slot) (phase : request.phase = .rechecking)
      (none : s.lookup options now slot.redisKey = none) :
      QuietMove options s now i request (.recheck i) { request with phase := .running }
  | handled (status : Nat) (body : String) (phase : request.phase = .running)
      (unstored : request.slot = none ∨ 400 ≤ status) :
      QuietMove options s now i request (.handle i status body)
        { request with phase := .sending (.handled status body) }
  | unkeyed (reply : Reply) (keyed : request.slot = none) (phase : request.phase = .sending reply) :
      QuietMove options s now i request (.send i) { request with phase := .answered reply }
  | gaveUp (ran resend : Bool) (probedAt : Option Nat)
      (probed : request.phase = .probing ∧ probedAt = some now ∨
        request.phase ≠ .probing ∧ probedAt = request.probedAt)
      (phase : request.phase ≠ .running) (reply : Reply) (failed : reply = .failed)
      (after : Phase) (ended : after = .sending reply ∨ after = .answered reply) :
      QuietMove options s now i request (.storeFails i ran resend)
        { request with phase := after, probedAt := probedAt }
  | crashed : QuietMove options s now i request (.crash i) { request with phase := .crashed }

/-- The phase a request is in after `onSend`. -/
def AfterSend (reply : Reply) (after : Phase) : Prop :=
  after = .answered reply ∨ after = .sending .failed ∨ after = .answered .failed

/-- What a step can do. -/
inductive Effect (options : IdempotencyPluginOptions) (hashBody : String → String) (s : Plugin)
    (now : Nat) : Action → Plugin → Prop where
  | received (incoming : Incoming) :
      Effect options hashBody s now (.receive incoming) (s.receive options hashBody now incoming)
  | moved (i : Nat) (action : Action) (request after : Request)
      (at' : s.requests[i]? = some request)
      (move : QuietMove options s now i request action after) :
      Effect options hashBody s now action (s.setRequest i after)
  | marked (i : Nat) (action : Action) (request : Request) (slot : Slot) (phase : Phase)
      (probedAt : Option Nat) (at' : s.requests[i]? = some request)
      (keyed : request.slot = some slot)
      (before : request.phase = .probing ∧ probedAt = some now ∨
        request.phase = .marking ∧ probedAt = request.probedAt)
      (free : s.lookup options now slot.redisKey = none)
      (after : phase = .running ∨ phase = .sending .failed) :
      Effect options hashBody s now action
        ((s.put slot.redisKey (some (marker options i now slot))).setRequest i
          { request with phase := phase, probedAt := probedAt })
  | succeeded (i : Nat) (request : Request) (slot : Slot) (status : Nat) (body : String)
      (at' : s.requests[i]? = some request) (keyed : request.slot = some slot)
      (running : request.phase = .running) (stored : status < 400) :
      Effect options hashBody s now (.handle i status body)
        { s.setRequest i { request with phase := .sending (.handled status body) } with
          successes := s.successes ++ [⟨i, slot.redisKey, now,
            ((s.store slot.redisKey).map Cell.expiresAt).getD now⟩] }
  | sent (i : Nat) (action : Action) (request : Request) (slot : Slot) (reply : Reply)
      (phase : Phase) (sends : action.Sends i) (at' : s.requests[i]? = some request)
      (keyed : request.slot = some slot) (sending : request.phase = .sending reply)
      (after : AfterSend reply phase) :
      Effect options hashBody s now action
        ((s.onSend options now i slot reply).setRequest i { request with phase := phase })

theorem effect_of_probe {i : Nat} {request : Request} {slot : Slot}
    (hat : s.requests[i]? = some request) (hphase : request.phase = .probing)
    (hslot : request.slot = some slot) :
    Effect options hashBody s now (.probe i) (s.probe options now i request slot) := by
  rw [probe]
  cases hlookup : s.lookup options now slot.redisKey with
  | some cell => exact .moved i _ request _ hat (.probed slot cell hslot hphase hlookup)
  | none =>
      cases hkind : options.store with
      | redis => exact .moved i _ request _ hat (.missed slot hslot hphase hlookup)
      | inMemory =>
          exact .marked i _ request slot .running (some now) hat hslot (.inl ⟨hphase, rfl⟩)
            hlookup (.inl rfl)

theorem effect_of_mark {i : Nat} {request : Request} {slot : Slot}
    (hat : s.requests[i]? = some request) (hphase : request.phase = .marking)
    (hslot : request.slot = some slot) :
    Effect options hashBody s now (.mark i) (s.mark options now i request slot) := by
  rw [mark]
  cases hlookup : s.lookup options now slot.redisKey with
  | some cell => exact .moved i _ request _ hat (.refused hphase)
  | none =>
      exact .marked i _ request slot .running request.probedAt hat hslot (.inr ⟨hphase, rfl⟩)
        hlookup (.inl rfl)

theorem effect_of_recheck {i : Nat} {request : Request} {slot : Slot}
    (hat : s.requests[i]? = some request) (hphase : request.phase = .rechecking)
    (hslot : request.slot = some slot) :
    Effect options hashBody s now (.recheck i) (s.recheck options now i request slot) := by
  rw [recheck]
  cases hlookup : s.lookup options now slot.redisKey with
  | some cell => exact .moved i _ request _ hat (.rechecked slot cell hslot hphase hlookup)
  | none => exact .moved i _ request _ hat (.vanished slot hslot hphase hlookup)

theorem effect_of_handle {i : Nat} {request : Request} (status : Nat) (body : String)
    (hat : s.requests[i]? = some request) (hphase : request.phase = .running) :
    Effect options hashBody s now (.handle i status body)
      (s.handle now i request status body) := by
  unfold handle
  dsimp only
  split
  · rename_i hslot
    exact .moved i _ request _ hat (.handled status body hphase (.inl hslot))
  · rename_i slot hslot
    split
    · rename_i hstatus
      exact .succeeded i request slot status body hat hslot hphase hstatus
    · rename_i hstatus
      exact .moved i _ request _ hat
        (.handled status body hphase (.inr (Nat.le_of_not_lt hstatus)))

theorem effect_of_send {i : Nat} {request : Request} {reply : Reply}
    (hat : s.requests[i]? = some request) (hphase : request.phase = .sending reply) :
    Effect options hashBody s now (.send i) (s.send options now i request reply) := by
  unfold send
  split
  · rename_i hslot
    exact .moved i _ request _ hat (.unkeyed reply hslot hphase)
  · rename_i slot hslot
    have hsends : Action.Sends i (.send i) := rfl
    exact .sent i _ request slot reply _ hsends hat hslot hphase (.inl rfl)

theorem effect_of_storeFails {i : Nat} {request : Request} {slot : Slot} {ran resend : Bool}
    (hat : s.requests[i]? = some request) (hslot : request.slot = some slot)
    (hstep : s.storeFails options now i request slot ran resend = some next) :
    Effect options hashBody s now (.storeFails i ran resend) next := by
  rw [storeFails] at hstep
  cases hphase : request.phase with
  | probing =>
      rw [hphase] at hstep
      cases hstep
      exact .moved i _ request _ hat (.gaveUp ran resend (some now) (.inl ⟨hphase, rfl⟩)
        (by rw [hphase]; exact Phase.noConfusion) _ rfl _ (.inl rfl))
  | rechecking =>
      rw [hphase] at hstep
      cases hstep
      exact .moved i _ request _ hat (.gaveUp ran resend request.probedAt
        (.inr ⟨by rw [hphase]; exact Phase.noConfusion, rfl⟩)
        (by rw [hphase]; exact Phase.noConfusion) _ rfl _ (.inl rfl))
  | marking =>
      rw [hphase] at hstep
      obtain rfl := Option.some.inj hstep
      split
      · rename_i hboth
        rw [Bool.and_eq_true, Option.isNone_iff_eq_none] at hboth
        exact .marked i _ request slot _ request.probedAt hat hslot (.inr ⟨hphase, rfl⟩) hboth.2
          (.inr rfl)
      · exact .moved i _ request _ hat (.gaveUp ran resend request.probedAt
          (.inr ⟨by rw [hphase]; exact Phase.noConfusion, rfl⟩)
          (by rw [hphase]; exact Phase.noConfusion) _ rfl _ (.inl rfl))
  | sending reply =>
      rw [hphase] at hstep
      obtain rfl := Option.some.inj hstep
      have hafter : (if resend then Phase.sending .failed else .answered .failed) =
          .sending .failed ∨
          (if resend then Phase.sending .failed else .answered .failed) = .answered .failed := by
        cases resend
        · exact .inr rfl
        · exact .inl rfl
      cases ran with
      | true =>
          exact .sent i _ request slot reply _ ⟨rfl, rfl⟩ hat hslot hphase (.inr hafter)
      | false =>
          exact .moved i _ request _ hat (.gaveUp false resend request.probedAt
            (.inr ⟨by rw [hphase]; exact Phase.noConfusion, rfl⟩)
            (by rw [hphase]; exact Phase.noConfusion) _ rfl _ hafter)
  | running => rw [hphase] at hstep; cases hstep
  | answered reply => rw [hphase] at hstep; cases hstep
  | crashed => rw [hphase] at hstep; cases hstep

theorem effect_of_act {action : Action} (hstep : s.act options hashBody now action = some next) :
    Effect options hashBody s now action next := by
  cases action with
  | receive incoming =>
      cases hstep
      exact .received incoming
  | probe i =>
      rw [act] at hstep
      split at hstep
      · rename_i request hat
        split at hstep
        · rename_i slot hphase hslot
          cases hstep
          exact effect_of_probe hat hphase hslot
        · cases hstep
      · cases hstep
  | mark i =>
      rw [act] at hstep
      split at hstep
      · rename_i request hat
        split at hstep
        · rename_i slot hphase hslot
          cases hstep
          exact effect_of_mark hat hphase hslot
        · cases hstep
      · cases hstep
  | recheck i =>
      rw [act] at hstep
      split at hstep
      · rename_i request hat
        split at hstep
        · rename_i slot hphase hslot
          cases hstep
          exact effect_of_recheck hat hphase hslot
        · cases hstep
      · cases hstep
  | handle i status body =>
      rw [act] at hstep
      split at hstep
      · rename_i request hat
        split at hstep
        · rename_i hphase
          cases hstep
          exact effect_of_handle status body hat hphase
        · cases hstep
      · cases hstep
  | send i =>
      rw [act] at hstep
      split at hstep
      · rename_i request hat
        split at hstep
        · rename_i reply hphase
          cases hstep
          exact effect_of_send hat hphase
        · cases hstep
      · cases hstep
  | storeFails i ran resend =>
      rw [act] at hstep
      split at hstep
      · rename_i request hat hkind
        split at hstep
        · rename_i slot hslot
          exact effect_of_storeFails hat hslot hstep
        · cases hstep
      · cases hstep
  | crash i =>
      rw [act] at hstep
      split at hstep
      · rename_i request hat
        cases hstep
        exact .moved i _ request _ hat .crashed
      · cases hstep

end Plugin

end BrainCore.Shared.Idempotency
