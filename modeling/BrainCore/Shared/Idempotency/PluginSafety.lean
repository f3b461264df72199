import Mathlib.Data.List.Nodup
import BrainCore.Shared.Idempotency.PluginSteps

/-!
# What the idempotency plugin keeps

While no request touches an entry that is not its own, the entry of a key is the
marker of the one request whose handler runs, and after that its response.  So a
handler succeeds once while its entry lives, a stored response stays, and the
requests that come in after it are answered with it.
-/

namespace BrainCore.Shared.Idempotency

open BrainCore.Foundation

variable {options : IdempotencyPluginOptions} {hashBody : String → String}

namespace Plugin

/-! ## The condition on a step -/

/-- The step leaves the entries of other requests alone, and finds what its request relies on. -/
structure Undisturbed (options : IdempotencyPluginOptions) (s : Plugin) (now : Nat)
    (action : Action) : Prop where
  /-- No marker expires while its request still works. -/
  held : ∀ i request slot cell, s.requests[i]? = some request → request.slot = some slot →
    request.phase.Working → s.store slot.redisKey = some cell → cell.owner = i →
      options.store.alive cell.expiresAt now = true
  /-- An error reply discards nothing, or the marker of its own request, whose handler failed. -/
  discards : ∀ i request slot reply, action.Sends i → s.requests[i]? = some request →
    request.slot = some slot → request.phase = .sending reply → 400 ≤ reply.status →
      ∀ cell, s.lookup options now slot.redisKey = some cell →
        cell.owner = i ∧ ∀ success ∈ s.successes, success.owner ≠ i
  /-- A replay stores again what is still stored. -/
  replays : ∀ i request slot response, action.Sends i → s.requests[i]? = some request →
    request.slot = some slot → request.phase = .sending (.replayed response) →
      ∃ cell, s.lookup options now slot.redisKey = some cell ∧
        cell.value = .done slot.bodyHash response
  /-- The entry that refused a mark is still there for the second look. -/
  rechecks : ∀ i request slot, action = .recheck i → s.requests[i]? = some request →
    request.slot = some slot → s.lookup options now slot.redisKey ≠ none

/-! ## The invariant -/

/-- What holds at a time between two steps. -/
structure Sound (options : IdempotencyPluginOptions) (s : Plugin) (clock : Nat) : Prop where
  /-- A request that works has marked its key. -/
  marked : ∀ i request slot, s.requests[i]? = some request → request.slot = some slot →
    request.phase.Working → ∃ startedAt expiresAt,
      s.store slot.redisKey = some ⟨.inFlight slot.bodyHash startedAt, expiresAt, i⟩
  /-- A handler that succeeded is recorded. -/
  credited : ∀ i request slot status body, s.requests[i]? = some request →
    request.slot = some slot → request.phase = .sending (.handled status body) → status < 400 →
      ∃ success ∈ s.successes, success.owner = i ∧ success.redisKey = slot.redisKey
  owners : (s.successes.map Success.owner).Nodup
  ended : ∀ success ∈ s.successes, ∃ request,
    s.requests[success.owner]? = some request ∧ request.phase.Ended
  keptCell : ∀ success ∈ s.successes, ∀ cell, s.store success.redisKey = some cell →
    cell.owner = success.owner → cell.expiresAt = success.keptUntil
  keptGone : ∀ success ∈ s.successes,
    (∃ cell, s.store success.redisKey = some cell ∧ cell.owner = success.owner) ∨
      options.store.alive success.keptUntil clock = false
  /-- No handler succeeds while the entry of an earlier success lives. -/
  apart : s.successes.Pairwise fun earlier later => earlier.redisKey = later.redisKey →
    options.store.alive earlier.keptUntil later.ranAt = false
  past : ∀ success ∈ s.successes, success.ranAt ≤ clock
  bounded : ∀ redisKey cell, s.store redisKey = some cell → cell.expiresAt ≤ expiry options clock
  dones : ∀ redisKey cell bodyHash response, s.store redisKey = some cell →
    cell.value = .done bodyHash response →
      ∃ success ∈ s.successes, success.owner = cell.owner ∧ success.redisKey = redisKey
  readable : ∀ redisKey cell, s.store redisKey = some cell → cell.value ≠ .unreadable

variable {s next : Plugin} {now clock : Nat}

theorem expiry_mono {first second : Nat} (h : first ≤ second) :
    expiry options first ≤ expiry options second := by
  unfold expiry
  omega

/-- Time goes on. -/
theorem Sound.later (h : Sound options s clock) (hle : clock ≤ now) : Sound options s now :=
  { h with
    keptGone := fun success hmem =>
      (h.keptGone success hmem).imp_right (StoreKind.dead_later hle)
    past := fun success hmem => Nat.le_trans (h.past success hmem) hle
    bounded := fun redisKey cell hcell =>
      Nat.le_trans (h.bounded redisKey cell hcell) (expiry_mono hle) }

/-- A success of a request, on the key of its entry, is the only one of that request. -/
theorem Sound.success_unique (h : Sound options s clock) {first second : Success}
    (hfirst : first ∈ s.successes) (hsecond : second ∈ s.successes)
    (hsame : first.owner = second.owner) : first = second :=
  List.inj_on_of_nodup_map h.owners hfirst hsecond hsame

/-! ## Requests after a step -/

theorem getElem?_setRequest {i j : Nat} {after request : Request}
    (h : (s.setRequest i after).requests[j]? = some request) :
    j = i ∧ request = after ∨ j ≠ i ∧ s.requests[j]? = some request := by
  change (s.requests.set i after)[j]? = some request at h
  rw [List.getElem?_set] at h
  split at h
  · rename_i hij
    split at h
    · exact .inl ⟨hij.symm, (Option.some.inj h).symm⟩
    · cases h
  · rename_i hij
    exact .inr ⟨Ne.symm hij, h⟩

theorem setRequest_self {i : Nat} {before : Request} (h : s.requests[i]? = some before)
    (after : Request) : (s.setRequest i after).requests[i]? = some after := by
  obtain ⟨hlt, -⟩ := List.getElem?_eq_some_iff.mp h
  exact List.getElem?_set_self hlt

theorem setRequest_other {i j : Nat} (hne : j ≠ i) (after : Request) :
    (s.setRequest i after).requests[j]? = s.requests[j]? :=
  List.getElem?_set_ne (Ne.symm hne)

/-- A request that has its reply keeps it while another one moves, and when it moves itself. -/
theorem ended_setRequest {i j : Nat} {before after : Request} (hat : s.requests[i]? = some before)
    (hkeeps : before.phase.Ended → after.phase.Ended)
    (h : ∃ request, s.requests[j]? = some request ∧ request.phase.Ended) :
    ∃ request, (s.setRequest i after).requests[j]? = some request ∧ request.phase.Ended := by
  obtain ⟨request, hrequest, hended⟩ := h
  by_cases hji : j = i
  · subst hji
    obtain rfl := Option.some.inj (hat.symm.trans hrequest)
    exact ⟨after, setRequest_self hat after, hkeeps hended⟩
  · exact ⟨request, (setRequest_other hji after).trans hrequest, hended⟩

/-- The request that comes in has a slot and probes, or has none. -/
theorem getElem?_receive {incoming : Incoming} {j : Nat} {request : Request}
    (h : (s.receive options hashBody now incoming).requests[j]? = some request) :
    s.requests[j]? = some request ∨ request.slot = none ∨
      ∃ slot, request = { slot := some slot, phase := .probing
                          owed := owedTo (s.lookup options now slot.redisKey) slot } := by
  rw [receive] at h
  dsimp only at h
  rw [List.getElem?_append] at h
  split at h
  · exact .inl h
  · obtain rfl := List.mem_singleton.mp (List.mem_iff_getElem?.mpr ⟨_, h⟩)
    right
    split
    · exact .inl rfl
    · exact .inl rfl
    · exact .inr ⟨_, rfl⟩

theorem receive_other {incoming : Incoming} {j : Nat} {request : Request}
    (h : s.requests[j]? = some request) :
    (s.receive options hashBody now incoming).requests[j]? = some request := by
  obtain ⟨hlt, -⟩ := List.getElem?_eq_some_iff.mp h
  exact (List.getElem?_append_left hlt).trans h

/-! ## Steps that leave the store alone -/

theorem Sound.received (h : Sound options s now) (incoming : Incoming) :
    Sound options (s.receive options hashBody now incoming) now :=
  { h with
    marked := by
      intro j request slot hat hslot hworking
      rcases getElem?_receive hat with hold | hnone | ⟨slot', rfl⟩
      · exact h.marked j request slot hold hslot hworking
      · rw [hnone] at hslot
        cases hslot
      · cases hworking
    credited := by
      intro j request slot status body hat hslot hphase hstatus
      rcases getElem?_receive hat with hold | hnone | ⟨slot', rfl⟩
      · exact h.credited j request slot status body hold hslot hphase hstatus
      · rw [hnone] at hslot
        cases hslot
      · cases hphase
    ended := by
      intro success hmem
      obtain ⟨request, hat, hended⟩ := h.ended success hmem
      exact ⟨request, receive_other hat, hended⟩ }

section Moves

variable {i : Nat} {request after : Request} {action : Action}

theorem QuietMove.slot_eq (move : QuietMove options s now i request action after) :
    after.slot = request.slot := by
  cases move <;> rfl

theorem QuietMove.owed_eq (move : QuietMove options s now i request action after) :
    after.owed = request.owed := by
  cases move <;> rfl

theorem QuietMove.ended (move : QuietMove options s now i request action after)
    (hended : request.phase.Ended) : after.phase.Ended := by
  cases move with
  | probed _ _ _ hphase => rw [hphase] at hended; cases hended
  | missed _ _ hphase => rw [hphase] at hended; cases hended
  | refused hphase => rw [hphase] at hended; cases hended
  | rechecked _ _ _ hphase => rw [hphase] at hended; cases hended
  | vanished _ _ hphase => rw [hphase] at hended; cases hended
  | handled _ _ hphase => rw [hphase] at hended; cases hended
  | unkeyed => trivial
  | gaveUp _ _ _ _ _ _ _ _ hafter =>
      rcases hafter with rfl | rfl
      · trivial
      · trivial
  | crashed => trivial

/-- An entry that is found sends the request on to a reply. -/
theorem onFound_sending (slot : Slot) {cell : Cell} (hreadable : cell.value ≠ .unreadable) :
    ∃ reply, onFound slot cell = .sending reply ∧ ∀ status body, reply ≠ .handled status body := by
  unfold onFound interpretExisting
  cases hvalue : cell.value with
  | unreadable => exact absurd hvalue hreadable
  | done bodyHash response =>
      dsimp only
      split_ifs
      · exact ⟨_, rfl, fun _ _ => Reply.noConfusion⟩
      · exact ⟨_, rfl, fun _ _ => Reply.noConfusion⟩
  | inFlight bodyHash startedAt =>
      dsimp only
      split_ifs
      · exact ⟨_, rfl, fun _ _ => Reply.noConfusion⟩
      · exact ⟨_, rfl, fun _ _ => Reply.noConfusion⟩

/-- No move makes a request with a key work that has not marked it. -/
theorem QuietMove.not_working (h : Sound options s now)
    (hundisturbed : Undisturbed options s now action) (hat : s.requests[i]? = some request)
    (move : QuietMove options s now i request action after) {slot : Slot}
    (hslot : request.slot = some slot) : ¬after.phase.Working := by
  have hfound : ∀ {slot : Slot} {cell : Cell},
      s.lookup options now slot.redisKey = some cell → ¬(onFound slot cell).Working := by
    intro slot cell hlookup hworking
    obtain ⟨reply, hreply, hnot⟩ := onFound_sending slot
      (h.readable _ cell (lookup_eq_some.mp hlookup).1)
    rw [hreply] at hworking
    cases reply with
    | handled status body => exact hnot status body rfl
    | replayed | refused | failed => exact hworking
  cases move with
  | probed _ _ _ _ hlookup => exact hfound hlookup
  | missed => exact id
  | refused => exact id
  | rechecked _ _ _ _ hlookup => exact hfound hlookup
  | vanished other hother _ hnone => exact absurd hnone (hundisturbed.rechecks i request other rfl hat hother)
  | handled status _ _ hunstored =>
      rcases hunstored with hnone | hstatus
      · rw [hnone] at hslot
        cases hslot
      · exact Nat.not_lt.mpr hstatus
  | unkeyed => exact id
  | gaveUp _ _ _ _ _ _ hfailed _ hafter =>
      subst hfailed
      rcases hafter with rfl | rfl
      · exact id
      · exact id
  | crashed => exact id

theorem QuietMove.not_handled (h : Sound options s now)
    (move : QuietMove options s now i request action after) {slot : Slot}
    (hslot : request.slot = some slot) {status : Nat} {body : String}
    (hphase : after.phase = .sending (.handled status body)) : 400 ≤ status := by
  have hfound : ∀ {slot : Slot} {cell : Cell},
      s.lookup options now slot.redisKey = some cell →
        onFound slot cell ≠ .sending (.handled status body) := by
    intro slot cell hlookup hhandled
    obtain ⟨reply, hreply, hnot⟩ := onFound_sending slot
      (h.readable _ cell (lookup_eq_some.mp hlookup).1)
    rw [hreply] at hhandled
    exact hnot status body (Phase.sending.inj hhandled)
  cases move with
  | probed _ _ _ _ hlookup => exact absurd hphase (hfound hlookup)
  | missed => cases hphase
  | refused => cases hphase
  | rechecked _ _ _ _ hlookup => exact absurd hphase (hfound hlookup)
  | vanished => cases hphase
  | handled _ _ _ hunstored =>
      cases hphase
      rcases hunstored with hnone | hstatus
      · rw [hnone] at hslot
        cases hslot
      · exact hstatus
  | unkeyed => cases hphase
  | gaveUp _ _ _ _ _ _ hfailed _ hafter =>
      subst hfailed
      rcases hafter with rfl | rfl
      · cases hphase
      · cases hphase
  | crashed => cases hphase

theorem Sound.moved (h : Sound options s now) (hundisturbed : Undisturbed options s now action)
    (hat : s.requests[i]? = some request)
    (move : QuietMove options s now i request action after) :
    Sound options (s.setRequest i after) now :=
  { h with
    marked := by
      intro j other slot hother hslot hworking
      rcases getElem?_setRequest hother with ⟨rfl, rfl⟩ | ⟨-, hold⟩
      · rw [move.slot_eq] at hslot
        exact absurd hworking (move.not_working h hundisturbed hat hslot)
      · exact h.marked j other slot hold hslot hworking
    credited := by
      intro j other slot status body hother hslot hphase hstatus
      rcases getElem?_setRequest hother with ⟨rfl, rfl⟩ | ⟨-, hold⟩
      · rw [move.slot_eq] at hslot
        exact absurd hstatus (Nat.not_lt.mpr (move.not_handled h hslot hphase))
      · exact h.credited j other slot status body hold hslot hphase hstatus
    ended := fun success hmem => ended_setRequest hat move.ended (h.ended success hmem) }

/-! ## A new marker -/

theorem put_store (redisKey : String) (cell : Option Cell) (other : String) :
    (s.put redisKey cell).store other = if other = redisKey then cell else s.store other := by
  exact Function.update_apply s.store redisKey cell other

/-- The request that marks a key has not succeeded before. -/
theorem Sound.not_success (h : Sound options s now) (hat : s.requests[i]? = some request)
    (hnot : ¬request.phase.Ended) : ∀ success ∈ s.successes, success.owner ≠ i := by
  rintro success hmem rfl
  obtain ⟨other, hother, hended⟩ := h.ended success hmem
  obtain rfl := Option.some.inj (hat.symm.trans hother)
  exact hnot hended

theorem Sound.mark (h : Sound options s now) (hundisturbed : Undisturbed options s now action)
    {slot : Slot} {phase : Phase} {probedAt : Option Nat} (hat : s.requests[i]? = some request)
    (hslot : request.slot = some slot) (hbefore : ¬request.phase.Ended)
    (hfree : s.lookup options now slot.redisKey = none)
    (hafter : phase = .running ∨ phase = .sending .failed) :
    Sound options ((s.put slot.redisKey (some (marker options i now slot))).setRequest i
      { request with phase := phase, probedAt := probedAt }) now := by
  have hnew := h.not_success hat hbefore
  constructor
  · intro j other slot' hother hslot' hworking
    rcases getElem?_setRequest hother with ⟨rfl, rfl⟩ | ⟨-, hold⟩
    · obtain rfl := Option.some.inj (hslot.symm.trans hslot')
      exact ⟨now, expiry options now, (put_store _ _ _).trans (if_pos rfl)⟩
    · obtain ⟨startedAt, expiresAt, hcell⟩ := h.marked j other slot' hold hslot' hworking
      refine ⟨startedAt, expiresAt, (put_store _ _ _).trans ?_⟩
      have hne : slot'.redisKey ≠ slot.redisKey := by
        intro hsame
        have halive := hundisturbed.held j other slot' _ hold hslot' hworking hcell rfl
        rw [hsame] at hcell
        rw [lookup_eq_none hfree hcell] at halive
        cases halive
      rw [if_neg hne]
      exact hcell
  · intro j other slot' status body hother hslot' hphase hstatus
    rcases getElem?_setRequest hother with ⟨rfl, rfl⟩ | ⟨-, hold⟩
    · rcases hafter with rfl | rfl
      · cases hphase
      · cases hphase
    · exact h.credited j other slot' status body hold hslot' hphase hstatus
  · exact h.owners
  · exact fun success hmem => ended_setRequest hat (fun hended => absurd hended hbefore)
      (h.ended success hmem)
  · intro success hmem cell hcell howner
    replace hcell := (put_store _ _ _).symm.trans hcell
    split at hcell
    · obtain rfl := Option.some.inj hcell
      exact absurd howner.symm (hnew success hmem)
    · exact h.keptCell success hmem cell hcell howner
  · intro success hmem
    rcases h.keptGone success hmem with ⟨cell, hcell, howner⟩ | hdead
    · by_cases hkey : success.redisKey = slot.redisKey
      · right
        rw [← h.keptCell success hmem cell hcell howner]
        rw [hkey] at hcell
        exact lookup_eq_none hfree hcell
      · exact .inl ⟨cell, (put_store _ _ _).trans ((if_neg hkey).trans hcell), howner⟩
    · exact .inr hdead
  · exact h.apart
  · exact h.past
  · intro redisKey cell hcell
    replace hcell := (put_store _ _ _).symm.trans hcell
    split at hcell
    · obtain rfl := Option.some.inj hcell
      exact Nat.le_refl _
    · exact h.bounded redisKey cell hcell
  · intro redisKey cell bodyHash response hcell hvalue
    replace hcell := (put_store _ _ _).symm.trans hcell
    split at hcell
    · obtain rfl := Option.some.inj hcell
      cases hvalue
    · exact h.dones redisKey cell bodyHash response hcell hvalue
  · intro redisKey cell hcell
    replace hcell := (put_store _ _ _).symm.trans hcell
    split at hcell
    · obtain rfl := Option.some.inj hcell
      exact StoredValue.noConfusion
    · exact h.readable redisKey cell hcell

/-! ## A handler that succeeds -/

theorem Sound.succeed (h : Sound options s now) {slot : Slot} {status : Nat} {body : String}
    (hat : s.requests[i]? = some request) (hslot : request.slot = some slot)
    (hrunning : request.phase = .running) :
    Sound options { s.setRequest i { request with phase := .sending (.handled status body) } with
      successes := s.successes ++ [⟨i, slot.redisKey, now,
        ((s.store slot.redisKey).map Cell.expiresAt).getD now⟩] } now := by
  have hworking : request.phase.Working := by
    rw [hrunning]
    trivial
  have hnotEnded : ¬request.phase.Ended := by
    rw [hrunning]
    exact id
  have hnew := h.not_success hat hnotEnded
  obtain ⟨startedAt, expiresAt, hcell⟩ := h.marked i request slot hat hslot hworking
  have hkept : ((s.store slot.redisKey).map Cell.expiresAt).getD now = expiresAt := by rw [hcell]; rfl
  rw [hkept]
  constructor
  · intro j other slot' hother hslot' hworking'
    rcases getElem?_setRequest hother with ⟨rfl, rfl⟩ | ⟨-, hold⟩
    · exact h.marked _ request slot' hat hslot' hworking
    · exact h.marked j other slot' hold hslot' hworking'
  · intro j other slot' status' body' hother hslot' hphase hstatus
    rcases getElem?_setRequest hother with ⟨rfl, rfl⟩ | ⟨-, hold⟩
    · obtain rfl := Option.some.inj (hslot.symm.trans hslot')
      exact ⟨_, List.mem_append_right _ (List.mem_singleton_self _), rfl, rfl⟩
    · obtain ⟨success, hmem, hrest⟩ := h.credited j other slot' status' body' hold hslot' hphase hstatus
      exact ⟨success, List.mem_append_left _ hmem, hrest⟩
  · rw [List.map_append, List.map_singleton]
    refine List.nodup_append.mpr ⟨h.owners, List.nodup_singleton _, ?_⟩
    rintro owner howner _ hlast rfl
    obtain ⟨success, hmem, rfl⟩ := List.mem_map.mp howner
    exact hnew success hmem (List.mem_singleton.mp hlast)
  · intro success hmem
    rcases List.mem_append.mp hmem with hmem | hlast
    · exact ended_setRequest hat (fun hended => absurd hended hnotEnded) (h.ended success hmem)
    · obtain rfl := List.mem_singleton.mp hlast
      exact ⟨_, setRequest_self hat _, trivial⟩
  · intro success hmem cell hstored howner
    rcases List.mem_append.mp hmem with hmem | hlast
    · exact h.keptCell success hmem cell hstored howner
    · obtain rfl := List.mem_singleton.mp hlast
      obtain rfl := Option.some.inj (hcell.symm.trans hstored)
      rfl
  · intro success hmem
    rcases List.mem_append.mp hmem with hmem | hlast
    · exact h.keptGone success hmem
    · obtain rfl := List.mem_singleton.mp hlast
      exact .inl ⟨_, hcell, rfl⟩
  · refine List.pairwise_append.mpr ⟨h.apart, List.pairwise_singleton _ _, ?_⟩
    intro earlier hearlier last hlast hkey
    obtain rfl := List.mem_singleton.mp hlast
    rcases h.keptGone earlier hearlier with ⟨cell, hstored, howner⟩ | hdead
    · -- the key holds the marker of the handler that succeeds now
      rw [hkey, hcell] at hstored
      obtain rfl := Option.some.inj hstored
      exact absurd howner.symm (hnew earlier hearlier)
    · exact hdead
  · intro success hmem
    rcases List.mem_append.mp hmem with hmem | hlast
    · exact h.past success hmem
    · obtain rfl := List.mem_singleton.mp hlast
      exact Nat.le_refl _
  · exact h.bounded
  · intro redisKey cell bodyHash response hstored hvalue
    obtain ⟨success, hmem, hrest⟩ := h.dones redisKey cell bodyHash response hstored hvalue
    exact ⟨success, List.mem_append_left _ hmem, hrest⟩
  · exact h.readable

/-! ## The hook on the way out -/

theorem AfterSend.ended {reply : Reply} {phase : Phase} (h : AfterSend reply phase) :
    phase.Ended := by
  rcases h with rfl | rfl | rfl
  · trivial
  · trivial
  · trivial

theorem AfterSend.not_handled {reply : Reply} {phase : Phase} (h : AfterSend reply phase)
    (status : Nat) (body : String) : phase ≠ .sending (.handled status body) := by
  rcases h with rfl | rfl | rfl
  · exact Phase.noConfusion
  · intro hphase
    cases hphase
  · exact Phase.noConfusion

theorem AfterSend.not_working {reply : Reply} {phase : Phase} (h : AfterSend reply phase) :
    ¬phase.Working := by
  rcases h with rfl | rfl | rfl
  · exact id
  · exact id
  · exact id

theorem Sound.discard (h : Sound options s now) (hundisturbed : Undisturbed options s now action)
    {slot : Slot} {reply : Reply} {phase : Phase} (hsends : action.Sends i)
    (hat : s.requests[i]? = some request) (hslot : request.slot = some slot)
    (hsending : request.phase = .sending reply) (hafter : AfterSend reply phase)
    (herror : 400 ≤ reply.status) :
    Sound options ((s.put slot.redisKey none).setRequest i { request with phase := phase }) now := by
  have hown := hundisturbed.discards i request slot reply hsends hat hslot hsending herror
  have hkeep : ∀ {redisKey cell}, (s.put slot.redisKey none).store redisKey = some cell →
      s.store redisKey = some cell := by
    intro redisKey cell hcell
    replace hcell := (put_store _ _ _).symm.trans hcell
    split at hcell
    · cases hcell
    · exact hcell
  constructor
  · intro j other slot' hother hslot' hworking
    rcases getElem?_setRequest hother with ⟨rfl, rfl⟩ | ⟨hne, hold⟩
    · exact absurd hworking hafter.not_working
    · obtain ⟨startedAt, expiresAt, hcell⟩ := h.marked j other slot' hold hslot' hworking
      refine ⟨startedAt, expiresAt, (put_store _ _ _).trans ?_⟩
      have hkey : slot'.redisKey ≠ slot.redisKey := by
        intro hsame
        have halive := hundisturbed.held j other slot' _ hold hslot' hworking hcell rfl
        rw [hsame] at hcell
        exact hne (hown _ (lookup_eq_some.mpr ⟨hcell, halive⟩)).1
      rw [if_neg hkey]
      exact hcell
  · intro j other slot' status body hother hslot' hphase hstatus
    rcases getElem?_setRequest hother with ⟨rfl, rfl⟩ | ⟨-, hold⟩
    · exact absurd hphase (hafter.not_handled status body)
    · exact h.credited j other slot' status body hold hslot' hphase hstatus
  · exact h.owners
  · exact fun success hmem => ended_setRequest hat (fun _ => hafter.ended) (h.ended success hmem)
  · exact fun success hmem cell hcell => h.keptCell success hmem cell (hkeep hcell)
  · intro success hmem
    rcases h.keptGone success hmem with ⟨cell, hcell, howner⟩ | hdead
    · by_cases hkey : success.redisKey = slot.redisKey
      · right
        rw [← h.keptCell success hmem cell hcell howner]
        rw [hkey] at hcell
        cases halive : options.store.alive cell.expiresAt now with
        | false => rfl
        | true =>
            obtain ⟨rfl, hnone⟩ := hown cell (lookup_eq_some.mpr ⟨hcell, halive⟩)
            exact absurd howner.symm (hnone success hmem)
      · exact .inl ⟨cell, (put_store _ _ _).trans ((if_neg hkey).trans hcell), howner⟩
    · exact .inr hdead
  · exact h.apart
  · exact h.past
  · exact fun redisKey cell hcell => h.bounded redisKey cell (hkeep hcell)
  · exact fun redisKey cell bodyHash response hcell =>
      h.dones redisKey cell bodyHash response (hkeep hcell)
  · exact fun redisKey cell hcell => h.readable redisKey cell (hkeep hcell)

/-- The entry a request stores its response over: its own marker, or the response it replays. -/
theorem Sound.completes (h : Sound options s now)
    (hundisturbed : Undisturbed options s now action) {slot : Slot} {reply : Reply}
    (hsends : action.Sends i) (hat : s.requests[i]? = some request)
    (hslot : request.slot = some slot) (hsending : request.phase = .sending reply)
    (hstored : reply.status < 400) : ∃ cell success, s.store slot.redisKey = some cell ∧
      options.store.alive cell.expiresAt now = true ∧ success ∈ s.successes ∧
        success.owner = cell.owner ∧ success.redisKey = slot.redisKey ∧
        ((∃ status body, reply = .handled status body ∧ cell.owner = i ∧
            ∃ startedAt, cell.value = .inFlight slot.bodyHash startedAt) ∨
          ∃ response, reply = .replayed response ∧ cell.value = .done slot.bodyHash response) := by
  cases reply with
  | handled status body =>
      have hworking : request.phase.Working := by
        rw [hsending]
        exact hstored
      obtain ⟨startedAt, expiresAt, hcell⟩ := h.marked i request slot hat hslot hworking
      obtain ⟨success, hmem, howner, hkey⟩ :=
        h.credited i request slot status body hat hslot hsending hstored
      exact ⟨_, success, hcell, hundisturbed.held i request slot _ hat hslot hworking hcell rfl,
        hmem, howner, hkey, .inl ⟨status, body, rfl, rfl, startedAt, rfl⟩⟩
  | replayed response =>
      obtain ⟨cell, hlookup, hvalue⟩ :=
        hundisturbed.replays i request slot response hsends hat hslot hsending
      obtain ⟨hcell, halive⟩ := lookup_eq_some.mp hlookup
      obtain ⟨success, hmem, howner, hkey⟩ := h.dones _ cell _ response hcell hvalue
      exact ⟨cell, success, hcell, halive, hmem, howner, hkey, .inr ⟨response, rfl, hvalue⟩⟩
  | refused refusal => cases refusal <;> simp [Reply.status, Refusal.status] at hstored
  | failed => simp [Reply.status] at hstored

theorem mem_renew {successes : List Success} {owner keptUntil : Nat} {success : Success}
    (h : success ∈ renew successes owner keptUntil) : ∃ before ∈ successes,
      success.owner = before.owner ∧ success.redisKey = before.redisKey ∧
        success.ranAt = before.ranAt ∧
        success.keptUntil = if before.owner = owner then keptUntil else before.keptUntil := by
  obtain ⟨before, hmem, rfl⟩ := List.mem_map.mp h
  refine ⟨before, hmem, ?_⟩
  split_ifs <;> exact ⟨rfl, rfl, rfl, rfl⟩

theorem renew_mem {successes : List Success} (owner keptUntil : Nat) {success : Success}
    (h : success ∈ successes) : ∃ after ∈ renew successes owner keptUntil,
      after.owner = success.owner ∧ after.redisKey = success.redisKey := by
  refine ⟨_, List.mem_map.mpr ⟨success, h, rfl⟩, ?_⟩
  split_ifs <;> exact ⟨rfl, rfl⟩

theorem renew_owners (successes : List Success) (owner keptUntil : Nat) :
    (renew successes owner keptUntil).map Success.owner = successes.map Success.owner := by
  rw [renew, List.map_map]
  apply List.map_congr_left
  intro success _
  simp only [Function.comp_apply]
  split_ifs <;> rfl

theorem Sound.complete (h : Sound options s now) {slot : Slot} {reply : Reply} {phase : Phase}
    (hat : s.requests[i]? = some request) (hafter : AfterSend reply phase) {cell : Cell}
    {success : Success} (hcell : s.store slot.redisKey = some cell)
    (halive : options.store.alive cell.expiresAt now = true) (hmem : success ∈ s.successes)
    (howner : success.owner = cell.owner) (hkey : success.redisKey = slot.redisKey)
    (hfree : ∀ j bodyHash startedAt expiresAt, j ≠ i →
      cell ≠ ⟨.inFlight bodyHash startedAt, expiresAt, j⟩) :
    Sound options ((s.complete options now slot reply cell.owner).setRequest i
      { request with phase := phase }) now := by
  have hstored : ∀ redisKey, (s.complete options now slot reply cell.owner).store redisKey =
      if redisKey = slot.redisKey then some ⟨.done slot.bodyHash ⟨reply.status, reply.payload⟩,
        expiry options now, cell.owner⟩ else s.store redisKey := fun redisKey =>
    put_store _ _ redisKey
  have hlive : ∀ before ∈ s.successes, before.owner = cell.owner →
      before.redisKey = slot.redisKey ∧ options.store.alive before.keptUntil now = true := by
    intro before hbefore hsame
    obtain rfl := h.success_unique hbefore hmem (hsame.trans howner.symm)
    refine ⟨hkey, ?_⟩
    rw [← h.keptCell before hmem cell (hkey ▸ hcell) howner.symm]
    exact halive
  constructor
  · intro j other slot' hother hslot' hworking
    rcases getElem?_setRequest hother with ⟨rfl, rfl⟩ | ⟨hne, hold⟩
    · exact absurd hworking hafter.not_working
    · obtain ⟨startedAt, expiresAt, hmarker⟩ := h.marked j other slot' hold hslot' hworking
      refine ⟨startedAt, expiresAt, (hstored _).trans ?_⟩
      have hdiffers : slot'.redisKey ≠ slot.redisKey := by
        intro hsame
        rw [hsame, hcell] at hmarker
        exact hfree j _ startedAt expiresAt hne (Option.some.inj hmarker)
      rw [if_neg hdiffers]
      exact hmarker
  · intro j other slot' status body hother hslot' hphase hstatus
    rcases getElem?_setRequest hother with ⟨rfl, rfl⟩ | ⟨-, hold⟩
    · exact absurd hphase (hafter.not_handled status body)
    · obtain ⟨before, hbefore, hsame, hsameKey⟩ :=
        h.credited j other slot' status body hold hslot' hphase hstatus
      obtain ⟨after, hmemAfter, howned, hkeyed⟩ :=
        renew_mem cell.owner (expiry options now) hbefore
      exact ⟨after, hmemAfter, howned.trans hsame, hkeyed.trans hsameKey⟩
  · exact (renew_owners _ _ _).symm ▸ h.owners
  · intro after hmemAfter
    obtain ⟨before, hbefore, hsame, -⟩ := mem_renew hmemAfter
    rw [hsame]
    exact ended_setRequest hat (fun _ => hafter.ended) (h.ended before hbefore)
  · intro after hmemAfter stored hstoredCell hsameOwner
    obtain ⟨before, hbefore, hsame, hsameKey, -, hkept⟩ := mem_renew hmemAfter
    replace hstoredCell := (hstored _).symm.trans hstoredCell
    rw [hkept]
    split at hstoredCell
    · obtain rfl := Option.some.inj hstoredCell
      rw [if_pos (hsame ▸ hsameOwner.symm)]
    · rename_i hother
      have hnot : before.owner ≠ cell.owner := fun heq =>
        hother (hsameKey.trans (hlive before hbefore heq).1)
      rw [if_neg hnot]
      exact h.keptCell before hbefore stored (hsameKey ▸ hstoredCell) (hsameOwner.trans hsame)
  · intro after hmemAfter
    obtain ⟨before, hbefore, hsame, hsameKey, -, hkept⟩ := mem_renew hmemAfter
    rw [hkept, hsame, hsameKey]
    by_cases hown : before.owner = cell.owner
    · exact .inl ⟨_, (hstored _).trans (if_pos (hlive before hbefore hown).1), hown.symm⟩
    · rw [if_neg hown]
      rcases h.keptGone before hbefore with ⟨other, hother, hsameOwner⟩ | hdead
      · by_cases hsameSlot : before.redisKey = slot.redisKey
        · rw [hsameSlot, hcell] at hother
          obtain rfl := Option.some.inj hother
          exact absurd hsameOwner.symm hown
        · exact .inl ⟨other, (hstored _).trans ((if_neg hsameSlot).trans hother), hsameOwner⟩
      · exact .inr hdead
  · refine List.pairwise_map.mpr (h.apart.imp_of_mem ?_)
    have hfields : ∀ success : Success,
        (if success.owner = cell.owner then { success with keptUntil := expiry options now }
          else success).redisKey = success.redisKey ∧
        (if success.owner = cell.owner then { success with keptUntil := expiry options now }
          else success).ranAt = success.ranAt := by
      intro success
      split_ifs <;> exact ⟨rfl, rfl⟩
    intro earlier later hearlier hlater hdead hsame
    rw [(hfields earlier).1, (hfields later).1] at hsame
    rw [(hfields later).2]
    by_cases hown : earlier.owner = cell.owner
    · -- the entry still lives, so nothing has succeeded after it
      have hgone := StoreKind.dead_later (h.past later hlater) (hdead hsame)
      rw [(hlive earlier hearlier hown).2] at hgone
      cases hgone
    · rw [if_neg hown]
      exact hdead hsame
  · intro after hmemAfter
    obtain ⟨before, hbefore, -, -, hran, -⟩ := mem_renew hmemAfter
    rw [hran]
    exact h.past before hbefore
  · intro redisKey stored hstoredCell
    replace hstoredCell := (hstored _).symm.trans hstoredCell
    split at hstoredCell
    · obtain rfl := Option.some.inj hstoredCell
      exact Nat.le_refl _
    · exact h.bounded redisKey stored hstoredCell
  · intro redisKey stored bodyHash response hstoredCell hvalue
    replace hstoredCell := (hstored _).symm.trans hstoredCell
    split at hstoredCell
    · rename_i hsame
      obtain rfl := Option.some.inj hstoredCell
      obtain ⟨after, hmemAfter, howned, hkeyed⟩ := renew_mem cell.owner (expiry options now) hmem
      exact ⟨after, hmemAfter, howned.trans howner, (hkeyed.trans hkey).trans hsame.symm⟩
    · obtain ⟨before, hbefore, hsame, hsameKey⟩ :=
        h.dones redisKey stored bodyHash response hstoredCell hvalue
      obtain ⟨after, hmemAfter, howned, hkeyed⟩ :=
        renew_mem cell.owner (expiry options now) hbefore
      exact ⟨after, hmemAfter, howned.trans hsame, hkeyed.trans hsameKey⟩
  · intro redisKey stored hstoredCell
    replace hstoredCell := (hstored _).symm.trans hstoredCell
    split at hstoredCell
    · obtain rfl := Option.some.inj hstoredCell
      exact StoredValue.noConfusion
    · exact h.readable redisKey stored hstoredCell

theorem onSend_requests (options : IdempotencyPluginOptions) (s : Plugin) (now i : Nat)
    (slot : Slot) (reply : Reply) : (s.onSend options now i slot reply).requests = s.requests := by
  unfold onSend
  split_ifs <;> rfl

/-- The hook that stores a response does so over the entry of its owner. -/
theorem onSend_complete {slot : Slot} {reply : Reply} {cell : Cell} (hstored : reply.status < 400)
    (hlookup : s.lookup options now slot.redisKey = some cell)
    (hcases : (∃ status body, reply = .handled status body ∧ cell.owner = i) ∨
      ∃ response, reply = .replayed response) :
    s.onSend options now i slot reply =
      s.complete options now slot reply cell.owner := by
  rw [onSend, if_neg (Nat.not_le.mpr hstored)]
  rcases hcases with ⟨status, body, rfl, rfl⟩ | ⟨response, rfl⟩
  · rfl
  · rw [madeBy, hlookup]
    rfl

theorem Sound.sent (h : Sound options s now) (hundisturbed : Undisturbed options s now action)
    {slot : Slot} {reply : Reply} {phase : Phase} (hsends : action.Sends i)
    (hat : s.requests[i]? = some request) (hslot : request.slot = some slot)
    (hsending : request.phase = .sending reply) (hafter : AfterSend reply phase) :
    Sound options ((s.onSend options now i slot reply).setRequest i
      { request with phase := phase }) now := by
  by_cases herror : 400 ≤ reply.status
  · rw [onSend, if_pos herror]
    exact h.discard hundisturbed hsends hat hslot hsending hafter herror
  · have hstored := Nat.not_le.mp herror
    obtain ⟨cell, success, hcell, halive, hmem, howner, hkey, hcases⟩ :=
      h.completes hundisturbed hsends hat hslot hsending hstored
    have hlookup := lookup_eq_some.mpr ⟨hcell, halive⟩
    rcases hcases with ⟨status, body, hreply, hown, -⟩ | ⟨response, hreply, hvalue⟩
    · rw [onSend_complete hstored hlookup (.inl ⟨status, body, hreply, hown⟩)]
      refine h.complete hat hafter hcell halive hmem howner hkey ?_
      rintro j bodyHash startedAt expiresAt hne rfl
      exact hne hown
    · rw [onSend_complete hstored hlookup (.inr ⟨response, hreply⟩)]
      refine h.complete hat hafter hcell halive hmem howner hkey ?_
      rintro j bodyHash startedAt expiresAt - rfl
      cases hvalue

/-- Every undisturbed step keeps the invariant. -/
theorem Sound.effect (h : Sound options s now) (hundisturbed : Undisturbed options s now action)
    (heffect : Effect options hashBody s now action next) : Sound options next now := by
  cases heffect with
  | received incoming => exact h.received incoming
  | moved i action request after hat move => exact h.moved hundisturbed hat move
  | marked i action request slot phase probedAt hat hslot hbefore hfree hafter =>
      refine h.mark hundisturbed hat hslot ?_ hfree hafter
      rcases hbefore with ⟨hphase, -⟩ | ⟨hphase, -⟩
      · rw [hphase]
        exact id
      · rw [hphase]
        exact id
  | succeeded i request slot status body hat hslot hrunning _ =>
      exact h.succeed hat hslot hrunning
  | sent i action request slot reply phase hsends hat hslot hsending hafter =>
      exact h.sent hundisturbed hsends hat hslot hsending hafter

/-! ## Stored responses -/

/-- A stored response stays as it is, for at least as long. -/
def KeepsDone (options : IdempotencyPluginOptions) (s : Plugin) (now : Nat) (next : Plugin) :
    Prop :=
  ∀ redisKey cell bodyHash response, s.store redisKey = some cell →
    cell.value = .done bodyHash response → options.store.alive cell.expiresAt now = true →
      ∃ after, next.store redisKey = some after ∧ after.value = cell.value ∧
        cell.expiresAt ≤ after.expiresAt

theorem Sound.keepsDone_sent (h : Sound options s now)
    (hundisturbed : Undisturbed options s now action) {slot : Slot} {reply : Reply}
    (hsends : action.Sends i) (hat : s.requests[i]? = some request)
    (hslot : request.slot = some slot) (hsending : request.phase = .sending reply) :
    KeepsDone options s now (s.onSend options now i slot reply) := by
  intro redisKey cell bodyHash response hcell hvalue halive
  by_cases herror : 400 ≤ reply.status
  · rw [onSend, if_pos herror]
    refine ⟨cell, (put_store _ _ _).trans ?_, rfl, Nat.le_refl _⟩
    have hne : redisKey ≠ slot.redisKey := by
      rintro rfl
      obtain ⟨hown, hnone⟩ := hundisturbed.discards i request slot reply hsends hat hslot hsending
        herror cell (lookup_eq_some.mpr ⟨hcell, halive⟩)
      obtain ⟨success, hmem, howner, -⟩ := h.dones _ cell _ _ hcell hvalue
      exact hnone success hmem (howner.trans hown)
    rw [if_neg hne]
    exact hcell
  · have hstored := Nat.not_le.mp herror
    obtain ⟨own, success, hown, haliveOwn, -, -, -, hcases⟩ :=
      h.completes hundisturbed hsends hat hslot hsending hstored
    have hlookup := lookup_eq_some.mpr ⟨hown, haliveOwn⟩
    by_cases hsame : redisKey = slot.redisKey
    · subst hsame
      obtain rfl := Option.some.inj (hcell.symm.trans hown)
      rcases hcases with ⟨status, body, -, -, startedAt, hmarker⟩ | ⟨replayed, hreply, hdone⟩
      · rw [hmarker] at hvalue
        cases hvalue
      · rw [onSend_complete hstored hlookup (.inr ⟨replayed, hreply⟩)]
        refine ⟨_, (put_store _ _ _).trans (if_pos rfl), ?_, h.bounded _ cell hcell⟩
        rw [hdone, hreply]
        rfl
    · have hother : (s.onSend options now i slot reply).store redisKey = s.store redisKey := by
        rcases hcases with ⟨status, body, hreply, howns, -⟩ | ⟨replayed, hreply, -⟩
        · rw [onSend_complete hstored hlookup (.inl ⟨status, body, hreply, howns⟩)]
          exact (put_store _ _ _).trans (if_neg hsame)
        · rw [onSend_complete hstored hlookup (.inr ⟨replayed, hreply⟩)]
          exact (put_store _ _ _).trans (if_neg hsame)
      exact ⟨cell, hother.trans hcell, rfl, Nat.le_refl _⟩

theorem Sound.keepsDone (h : Sound options s now)
    (hundisturbed : Undisturbed options s now action)
    (heffect : Effect options hashBody s now action next) : KeepsDone options s now next := by
  have hsame : ∀ {other : Plugin}, other.store = s.store → KeepsDone options s now other := by
    intro other hstore redisKey cell bodyHash response hcell _ _
    exact ⟨cell, by rw [hstore]; exact hcell, rfl, Nat.le_refl _⟩
  cases heffect with
  | received incoming => exact hsame rfl
  | moved i action request after hat move => exact hsame rfl
  | marked i action request slot phase probedAt hat hslot hbefore hfree hafter =>
      intro redisKey cell bodyHash response hcell hvalue halive
      have hne : redisKey ≠ slot.redisKey := by
        rintro rfl
        rw [lookup_eq_none hfree hcell] at halive
        cases halive
      exact ⟨cell, (put_store _ _ _).trans ((if_neg hne).trans hcell), rfl, Nat.le_refl _⟩
  | succeeded i request slot status body hat hslot hrunning _ => exact hsame rfl
  | sent i action request slot reply phase hsends hat hslot hsending hafter =>
      exact h.keepsDone_sent hundisturbed hsends hat hslot hsending

/-! ## Replays -/

/-- What is due to a request that came in while a response was stored for its body: before it
probes the response is still there, unless it has expired, and after that it is what it gets. -/
structure ServedWith (options : IdempotencyPluginOptions) (s : Plugin) (clock : Nat)
    (request : Request) (slot : Slot) (response : StoredResponse) (expiresAt : Nat) : Prop where
  waiting : request.phase = .probing → request.probedAt = none ∧
    (options.store.alive expiresAt clock = true → ∃ cell, s.store slot.redisKey = some cell ∧
      cell.value = .done slot.bodyHash response ∧ expiresAt ≤ cell.expiresAt)
  answers : ∀ probedAt, request.probedAt = some probedAt →
    options.store.alive expiresAt probedAt = true → request.phase.Answers response

def Served (options : IdempotencyPluginOptions) (s : Plugin) (clock : Nat) : Prop :=
  ∀ (j : Nat) (request : Request) (slot : Slot) (response : StoredResponse) (expiresAt : Nat),
    s.requests[j]? = some request → request.slot = some slot →
      request.owed = some (response, expiresAt) →
        ServedWith options s clock request slot response expiresAt

theorem owedTo_eq_some {slot : Slot} {found : Option Cell} {response : StoredResponse}
    {expiresAt : Nat} (h : owedTo found slot = some (response, expiresAt)) :
    ∃ cell, found = some cell ∧ cell.value = .done slot.bodyHash response ∧
      cell.expiresAt = expiresAt := by
  unfold owedTo at h
  split at h
  · split_ifs at h with hsame
    cases h
    exact ⟨_, rfl, by rw [hsame], rfl⟩
  · cases h

/-- An entry that is the stored response of the body is replayed. -/
theorem onFound_done {slot : Slot} {cell : Cell} {response : StoredResponse}
    (h : cell.value = .done slot.bodyHash response) :
    onFound slot cell = .sending (.replayed response) := by
  unfold onFound interpretExisting
  rw [h]
  simp

/-- A request that does not move is served as before. -/
theorem ServedWith.stays {slot : Slot} {response : StoredResponse} {expiresAt : Nat}
    (h : ServedWith options s clock request slot response expiresAt) (hle : clock ≤ now)
    (hkeeps : KeepsDone options s now next) :
    ServedWith options next now request slot response expiresAt where
  waiting hphase := by
    obtain ⟨hunprobed, hstored⟩ := h.waiting hphase
    refine ⟨hunprobed, fun halive => ?_⟩
    obtain ⟨cell, hcell, hvalue, hexpiry⟩ := hstored (StoreKind.alive_earlier hle halive)
    obtain ⟨after, hafter, hsame, hlonger⟩ := hkeeps _ cell _ _ hcell hvalue
      (StoreKind.alive_of_le hexpiry halive)
    exact ⟨after, hafter, hsame.trans hvalue, Nat.le_trans hexpiry hlonger⟩
  answers := h.answers

/-- A request that has probed and is not answered is owed nothing that still lived then. -/
theorem ServedWith.not_alive {slot : Slot} {response : StoredResponse} {expiresAt probedAt : Nat}
    (h : ServedWith options s clock request slot response expiresAt)
    (hphase : ¬request.phase.Answers response) (hprobed : request.probedAt = some probedAt) :
    options.store.alive expiresAt probedAt = false := by
  cases halive : options.store.alive expiresAt probedAt with
  | false => rfl
  | true => exact absurd (h.answers probedAt hprobed halive) hphase

/-- The response that is due is what a probe finds. -/
theorem ServedWith.found {slot : Slot} {response : StoredResponse} {expiresAt : Nat}
    (h : ServedWith options s clock request slot response expiresAt) (hle : clock ≤ now)
    (hphase : request.phase = .probing) (halive : options.store.alive expiresAt now = true) :
    ∃ cell, s.lookup options now slot.redisKey = some cell ∧
      cell.value = .done slot.bodyHash response := by
  obtain ⟨-, hstored⟩ := h.waiting hphase
  obtain ⟨cell, hcell, hvalue, hexpiry⟩ := hstored (StoreKind.alive_earlier hle halive)
  exact ⟨cell, lookup_eq_some.mpr ⟨hcell, StoreKind.alive_of_le hexpiry halive⟩, hvalue⟩

/-- A request that no longer probes is served when its answer is right. -/
theorem servedWith_of_answers {slot : Slot} {response : StoredResponse} {expiresAt : Nat}
    (hphase : request.phase ≠ .probing)
    (h : ∀ probedAt, request.probedAt = some probedAt →
      options.store.alive expiresAt probedAt = true → request.phase.Answers response) :
    ServedWith options s clock request slot response expiresAt :=
  ⟨fun hprobing => absurd hprobing hphase, h⟩

theorem onFound_ne_probing (slot : Slot) (cell : Cell) : onFound slot cell ≠ .probing := by
  unfold onFound
  split <;> exact Phase.noConfusion

theorem ServedWith.moved {slot : Slot} {response : StoredResponse} {expiresAt : Nat}
    (h : ServedWith options s clock request slot response expiresAt) (hle : clock ≤ now)
    (hslot : request.slot = some slot)
    (move : QuietMove options s now i request action after) :
    ServedWith options next now after slot response expiresAt := by
  have hsilent : ∀ {phase : Phase}, request.phase = phase → ¬phase.Answers response →
      ∀ probedAt, request.probedAt = some probedAt →
        options.store.alive expiresAt probedAt = true → False := by
    intro phase hphase hnot probedAt hprobed halive
    rw [h.not_alive (hphase ▸ hnot) hprobed] at halive
    cases halive
  cases move with
  | probed other cell hother hphase hlookup =>
      refine servedWith_of_answers (onFound_ne_probing _ _) ?_
      intro probedAt hprobed halive
      obtain rfl := Option.some.inj (hslot.symm.trans hother)
      obtain rfl := Option.some.inj hprobed
      obtain ⟨stored, hstored, hvalue⟩ := h.found hle hphase halive
      obtain rfl := Option.some.inj (hstored.symm.trans hlookup)
      dsimp only
      rw [onFound_done hvalue]
      exact .inl rfl
  | missed other hother hphase hnone =>
      refine servedWith_of_answers Phase.noConfusion ?_
      intro probedAt hprobed halive
      obtain rfl := Option.some.inj (hslot.symm.trans hother)
      obtain rfl := Option.some.inj hprobed
      obtain ⟨stored, hstored, -⟩ := h.found hle hphase halive
      rw [hnone] at hstored
      cases hstored
  | refused hphase =>
      exact servedWith_of_answers Phase.noConfusion fun probedAt hprobed halive =>
        (hsilent hphase id probedAt hprobed halive).elim
  | rechecked other cell hother hphase hlookup =>
      exact servedWith_of_answers (onFound_ne_probing _ _) fun probedAt hprobed halive =>
        (hsilent hphase id probedAt hprobed halive).elim
  | vanished other hother hphase hnone =>
      exact servedWith_of_answers Phase.noConfusion fun probedAt hprobed halive =>
        (hsilent hphase id probedAt hprobed halive).elim
  | handled status body hphase =>
      exact servedWith_of_answers Phase.noConfusion fun probedAt hprobed halive =>
        (hsilent hphase id probedAt hprobed halive).elim
  | unkeyed reply hnone =>
      rw [hslot] at hnone
      cases hnone
  | gaveUp ran resend probedAt hprobed hrunning reply hfailed phase hended =>
      subst hfailed
      rcases hended with rfl | rfl
      · exact servedWith_of_answers Phase.noConfusion fun _ _ _ => .inr rfl
      · exact servedWith_of_answers Phase.noConfusion fun _ _ _ => .inr rfl
  | crashed => exact servedWith_of_answers Phase.noConfusion fun _ _ _ => trivial

/-- Every undisturbed step serves the requests. -/
theorem Served.effect (h : Served options s clock) (hle : clock ≤ now)
    (hkeeps : KeepsDone options s now next)
    (heffect : Effect options hashBody s now action next) : Served options next now := by
  intro j other slot response expiresAt hother hslot howed
  cases heffect with
  | received incoming =>
      rcases getElem?_receive hother with hold | hnone | ⟨slot', rfl⟩
      · exact (h j other slot response expiresAt hold hslot howed).stays hle hkeeps
      · rw [hnone] at hslot
        cases hslot
      · obtain rfl := Option.some.inj hslot
        obtain ⟨cell, hlookup, hvalue, rfl⟩ := owedTo_eq_some howed
        exact ⟨fun _ => ⟨rfl, fun _ => ⟨cell, (lookup_eq_some.mp hlookup).1, hvalue,
          Nat.le_refl _⟩⟩, fun _ hprobed => by cases hprobed⟩
  | moved i action request after hat move =>
      rcases getElem?_setRequest hother with ⟨rfl, rfl⟩ | ⟨-, hold⟩
      · rw [move.slot_eq] at hslot
        rw [move.owed_eq] at howed
        exact (h j request slot response expiresAt hat hslot howed).moved hle hslot move
      · exact (h j other slot response expiresAt hold hslot howed).stays hle hkeeps
  | marked i action request slot' phase probedAt hat hslot' hbefore hfree hafter =>
      rcases getElem?_setRequest hother with ⟨rfl, rfl⟩ | ⟨-, hold⟩
      · have hserved := h j request slot response expiresAt hat hslot howed
        obtain rfl := Option.some.inj (hslot.symm.trans hslot')
        apply servedWith_of_answers
        · rcases hafter with rfl | rfl
          · exact Phase.noConfusion
          · exact Phase.noConfusion
        · intro time htime halive
          rcases hbefore with ⟨hphase, rfl⟩ | ⟨hphase, rfl⟩
          · obtain rfl := Option.some.inj htime
            obtain ⟨stored, hstored, -⟩ := hserved.found hle hphase halive
            rw [hfree] at hstored
            cases hstored
          · have hnot : ¬request.phase.Answers response := by
              rw [hphase]
              exact id
            rw [hserved.not_alive hnot htime] at halive
            cases halive
      · exact (h j other slot response expiresAt hold hslot howed).stays hle hkeeps
  | succeeded i request slot' status body hat hslot' hrunning _ =>
      rcases getElem?_setRequest hother with ⟨rfl, rfl⟩ | ⟨-, hold⟩
      · have hserved := h j request slot response expiresAt hat hslot howed
        refine servedWith_of_answers Phase.noConfusion fun time htime halive => ?_
        have hnot : ¬request.phase.Answers response := by
          rw [hrunning]
          exact id
        rw [hserved.not_alive hnot htime] at halive
        cases halive
      · exact (h j other slot response expiresAt hold hslot howed).stays hle hkeeps
  | sent i action request slot' reply phase hsends hat hslot' hsending hafter =>
      rcases getElem?_setRequest hother with ⟨rfl, rfl⟩ | ⟨-, hold⟩
      · have hserved := h j request slot response expiresAt hat hslot howed
        apply servedWith_of_answers
        · rcases hafter with rfl | rfl | rfl <;> exact Phase.noConfusion
        · intro time htime halive
          have hanswers := hserved.answers time htime halive
          rw [hsending] at hanswers
          rcases hafter with rfl | rfl | rfl
          · exact hanswers
          · exact .inr rfl
          · exact .inr rfl
      · rw [onSend_requests] at hold
        exact (h j other slot response expiresAt hold hslot howed).stays hle hkeeps

end Moves

/-! ## Runs -/

section Runs

variable {labels : List (Nat × Action)}

/-- The invariant of the runs without disturbance. -/
structure Safe (options : IdempotencyPluginOptions) (s : Plugin) : Prop where
  sound : Sound options s s.clock
  served : Served options s s.clock

theorem safe_start : Safe options {} where
  sound := by
    constructor
    · intro i request slot hat
      cases hat
    · intro i request slot status body hat
      cases hat
    · exact List.nodup_nil
    · intro success hmem
      cases hmem
    · intro success hmem
      cases hmem
    · intro success hmem
      cases hmem
    · exact List.Pairwise.nil
    · intro success hmem
      cases hmem
    · intro redisKey cell hcell
      cases hcell
    · intro redisKey cell bodyHash response hcell
      cases hcell
    · intro redisKey cell hcell
      cases hcell
  served := by
    intro j request slot response expiresAt hat
    cases hat

theorem step_cases {label : Nat × Action}
    (hstep : (pluginMachine options hashBody).step s label = some next) :
    s.clock ≤ label.1 ∧ ∃ after, s.act options hashBody label.1 label.2 = some after ∧
      next = { after with clock := label.1 } := by
  rw [pluginMachine] at hstep
  dsimp only at hstep
  split at hstep
  · rename_i hle
    obtain ⟨after, hact, rfl⟩ := Option.map_eq_some_iff.mp hstep
    exact ⟨hle, after, hact, rfl⟩
  · cases hstep

theorem Safe.step {label : Nat × Action} (h : Safe options s)
    (hundisturbed : Undisturbed options s label.1 label.2)
    (hstep : (pluginMachine options hashBody).step s label = some next) :
    Safe options next ∧ KeepsDone options s label.1 next := by
  obtain ⟨hle, after, hact, rfl⟩ := step_cases hstep
  have heffect := effect_of_act hact
  have hlater := h.sound.later hle
  have hkeeps := hlater.keepsDone hundisturbed heffect
  have hsound := hlater.effect hundisturbed heffect
  have hserved := h.served.effect hle hkeeps heffect
  refine ⟨⟨?_, ?_⟩, hkeeps⟩
  · exact ⟨hsound.marked, hsound.credited, hsound.owners, hsound.ended, hsound.keptCell,
      hsound.keptGone, hsound.apart, hsound.past, hsound.bounded, hsound.dones, hsound.readable⟩
  · intro j request slot response expiresAt hat hslot howed
    have hwith := hserved j request slot response expiresAt hat hslot howed
    exact ⟨hwith.waiting, hwith.answers⟩

theorem sound_of_run (meets : (pluginMachine options hashBody).Meets
      (fun s label => Undisturbed options s label.1 label.2) {} labels)
    (hrun : (pluginMachine options hashBody).run {} labels = some s) : Safe options s :=
  (pluginMachine options hashBody).invariant_of_meets
    (fun _ _ _ hundisturbed h hstep => (h.step hundisturbed hstep).1) safe_start meets hrun

end Runs

end Plugin

open Plugin

/-- In every run whose steps are undisturbed a handler succeeds only after the entry of every
earlier success on its key has expired; each request that came in while a response was stored for
its body, and probed before that expired, gets it, unless the store or the process fails it; and
the next such step leaves every stored response as it is. -/
theorem idempotent_of_run {options : IdempotencyPluginOptions} {hashBody : String → String}
    {labels : List (Nat × Action)} {s : Plugin}
    (meets : (pluginMachine options hashBody).Meets
      (fun s label => Undisturbed options s label.1 label.2) {} labels)
    (hrun : (pluginMachine options hashBody).run {} labels = some s) :
    (s.successes.Pairwise fun earlier later => earlier.redisKey = later.redisKey →
      options.store.alive earlier.keptUntil later.ranAt = false) ∧
    (∀ request ∈ s.requests, ∀ slot response expiresAt probedAt, request.slot = some slot →
      request.owed = some (response, expiresAt) → request.probedAt = some probedAt →
        options.store.alive expiresAt probedAt = true → request.phase.Answers response) ∧
    ∀ label next, Undisturbed options s label.1 label.2 →
      (pluginMachine options hashBody).step s label = some next →
        KeepsDone options s label.1 next := by
  have h := sound_of_run meets hrun
  refine ⟨h.sound.apart, ?_, fun label next hundisturbed hstep => (h.step hundisturbed hstep).2⟩
  intro request hmem slot response expiresAt probedAt hslot howed hprobed halive
  obtain ⟨j, hj⟩ := List.mem_iff_getElem?.mp hmem
  exact (h.served j request slot response expiresAt hj hslot howed).answers probedAt hprobed halive

/-! ## Runs on one key -/

/-- A request of one tenant with one key. -/
def keyed (body : String) : Incoming where
  idempotent := true
  header := .single "order-123"
  principalTenantId := some "tnt_1"
  body := .value body

def onStore (store : StoreKind) : IdempotencyPluginOptions := ⟨store, 86400, by decide⟩

/-- A step of the only request is undisturbed while what is stored lives and its handler is not
answered with an error. -/
theorem undisturbed_single {options : IdempotencyPluginOptions} {s : Plugin} {now : Nat}
    {action : Action} {request : Request} (hrequests : s.requests = [request])
    (hlives : ∀ slot, request.slot = some slot → ∀ cell, s.store slot.redisKey = some cell →
      options.store.alive cell.expiresAt now = true)
    (hsends : (∀ i, ¬action.Sends i) ∨
      ∃ status body, request.phase = .sending (.handled status body) ∧ status < 400)
    (hrechecks : ∀ i, action ≠ .recheck i) : Undisturbed options s now action := by
  have honly : ∀ {i : Nat} {other : Request}, s.requests[i]? = some other → other = request := by
    intro i other hother
    have hmem := List.mem_of_getElem? hother
    rw [hrequests] at hmem
    exact List.mem_singleton.mp hmem
  constructor
  · intro i other slot cell hother hslot _ hcell _
    obtain rfl := honly hother
    exact hlives slot hslot cell hcell
  · intro i other slot reply hsent hother hslot hphase herror
    obtain rfl := honly hother
    rcases hsends with hnone | ⟨status, body, hsending, hstored⟩
    · exact absurd hsent (hnone i)
    · obtain rfl := Phase.sending.inj (hsending.symm.trans hphase)
      exact absurd herror (Nat.not_le.mpr hstored)
  · intro i other slot response hsent hother hslot hphase
    obtain rfl := honly hother
    rcases hsends with hnone | ⟨status, body, hsending, -⟩
    · exact absurd hsent (hnone i)
    · cases hsending.symm.trans hphase
  · exact fun i _ _ haction => absurd haction (hrechecks i)

/-- One request from its receipt to its stored response. -/
theorem idempotent_of_run_single : ∃ s,
    (pluginMachine (onStore .inMemory) id).run {} [(1000, .receive (keyed "1")), (1001, .probe 0),
      (1002, .handle 0 201 "2"), (1003, .send 0)] = some s ∧
    (s.successes.Pairwise fun earlier later => earlier.redisKey = later.redisKey →
      (onStore .inMemory).store.alive earlier.keptUntil later.ranAt = false) ∧
    (∀ request ∈ s.requests, ∀ slot response expiresAt probedAt, request.slot = some slot →
      request.owed = some (response, expiresAt) → request.probedAt = some probedAt →
        (onStore .inMemory).store.alive expiresAt probedAt = true →
          request.phase.Answers response) ∧
    ∀ label next, Undisturbed (onStore .inMemory) s label.1 label.2 →
      (pluginMachine (onStore .inMemory) id).step s label = some next →
        KeepsDone (onStore .inMemory) s label.1 next := by
  have hmeets : (pluginMachine (onStore .inMemory) id).Meets
      (fun s label => Undisturbed (onStore .inMemory) s label.1 label.2) {}
      [(1000, .receive (keyed "1")), (1001, .probe 0), (1002, .handle 0 201 "2"),
        (1003, .send 0)] := by
    refine ⟨⟨?_, ?_, ?_, ?_⟩, ?_⟩
    · intro i request slot cell hat
      cases hat
    · intro i request slot reply hsends
      cases hsends
    · intro i request slot response hsends
      cases hsends
    · intro i request slot haction
      cases haction
    · rintro _ ⟨⟩
      refine ⟨undisturbed_single rfl ?_ (.inl fun _ => id) (fun _ => Action.noConfusion), ?_⟩
      · intro slot hslot cell hcell
        cases hcell
      · rintro _ ⟨⟩
        refine ⟨undisturbed_single rfl ?_ (.inl fun _ => id) (fun _ => Action.noConfusion), ?_⟩
        · rintro _ ⟨⟩ _ ⟨⟩
          rfl
        · rintro _ ⟨⟩
          refine ⟨undisturbed_single rfl ?_ (.inr ⟨201, "2", rfl, by decide⟩)
            (fun _ => Action.noConfusion), fun _ _ => trivial⟩
          rintro _ ⟨⟩ _ ⟨⟩
          rfl
  have hrun : ∃ s, (pluginMachine (onStore .inMemory) id).run {}
      [(1000, .receive (keyed "1")), (1001, .probe 0), (1002, .handle 0 201 "2"),
        (1003, .send 0)] = some s := ⟨_, rfl⟩
  obtain ⟨s, hs⟩ := hrun
  exact ⟨s, hs, idempotent_of_run hmeets hs⟩

/-- Within four milliseconds: a request that is refused since the key is in flight discards the
marker, so a third request runs the handler a second time. -/
theorem refused_request_discards_marker : ∃ s first second,
    (pluginMachine (onStore .redis) id).run {}
      [(1000, .receive (keyed "1")), (1000, .probe 0), (1000, .mark 0),
        (1001, .receive (keyed "1")), (1001, .probe 1), (1001, .send 1),
        (1002, .receive (keyed "1")), (1002, .probe 2), (1002, .mark 2),
        (1003, .handle 0 201 "a"), (1003, .send 0),
        (1004, .handle 2 201 "b"), (1004, .send 2)] = some s ∧
      s.successes = [first, second] ∧ first.redisKey = second.redisKey ∧
      StoreKind.redis.alive first.keptUntil second.ranAt = true :=
  ⟨_, _, _, rfl, rfl, rfl, rfl⟩

end BrainCore.Shared.Idempotency
