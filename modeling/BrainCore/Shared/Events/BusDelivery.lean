import BrainCore.Shared.Events.Bus
import Mathlib.Data.List.Nodup
import Mathlib.Data.List.Perm.Basic

/-!
# What a subscription hands on

An event is with the catch-up, on its way to the listener, being loaded, or
handed on; it is lost when its notification arrives and none of these holds any
more.
-/

namespace BrainCore.Shared.Events

open BrainCore.Foundation

variable {subscribed : List DomainEventType} {s next : BusWorld} {row : DomainEventRow}

/-- The event is wanted, and was committed before the subscription was stopped. -/
structure Due (subscribed : List DomainEventType) (s : BusWorld) (row : DomainEventRow) : Prop where
  committed : row ∈ s.beforeStop
  wanted : shouldDeliver row.eventType subscribed = true

/-- The catch-up query is still to come. -/
def SubscribePhase.beforeQuery : SubscribePhase → Prop
  | .start | .listened => True
  | _ => False

/-- The event is handed on, or one of the ways to hand it on is still open. -/
def Accounted (s : BusWorld) (row : DomainEventRow) : Prop :=
  row ∈ s.handed ∨ s.phase.beforeQuery ∨ row ∈ s.phase.caughtUp ∨ row.note ∈ s.inFlight ∨
    row.id ∈ s.loading

/-- Nothing is under way any more. -/
structure Settled (s : BusWorld) : Prop where
  phase : s.phase = .registered ∨ s.phase = .stopped
  arrived : s.inFlight = []
  loaded : s.loading = []

/-- Each event due is accounted for. -/
def Covered (subscribed : List DomainEventType) (s : BusWorld) : Prop :=
  ∀ row, Due subscribed s row → Accounted s row

/-- When its notification arrives, the listener is there, or the event is with the catch-up or
handed on. -/
def HeardAt (s : BusWorld) (row : DomainEventRow) : BusLabel → Prop
  | .arrive => s.inFlight.head? = some row.note →
      s.phase = .registered ∨ s.phase.beforeQuery ∨ row ∈ s.phase.caughtUp ∨ row ∈ s.handed
  | _ => True

/-- No notification of an event due is missed. -/
def Heard (subscribed : List DomainEventType) (s : BusWorld) (label : BusLabel) : Prop :=
  ∀ row, Due subscribed s row → HeardAt s row label

/-- The subscription has not been called yet; earlier ones may have handled events. -/
structure Fresh (s : BusWorld) : Prop where
  distinct : (s.events.map (·.id)).Nodup
  phase : s.phase = .start
  inFlight : s.inFlight = []
  loading : s.loading = []
  running : s.stoppedAt = none
  handed : ∀ row ∈ s.handed, row ∈ s.events

theorem Settled.accounted_iff (h : Settled s) : Accounted s row ↔ row ∈ s.handed := by
  unfold Accounted
  rcases h.phase with hphase | hphase <;>
    simp [hphase, h.arrived, h.loaded, SubscribePhase.beforeQuery, SubscribePhase.caughtUp]

/-! ## Ids -/

/-- An id names one event, whose notification is under way once. -/
structure Ids (s : BusWorld) : Prop where
  events : (s.events.map (·.id)).Nodup
  pending : (s.inFlight.map (·.id) ++ s.loading).Nodup
  sent : ∀ note ∈ s.inFlight, ∃ row ∈ s.events, row.note = note
  loading : ∀ id ∈ s.loading, ∃ row ∈ s.events, row.id = id
  caughtUp : ∀ row ∈ s.phase.caughtUp, row ∈ s.events
  handed : ∀ row ∈ s.handed, row ∈ s.events
  stopped : ∀ count, s.stoppedAt = some count → count ≤ s.events.length
  running : s.phase ≠ .stopped → s.stoppedAt = none

theorem Fresh.ids (h : Fresh s) : Ids s where
  events := h.distinct
  pending := by rw [h.inFlight, h.loading]; exact List.nodup_nil
  sent note hmem := by rw [h.inFlight] at hmem; cases hmem
  loading id hmem := by rw [h.loading] at hmem; cases hmem
  caughtUp row hmem := by rw [h.phase] at hmem; cases hmem
  handed := h.handed
  stopped count hcount := by rw [h.running] at hcount; cases hcount
  running _ := h.running

theorem Fresh.covered (h : Fresh s) : Covered subscribed s := by
  intro row _
  exact .inr (.inl (by rw [h.phase]; trivial))

namespace Ids

theorem eq_of_id (h : Ids s) {other : DomainEventRow} (hrow : row ∈ s.events)
    (hother : other ∈ s.events) (hsame : row.id = other.id) : row = other :=
  List.inj_on_of_nodup_map h.events hrow hother hsame

theorem lookup_id (h : Ids s) (hrow : row ∈ s.events) : s.lookup row.id = some row := by
  unfold BusWorld.lookup
  cases hfind : s.events.find? fun other => other.id = row.id with
  | none => simpa using List.find?_eq_none.mp hfind row hrow
  | some found =>
      have hid := List.find?_some hfind
      exact congrArg some
        (h.eq_of_id (List.mem_of_find?_eq_some hfind) hrow (by simpa using hid))

theorem beforeStop_subset (hrow : row ∈ s.beforeStop) : row ∈ s.events := by
  unfold BusWorld.beforeStop at hrow
  split at hrow
  · exact hrow
  · exact List.mem_of_mem_take hrow

end Ids

/-! ## Steps -/

/-- What a step does to the events already committed and to the new ones. -/
structure Follows (subscribed : List DomainEventType) (s : BusWorld) (label : BusLabel)
    (next : BusWorld) : Prop where
  due : ∀ row ∈ s.events, (row ∈ next.beforeStop ↔ row ∈ s.beforeStop)
  accounted : ∀ row ∈ s.events, shouldDeliver row.eventType subscribed = true →
    (Accounted next row ↔ Accounted s row ∧ HeardAt s row label)
  new : ∀ row, row ∈ next.beforeStop → row ∈ s.events ∨ Accounted next row

theorem Follows.covered_iff {label : BusLabel} (h : Follows subscribed s label next)
    (covered : Covered subscribed s) : Covered subscribed next ↔ Heard subscribed s label := by
  constructor
  · intro hnext row hdue
    have hrow := Ids.beforeStop_subset hdue.committed
    have hnow := hnext row ⟨(h.due row hrow).mpr hdue.committed, hdue.wanted⟩
    exact ((h.accounted row hrow hdue.wanted).mp hnow).2
  · intro hheard row hdue
    rcases h.new row hdue.committed with hrow | hnew
    · have hbefore : Due subscribed s row := ⟨(h.due row hrow).mp hdue.committed, hdue.wanted⟩
      exact (h.accounted row hrow hdue.wanted).mpr ⟨covered row hbefore, hheard row hbefore⟩
    · exact hnew

theorem Follows.covered_back {label : BusLabel} (h : Follows subscribed s label next)
    (hnext : Covered subscribed next) : Covered subscribed s := by
  intro row hdue
  have hrow := Ids.beforeStop_subset hdue.committed
  have hnow := hnext row ⟨(h.due row hrow).mpr hdue.committed, hdue.wanted⟩
  exact ((h.accounted row hrow hdue.wanted).mp hnow).1

/-- Steps that leave the committed events alone. -/
theorem Follows.of_same {label : BusLabel} (hevents : next.events = s.events)
    (hbefore : next.beforeStop = s.beforeStop)
    (accounted : ∀ row ∈ s.events, shouldDeliver row.eventType subscribed = true →
      (Accounted next row ↔ Accounted s row ∧ HeardAt s row label)) :
    Follows subscribed s label next where
  due row _ := by rw [hbefore]
  accounted := accounted
  new row hrow := .inl (hevents ▸ Ids.beforeStop_subset hrow)

namespace Ids

theorem commit (h : Ids s) {rows : List DomainEventRow} (hstep : s.commit rows = some next) :
    Ids next ∧ Follows subscribed s (.commit rows) next := by
  unfold BusWorld.commit at hstep
  split at hstep
  · rename_i hguard
    obtain ⟨hnodup, hfresh⟩ := hguard
    have hnew : ∀ old ∈ s.events, ∀ row ∈ rows, old.id ≠ row.id := by
      intro old hold row hrow hsame
      have hnone := List.any_eq_false.mp (hfresh row hrow) old hold
      exact hnone (decide_eq_true hsame)
    have hevents : ((s.events ++ rows).map (·.id)).Nodup := by
      rw [List.map_append, List.nodup_append]
      refine ⟨h.events, hnodup, ?_⟩
      intro id hid other hother hsame
      obtain ⟨old, hold, rfl⟩ := List.mem_map.mp hid
      obtain ⟨row, hrow, rfl⟩ := List.mem_map.mp hother
      exact hnew old hold row hrow hsame
    have hbefore : ∀ {world : BusWorld}, world.events = s.events ++ rows →
        world.stoppedAt = s.stoppedAt → ∀ row ∈ s.events,
          (row ∈ world.beforeStop ↔ row ∈ s.beforeStop) := by
      intro world hworld hstopped row hrow
      unfold BusWorld.beforeStop
      rw [hworld, hstopped]
      cases hcount : s.stoppedAt with
      | none => simp [hrow]
      | some count => simp [List.take_append_of_le_length (h.stopped count hcount)]
    cases hstep
    refine ⟨⟨hevents, ?_, ?_, ?_, ?_, ?_, ?_, h.running⟩, ⟨hbefore rfl rfl, ?_, ?_⟩⟩
    · -- the new ids are not under way yet
      dsimp only
      split
      · have hperm : ((s.inFlight ++ rows.map (·.note)).map (·.id) ++ s.loading).Perm
            ((s.inFlight.map (·.id) ++ s.loading) ++ rows.map (·.id)) := by
          rw [List.map_append, List.map_map, List.append_assoc, List.append_assoc]
          exact List.Perm.append_left _ List.perm_append_comm
        rw [hperm.nodup_iff, List.nodup_append]
        refine ⟨h.pending, hnodup, ?_⟩
        intro id hid other hother hsame
        obtain ⟨row, hrow, rfl⟩ := List.mem_map.mp hother
        rcases List.mem_append.mp hid with hid | hid
        · obtain ⟨note, hnote, rfl⟩ := List.mem_map.mp hid
          obtain ⟨old, hold, rfl⟩ := h.sent note hnote
          exact hnew old hold row hrow hsame
        · obtain ⟨old, hold, rfl⟩ := h.loading id hid
          exact hnew old hold row hrow hsame
      · exact h.pending
    · intro note hnote
      have hcases : note ∈ s.inFlight ∨ note ∈ rows.map (·.note) := by
        dsimp only at hnote
        split at hnote
        · exact List.mem_append.mp hnote
        · exact .inl hnote
      rcases hcases with hold | hnote
      · obtain ⟨old, hold, hsame⟩ := h.sent note hold
        exact ⟨old, List.mem_append_left _ hold, hsame⟩
      · obtain ⟨row, hrow, hsame⟩ := List.mem_map.mp hnote
        exact ⟨row, List.mem_append_right _ hrow, hsame⟩
    · intro id hid
      obtain ⟨old, hold, hsame⟩ := h.loading id hid
      exact ⟨old, List.mem_append_left _ hold, hsame⟩
    · exact fun row hrow => List.mem_append_left _ (h.caughtUp row hrow)
    · exact fun row hrow => List.mem_append_left _ (h.handed row hrow)
    · intro count hcount
      exact Nat.le_trans (h.stopped count hcount) (by simp)
    · -- an event committed before has no second notification
      intro row hrow _
      have hnote : row.note ∉ rows.map (·.note) := by
        intro hmem
        obtain ⟨other, hother, hsame⟩ := List.mem_map.mp hmem
        exact hnew row hrow other hother (congrArg DomainEventNotification.id hsame).symm
      simp only [Accounted, HeardAt, and_true]
      split <;> simp [hnote]
    · intro row hrow
      rcases List.mem_append.mp (beforeStop_subset hrow) with hold | hrow'
      · exact .inl hold
      · refine .inr ?_
        cases hphase : s.phase.listening with
        | false =>
            have hstart : s.phase = .start := by
              cases hcase : s.phase <;> rw [hcase] at hphase <;> first | rfl | cases hphase
            exact .inr (.inl (by rw [hstart]; trivial))
        | true =>
            refine .inr (.inr (.inr (.inl ?_)))
            simp only [if_true]
            exact List.mem_append_right _ (List.mem_map_of_mem hrow')
  · cases hstep

theorem listen (h : Ids s) (hstep : s.listen = some next) :
    Ids next ∧ Follows subscribed s .listen next := by
  unfold BusWorld.listen at hstep
  split at hstep
  · rename_i hphase
    cases hstep
    have hrunning := h.running (by rw [hphase]; exact fun hsame => by cases hsame)
    refine ⟨⟨h.events, h.pending, h.sent, h.loading, fun row hrow => absurd hrow List.not_mem_nil, h.handed,
      h.stopped, fun _ => hrunning⟩, Follows.of_same rfl rfl fun row _ _ => ?_⟩
    have hbefore : s.phase.beforeQuery := by
      rw [hphase]
      trivial
    exact ⟨fun _ => ⟨.inr (.inl hbefore), trivial⟩, fun _ => .inr (.inl trivial)⟩
  · cases hstep

theorem query (h : Ids s) {ids : List String} (hstep : s.query ids = some next) :
    Ids next ∧ Follows subscribed s (.query ids) next := by
  unfold BusWorld.query at hstep
  split at hstep
  · rename_i hphase
    have hrunning := h.running (by rw [hphase]; exact fun hsame => by cases hsame)
    have hbefore : s.phase.beforeQuery := by
      rw [hphase]
      trivial
    split at hstep
    · rename_i hall
      cases hstep
      have hfound : ∀ row ∈ ids.filterMap s.lookup, row ∈ s.events := by
        intro row hrow
        obtain ⟨id, -, hlookup⟩ := List.mem_filterMap.mp hrow
        exact List.mem_of_find?_eq_some hlookup
      refine ⟨⟨h.events, h.pending, h.sent, h.loading, hfound, h.handed, h.stopped,
        fun _ => hrunning⟩, Follows.of_same rfl rfl fun row hrow _ => ?_⟩
      refine ⟨fun _ => ⟨.inr (.inl hbefore), trivial⟩, fun _ => ?_⟩
      -- what is not handled yet is read by the query
      have hread := List.all_eq_true.mp hall row hrow
      rw [Bool.or_eq_true, List.any_eq_true] at hread
      rcases hread with hid | ⟨handled, hmem, hsame⟩
      · exact .inr (.inr (.inl (List.mem_filterMap.mpr
          ⟨row.id, of_decide_eq_true hid, h.lookup_id hrow⟩)))
      · have hrow' := h.eq_of_id (h.handed handled hmem) hrow (of_decide_eq_true hsame)
        exact .inl (hrow' ▸ hmem)
    · cases hstep
  · cases hstep

/-- How far the catch-up loop gets in one go. -/
structure Round (subscribed : List DomainEventType) (rows : List DomainEventRow)
    (phase : SubscribePhase) (handed : List DomainEventRow) : Prop where
  wanted : ∀ row ∈ rows, shouldDeliver row.eventType subscribed = true →
    row ∈ handed ∨ row ∈ phase.caughtUp
  handed : ∀ row ∈ handed, row ∈ rows
  rest : ∀ row ∈ phase.caughtUp, row ∈ rows
  after : ¬phase.beforeQuery ∧ phase ≠ .stopped

theorem catchUpFrom_round (subscribed : List DomainEventType) (s : BusWorld)
    (rows : List DomainEventRow) :
    ∃ phase handed, s.catchUpFrom subscribed rows =
        { s with phase, handed := s.handed ++ handed } ∧
      Round subscribed rows phase handed := by
  induction rows with
  | nil =>
      refine ⟨.registered, [], by simp [BusWorld.catchUpFrom], ?_⟩
      exact ⟨fun row hrow => absurd hrow List.not_mem_nil, fun row hrow => absurd hrow List.not_mem_nil,
        fun row hrow => absurd hrow List.not_mem_nil, id, fun hsame => by cases hsame⟩
  | cons row rest ih =>
      by_cases hwanted : shouldDeliver row.eventType subscribed = true
      · refine ⟨.handling rest, [row], by simp [BusWorld.catchUpFrom, hwanted], ?_⟩
        refine ⟨fun other hother _ => ?_, fun other hother => ?_, fun other hother => ?_, id,
          fun hsame => by cases hsame⟩
        · rcases List.mem_cons.mp hother with rfl | hother
          · exact .inl List.mem_cons_self
          · exact .inr hother
        · rw [List.mem_singleton.mp hother]
          exact List.mem_cons_self
        · exact List.mem_cons_of_mem _ hother
      · obtain ⟨phase, handed, heq, hround⟩ := ih
        refine ⟨phase, handed, by simpa [BusWorld.catchUpFrom, hwanted] using heq, ?_⟩
        refine ⟨fun other hother hneeded => ?_, fun other hother => ?_, fun other hother => ?_,
          hround.after⟩
        · rcases List.mem_cons.mp hother with rfl | hother
          · exact absurd hneeded hwanted
          · exact hround.wanted other hother hneeded
        · exact List.mem_cons_of_mem _ (hround.handed other hother)
        · exact List.mem_cons_of_mem _ (hround.rest other hother)

theorem catchUp (h : Ids s) {rows : List DomainEventRow} (hrows : s.phase.caughtUp = rows)
    (hphase : ¬s.phase.beforeQuery) (hrunning : s.stoppedAt = none) :
    Ids (s.catchUpFrom subscribed rows) ∧
      Follows subscribed s .resume (s.catchUpFrom subscribed rows) := by
  obtain ⟨phase, handed, heq, hround⟩ := catchUpFrom_round subscribed s rows
  rw [heq]
  have hcaughtUp : ∀ row ∈ rows, row ∈ s.events := hrows ▸ h.caughtUp
  refine ⟨⟨h.events, h.pending, h.sent, h.loading, fun row hrow => hcaughtUp row (hround.rest row hrow),
    fun row hrow => ?_, h.stopped, fun _ => hrunning⟩, Follows.of_same rfl rfl ?_⟩
  · rcases List.mem_append.mp hrow with hold | hnew
    · exact h.handed row hold
    · exact hcaughtUp row (hround.handed row hnew)
  · intro row _ hwanted
    unfold Accounted HeardAt
    rw [hrows, and_true, List.mem_append]
    constructor
    · rintro ((hold | hnew) | hbefore | hrest | hlater)
      · exact .inl hold
      · exact .inr (.inr (.inl (hround.handed row hnew)))
      · exact absurd hbefore hround.after.1
      · exact .inr (.inr (.inl (hround.rest row hrest)))
      · exact .inr (.inr (.inr hlater))
    · rintro (hold | hbefore | hrow | hlater)
      · exact .inl (.inl hold)
      · exact absurd hbefore hphase
      · rcases hround.wanted row hrow hwanted with hnew | hrest
        · exact .inl (.inr hnew)
        · exact .inr (.inr (.inl hrest))
      · exact .inr (.inr (.inr hlater))

theorem resume (h : Ids s) (hstep : s.resume subscribed = some next) :
    Ids next ∧ Follows subscribed s .resume next := by
  unfold BusWorld.resume at hstep
  split at hstep
  · rename_i rows hphase
    cases hstep
    refine h.catchUp (by rw [hphase]; rfl) (by rw [hphase]; exact id) (h.running ?_)
    rw [hphase]
    exact fun hsame => by cases hsame
  · rename_i rest hphase
    cases hstep
    refine h.catchUp (by rw [hphase]; rfl) (by rw [hphase]; exact id) (h.running ?_)
    rw [hphase]
    exact fun hsame => by cases hsame
  · cases hstep

/-- A notification arrives and is let go. -/
theorem drop (h : Ids s) {note : DomainEventNotification} {rest : List DomainEventNotification}
    (hflight : s.inFlight = note :: rest) (hphase : s.phase ≠ .registered) :
    Ids { s with inFlight := rest } ∧ Follows subscribed s .arrive { s with inFlight := rest } := by
  have hpending := h.pending
  rw [hflight, List.map_cons, List.cons_append, List.nodup_cons] at hpending
  refine ⟨⟨h.events, hpending.2, fun note hnote => h.sent note ?_, h.loading, h.caughtUp, h.handed,
    h.stopped, h.running⟩, Follows.of_same rfl rfl fun row hrow _ => ?_⟩
  · rw [hflight]
    exact List.mem_cons_of_mem _ hnote
  · unfold Accounted HeardAt
    rw [hflight, List.head?_cons, Option.some.injEq, List.mem_cons]
    by_cases hsame : note = row.note
    · -- its id is under way nowhere else
      subst hsame
      have hrest : row.note ∉ rest := fun hmem =>
        hpending.1 (List.mem_append_left _ (List.mem_map_of_mem hmem))
      have hloading : row.id ∉ s.loading := fun hmem => hpending.1 (List.mem_append_right _ hmem)
      simp only [hrest, hloading, hphase, or_false, or_true, true_and, forall_const, false_or]
      tauto
    · have hother : row.note ≠ note := fun heq => hsame heq.symm
      simp only [hsame, hother, false_or, false_implies, and_true]

/-- A notification arrives at the listener, which wants it or not. -/
theorem accept (h : Ids s) {note : DomainEventNotification} {rest : List DomainEventNotification}
    (hflight : s.inFlight = note :: rest) (hphase : s.phase = .registered) {loading : List String}
    (hloading : loading = if shouldDeliver note.eventType subscribed then s.loading ++ [note.id]
      else s.loading) :
    Ids { s with inFlight := rest, loading } ∧
      Follows subscribed s .arrive { s with inFlight := rest, loading } := by
  obtain ⟨sender, hsender, hnote⟩ := h.sent note (by rw [hflight]; exact List.mem_cons_self)
  have hpending := h.pending
  rw [hflight, List.map_cons, List.cons_append, List.nodup_cons] at hpending
  have hsub : ∀ id ∈ loading, id ∈ s.loading ∨ id = note.id := by
    intro id hid
    rw [hloading] at hid
    split at hid
    · exact (List.mem_append.mp hid).imp_right List.mem_singleton.mp
    · exact .inl hid
  refine ⟨⟨h.events, ?_, fun note hnote => h.sent note ?_, fun id hid => ?_, h.caughtUp, h.handed,
    h.stopped, h.running⟩, Follows.of_same rfl rfl fun row hrow hwanted => ?_⟩
  · dsimp only
    rw [hloading]
    split
    · rw [← List.append_assoc, List.nodup_append]
      refine ⟨hpending.2, List.nodup_singleton _, fun id hid other hother hsame => ?_⟩
      rw [List.mem_singleton.mp hother] at hsame
      exact hpending.1 (hsame ▸ hid)
    · exact hpending.2
  · rw [hflight]
    exact List.mem_cons_of_mem _ hnote
  · rcases hsub id hid with hold | rfl
    · exact h.loading id hold
    · exact ⟨sender, hsender, by rw [← hnote]; rfl⟩
  · unfold Accounted HeardAt
    rw [hflight, List.head?_cons, Option.some.injEq, List.mem_cons]
    by_cases hsame : note = row.note
    · subst hsame
      have hin : row.id ∈ loading := by
        rw [hloading]
        exact (if_pos hwanted).symm ▸ List.mem_append_right _ List.mem_cons_self
      simp [hin, hphase]
    · have hother : row.note ≠ note := fun heq => hsame heq.symm
      have hids : row.id ≠ note.id := by
        intro heq
        have hrow' := h.eq_of_id hrow hsender (heq.trans (by rw [← hnote]; rfl))
        exact hother (hrow' ▸ hnote)
      have hiff : row.id ∈ loading ↔ row.id ∈ s.loading := by
        constructor
        · exact fun hid => (hsub row.id hid).resolve_right hids
        · intro hid
          rw [hloading]
          split
          · exact List.mem_append_left _ hid
          · exact hid
      simp only [hsame, hother, hiff, false_or, false_implies, and_true]

theorem arrive (h : Ids s) (hstep : s.arrive subscribed = some next) :
    Ids next ∧ Follows subscribed s .arrive next := by
  unfold BusWorld.arrive at hstep
  split at hstep
  · cases hstep
  · rename_i note rest hflight
    obtain rfl := Option.some.inj hstep
    by_cases hphase : s.phase = .registered
    · have heq : ({ s with inFlight := rest } : BusWorld).onNotification subscribed note.json =
          { s with
            inFlight := rest
            loading := if shouldDeliver note.eventType subscribed then s.loading ++ [note.id]
              else s.loading } := by
        simp only [BusWorld.onNotification, hphase, parseDomainEventNotification_json]
        split <;> rfl
      rw [heq]
      exact h.accept hflight hphase rfl
    · have heq : ({ s with inFlight := rest } : BusWorld).onNotification subscribed note.json =
          { s with inFlight := rest } := by
        unfold BusWorld.onNotification
        cases hcase : s.phase <;> first | rfl | exact absurd hcase hphase
      rw [heq]
      exact h.drop hflight hphase

theorem load (h : Ids s) {i : Nat} (hstep : s.load i = some next) :
    Ids next ∧ Follows subscribed s (.load i) next := by
  obtain ⟨id, hid, rfl⟩ := Option.map_eq_some_iff.mp hstep
  obtain ⟨loaded, hloaded, rfl⟩ := h.loading id (List.mem_of_getElem? hid)
  obtain ⟨hlt, hget⟩ := List.getElem?_eq_some_iff.mp hid
  have hperm : (loaded.id :: s.loading.eraseIdx i).Perm s.loading := by
    rw [← hget]
    exact List.getElem_cons_eraseIdx_perm hlt
  rw [h.lookup_id hloaded]
  have hsub : ∀ id ∈ s.loading.eraseIdx i, id ∈ s.loading := fun id hid =>
    hperm.mem_iff.mp (List.mem_cons_of_mem _ hid)
  refine ⟨⟨h.events, ?_, h.sent, fun id hid => h.loading id (hsub id hid), h.caughtUp,
    fun row hrow => ?_, h.stopped, h.running⟩, Follows.of_same rfl rfl fun row hrow _ => ?_⟩
  · have hnodup := h.pending
    rw [← (List.Perm.append_left _ hperm).nodup_iff] at hnodup
    exact hnodup.sublist (List.Sublist.append_left (List.sublist_cons_self _ _) _)
  · rcases List.mem_append.mp hrow with hold | hnew
    · exact h.handed row hold
    · rw [List.mem_singleton.mp hnew]
      exact hloaded
  · unfold Accounted HeardAt
    rw [and_true, Option.toList_some, List.mem_append, List.mem_singleton, ← hperm.mem_iff,
      List.mem_cons]
    by_cases hsame : row = loaded
    · simp [hsame]
    · have hids : row.id ≠ loaded.id := fun heq => hsame (h.eq_of_id hrow hloaded heq)
      simp only [hsame, hids, or_false, false_or]

theorem stop (h : Ids s) (hstep : s.stop = some next) :
    Ids next ∧ Follows subscribed s .stop next := by
  unfold BusWorld.stop at hstep
  split at hstep
  · rename_i hphase
    cases hstep
    have hrunning := h.running (by rw [hphase]; exact fun hsame => by cases hsame)
    have hbefore : s.beforeStop = s.events := by
      unfold BusWorld.beforeStop
      rw [hrunning]
    refine ⟨⟨h.events, h.pending, h.sent, h.loading, fun row hrow => absurd hrow List.not_mem_nil,
      h.handed, fun count hcount => ?_, fun hne => absurd rfl hne⟩, Follows.of_same rfl ?_ ?_⟩
    · exact Nat.le_of_eq (Option.some.inj hcount).symm
    · exact List.take_length.trans hbefore.symm
    · intro row _ _
      simp [Accounted, HeardAt, hphase, SubscribePhase.beforeQuery, SubscribePhase.caughtUp]
  · cases hstep

theorem step (h : Ids s) {label : BusLabel}
    (hstep : (busMachine subscribed).step s label = some next) :
    Ids next ∧ Follows subscribed s label next := by
  cases label with
  | commit rows => exact h.commit hstep
  | listen => exact h.listen hstep
  | query ids => exact h.query hstep
  | resume => exact h.resume hstep
  | arrive => exact h.arrive hstep
  | load i => exact h.load hstep
  | stop => exact h.stop hstep

end Ids

/-! ## Runs -/

/-- A run that comes to rest has handed on every event due exactly when it missed none. -/
theorem nothing_lost_iff {start final : BusWorld} (fresh : Fresh start) {labels : List BusLabel}
    (hrun : (busMachine subscribed).run start labels = some final) (settled : Settled final) :
    (∀ row, Due subscribed final row → row ∈ final.handed) ↔
      (busMachine subscribed).Meets (Heard subscribed) start labels := by
  have hiff : Covered subscribed final ↔
      (busMachine subscribed).Meets (Heard subscribed) start labels :=
    (busMachine subscribed).last_iff_meets (fun _ _ _ h hstep => (Ids.step h hstep).1)
      (fun _ _ _ h hstep hnext => (Ids.step h hstep).2.covered_back hnext)
      (fun _ _ _ h hcovered hstep => (Ids.step h hstep).2.covered_iff hcovered)
      fresh.ids fresh.covered hrun
  rw [← hiff]
  exact forall_congr' fun row => imp_congr_right fun _ => settled.accounted_iff.symm

/-- A step of the subscription: it neither publishes nor stops. -/
def BusLabel.subscribers : BusLabel → Bool
  | .commit _ | .stop => false
  | _ => true

/-- The steps of the subscription can bring it about. -/
inductive Comes (subscribed : List DomainEventType) (goal : BusWorld → Prop) : BusWorld → Prop
  | here {s : BusWorld} (h : goal s) : Comes subscribed goal s
  | step {s next : BusWorld} (label : BusLabel) (own : label.subscribers = true)
      (hstep : busStep subscribed s label = some next) (h : Comes subscribed goal next) :
      Comes subscribed goal s

namespace Comes

variable {goal further : BusWorld → Prop}

theorem trans {s : BusWorld} (h : Comes subscribed goal s)
    (hfurther : ∀ t, goal t → Comes subscribed further t) : Comes subscribed further s := by
  induction h with
  | here h => exact hfurther _ h
  | step label own hstep _ ih => exact .step label own hstep ih

theorem exists_run {s : BusWorld} (h : Comes subscribed goal s) : ∃ labels final,
    (∀ label ∈ labels, label.subscribers = true) ∧
      (busMachine subscribed).run s labels = some final ∧ goal final := by
  induction h with
  | @here s h => exact ⟨[], s, (fun _ hmem => by cases hmem), rfl, h⟩
  | step label own hstep _ ih =>
      obtain ⟨labels, final, hown, hrun, hgoal⟩ := ih
      refine ⟨label :: labels, final, List.forall_mem_cons.mpr ⟨own, hown⟩, ?_, hgoal⟩
      change (busStep subscribed _ label).bind _ = _
      rw [hstep]
      exact hrun

end Comes

/-- The listener is up, or has been stopped. -/
def Listening (s : BusWorld) : Prop := s.phase = .registered ∨ s.phase = .stopped

/-- The catch-up loop goes on to the listener. -/
theorem catchUp_ends (rows : List DomainEventRow) (s : BusWorld) :
    Comes subscribed Listening (s.catchUpFrom subscribed rows) := by
  induction rows generalizing s with
  | nil => exact .here (.inl rfl)
  | cons row rest ih =>
      rw [BusWorld.catchUpFrom]
      split
      · exact .step .resume rfl rfl
          (ih { s with phase := .handling rest, handed := s.handed ++ [row] })
      · exact ih s

/-- A notification changes what is loading, and neither the phase nor what is under way. -/
theorem onNotification_kept (subscribed : List DomainEventType) (s : BusWorld) (payload : Json) :
    (s.onNotification subscribed payload).phase = s.phase ∧
      (s.onNotification subscribed payload).inFlight = s.inFlight := by
  unfold BusWorld.onNotification
  split
  · split
    · exact ⟨rfl, rfl⟩
    · split <;> exact ⟨rfl, rfl⟩
  · exact ⟨rfl, rfl⟩

theorem arrivals_end {s : BusWorld} (hphase : Listening s) :
    Comes subscribed (fun t => Listening t ∧ t.inFlight = []) s := by
  generalize hflight : s.inFlight = notes
  induction notes generalizing s with
  | nil => exact .here ⟨hphase, hflight⟩
  | cons note rest ih =>
      obtain ⟨hsame, hrest⟩ :=
        onNotification_kept subscribed { s with inFlight := rest } note.json
      unfold Listening at hphase
      rw [← hsame] at hphase
      refine .step .arrive rfl ?_ (ih hphase hrest)
      change s.arrive subscribed = _
      rw [BusWorld.arrive, hflight]

theorem loads_end {s : BusWorld} (hphase : Listening s) (harrived : s.inFlight = []) :
    Comes subscribed Settled s := by
  generalize hloading : s.loading = ids
  induction ids generalizing s with
  | nil => exact .here ⟨hphase, harrived, hloading⟩
  | cons id rest ih =>
      refine .step (.load 0) rfl ?_ (@ih
        { s with loading := rest, handed := s.handed ++ (s.lookup id).toList } hphase harrived rfl)
      change s.load 0 = _
      rw [BusWorld.load, hloading]
      rfl

/-- The listener comes up from every phase of the subscription. -/
theorem listener_comes_up (s : BusWorld) : Comes subscribed Listening s := by
  have hlistened : ∀ world : BusWorld, world.phase = .listened →
      Comes subscribed Listening world := by
    intro world hphase
    let ids : List String := world.events.map fun row => row.id
    let rows := ids.filterMap world.lookup
    have hall : (world.events.all fun row => row.id ∈ ids ||
        world.handed.any fun handled => handled.id = row.id) = true := by
      rw [List.all_eq_true]
      intro row hrow
      simp only [Bool.or_eq_true, decide_eq_true_eq]
      exact .inl (List.mem_map_of_mem hrow)
    have hquery : world.query ids = some { world with phase := .querying rows } := by
      rw [BusWorld.query, hphase]
      exact if_pos hall
    refine .step (.query ids) rfl hquery ?_
    exact .step .resume rfl rfl (catchUp_ends rows { world with phase := .querying rows })
  have hresume : ∀ rows, s.resume subscribed = some (s.catchUpFrom subscribed rows) →
      Comes subscribed Listening s := fun rows h => .step .resume rfl h (catchUp_ends rows s)
  cases hphase : s.phase with
  | start =>
      refine .step .listen rfl ?_ (hlistened { s with phase := .listened } rfl)
      change s.listen = _
      rw [BusWorld.listen, hphase]
  | listened => exact hlistened s hphase
  | querying rows => exact hresume rows (by rw [BusWorld.resume, hphase])
  | handling rest => exact hresume rest (by rw [BusWorld.resume, hphase])
  | registered => exact .here (.inl hphase)
  | stopped => exact .here (.inr hphase)

namespace CatchUpGap

def backlog : DomainEventRow := ⟨"evt_1", "tnt_x", .paymentIntentCreated, .obj []⟩

def live : DomainEventRow := ⟨"evt_2", "tnt_x", .paymentIntentCreated, .obj []⟩

/-- The second event commits after the catch-up query, and its notification arrives while the
first is handled. -/
def handlingGap : List BusLabel :=
  [.commit [backlog], .listen, .query ["evt_1"], .commit [live], .resume, .arrive, .resume]

/-- The second event commits once the listener is there. -/
def noGap : List BusLabel :=
  [.commit [backlog], .listen, .query ["evt_1"], .resume, .resume, .commit [live], .arrive, .load 0]

theorem fresh : Fresh {} :=
  ⟨List.nodup_nil, rfl, rfl, rfl, rfl, fun _ hrow => absurd hrow List.not_mem_nil⟩

/-- The subscription is up, nothing is under way, and the event was handed to nobody. -/
theorem live_event_lost :
    ∃ final, (busMachine []).run {} handlingGap = some final ∧ Settled final ∧
      Due [] final live ∧ live ∉ final.handed := by
  refine ⟨{ events := [backlog, live], phase := .registered, handed := [backlog] }, rfl,
    ⟨.inl rfl, rfl, rfl⟩, ⟨List.mem_cons_of_mem _ List.mem_cons_self, rfl⟩, ?_⟩
  intro hmem
  have hid : "evt_2" = "evt_1" := congrArg DomainEventRow.id (List.mem_singleton.mp hmem)
  exact absurd hid (by decide)

/-- The final state of the run without a gap. -/
def caughtUpAndLive : BusWorld :=
  { events := [backlog, live], phase := .registered, handed := [backlog, live] }

theorem both_handed :
    (busMachine []).run {} noGap = some caughtUpAndLive ∧
      ∀ row, Due [] caughtUpAndLive row → row ∈ caughtUpAndLive.handed := by
  have hrun : (busMachine []).run {} noGap = some caughtUpAndLive := rfl
  refine ⟨hrun, (nothing_lost_iff fresh hrun ⟨.inl rfl, rfl, rfl⟩).mpr ?_⟩
  refine ⟨fun _ _ => trivial, fun _ h => ?_⟩
  cases h
  refine ⟨fun _ _ => trivial, fun _ h => ?_⟩
  cases h
  refine ⟨fun _ _ => trivial, fun _ h => ?_⟩
  cases h
  refine ⟨fun _ _ => trivial, fun _ h => ?_⟩
  cases h
  refine ⟨fun _ _ => trivial, fun _ h => ?_⟩
  cases h
  refine ⟨fun _ _ => trivial, fun _ h => ?_⟩
  cases h
  refine ⟨fun _ _ _ => .inl rfl, fun _ h => ?_⟩
  cases h
  refine ⟨fun _ _ => trivial, fun _ h => ?_⟩
  cases h
  trivial

end CatchUpGap

end BrainCore.Shared.Events
