import BrainCore.Proposals.DecisionEvidence
import BrainCore.Audit.VerifyContentHash

/-!
# Decisions and their audit events

An event without its transition is left behind when a call stops between the
commit of its emit and its own commit.  Until that happens, every event of a
decision is that of a committed transition or of the call that holds the row,
and no decision is refused for an event of its key.  Afterwards the decision is
refused to every other actor.
-/

namespace BrainCore.Proposals

open BrainCore.Audit BrainCore.Foundation BrainCore.Members

variable {sha256 : List Char → String} {hashtext : String → Int} {s next : DecisionWorld}
  {i j : Nat} {call last : DecideCall} {phase : DecidePhase}

/-! ## Evidence -/

/-- Every event of a decision is that of a committed transition, or of the call that is about to
commit it, and no call has been refused for an event of its key. -/
structure Evident (s : DecisionWorld) : Prop where
  events : ∀ event ∈ s.audit.events, event.tenantId = s.row.tenantId →
    ∀ (decision : ProposalDecision) (before : ProposalState),
      event.idempotencyKey = some (proposalDecisionAuditKey s.row.id decision before) →
      (∃ transition ∈ s.transitions, transition.decision = decision ∧
        transition.before = before ∧ transition.auditId = event.id) ∨
      ∃ (i : Nat) (call : DecideCall), s.calls[i]? = some call ∧ call.phase.pending = some event
  unrefused : ∀ (i : Nat) (call : DecideCall), s.calls[i]? = some call → call.phase.conflicted = false

/-- No call is cut short between the commit of its emit and its own commit. -/
def KeepsEmitted (sha256 : List Char → String) (hashtext : String → Int) (s : DecisionWorld) :
    DecisionLabel → Prop
  | .fail i _ | .crash i => ∀ call : DecideCall, s.calls[i]? = some call → call.phase.pending = none
  | .emit i id createdAt .lost =>
      ∀ (call : DecideCall) (actor : ActorContext) (before : ProposalRow) (target : ProposalState),
        s.calls[i]? = some call → call.phase = .locked actor before target →
        ∀ audit event, decisionEmit sha256 hashtext before call.decision actor target id createdAt
          s.audit ≠ .ok (audit, event)
  | .begin _ | .resolve _ _ | .lock _ | .emit _ _ _ .answered | .emit _ _ _ (.refused _)
  | .update _ | .commit _ _ | .other _ | .otherEmit _ => True

namespace Evident

/-- While nobody else has emitted, no event of the tenant has the key of a decision out of the
current status. -/
theorem fresh (h : Evident s) (hsound : DecisionSound s) (hcall : s.calls[i]? = some call)
    (hheld : call.phase.held ≠ none) (hpending : call.phase.pending = none)
    (decision : ProposalDecision) :
    ¬ s.audit.HasKey s.row.tenantId (proposalDecisionAuditKey s.row.id decision s.row.status) := by
  rintro ⟨event, hmem, htenant, hkey⟩
  rcases h.events event hmem htenant decision s.row.status hkey with
    ⟨transition, htransition, -, hbefore, -⟩ | ⟨j, last, hlast, hevent⟩
  · have hpassed := hsound.passed transition htransition
    rw [hbefore] at hpassed
    exact lt_irrefl _ hpassed
  · obtain rfl := hsound.lone j i last call hlast hcall (held_of_pending hevent) hheld
    cases hlast.symm.trans hcall
    rw [hpending] at hevent
    cases hevent

/-- A call goes on and keeps the event it has emitted. -/
theorem setPhase (h : Evident s) (hcall : s.calls[i]? = some call)
    (hpending : ∀ event, call.phase.pending = some event → phase.pending = some event)
    (hcalm : phase.conflicted = false) : Evident (s.setPhase i call phase) where
  events event hmem htenant decision before hkey := by
    refine (h.events event hmem htenant decision before hkey).imp_right ?_
    rintro ⟨j, last, hlast, hevent⟩
    by_cases hij : j = i
    · subst hij
      cases hlast.symm.trans hcall
      exact ⟨j, _, setPhase_self hcall, hpending event hevent⟩
    · exact ⟨j, last, (setPhase_of_ne hij).trans hlast, hevent⟩
  unrefused j last hlast := by
    rcases setPhase_cases hcall hlast with ⟨-, rfl⟩ | ⟨-, hlast⟩
    · exact hcalm
    · exact h.unrefused j last hlast

theorem begin (h : Evident s) (decision : ProposalDecision) :
    Evident { s with calls := s.calls ++ [⟨decision, .started⟩] } where
  events event hmem htenant kind before hkey := by
    refine (h.events event hmem htenant kind before hkey).imp_right ?_
    rintro ⟨j, last, hlast, hevent⟩
    obtain ⟨hlt, -⟩ := List.getElem?_eq_some_iff.mp hlast
    exact ⟨j, last, (List.getElem?_append_left hlt).trans hlast, hevent⟩
  unrefused j last hlast := by
    rcases begin_cases hlast with hlast | rfl
    · exact h.unrefused j last hlast
    · rfl

/-- The log grows by an event that is of no decision, or of a call that is about to commit. -/
theorem audit (h : Evident s) {later : AuditDatabase} {row : AuditEventRow}
    (hnew : ∀ event ∈ later.events, event ∈ s.audit.events ∨ event = row)
    (hrow : row ∈ s.audit.events ∨ 
      (∃ (i : Nat) (call : DecideCall), s.calls[i]? = some call ∧ call.phase.pending = some row) ∨
      row.tenantId ≠ s.row.tenantId ∨
        ∀ decision before, row.idempotencyKey ≠
          some (proposalDecisionAuditKey s.row.id decision before)) :
    Evident { s with audit := later } where
  events event hmem htenant decision before hkey := by
    rcases hnew event hmem with hold | rfl
    · exact h.events event hold htenant decision before hkey
    · rcases hrow with hold | hcall | hforeign | hother
      · exact h.events event hold htenant decision before hkey
      · exact .inr hcall
      · exact absurd htenant hforeign
      · exact absurd hkey (hother decision before)
  unrefused := h.unrefused

/-- The row keeps its id and its tenant. -/
theorem row (h : Evident s) {row : ProposalRow} (hid : row.id = s.row.id)
    (htenant : row.tenantId = s.row.tenantId) : Evident { s with row } where
  events event hmem hof decision before hkey := by
    change event.tenantId = row.tenantId at hof
    change event.idempotencyKey = some (proposalDecisionAuditKey row.id decision before) at hkey
    rw [htenant] at hof
    rw [hid] at hkey
    exact h.events event hmem hof decision before hkey
  unrefused := h.unrefused

/-- The event of the call that commits is that of its transition. -/
theorem commit (h : Evident s) (hsound : DecisionSound s) {actor : ActorContext}
    {before : ProposalRow} {target : ProposalState} {event : AuditEventRow}
    (hcall : s.calls[i]? = some call) (hphase : call.phase = .updated actor before target event)
    (hcalm : phase.conflicted = false) :
    Evident { s.setPhase i call phase with
      row := s.row.decided target call.decision event
      transitions := s.transitions ++
        [⟨call.decision, actor.memberId, before.status, target, event.id⟩] } where
  events other hmem htenant decision status hkey := by
    rcases h.events other hmem htenant decision status hkey with
      ⟨transition, htransition, hfacts⟩ | ⟨j, last, hlast, hevent⟩
    · exact .inl ⟨transition, List.mem_append_left _ htransition, hfacts⟩
    · obtain rfl := hsound.lone j i last call hlast hcall (held_of_pending hevent) (by
        rw [hphase]
        exact Option.some_ne_none _)
      cases hlast.symm.trans hcall
      rw [hphase] at hevent
      cases hevent
      have hfits := hsound.fits j call hcall
      rw [hphase] at hfits
      obtain ⟨rfl, -, -, -, hown⟩ := hfits
      obtain ⟨rfl, rfl⟩ := key_injective (Option.some.inj (hown.symm.trans hkey))
      exact .inl ⟨_, List.mem_append_right _ List.mem_cons_self, rfl, rfl, rfl⟩
  unrefused j last hlast := by
    rcases setPhase_cases hcall hlast with ⟨-, rfl⟩ | ⟨-, hlast⟩
    · exact hcalm
    · exact h.unrefused j last hlast

end Evident

theorem conflict_of_conflicted {error : EmitError}
    (h : (DecidePhase.thrown (.audit error)).conflicted = true) :
    ∃ tenantId key, error = .auditIdempotencyConflict tenantId key := by
  cases error with
  | auditIdempotencyConflict tenantId key => exact ⟨tenantId, key, rfl⟩
  | _ => cases h

theorem Advanced.evident {label : DecisionLabel} (hstep : Advanced sha256 hashtext s label next)
    (hsound : DecisionSound s) (hguard : KeepsEmitted sha256 hashtext s label) (h : Evident s) :
    Evident next := by
  cases hstep with
  | begun decision => exact h.begin decision
  | moved hcall _ _ hpending hcalm =>
      exact h.setPhase hcall (fun event hevent => hpending.trans hevent) hcalm
  | @stopped label i call phase hcall hcut hended hcalm =>
      have hnone : call.phase.pending = none := by
        cases label with
        | fail j message =>
            cases hcut
            exact hguard call hcall
        | crash j =>
            cases hcut
            exact hguard call hcall
        | _ => cases hcut
      refine h.setPhase hcall (fun event hevent => ?_) hcalm
      rw [hnone] at hevent
      cases hevent
  | @refused i call id createdAt ending actor target error hcall hlocked hfailed =>
      refine h.setPhase hcall (fun event hevent => ?_) ?_
      · rw [hlocked] at hevent
        cases hevent
      · refine Bool.eq_false_of_not_eq_true fun hconflict => ?_
        obtain ⟨tenantId, key, rfl⟩ := conflict_of_conflicted hconflict
        obtain ⟨name, hname, hkey⟩ := hasKey_of_conflict hfailed
        cases hname
        refine h.fresh hsound hcall ?_ ?_ call.decision hkey
        · rw [hlocked]
          exact Option.some_ne_none _
        · rw [hlocked]
          rfl
  | @emitted i call id createdAt actor target audit event hcall hlocked hdone =>
      have hemitted := emitted_of_decision hdone
      have hset : Evident (s.setPhase i call (.emitted actor s.row target event)) := by
        refine h.setPhase hcall (fun other hother => ?_) rfl
        rw [hlocked] at hother
        cases hother
      exact hset.audit (fun _ => hemitted.mem_or_new)
        (.inr (.inl ⟨i, _, setPhase_self hcall, rfl⟩))
  | lost hcall hlocked hdone => exact absurd hdone (hguard _ _ _ _ hcall hlocked _ _)
  | committed hcall hupdated _ hcalm => exact h.commit hsound hcall hupdated hcalm
  | rewritten _ hallowed =>
      obtain ⟨hid, htenant, -⟩ := otherRow_facts hallowed
      exact h.row hid htenant
  | spared => exact h
  | @noted call audit event hforeign hdone =>
      have hemitted := emitted_of_emit hdone
      refine h.audit (fun _ => hemitted.mem_or_new) ?_
      by_cases htenant : call.event.tenantId = s.row.tenantId
      · refine .inr (.inr (.inr fun decision before hkey => ?_))
        rw [hemitted.key_eq] at hkey
        rw [decide_eq_true htenant, hkey, Option.any_some, isDecisionKey_key] at hforeign
        cases hforeign
      · exact .inr (.inr (.inl fun hsame => htenant (hemitted.tenant_eq.symm.trans hsame)))

/-! ## Runs -/

/-- Nothing has been decided yet. -/
structure Undecided (s : DecisionWorld) : Prop where
  calls : s.calls = []
  transitions : s.transitions = []
  keys : ∀ event ∈ s.audit.events, event.tenantId = s.row.tenantId →
    ∀ decision before,
      event.idempotencyKey ≠ some (proposalDecisionAuditKey s.row.id decision before)

theorem Undecided.sound (h : Undecided s) : DecisionSound s where
  lone i j call last hcall := by
    rw [h.calls] at hcall
    cases hcall
  fits i call hcall := by
    rw [h.calls] at hcall
    cases hcall
  passed transition hmem := by
    rw [h.transitions] at hmem
    cases hmem
  single := by
    rw [h.transitions]
    exact List.nodup_nil

theorem Undecided.evident (h : Undecided s) : Evident s where
  events event hmem htenant decision before hkey :=
    absurd hkey (h.keys event hmem htenant decision before)
  unrefused i call hcall := by
    rw [h.calls] at hcall
    cases hcall

/-- The law of decisions over runs: at most one decision is committed out of each status, and while
no call is cut short between the commit of its emit and its own, events and transitions agree and no
decision is refused for an event of its key. -/
theorem decisions_agree_with_events {labels : List DecisionLabel} (hstart : Undecided s)
    (hrun : (decisionMachine sha256 hashtext).run s labels = some next) :
    (next.transitions.map Transition.before).Nodup ∧
      ((decisionMachine sha256 hashtext).Meets (KeepsEmitted sha256 hashtext) s labels →
        Evident next) := by
  refine ⟨(sound_of_run hstart.sound hrun).single, fun hmeets => ?_⟩
  have hkeeps : (decisionMachine sha256 hashtext).Keeps (KeepsEmitted sha256 hashtext)
      (fun state => DecisionSound state ∧ Evident state) := by
    intro state label after hguard hstate hstep
    have hadvanced := hstate.1.step_cases hstep
    exact ⟨hadvanced.sound hstate.1, hadvanced.evident hstate.1 hguard hstate.2⟩
  exact ((decisionMachine sha256 hashtext).invariant_of_meets hkeeps
    ⟨hstart.sound, hstart.evident⟩ hmeets hrun).2

namespace CommittedApproval

def proposal : ProposalRow where
  id := "prop_1"
  tenantId := "tnt_1"
  proposingAgent := "payment_agent"
  action := []
  status := .pending
  policyDecision := "confirm"
  requiredApprovers := []
  approversSigned := []

def actor (memberId : String) : ActorContext := ⟨memberId, .admin, true, .session⟩

def start : DecisionWorld := { row := proposal }

theorem undecided_start : Undecided start where
  calls := rfl
  transitions := rfl
  keys event hmem := by cases hmem

def timestamp : String := "2026-01-01T00:00:00.000Z"

/-- An approval is committed after another call has crashed. -/
def labels : List DecisionLabel :=
  [.begin .approve, .begin .reject, .crash 1, .resolve 0 (actor "alice"), .lock 0,
    .emit 0 "evt_1" timestamp .answered, .update 0, .commit 0 false]

theorem keepsEmitted : (decisionMachine String.ofList fun _ => 0).Meets
    (KeepsEmitted String.ofList fun _ => 0) start labels := by
  refine ⟨trivial, fun _ hstep => ⟨trivial, fun _ hstep' => ?_⟩⟩
  cases hstep
  cases hstep'
  refine ⟨fun call hcall => ?_, fun _ _ => ?_⟩
  · cases hcall
    rfl
  · exact ⟨trivial, fun _ _ => ⟨trivial, fun _ _ => ⟨trivial, fun _ _ =>
      ⟨trivial, fun _ _ => ⟨trivial, fun _ _ => trivial⟩⟩⟩⟩⟩

theorem agreed : ∃ next, (decisionMachine String.ofList fun _ => 0).run start labels = some next ∧
    (next.transitions.map Transition.before).Nodup ∧ Evident next := by
  obtain ⟨next, hrun⟩ : ∃ next,
      (decisionMachine String.ofList fun _ => 0).run start labels = some next := ⟨_, rfl⟩
  have hlaw := decisions_agree_with_events undecided_start hrun
  exact ⟨next, hrun, hlaw.1, hlaw.2 keepsEmitted⟩

end CommittedApproval

/-! ## Refusals -/

/-- An event that is left behind refuses the decision to every other actor. -/
theorem refused_to_others (hsha : Function.Injective sha256) {before : ProposalRow}
    {decision : ProposalDecision} {actor other : ActorContext} {target : ProposalState}
    {id createdAt id' createdAt' : String} {prev : Option String} {hit : AuditEventRow}
    {audit : AuditDatabase}
    (hstored : auditEventRow sha256
      (normalizeAuditEventInput (decisionEvent before decision actor target)) id createdAt prev =
        .ok hit)
    (hfind : (audit.events.find? fun row => row.tenantId = before.tenantId ∧
      row.idempotencyKey = some (proposalDecisionAuditKey before.id decision before.status)) =
        some hit)
    (hactor : actor.memberId ≠ other.memberId) :
    decisionEmit sha256 hashtext before decision other target id' createdAt' audit =
      .error (.auditIdempotencyConflict before.tenantId
        (proposalDecisionAuditKey before.id decision before.status)) := by
  obtain ⟨hversion, hhash⟩ : hit.hashSchemaVersion = AUDIT_HASH_SCHEMA_VERSION ∧
      hashEvent sha256
        { event := normalizeAuditEventInput (decisionEvent before decision other target),
          id := hit.id, createdAt := hit.createdAt, prevEventHash := hit.prevEventHash } ≠
        hit.eventHash := by
    unfold auditEventRow at hstored
    obtain ⟨_, _, hstored⟩ := bind_ok.mp hstored
    obtain ⟨_, _, hstored⟩ := bind_ok.mp hstored
    obtain ⟨_, _, hstored⟩ := bind_ok.mp hstored
    obtain ⟨_, _, hstored⟩ := bind_ok.mp hstored
    cases hstored
    exact ⟨rfl, fun hsame => hactor (actor_of_canonicalize (hsha hsame)).symm⟩
  refine refused_of_conflicts rfl hfind ?_
  rw [conflicts, if_pos hversion]
  exact congrArg Except.ok (bne_iff_ne.mpr hhash)

namespace FailedCommit

open CommittedApproval hiding labels

/-- The commit of the approval by one member fails, and another is about to emit. -/
def labels : List DecisionLabel :=
  [.begin .approve, .resolve 0 (actor "alice"), .lock 0, .emit 0 "evt_1" timestamp .answered,
    .update 0, .fail 0 "commit failed", .begin .approve, .resolve 1 (actor "bob"), .lock 1]

section Cut

variable (sha256 hashtext)

/-- The proposal is pending, with the event of an approval that was not committed. -/
def cut : DecisionWorld := ((decisionMachine sha256 hashtext).run start labels).getD start

theorem run_cut : (decisionMachine sha256 hashtext).run start labels = some (cut sha256 hashtext) :=
  rfl

end Cut

theorem emit_refused (hsha : Function.Injective sha256) :
    decisionEmit sha256 hashtext proposal .approve (actor "bob") .approved "evt_2" timestamp
      (cut sha256 hashtext).audit =
      .error (.auditIdempotencyConflict "tnt_1"
        (proposalDecisionAuditKey "prop_1" .approve .pending)) := by
  have hactor : (actor "alice").memberId ≠ (actor "bob").memberId := by decide
  exact refused_to_others hsha rfl rfl hactor

/-- Where the second approval ends. -/
def refusal : DecidePhase :=
  .thrown (.audit (.auditIdempotencyConflict "tnt_1"
    (proposalDecisionAuditKey "prop_1" .approve .pending)))

theorem step_refused (hsha : Function.Injective sha256) :
    (decisionMachine sha256 hashtext).step (cut sha256 hashtext)
      (.emit 1 "evt_2" timestamp .answered) =
        some ((cut sha256 hashtext).setPhase 1
          ⟨.approve, .locked (actor "bob") proposal .approved⟩ refusal) := by
  change DecisionWorld.emitStep sha256 hashtext (cut sha256 hashtext) 1
    ⟨.approve, .locked (actor "bob") proposal .approved⟩ "evt_2" timestamp .answered = _
  unfold DecisionWorld.emitStep
  dsimp only
  rw [emit_refused hsha]
  rfl

theorem cut_facts : (cut sha256 hashtext).row = proposal ∧ (cut sha256 hashtext).transitions = [] ∧
    (cut sha256 hashtext).calls = [⟨.approve, .thrown (.unavailable "commit failed")⟩,
      ⟨.approve, .locked (actor "bob") proposal .approved⟩] ∧
    ∃ event ∈ (cut sha256 hashtext).audit.events, event.tenantId = "tnt_1" ∧
      event.idempotencyKey = some (proposalDecisionAuditKey "prop_1" .approve .pending) :=
  ⟨rfl, rfl, rfl, _, List.mem_cons_self, rfl, rfl⟩

/-- An event without a transition, which refuses the approval of another member. -/
theorem approval_refused : ∃ final,
    (decisionMachine String.ofList fun _ => 0).run start
      (labels ++ [.emit 1 "evt_2" timestamp .answered]) = some final ∧
    final.row.status = .pending ∧ final.transitions = [] ∧
    (∃ event ∈ final.audit.events, event.tenantId = final.row.tenantId ∧
      event.idempotencyKey = some (proposalDecisionAuditKey final.row.id .approve .pending)) ∧
    (∀ call ∈ final.calls, call.phase.ended = true) ∧
    ∃ call, final.calls[1]? = some call ∧ call.phase.conflicted = true := by
  have hsha : Function.Injective String.ofList := fun _ _ h => String.ofList_injective h
  have hstep := @step_refused String.ofList (fun _ => 0) hsha
  obtain ⟨hrow, htransitions, hcalls, hevent⟩ := @cut_facts String.ofList fun _ => 0
  have hset : ((cut String.ofList fun _ => 0).setPhase 1
      ⟨.approve, .locked (actor "bob") proposal .approved⟩ refusal).calls =
        [⟨.approve, .thrown (.unavailable "commit failed")⟩, ⟨.approve, refusal⟩] := by
    rw [DecisionWorld.setPhase, hcalls]
    rfl
  refine ⟨_, Machine.run_snoc _ (run_cut String.ofList fun _ => 0) hstep,
    congrArg ProposalRow.status hrow, htransitions, ?_, ?_, ?_⟩
  · change ∃ event ∈ (cut String.ofList fun _ => 0).audit.events,
      event.tenantId = (cut String.ofList fun _ => 0).row.tenantId ∧ event.idempotencyKey =
        some (proposalDecisionAuditKey (cut String.ofList fun _ => 0).row.id .approve .pending)
    rw [hrow]
    exact hevent
  · rw [hset]
    intro call hmem
    rcases List.mem_cons.mp hmem with rfl | hmem
    · rfl
    · obtain rfl := List.mem_singleton.mp hmem
      rfl
  · rw [hset]
    exact ⟨_, rfl, rfl⟩

end FailedCommit

end BrainCore.Proposals
