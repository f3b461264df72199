import BrainCore.Foundation.Machine
import BrainCore.Proposals.Decisions

/-!
# The transitions of decisions

The row of a proposal only moves forward, under a lock that one call holds, so
that at most one decision is committed out of each status.
-/

namespace BrainCore.Proposals

open BrainCore.Audit BrainCore.Foundation

variable {sha256 : List Char → String} {hashtext : String → Int} {s next : DecisionWorld}
  {i j : Nat} {call last : DecideCall} {phase : DecidePhase}

/-! ## Keys -/

theorem ProposalDecision.text_injective {first second : ProposalDecision}
    (h : first.text = second.text) : first = second := by
  cases first <;> cases second <;> first | rfl | exact absurd h (by decide)

theorem ProposalState.text_injective {first second : ProposalState}
    (h : first.text = second.text) : first = second := by
  cases first <;> cases second <;> first | rfl | exact absurd h (by decide)

theorem ProposalDecision.text_colon (decision : ProposalDecision) :
    ∀ c ∈ decision.text.toList, decide (c ≠ ':') = true := by
  have hall : (decision.text.toList.all fun c => decide (c ≠ ':')) = true := by
    cases decision <;> rfl
  exact List.all_eq_true.mp hall

theorem toList_of_parts (first second third fourth fifth sixth : String) :
    (first ++ second ++ third ++ fourth ++ fifth ++ sixth).toList =
      first.toList ++ (second.toList ++ (third.toList ++ (fourth.toList ++
        (fifth.toList ++ sixth.toList)))) := by
  simp only [String.toList_append, List.append_assoc]

theorem key_toList (proposalId : String) (decision : ProposalDecision) (status : ProposalState) :
    (proposalDecisionAuditKey proposalId decision status).toList =
      "proposal.decided:".toList ++ (proposalId.toList ++ (":".toList ++
        (decision.text.toList ++ (":".toList ++ status.text.toList)))) :=
  toList_of_parts _ _ _ _ _ _

theorem key_injective {proposalId : String} {decision decision' : ProposalDecision}
    {status status' : ProposalState}
    (h : proposalDecisionAuditKey proposalId decision status =
      proposalDecisionAuditKey proposalId decision' status') :
    decision = decision' ∧ status = status' := by
  have hlist := congrArg String.toList h
  rw [key_toList, key_toList, List.append_cancel_left_eq, List.append_cancel_left_eq,
    List.append_cancel_left_eq] at hlist
  have htext : ∀ (d : ProposalDecision) (rest : List Char),
      (d.text.toList ++ (":".toList ++ rest)).takeWhile (fun c => decide (c ≠ ':')) =
        d.text.toList := by
    intro d rest
    have hcolon : ":".toList = [':'] := by decide
    rw [List.takeWhile_append_of_pos d.text_colon, hcolon, List.singleton_append,
      List.takeWhile_cons_of_neg (by decide), List.append_nil]
  have hdecision : decision = decision' := by
    have hsame := congrArg (List.takeWhile fun c => decide (c ≠ ':')) hlist
    rw [htext, htext] at hsame
    exact ProposalDecision.text_injective (String.toList_inj.mp hsame)
  subst hdecision
  rw [List.append_cancel_left_eq, List.append_cancel_left_eq] at hlist
  exact ⟨rfl, ProposalState.text_injective (String.toList_inj.mp hlist)⟩

theorem isDecisionKey_key (proposalId : String) (decision : ProposalDecision)
    (status : ProposalState) :
    isDecisionKey proposalId (proposalDecisionAuditKey proposalId decision status) = true := by
  have hdecision : decision ∈ ProposalDecision.all := by cases decision <;> decide
  have hstatus : status ∈ ProposalState.all := by cases status <;> decide
  exact List.any_eq_true.mpr ⟨decision, hdecision,
    List.any_eq_true.mpr ⟨status, hstatus, decide_eq_true rfl⟩⟩

/-! ## The row moves forward -/

def ProposalState.rank : ProposalState → Nat
  | pending => 0
  | approved => 1
  | reconciling => 2
  | executed => 3
  | failed => 4
  | acknowledged | rejected | undone | superseded | unknown => 5

theorem rank_lt {first second : ProposalState} (h : isValidProposalTransition first second = true) :
    first.rank < second.rank := by
  revert h
  cases first <;> cases second <;> decide

/-- A target that is not the status already is a valid transition away. -/
theorem target_valid {row : ProposalRow} {decision : ProposalDecision} {target : TargetStatus}
    (h : targetStatusForDecision row decision = .ok target) (hnew : target.idempotent = false) :
    isValidProposalTransition row.status target.status = true := by
  cases decision with
  | approve =>
      simp only [targetStatusForDecision] at h
      split at h
      · cases h
        cases hnew
      · split at h
        · cases h
        · rename_i hstatus
          cases h
          rw [Decidable.not_not.mp hstatus]
          rfl
  | reject =>
      simp only [targetStatusForDecision] at h
      split at h
      · cases h
        cases hnew
      · split at h
        · cases h
        · rename_i hstatus
          cases h
          rcases Decidable.or_iff_not_not_and_not.mpr hstatus with hpending | happroved
          · rw [hpending]
            rfl
          · rw [happroved]
            rfl
  | acknowledge =>
      simp only [targetStatusForDecision] at h
      split at h
      · cases h
        cases hnew
      · split at h
        · cases h
        · rename_i hstatus
          cases h
          rw [Decidable.not_not.mp fun hne => hstatus (.inl hne)]
          rfl
  | undo =>
      simp only [targetStatusForDecision] at h
      split at h
      · cases h
        cases hnew
      · split at h
        · cases h
        · rename_i hstatus
          cases h
          rw [Decidable.not_not.mp hstatus]
          rfl

/-! ## The lock -/

/-- What a call that holds the row knows of it, and of the event it has emitted. -/
def DecidePhase.Fits (decision : ProposalDecision) (row : ProposalRow) (audit : AuditDatabase) :
    DecidePhase → Prop
  | .locked _ before target => before = row ∧ isValidProposalTransition row.status target = true
  | .emitted _ before target event | .updated _ before target event =>
      before = row ∧ isValidProposalTransition row.status target = true ∧
        event ∈ audit.events ∧ event.tenantId = row.tenantId ∧
          event.idempotencyKey = some (proposalDecisionAuditKey row.id decision row.status)
  | .started | .resolved _ | .returned _ | .thrown _ | .crashed => True

structure DecisionSound (s : DecisionWorld) : Prop where
  lone : ∀ (i j : Nat) (call other : DecideCall), s.calls[i]? = some call → s.calls[j]? = some other →
    call.phase.held ≠ none → other.phase.held ≠ none → i = j
  fits : ∀ (i : Nat) (call : DecideCall), s.calls[i]? = some call → call.phase.Fits call.decision s.row s.audit
  passed : ∀ transition ∈ s.transitions, transition.before.rank < s.row.status.rank
  single : (s.transitions.map Transition.before).Nodup

theorem DecidePhase.fits_of_held {decision : ProposalDecision} {row : ProposalRow}
    {audit : AuditDatabase} (h : phase.held = none) : phase.Fits decision row audit := by
  cases phase with
  | started => trivial
  | resolved actor => trivial
  | returned result => trivial
  | thrown error => trivial
  | crashed => trivial
  | locked actor before target => cases h
  | emitted actor before target event => cases h
  | updated actor before target event => cases h

theorem DecidePhase.Fits.audit {decision : ProposalDecision} {row : ProposalRow}
    {audit later : AuditDatabase} (h : phase.Fits decision row audit)
    (hkept : ∀ event ∈ audit.events, event ∈ later.events) : phase.Fits decision row later := by
  cases phase with
  | started => trivial
  | resolved actor => trivial
  | returned result => trivial
  | thrown error => trivial
  | crashed => trivial
  | locked actor before target => exact h
  | emitted actor before target event =>
      obtain ⟨hrow, hvalid, hmem, hrest⟩ := h
      exact ⟨hrow, hvalid, hkept event hmem, hrest⟩
  | updated actor before target event =>
      obtain ⟨hrow, hvalid, hmem, hrest⟩ := h
      exact ⟨hrow, hvalid, hkept event hmem, hrest⟩

theorem setPhase_cases (hcall : s.calls[i]? = some call)
    (hlast : (s.setPhase i call phase).calls[j]? = some last) :
    j = i ∧ last = { call with phase } ∨ j ≠ i ∧ s.calls[j]? = some last := by
  obtain ⟨hlt, -⟩ := List.getElem?_eq_some_iff.mp hcall
  change (s.calls.set i { call with phase })[j]? = some last at hlast
  rw [List.getElem?_set] at hlast
  split at hlast
  · rename_i hij
    exact .inl ⟨hij.symm, (Option.some.inj hlast).symm⟩
  · rename_i hij
    exact .inr ⟨Ne.symm hij, hlast⟩

theorem setPhase_self (hcall : s.calls[i]? = some call) :
    (s.setPhase i call phase).calls[i]? = some { call with phase } := by
  obtain ⟨hlt, -⟩ := List.getElem?_eq_some_iff.mp hcall
  exact List.getElem?_set_self hlt

theorem setPhase_of_ne (hij : j ≠ i) : (s.setPhase i call phase).calls[j]? = s.calls[j]? :=
  List.getElem?_set_ne (Ne.symm hij)

theorem begin_cases {decision : ProposalDecision}
    (hlast : (s.calls ++ [⟨decision, .started⟩])[j]? = some last) :
    s.calls[j]? = some last ∨ last = ⟨decision, .started⟩ := by
  rcases Nat.lt_or_ge j s.calls.length with hlt | hge
  · rw [List.getElem?_append_left hlt] at hlast
    exact .inl hlast
  · rw [List.getElem?_append_right hge] at hlast
    exact .inr (List.mem_singleton.mp (List.mem_of_getElem? hlast))

theorem held_of_free (hfree : s.free = true) (hcall : s.calls[i]? = some call) :
    call.phase.held = none := by
  have hmem := List.all_eq_true.mp hfree call (List.mem_of_getElem? hcall)
  exact Option.isNone_iff_eq_none.mp hmem

namespace DecisionSound

/-- One call goes on, which holds the lock afterwards only if it did or nobody did. -/
theorem setPhase (h : DecisionSound s) (hcall : s.calls[i]? = some call)
    (hfits : phase.Fits call.decision s.row s.audit)
    (hlock : phase.held ≠ none → call.phase.held ≠ none ∨ s.free = true) :
    DecisionSound (s.setPhase i call phase) where
  lone j k first second hfirst hsecond hheld hheld' := by
    have hother : ∀ {m : Nat} {last : DecideCall}, m ≠ i → s.calls[m]? = some last →
        last.phase.held ≠ none → phase.held ≠ none → False := by
      intro m last hne hlast hheld hnew
      rcases hlock hnew with hmine | hfree
      · exact hne (h.lone m i last call hlast hcall hheld hmine)
      · exact hheld (held_of_free hfree hlast)
    rcases setPhase_cases hcall hfirst with ⟨hj, rfl⟩ | ⟨hj, hfirst⟩
    · rcases setPhase_cases hcall hsecond with ⟨hk, rfl⟩ | ⟨hk, hsecond⟩
      · exact hj.trans hk.symm
      · exact (hother hk hsecond hheld' hheld).elim
    · rcases setPhase_cases hcall hsecond with ⟨hk, rfl⟩ | ⟨hk, hsecond⟩
      · exact (hother hj hfirst hheld hheld').elim
      · exact h.lone j k first second hfirst hsecond hheld hheld'
  fits j last hlast := by
    rcases setPhase_cases hcall hlast with ⟨-, rfl⟩ | ⟨-, hlast⟩
    · exact hfits
    · exact h.fits j last hlast
  passed := h.passed
  single := h.single

theorem audit (h : DecisionSound s) {later : AuditDatabase}
    (hkept : ∀ event ∈ s.audit.events, event ∈ later.events) :
    DecisionSound { s with audit := later } where
  lone := h.lone
  fits i last hlast := (h.fits i last hlast).audit hkept
  passed := h.passed
  single := h.single

/-- The row is replaced while nobody holds it. -/
theorem other (h : DecisionSound s) (hfree : s.free = true) {row : ProposalRow}
    (hrank : s.row.status.rank ≤ row.status.rank) : DecisionSound { s with row } where
  lone := h.lone
  fits _ _ hlast := DecidePhase.fits_of_held (held_of_free hfree hlast)
  passed transition hmem := lt_of_lt_of_le (h.passed transition hmem) hrank
  single := h.single

theorem begin (h : DecisionSound s) (decision : ProposalDecision) :
    DecisionSound { s with calls := s.calls ++ [⟨decision, .started⟩] } where
  lone i j first second hfirst hsecond hheld hheld' := by
    rcases begin_cases hfirst with hfirst | rfl
    · rcases begin_cases hsecond with hsecond | rfl
      · exact h.lone i j first second hfirst hsecond hheld hheld'
      · exact absurd rfl hheld'
    · exact absurd rfl hheld
  fits i last hlast := by
    rcases begin_cases hlast with hlast | rfl
    · exact h.fits i last hlast
    · trivial
  passed := h.passed
  single := h.single

/-- The holder of the lock commits its transition. -/
theorem commit (h : DecisionSound s) {actor : ActorContext} {before : ProposalRow}
    {target : ProposalState} {event : AuditEventRow} (hcall : s.calls[i]? = some call)
    (hphase : call.phase = .updated actor before target event) (hfree : phase.held = none) :
    DecisionSound { s.setPhase i call phase with
      row := s.row.decided target call.decision event
      transitions := s.transitions ++
        [⟨call.decision, actor.memberId, before.status, target, event.id⟩] } := by
  have hfits := h.fits i call hcall
  rw [hphase] at hfits
  obtain ⟨rfl, hvalid, -⟩ := hfits
  have hheld : call.phase.held ≠ none := by
    rw [hphase]
    exact Option.some_ne_none _
  have hset := h.setPhase hcall (DecidePhase.fits_of_held hfree) fun hnew => absurd hfree hnew
  have hothers : ∀ (j : Nat) (last : DecideCall),
      (s.setPhase i call phase).calls[j]? = some last → last.phase.held = none := by
    intro j last hlast
    rcases setPhase_cases hcall hlast with ⟨-, rfl⟩ | ⟨hj, hlast⟩
    · exact hfree
    · by_contra hlock
      exact hj (h.lone j i last call hlast hcall hlock hheld)
  have hrank := rank_lt hvalid
  refine ⟨hset.lone, fun j last hlast => DecidePhase.fits_of_held (hothers j last hlast), ?_, ?_⟩
  · intro transition hmem
    rcases List.mem_append.mp hmem with hold | hnew
    · exact lt_trans (h.passed transition hold) hrank
    · cases List.mem_singleton.mp hnew
      exact hrank
  · rw [List.map_append, List.nodup_append]
    refine ⟨h.single, List.nodup_singleton _, ?_⟩
    intro first hfirst second hsecond hsame
    obtain ⟨transition, hmem, rfl⟩ := List.mem_map.mp hfirst
    cases List.mem_singleton.mp hsecond
    have hpassed := h.passed transition hmem
    rw [hsame] at hpassed
    exact lt_irrefl _ hpassed

end DecisionSound

/-! ## Steps -/

/-- The call was refused for the key of its event. -/
def DecidePhase.conflicted : DecidePhase → Bool
  | .thrown (.audit (.auditIdempotencyConflict _ _)) => true
  | _ => false

/-- The call that the label cuts short. -/
def DecisionLabel.cuts : DecisionLabel → Option Nat
  | .fail i _ | .crash i => some i
  | .begin _ | .resolve _ _ | .lock _ | .emit _ _ _ _ | .update _ | .commit _ _ | .other _
  | .otherEmit _ => none

/-- What a label does to a sound world: a call goes on with the log as it is, or emits, or commits,
or the rest of the system moves. -/
inductive Advanced (sha256 : List Char → String) (hashtext : String → Int) (s : DecisionWorld) :
    DecisionLabel → DecisionWorld → Prop
  | begun (decision : ProposalDecision) :
      Advanced sha256 hashtext s (.begin decision)
        { s with calls := s.calls ++ [⟨decision, .started⟩] }
  | moved {label : DecisionLabel} {i : Nat} {call : DecideCall} {phase : DecidePhase}
      (stored : s.calls[i]? = some call) (fits : phase.Fits call.decision s.row s.audit)
      (lock : phase.held ≠ none → call.phase.held ≠ none ∨ s.free = true)
      (pending : phase.pending = call.phase.pending) (calm : phase.conflicted = false) :
      Advanced sha256 hashtext s label (s.setPhase i call phase)
  | stopped {label : DecisionLabel} {i : Nat} {call : DecideCall} {phase : DecidePhase}
      (stored : s.calls[i]? = some call) (cut : label.cuts = some i)
      (ended : phase.ended = true) (calm : phase.conflicted = false) :
      Advanced sha256 hashtext s label (s.setPhase i call phase)
  | refused {i : Nat} {call : DecideCall} {id createdAt : String} {ending : EmitEnd}
      {actor : ActorContext} {target : ProposalState} {error : EmitError}
      (stored : s.calls[i]? = some call) (locked : call.phase = .locked actor s.row target)
      (failed : decisionEmit sha256 hashtext s.row call.decision actor target id createdAt s.audit =
        .error error) :
      Advanced sha256 hashtext s (.emit i id createdAt ending)
        (s.setPhase i call (.thrown (.audit error)))
  | emitted {i : Nat} {call : DecideCall} {id createdAt : String} {actor : ActorContext}
      {target : ProposalState} {audit : AuditDatabase} {event : AuditEventRow}
      (stored : s.calls[i]? = some call) (locked : call.phase = .locked actor s.row target)
      (done : decisionEmit sha256 hashtext s.row call.decision actor target id createdAt s.audit =
        .ok (audit, event)) :
      Advanced sha256 hashtext s (.emit i id createdAt .answered)
        { s.setPhase i call (.emitted actor s.row target event) with audit }
  | lost {i : Nat} {call : DecideCall} {id createdAt : String} {actor : ActorContext}
      {target : ProposalState} {audit : AuditDatabase} {event : AuditEventRow}
      (stored : s.calls[i]? = some call) (locked : call.phase = .locked actor s.row target)
      (done : decisionEmit sha256 hashtext s.row call.decision actor target id createdAt s.audit =
        .ok (audit, event)) :
      Advanced sha256 hashtext s (.emit i id createdAt .lost)
        { s.setPhase i call (.thrown (.unavailable "answer lost")) with audit }
  | committed {i : Nat} {call : DecideCall} {known : Bool} {actor : ActorContext}
      {before : ProposalRow} {target : ProposalState} {event : AuditEventRow} {phase : DecidePhase}
      (stored : s.calls[i]? = some call)
      (updated : call.phase = .updated actor before target event) (ended : phase.ended = true)
      (calm : phase.conflicted = false) :
      Advanced sha256 hashtext s (.commit i known)
        { s.setPhase i call phase with
          row := s.row.decided target call.decision event
          transitions := s.transitions ++
            [⟨call.decision, actor.memberId, before.status, target, event.id⟩] }
  | rewritten {row : ProposalRow} (free : s.free = true) (allowed : otherRow s.row row = true) :
      Advanced sha256 hashtext s (.other row) { s with row }
  | spared {call : EmitCall} : Advanced sha256 hashtext s (.otherEmit call) s
  | noted {call : EmitCall} {audit : AuditDatabase} {event : AuditEventRow}
      (foreign : (call.event.tenantId = s.row.tenantId &&
        call.event.idempotencyKey.any (isDecisionKey s.row.id)) = false)
      (done : (emit sha256 hashtext call).runAlone auditStore s.audit = .ok (audit, event)) :
      Advanced sha256 hashtext s (.otherEmit call) { s with audit }

/-- A status that does not allow the decision is no conflict of keys. -/
theorem invalid_of_target {row : ProposalRow} {decision : ProposalDecision} {error : DecisionError}
    (h : targetStatusForDecision row decision = .error error) :
    (DecidePhase.thrown error).conflicted = false := by
  have hinvalid : error = invalidDecision row decision := by
    cases decision with
    | approve =>
        simp only [targetStatusForDecision] at h
        split at h
        · cases h
        · split at h <;> cases h
          rfl
    | reject =>
        simp only [targetStatusForDecision] at h
        split at h
        · cases h
        · split at h <;> cases h
          rfl
    | acknowledge =>
        simp only [targetStatusForDecision] at h
        split at h
        · cases h
        · split at h <;> cases h
          rfl
    | undo =>
        simp only [targetStatusForDecision] at h
        split at h
        · cases h
        · split at h <;> cases h
          rfl
  rw [hinvalid]
  rfl

theorem openTransaction_fits (s : DecisionWorld) (decision : ProposalDecision) (actor : ActorContext) :
    (s.openTransaction decision actor).Fits decision s.row s.audit ∧
      (s.openTransaction decision actor).pending = none ∧
        (s.openTransaction decision actor).conflicted = false := by
  unfold DecisionWorld.openTransaction
  split
  · rename_i error hauthority
    refine ⟨trivial, rfl, ?_⟩
    unfold assertAgentDecisionAuthority at hauthority
    split at hauthority
    · cases hauthority
      rfl
    · split at hauthority
      · cases hauthority
        rfl
      · cases hauthority
  · split
    · rename_i error htarget
      exact ⟨trivial, rfl, invalid_of_target htarget⟩
    · rename_i target htarget
      split
      · exact ⟨trivial, rfl, rfl⟩
      · rename_i hnew
        exact ⟨⟨rfl, target_valid htarget (Bool.eq_false_of_not_eq_true hnew)⟩, rfl, rfl⟩

theorem DecisionSound.step_cases (h : DecisionSound s) {label : DecisionLabel}
    (hstep : (decisionMachine sha256 hashtext).step s label = some next) :
    Advanced sha256 hashtext s label next := by
  cases label with
  | begin decision =>
      cases hstep
      exact .begun decision
  | resolve i actor =>
      obtain ⟨call, hcall, hstep⟩ := Option.bind_eq_some_iff.mp hstep
      split at hstep
      · rename_i hphase
        cases hstep
        refine .moved hcall trivial (fun hheld => absurd rfl hheld) ?_ rfl
        rw [hphase]
        rfl
      · cases hstep
  | lock i =>
      obtain ⟨call, hcall, hstep⟩ := Option.bind_eq_some_iff.mp hstep
      split at hstep
      · rename_i actor hphase
        split at hstep
        · rename_i hfree
          cases hstep
          obtain ⟨hfits, hpending, hcalm⟩ := openTransaction_fits s call.decision actor
          refine .moved hcall hfits (fun _ => .inr hfree) ?_ hcalm
          rw [hpending, hphase]
          rfl
        · cases hstep
      · cases hstep
  | emit i id createdAt ending =>
      obtain ⟨call, hcall, hstep⟩ := Option.bind_eq_some_iff.mp hstep
      have hfits := h.fits i call hcall
      unfold DecisionWorld.emitStep at hstep
      split at hstep
      · rename_i actor before target hphase
        rw [hphase] at hfits
        obtain ⟨rfl, hvalid⟩ := hfits
        cases ending with
        | refused message =>
            cases hstep
            refine .moved hcall trivial (fun hheld => absurd rfl hheld) ?_ rfl
            rw [hphase]
            rfl
        | answered =>
            dsimp only at hstep
            split at hstep
            · rename_i error herror
              cases hstep
              exact .refused hcall hphase herror
            · rename_i audit event hdone
              cases hstep
              exact .emitted hcall hphase hdone
        | lost =>
            dsimp only at hstep
            split at hstep
            · rename_i error herror
              cases hstep
              exact .refused hcall hphase herror
            · rename_i audit event hdone
              cases hstep
              exact .lost hcall hphase hdone
      · cases hstep
  | update i =>
      obtain ⟨call, hcall, hstep⟩ := Option.bind_eq_some_iff.mp hstep
      have hfits := h.fits i call hcall
      unfold DecisionWorld.updateStep at hstep
      split at hstep
      · rename_i actor before target event hphase
        have hheld : call.phase.held ≠ none := by
          rw [hphase]
          exact Option.some_ne_none _
        rw [hphase] at hfits
        obtain ⟨rfl, hvalid, hevent⟩ := hfits
        rw [if_neg (ne_false_of_eq_true hvalid), if_neg (fun hmoved => hmoved rfl)] at hstep
        cases hstep
        refine .moved hcall ⟨rfl, hvalid, hevent⟩ (fun _ => .inl hheld) ?_ rfl
        rw [hphase]
        rfl
      · cases hstep
  | commit i known =>
      obtain ⟨call, hcall, hstep⟩ := Option.bind_eq_some_iff.mp hstep
      unfold DecisionWorld.commitStep at hstep
      split at hstep
      · rename_i actor before target event hphase
        cases hstep
        refine .committed hcall hphase ?_ ?_
        · cases known <;> rfl
        · cases known <;> rfl
      · cases hstep
  | fail i message =>
      obtain ⟨call, hcall, hstep⟩ := Option.bind_eq_some_iff.mp hstep
      split at hstep
      · cases hstep
      · cases hstep
        exact .stopped hcall rfl rfl rfl
  | crash i =>
      obtain ⟨call, hcall, hstep⟩ := Option.bind_eq_some_iff.mp hstep
      split at hstep
      · cases hstep
      · cases hstep
        exact .stopped hcall rfl rfl rfl
  | other row =>
      change (if (s.free && otherRow s.row row) = true then _ else _) = _ at hstep
      split at hstep
      · rename_i hallowed
        cases hstep
        rw [Bool.and_eq_true] at hallowed
        exact .rewritten hallowed.1 hallowed.2
      · cases hstep
  | otherEmit call =>
      change (if _ then _ else _) = _ at hstep
      split at hstep
      · cases hstep
      · rename_i hforeign
        split at hstep
        · cases hstep
          exact .spared
        · rename_i audit event hdone
          cases hstep
          exact .noted (Bool.eq_false_of_not_eq_true hforeign) hdone

theorem held_none_of_ended (h : phase.ended = true) : phase.held = none := by
  cases phase <;> first | rfl | cases h

theorem held_of_pending {event : AuditEventRow} (h : phase.pending = some event) :
    phase.held ≠ none := by
  cases phase <;> cases h <;> exact Option.some_ne_none _

theorem emitted_of_decision {before : ProposalRow} {decision : ProposalDecision}
    {actor : ActorContext} {target : ProposalState} {id createdAt : String}
    {audit later : AuditDatabase} {event : AuditEventRow}
    (h : decisionEmit sha256 hashtext before decision actor target id createdAt audit =
      .ok (later, event)) :
    Emitted ⟨decisionEvent before decision actor target, id, createdAt⟩ audit later event :=
  emitted_of_emit h

theorem otherRow_facts {row other : ProposalRow} (h : otherRow row other = true) :
    other.id = row.id ∧ other.tenantId = row.tenantId ∧ row.status.rank ≤ other.status.rank := by
  simp only [otherRow, Bool.and_eq_true, Bool.or_eq_true, decide_eq_true_eq] at h
  obtain ⟨⟨hid, htenant⟩, hsame | hvalid⟩ := h
  · exact ⟨hid, htenant, hsame ▸ Nat.le_refl _⟩
  · exact ⟨hid, htenant, Nat.le_of_lt (rank_lt hvalid)⟩

theorem Advanced.sound {label : DecisionLabel} (hstep : Advanced sha256 hashtext s label next)
    (h : DecisionSound s) : DecisionSound next := by
  cases hstep with
  | begun decision => exact h.begin decision
  | moved hcall hfits hlock => exact h.setPhase hcall hfits hlock
  | stopped hcall _ hended =>
      have hheld := held_none_of_ended hended
      exact h.setPhase hcall (DecidePhase.fits_of_held hheld) fun hnew => absurd hheld hnew
  | refused hcall => exact h.setPhase hcall trivial fun hnew => absurd rfl hnew
  | @emitted i call id createdAt actor target audit event hcall hlocked hdone =>
      have hemitted := emitted_of_decision hdone
      have hfits := h.fits i call hcall
      rw [hlocked] at hfits
      have hheld : call.phase.held ≠ none := by
        rw [hlocked]
        exact Option.some_ne_none _
      exact (h.audit fun _ => hemitted.kept).setPhase hcall
        ⟨rfl, hfits.2, hemitted.mem, hemitted.tenant_eq, hemitted.key_eq⟩ fun _ => .inl hheld
  | lost hcall _ hdone =>
      have hemitted := emitted_of_decision hdone
      exact (h.audit fun _ => hemitted.kept).setPhase hcall trivial fun hnew => absurd rfl hnew
  | committed hcall hupdated hended => exact h.commit hcall hupdated (held_none_of_ended hended)
  | rewritten hfree hallowed => exact h.other hfree (otherRow_facts hallowed).2.2
  | spared => exact h
  | noted _ hdone => exact h.audit fun _ => (emitted_of_emit hdone).kept

theorem sound_of_run {labels : List DecisionLabel} (h : DecisionSound s)
    (hrun : (decisionMachine sha256 hashtext).run s labels = some next) : DecisionSound next :=
  (decisionMachine sha256 hashtext).invariant_of_run
    (fun _ _ _ hsound hstep => (hsound.step_cases hstep).sound hsound) h hrun

end BrainCore.Proposals
