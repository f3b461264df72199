import BrainCore.Members.AuthorizeApproval
import BrainCore.Policy.Evaluability
import BrainCore.Shared.DecimalAgreement

/-!
# The policy engine of the surfaces

`services/surface-gateway/src/services.ts`: before a decision made on a surface
is recorded, the active policy is evaluated again, once for each role the actor
holds.  The action handed to the policy VM carries the proposal's number of
minor units, while the bounds of a policy are in major units.
-/

namespace BrainCore.Surfaces

open BrainCore.Foundation BrainCore.Shared BrainCore.Policy BrainCore.Members

inductive Severity where
  | info
  | warning
  | critical
deriving DecidableEq

inductive SurfacePayeeKind where
  | vendor
  | employee
  | payroll
  | other
deriving DecidableEq

structure Payee where
  kind : SurfacePayeeKind
  email : Option String
deriving DecidableEq

/-- `action.amount`: a currency and a whole number of minor units. -/
structure MinorAmount where
  currency : String
  minorUnits : Int
deriving DecidableEq

/-- What the engine reads of a proposal. -/
structure SurfaceProposal where
  severity : Severity
  handoff : String
  amount : Option MinorAmount
  payee : Option Payee
  approverRoles : List String
deriving DecidableEq

structure ResolvedActor where
  roles : List String
  email : Option String
deriving DecidableEq

inductive TerminalDecision where
  | approved
  | rejected
deriving DecidableEq

structure EngineAnswer where
  allowed : Bool
  reason : Option String := none
  approverRole : Option String := none
deriving DecidableEq

/-! ## The engine -/

/-- `String(amount.minorUnits)`. -/
def surfaceAmount (proposal : SurfaceProposal) : Option Amount :=
  proposal.amount.map fun amount => ⟨amount.currency, String.ofList (intText amount.minorUnits)⟩

def surfaceRiskLevel (proposal : SurfaceProposal) : RiskLevel :=
  match proposal.severity with
  | .critical => .critical
  | .warning => .medium
  | .info => .low

/-- The action a role is evaluated on, with the amount as the caller states it. -/
def surfaceAction (now : Instant) (proposal : SurfaceProposal) (amount : Option Amount)
    (role : Option String) : Action where
  kind := .agentAction
  counterpartyId := none
  amount := amount
  agentRole := role
  timestamp := now
  actionId := some (some proposal.handoff)
  riskLevel := some (surfaceRiskLevel proposal)

/-- The loop over the candidates: the first decision that does not reject, else the first. -/
def firstNotRejected (decide : Option String → Except String Decision) :
    Option Decision → List (Option String) → Except String (Option Decision)
  | first, [] => .ok first
  | first, role :: rest => do
      let decision ← decide role
      if decision.outcome ≠ .reject then pure (some decision)
      else firstNotRejected decide (first.or (some decision)) rest

def evaluateForActorRoles (now : Instant) (policy : PolicyDocument) (proposal : SurfaceProposal)
    (roles : List String) : Except String (Option Decision) :=
  let candidates := if roles = [] then [none] else roles.map some
  firstNotRejected
    (fun role => evaluate policy (surfaceAction now proposal (surfaceAmount proposal) role))
    none candidates

/-- `signer` stands for any role held. -/
def firstMatchingRole (actorRoles requiredRoles : List String) : Option String :=
  if "signer" ∈ requiredRoles then actorRoles.head?
  else actorRoles.find? fun role => role ∈ requiredRoles

def evaluateSelfApproval (payee : Option Payee) (actor : ResolvedActor) : Bool :=
  match payee with
  | none => true
  | some payee =>
      let mustResolve :=
        payee.kind = .employee ∨ payee.kind = .payroll ∨ payee.kind = .other
      match normalizeApprovalEmail payee.email, normalizeApprovalEmail actor.email with
      | some payeeEmail, some actorEmail => payeeEmail ≠ actorEmail
      | _, _ => ¬mustResolve

/-- The approvers the decision asks for, else those of the proposal. -/
def requiredRoles (proposal : SurfaceProposal) (decision : Decision) : List String :=
  if decision.requiredApprovers = [] then proposal.approverRoles else decision.requiredApprovers

/-- What is answered on the decision the active policy reached, if there is one. -/
def answerOn (proposal : SurfaceProposal) (actor : ResolvedActor) (decision : TerminalDecision) :
    Option Decision → EngineAnswer
  | none => { allowed := false, reason := some "No active tenant policy" }
  | some activeDecision =>
      if activeDecision.outcome = .reject then
        { allowed := false, reason := some "Current tenant policy rejects this action" }
      else
        match firstMatchingRole actor.roles (requiredRoles proposal activeDecision) with
        | none =>
            { allowed := false, reason := some "Actor lacks an approver role for this proposal" }
        | some actorRole =>
            if decision = .approved ∧ evaluateSelfApproval proposal.payee actor = false then
              { allowed := false, reason := some "self_approval_blocked" }
            else { allowed := true, approverRole := some actorRole }

def evaluateDecision (now : Instant) (active : Option PolicyDocument) (proposal : SurfaceProposal)
    (actor : ResolvedActor) (decision : TerminalDecision) : Except String EngineAnswer :=
  match active with
  | none => .ok (answerOn proposal actor decision none)
  | some policy =>
      (evaluateForActorRoles now policy proposal actor.roles).map
        (answerOn proposal actor decision)

/-! ## The reading of the policy -/

/-- The exact decimal number of major units of an amount in hundredths. -/
def majorUnits (minorUnits : Int) : DecimalString := decimalOfUnits (minorUnits * 10 ^ 16)

def majorAmount (proposal : SurfaceProposal) : Option Amount :=
  proposal.amount.map fun amount => ⟨amount.currency, (majorUnits amount.minorUnits).text⟩

/-- The actor holds a role the decision asks for; `signer` asks for any. -/
def Entitled (proposal : SurfaceProposal) (roles : List String) (decision : Decision) : Prop :=
  ∃ role ∈ roles, role ∈ requiredRoles proposal decision ∨
    "signer" ∈ requiredRoles proposal decision

/-- The VM reaches the decision for the role, and does not reject. -/
def LetsThrough (now : Instant) (policy : PolicyDocument) (proposal : SurfaceProposal)
    (amount : Option Amount) (role : String) (decision : Decision) : Prop :=
  evaluate policy (surfaceAction now proposal amount (some role)) = .ok decision ∧
    decision.outcome ≠ .reject

/-- What the policy says of an approval: some role held is let through at the major units, and
its decision asks for a role held. -/
def PolicyApproves (now : Instant) (policy : PolicyDocument) (proposal : SurfaceProposal)
    (roles : List String) : Prop :=
  ∃ role ∈ roles, ∃ decision, LetsThrough now policy proposal (majorAmount proposal) role decision ∧
    Entitled proposal roles decision

/-- The engine lets the actor approve. -/
def Allows (now : Instant) (policy : PolicyDocument) (proposal : SurfaceProposal)
    (actor : ResolvedActor) : Prop :=
  ∃ answer, evaluateDecision now (some policy) proposal actor .approved = .ok answer ∧
    answer.allowed = true

/-! ## What the engine computes -/

theorem entitled_perm {proposal : SurfaceProposal} {roles roles' : List String}
    {decision : Decision} (same : roles'.Perm roles) :
    Entitled proposal roles' decision ↔ Entitled proposal roles decision := by
  constructor
  · rintro ⟨role, hmem, hasked⟩
    exact ⟨role, same.mem_iff.mp hmem, hasked⟩
  · rintro ⟨role, hmem, hasked⟩
    exact ⟨role, same.mem_iff.mpr hmem, hasked⟩

theorem policyApproves_perm {now : Instant} {policy : PolicyDocument} {proposal : SurfaceProposal}
    {roles roles' : List String} (same : roles'.Perm roles) :
    PolicyApproves now policy proposal roles' ↔ PolicyApproves now policy proposal roles := by
  constructor
  · rintro ⟨role, hmem, decision, hlets, hentitled⟩
    exact ⟨role, same.mem_iff.mp hmem, decision, hlets, (entitled_perm same).mp hentitled⟩
  · rintro ⟨role, hmem, decision, hlets, hentitled⟩
    exact ⟨role, same.mem_iff.mpr hmem, decision, hlets, (entitled_perm same).mpr hentitled⟩

theorem firstMatchingRole_isSome_iff {proposal : SurfaceProposal} {roles : List String}
    {decision : Decision} :
    (∃ role, firstMatchingRole roles (requiredRoles proposal decision) = some role) ↔
      Entitled proposal roles decision := by
  unfold firstMatchingRole Entitled
  by_cases slot : "signer" ∈ requiredRoles proposal decision
  · rw [if_pos slot]
    cases roles with
    | nil => simp
    | cons role rest => exact ⟨fun _ => ⟨role, List.mem_cons_self, .inr slot⟩, fun _ => ⟨role, rfl⟩⟩
  · rw [if_neg slot]
    constructor
    · rintro ⟨role, hfound⟩
      have hasked := List.find?_some hfound
      exact ⟨role, List.mem_of_find?_eq_some hfound, .inl (by simpa using hasked)⟩
    · rintro ⟨role, hmem, hasked⟩
      have hrole : role ∈ requiredRoles proposal decision := hasked.resolve_right slot
      cases hfound : roles.find? fun role => role ∈ requiredRoles proposal decision with
      | none => exact absurd hrole (by simpa using List.find?_eq_none.mp hfound role hmem)
      | some found => exact ⟨found, rfl⟩

/-- Over total decisions the loop returns the first that does not reject, else the first. -/
theorem firstNotRejected_eq {decide : Option String → Except String Decision}
    {reached : Option String → Decision} (total : ∀ role, decide role = .ok (reached role))
    (first : Option Decision) (candidates : List (Option String)) :
    firstNotRejected decide first candidates =
      .ok (((candidates.map reached).find? (·.outcome ≠ .reject)).or
        (first.or (candidates.map reached).head?)) := by
  induction candidates generalizing first with
  | nil => cases first <;> rfl
  | cons role rest ih =>
      rw [firstNotRejected, total role]
      by_cases rejects : (reached role).outcome = .reject
      · have hrest := ih (first.or (some (reached role)))
        cases first <;> simpa [bind, Except.bind, rejects] using hrest
      · simp [bind, Except.bind, pure, Except.pure, rejects]

/-- The sum of a window without prior spend can be read. -/
theorem spendInWindowPassed_ok {action : Action} {amount : DecimalString} {currency : String}
    (hamount : action.amount = some ⟨currency, amount.text⟩)
    (hprior : ∀ window, action.spendInWindow window = none) (c : SpendWindowConstraint) :
    ∃ result, spendInWindowPassed action c = .ok result := by
  have hzero : priorSpend action c = plainZero.text := by
    rw [priorSpend, hprior]
    rfl
  rw [spendInWindowPassed, hamount]
  dsimp only
  split
  · rw [hzero, addDecimal_text]
    exact ⟨_, rfl⟩
  · exact ⟨_, rfl⟩

/-- The whole number of minor units is a string of the amount grammar. -/
theorem intText_wellFormed (n : Int) : amountValueRe (String.ofList (intText n)) = true := by
  have hnone : IsDigits [] := by simp [IsDigits]
  have h := DecimalString.wellFormed_of_parts (decide (n < 0)) (isDigits_toDigits n.natAbs)
    Nat.toDigits_ne_nil hnone (by simp)
  simpa [intText, dotted] using h

def minorUnits (n : Int) : DecimalString := ⟨String.ofList (intText n), intText_wellFormed n⟩

/-- An amount of the grammar is evaluated without a throw. -/
theorem evaluate_total (now : Instant) (policy : PolicyDocument) (proposal : SurfaceProposal)
    (text : Int → DecimalString) (role : Option String) :
    ∃ decision, evaluate policy (surfaceAction now proposal
      (proposal.amount.map fun amount => ⟨amount.currency, (text amount.minorUnits).text⟩) role) =
        .ok decision := by
  refine evaluateRules_ok_iff.mpr fun rule _ _ c _ => spendInWindowPassed_ok_iff.mp ?_
  cases hamount : proposal.amount with
  | none => exact ⟨false, rfl⟩
  | some amount => exact spendInWindowPassed_ok rfl (fun _ => rfl) c

/-- An approval is allowed on a decision that does not reject and asks for a role held. -/
theorem answerOn_allowed_iff {proposal : SurfaceProposal} {actor : ResolvedActor}
    (notSelf : evaluateSelfApproval proposal.payee actor = true) (found : Option Decision) :
    (answerOn proposal actor .approved found).allowed = true ↔
      ∃ decision, found = some decision ∧ decision.outcome ≠ .reject ∧
        Entitled proposal actor.roles decision := by
  cases found with
  | none => simp [answerOn]
  | some decision =>
      rw [answerOn]
      by_cases rejects : decision.outcome = .reject
      · simp [rejects]
      · rw [if_neg rejects]
        simp only [Option.some.injEq, exists_eq_left', ← firstMatchingRole_isSome_iff]
        cases firstMatchingRole actor.roles (requiredRoles proposal decision) with
        | none => simp
        | some role => simp [notSelf, rejects]

theorem not_entitled_nil (proposal : SurfaceProposal) (decision : Decision) :
    ¬Entitled proposal [] decision := by
  rintro ⟨role, hmem, -⟩
  cases hmem

/-- The engine allows an approval when the first decision that does not reject, in the order of
the roles, asks for a role the actor holds. -/
theorem allows_iff {now : Instant} {policy : PolicyDocument} {proposal : SurfaceProposal}
    {actor : ResolvedActor} {reached : Option String → Decision}
    (total : ∀ role, evaluate policy
      (surfaceAction now proposal (surfaceAmount proposal) role) = .ok (reached role))
    (notSelf : evaluateSelfApproval proposal.payee actor = true) :
    Allows now policy proposal actor ↔
      ∃ decision, ((actor.roles.map fun role => reached (some role)).find?
          (·.outcome ≠ .reject)) = some decision ∧ Entitled proposal actor.roles decision := by
  have hrun : evaluateForActorRoles now policy proposal actor.roles = _ :=
    firstNotRejected_eq total none (if actor.roles = [] then [none] else actor.roles.map some)
  have hanswer : ∀ answer, evaluateDecision now (some policy) proposal actor .approved = .ok answer ↔
      answerOn proposal actor .approved
        ((((if actor.roles = [] then [none] else actor.roles.map some).map reached).find?
          (·.outcome ≠ .reject)).or
          (none.or ((if actor.roles = [] then [none] else actor.roles.map some).map reached).head?)) =
        answer := by
    intro answer
    rw [evaluateDecision, hrun]
    exact ⟨Except.ok.inj, congrArg Except.ok⟩
  simp only [Allows, hanswer, exists_eq_left', answerOn_allowed_iff notSelf, Option.none_or]
  by_cases roleless : actor.roles = []
  · -- an actor without a role is not asked for
    simp only [roleless, not_entitled_nil, and_false, exists_false]
  · have hmap : (actor.roles.map some).map reached =
        actor.roles.map fun role => reached (some role) := List.map_map
    rw [if_neg roleless, hmap]
    cases hfound : (actor.roles.map fun role => reached (some role)).find?
        (·.outcome ≠ .reject) with
    | some decision =>
        have houtcome := List.find?_some hfound
        simp only [Option.some_or, Option.some.injEq, exists_eq_left']
        exact ⟨And.right, fun h => ⟨by simpa using houtcome, h⟩⟩
    | none =>
        -- each decision rejects, the first among them
        simp only [Option.none_or, reduceCtorEq, false_and, exists_false, iff_false]
        rintro ⟨decision, hhead, houtcome, -⟩
        have hrejects := List.find?_eq_none.mp hfound decision (List.mem_of_mem_head? hhead)
        exact absurd houtcome (by simpa using hrejects)

/-- What the engine needs to answer as the policy does, whatever order the roles are listed in:
each role let through at the number of minor units is asked for exactly when the policy approves,
and some role is let through when it does. -/
def RolesAgree (now : Instant) (policy : PolicyDocument) (proposal : SurfaceProposal)
    (roles : List String) : Prop :=
  (∀ role ∈ roles, ∀ decision,
      LetsThrough now policy proposal (surfaceAmount proposal) role decision →
        (Entitled proposal roles decision ↔ PolicyApproves now policy proposal roles)) ∧
    (PolicyApproves now policy proposal roles → ∃ role ∈ roles, ∃ decision,
      LetsThrough now policy proposal (surfaceAmount proposal) role decision)

/-- The engine answers as the policy does under every order of the roles exactly when the roles
agree. -/
theorem recheck_iff_rolesAgree (now : Instant) (policy : PolicyDocument)
    (proposal : SurfaceProposal) (actor : ResolvedActor)
    (notSelf : evaluateSelfApproval proposal.payee actor = true) :
    (∀ roles : List String, roles.Perm actor.roles →
      (Allows now policy proposal { actor with roles } ↔
        PolicyApproves now policy proposal roles)) ↔
      RolesAgree now policy proposal actor.roles := by
  choose reached total using evaluate_total now policy proposal minorUnits
  have hallows : ∀ roles : List String, Allows now policy proposal { actor with roles } ↔
      ∃ decision, ((roles.map fun role => reached (some role)).find?
        (·.outcome ≠ .reject)) = some decision ∧ Entitled proposal roles decision :=
    fun roles => allows_iff total notSelf
  have hlets : ∀ role decision,
      LetsThrough now policy proposal (surfaceAmount proposal) role decision ↔
        decision = reached (some role) ∧ (reached (some role)).outcome ≠ .reject := by
    intro role decision
    constructor
    · rintro ⟨hdecision, houtcome⟩
      obtain rfl := Except.ok.inj (hdecision.symm.trans (total (some role)))
      exact ⟨rfl, houtcome⟩
    · rintro ⟨rfl, houtcome⟩
      exact ⟨total (some role), houtcome⟩
  constructor
  · intro h
    refine ⟨fun role hmem decision hthrough => ?_, fun happroves => ?_⟩
    · -- list the role first: its decision is the one the engine goes by
      obtain ⟨rfl, houtcome⟩ := (hlets role decision).mp hthrough
      have order : (role :: actor.roles.erase role).Perm actor.roles :=
        (List.perm_cons_erase hmem).symm
      have hfirst : (((role :: actor.roles.erase role).map fun role => reached (some role)).find?
          (·.outcome ≠ .reject)) = some (reached (some role)) := by
        simp [houtcome]
      rw [← policyApproves_perm order, ← h _ order, hallows, ← entitled_perm order]
      constructor
      · exact fun hentitled => ⟨_, hfirst, hentitled⟩
      · rintro ⟨decision, hfound, hentitled⟩
        rw [hfirst] at hfound
        exact Option.some.inj hfound ▸ hentitled
    · obtain ⟨decision, hfound, -⟩ :=
        (hallows actor.roles).mp ((h actor.roles (List.Perm.refl _)).mpr happroves)
      obtain ⟨role, hmem, rfl⟩ := List.mem_map.mp (List.mem_of_find?_eq_some hfound)
      have houtcome := List.find?_some hfound
      exact ⟨role, hmem, _, (hlets role _).mpr ⟨rfl, by simpa using houtcome⟩⟩
  · rintro ⟨hagree, hsome⟩ roles order
    rw [hallows, policyApproves_perm order]
    constructor
    · rintro ⟨decision, hfound, hentitled⟩
      obtain ⟨role, hmem, rfl⟩ := List.mem_map.mp (List.mem_of_find?_eq_some hfound)
      have houtcome := List.find?_some hfound
      exact (hagree role (order.mem_iff.mp hmem) _
        ((hlets role _).mpr ⟨rfl, by simpa using houtcome⟩)).mp ((entitled_perm order).mp hentitled)
    · intro happroves
      obtain ⟨role, hmem, decision, hthrough⟩ := hsome happroves
      obtain ⟨rfl, houtcome⟩ := (hlets role decision).mp hthrough
      cases hfound : (roles.map fun role => reached (some role)).find? (·.outcome ≠ .reject) with
      | none =>
          have hnone := List.find?_eq_none.mp hfound (reached (some role))
            (List.mem_map.mpr ⟨role, order.mem_iff.mpr hmem, rfl⟩)
          exact absurd houtcome (by simpa using hnone)
      | some found =>
          obtain ⟨first, hfirst, rfl⟩ := List.mem_map.mp (List.mem_of_find?_eq_some hfound)
          have hnot := List.find?_some hfound
          refine ⟨_, rfl, (entitled_perm order).mpr ?_⟩
          exact (hagree first (order.mem_iff.mp hfirst) _
            ((hlets first _).mpr ⟨rfl, by simpa using hnot⟩)).mpr happroves

/-! ## A cap of a hundred euros, and two roles with different approvers -/

/-- A confirmation for amounts up to a hundred euros. -/
def hundredEuros : Json :=
  .obj [("version", .num 1), ("rules", .arr [.obj [("id", .str "pay"),
    ("applies_to", .arr [.str "agent_action"]), ("when", .obj [("amount.lte",
      .obj [("currency", .str "EUR"), ("value", .str "100")])]), ("execute", .str "confirm")]])]

def hundredEurosDoc : PolicyDocument :=
  { version := 1
    rules := [{ id := "pay", appliesTo := [.agentAction], execute := .confirm,
                when := { amountLte := some ⟨"EUR", ⟨"100", amountValueRe_hundred⟩⟩ } }] }

def invoiceOf (minorUnits : Int) : SurfaceProposal :=
  { severity := .warning, handoff := "netsuite", amount := some ⟨"EUR", minorUnits⟩
    payee := none, approverRoles := ["approver"] }

/-- The approver's own actions go to an administrator, those of finance stay there. -/
def byRole : Json :=
  .obj [("version", .num 1), ("rules", .arr [
    .obj [("id", .str "a"), ("applies_to", .arr [.str "any"]),
      ("when", .obj [("agent.role", .str "approver")]), ("require", .str "admin_approval"),
      ("execute", .str "confirm")],
    .obj [("id", .str "f"), ("applies_to", .arr [.str "any"]),
      ("when", .obj [("agent.role", .str "finance")]), ("require", .str "finance_approval"),
      ("execute", .str "confirm")]])]

def byRoleDoc : PolicyDocument :=
  { version := 1
    rules := [{ id := "a", appliesTo := [.any], when := { agentRole := some "approver" }
                require := some "admin_approval", execute := .confirm },
              { id := "f", appliesTo := [.any], when := { agentRole := some "finance" }
                require := some "finance_approval", execute := .confirm }] }

/-- Fifty euros are rejected as five thousand, and an approval is refused or allowed by the
order of the roles. -/
theorem fifty_euros_rejected :
    (validatePolicyDocument hundredEuros = .ok hundredEurosDoc ∧
      PolicyApproves 0 hundredEurosDoc (invoiceOf 5000) ["approver"] ∧
      evaluateDecision 0 (some hundredEurosDoc) (invoiceOf 5000) ⟨["approver"], none⟩ .approved =
        .ok { allowed := false, reason := some "Current tenant policy rejects this action" }) ∧
    (validatePolicyDocument byRole = .ok byRoleDoc ∧
      evaluateDecision 0 (some byRoleDoc) (invoiceOf 5000) ⟨["finance", "approver"], none⟩
        .approved = .ok { allowed := true, approverRole := some "finance" } ∧
      evaluateDecision 0 (some byRoleDoc) (invoiceOf 5000) ⟨["approver", "finance"], none⟩
        .approved =
        .ok { allowed := false, reason := some "Actor lacks an approver role for this proposal" }) := by
  refine ⟨⟨rfl, ?_, rfl⟩, rfl, rfl, rfl⟩
  exact ⟨"approver", List.mem_cons_self, _, ⟨rfl, by decide⟩, "approver", List.mem_cons_self,
    .inl (by decide)⟩

/-- Fifty cents are under the cap as fifty euros are. -/
theorem fifty_cents_allowed :
    RolesAgree 0 hundredEurosDoc (invoiceOf 50) ["approver"] ∧
      ∀ roles : List String, roles.Perm ["approver"] →
        (Allows 0 hundredEurosDoc (invoiceOf 50) ⟨roles, none⟩ ↔
          PolicyApproves 0 hundredEurosDoc (invoiceOf 50) roles) := by
  have happroves : PolicyApproves 0 hundredEurosDoc (invoiceOf 50) ["approver"] :=
    ⟨"approver", List.mem_cons_self, _, ⟨rfl, by decide⟩, "approver", List.mem_cons_self,
      .inl (by decide)⟩
  have agree : RolesAgree 0 hundredEurosDoc (invoiceOf 50) ["approver"] := by
    refine ⟨fun role hmem decision hthrough => ?_, fun _ => ?_⟩
    · rw [List.mem_singleton.mp hmem] at hthrough
      obtain rfl := Except.ok.inj hthrough.1
      exact ⟨fun _ => happroves, fun _ => ⟨"approver", List.mem_cons_self, .inl (by decide)⟩⟩
    · exact ⟨"approver", List.mem_cons_self, _, rfl, by decide⟩
  exact ⟨agree,
    (recheck_iff_rolesAgree 0 hundredEurosDoc (invoiceOf 50) ⟨["approver"], none⟩ rfl).mpr agree⟩

end BrainCore.Surfaces
