import BrainCore.Policy.PolicyTransactions

/-!
# The policies of a run

Any number of requests to compose and to sign, their steps in any order, leave
each tenant at most one active policy, which got there on evidence.
-/

namespace BrainCore.Policy

open BrainCore.Foundation BrainCore.Audit PolicyRepository

section Scripts

variable {deps : PolicyDeps} {begun : SignRequest → Prop} {start : Policies}

/-! ## The routes -/

theorem sound_bind {α β : Type} {script : PolicyScript α} {rest : α → PolicyScript β}
    (h : (policyDiscipline deps begun start).Sound (fun _ => True) script fun _ _ => True)
    (hrest : ∀ value,
      (policyDiscipline deps begun start).Sound (fun _ => True) (rest value) fun _ _ => True) :
    (policyDiscipline deps begun start).Sound (fun _ => True) (script >>= rest) fun _ _ => True :=
  Discipline.Sound.bind h hrest

theorem sound_withTenantScope {α : Type} {tenant : String} {body : PolicyTransact α}
    (h : (policyDiscipline deps begun start).Triple (fun _ own => own = []) body
      fun _ => MayCommit deps begun) :
    (policyDiscipline deps begun start).Sound (fun _ => True) (withTenantScope tenant body)
      fun _ _ => True := by
  unfold withTenantScope
  split
  · apply Discipline.Sound.transact Discipline.lasting_true fun _ => Discipline.lasting_true
    apply Discipline.Triple.mono (h.weaken fun _ _ _ => And.right)
    exact fun _ _ _ _ hcommit => ⟨hcommit, trivial⟩
  · exact Discipline.Sound.throw _

theorem sound_emit (event : PolicyAuditEvent) :
    (policyDiscipline deps begun start).Sound (fun _ => True) (emitPolicyEvent event)
      fun _ _ => True := Discipline.Sound.callOut _

theorem sound_ofExcept {α : Type} (result : Except PolicyError α) :
    (policyDiscipline deps begun start).Sound (fun _ => True) (.ofExcept result : PolicyScript α)
      fun _ _ => True := Discipline.Sound.ofExcept fun _ _ _ _ _ => trivial

theorem sound_compose (request : ComposeRequest) :
    (policyDiscipline deps begun start).Sound (fun _ => True) (compose deps request)
      fun _ _ => True := by
  refine sound_bind (sound_ofExcept _) fun principal => ?_
  refine sound_bind (sound_ofExcept _) fun document => ?_
  refine sound_bind (sound_ofExcept _) fun quorum => ?_
  refine sound_bind (Discipline.Sound.ask _) fun id => ?_
  refine sound_bind (sound_withTenantScope (triple_compose ?_)) fun row => ?_
  · exact congrArg deps.sha256 (stableStringify_jsonb (request.content.getD _).distinct)
  · exact sound_bind (sound_emit _) fun _ => Discipline.Sound.pure fun _ _ _ => trivial

theorem sound_sign {request : SignRequest} (hbegun : begun request) :
    (policyDiscipline deps begun start).Sound (fun _ => True) (sign deps request)
      fun _ _ => True := by
  refine sound_bind (sound_ofExcept _) fun principal => ?_
  split
  · rename_i policyId signatures hpolicy hpresented
    refine sound_bind (sound_withTenantScope (triple_sign hbegun hpolicy hpresented)) fun signed => ?_
    exact sound_bind (sound_emit _) fun _ => Discipline.Sound.pure fun _ _ _ => trivial
  · exact Discipline.Sound.throw _

end Scripts

/-! ## Every run -/

/-- The requests to sign that have begun. -/
def Begun (labels : List PolicyLabel) (request : SignRequest) : Prop :=
  .begin (.sign request) ∈ labels

theorem sound_begun {deps : PolicyDeps} {start : Policies} {labels : List PolicyLabel}
    {call : PolicyRequest} (h : .begin call ∈ labels) :
    ∃ post, (policyDiscipline deps (Begun labels) start).Sound (fun _ => True)
      (policyScript deps call) post := by
  cases call with
  | compose request => exact ⟨_, sound_compose request⟩
  | sign request => exact ⟨_, sound_sign h⟩

theorem getActive_ok {sha256 : List Char → String} {tenant : String} {db : Policies}
    {row : PolicyRow} (h : getActive sha256 tenant db = .ok (some row)) :
    db.find? row.id = some row ∧ row.tenantId = tenant ∧ row.state = .active ∧
      contentHashHex sha256 row.content = row.contentHash := by
  unfold getActive at h
  split at h
  · cases h
  · rename_i other hother
    split at h
    · cases h
    · rename_i hhash
      cases h
      have hmem := List.mem_of_find?_eq_some hother
      have hselected := List.find?_some hother
      simp only [PolicyRow.isActive, Bool.and_eq_true, decide_eq_true_eq] at hselected
      exact ⟨Table.find?_key hmem, hselected.1, hselected.2, not_not.mp hhash⟩

/-- From any table that the unique index admits, in every run of requests: each tenant has at most
one active policy, each step changes the policies as it may, and the policy that is read as active
has the content its signed hash is of and got active on evidence, unless it was so at the start. -/
theorem policies_of_run (deps : PolicyDeps) {db : Policies} (hdb : AtMostOneActive db)
    {labels : List PolicyLabel} {label : PolicyLabel} {s next : PolicyWorld}
    (hrun : (policyMachine deps).run { committed := db } labels = some s)
    (hstep : (policyMachine deps).step s label = some next) :
    AtMostOneActive next.committed ∧
      LawfulChange deps (Begun (labels ++ [label])) s.committed next.committed ∧
      ∀ tenant row, getActive deps.sha256 tenant next.committed = .ok (some row) →
        contentHashHex deps.sha256 row.content = row.contentHash ∧
          Trusted deps (Begun (labels ++ [label])) db row := by
  have hsound : ∀ {call : PolicyRequest}, .begin call ∈ labels ++ [label] →
      ∃ post, (policyDiscipline deps (Begun (labels ++ [label])) db).Sound (fun _ => True)
        (policyScript deps call) post := sound_begun
  have hnone : ∀ (current : Policies) (writes : List PolicyRow),
      (policyDiscipline deps (Begun (labels ++ [label])) db).invariant current →
        false = true → (policyDiscipline deps (Begun (labels ++ [label])) db).permits current
          writes := by
    intro current writes _ h
    cases h
  have hstart : Consistent deps (Begun (labels ++ [label])) db db :=
    ⟨hdb, fun id row hrow hactive =>
      .inr ⟨row, Table.find?_key (Table.mem_of_find? hrow), hactive, rfl⟩⟩
  have hbefore := Discipline.Disciplined.of_run
    (d := policyDiscipline deps (Begun (labels ++ [label])) db) PolicyRow.clash_symm hnone hstart
    (fun call hcall => hsound (List.mem_append_left _ hcall)) hrun
  obtain ⟨hafter, hchange⟩ := hbefore.step PolicyRow.clash_symm hnone
    (fun call hcall => hsound (List.mem_append_right _ (List.mem_singleton.mpr hcall.symm))) hstep
  refine ⟨hafter.invariant.single, ?_, fun tenant row hrow => ?_⟩
  · obtain hsame | ⟨writes, hcommit, hview⟩ := hchange
    · rw [hsame]
      exact .refl _
    · rw [hview]
      exact hcommit.lawful
  · obtain ⟨hfind, -, hactive, hhash⟩ := getActive_ok hrow
    exact ⟨hhash, hafter.invariant.trusted row.id row hfind hactive⟩

/-! ## A run -/

/-- Signatures are the text that is signed. -/
def plainDeps : PolicyDeps where
  sha256 := String.ofList
  keccak256 := id
  verifyTypedData := fun typed sig => .ok (sig.signature = typed.message.policyHash)
  chainId := 8453
  policyRegistryAddress := "0x01"

def rejectRule : Json :=
  .obj [("id", .str "r"), ("applies_to", .arr [.str "outbound_payment"]), ("when", .obj []),
    ("execute", .str "reject")]

theorem rejectRule_distinct :
    DistinctJson (.obj [("version", .num 1), ("rules", .arr [rejectRule])]) := by
  simp [rejectRule, DistinctJson, DistinctJsonMembers, DistinctJsonItems]

def rejectPayments : ParsedJson :=
  ⟨.obj [("version", .num 1), ("rules", .arr [rejectRule])], rejectRule_distinct⟩

def signer : PolicyPrincipal :=
  { id := "user_1"
    tenantId := "tnt_00000000000000000000000000"
    scopes := ["policy:admin"] }

def composeRejectPayments : ComposeRequest where
  principal := some signer
  tenantId := signer.tenantId
  content := some rejectPayments

def signRejectPayments : SignRequest where
  principal := some signer
  tenantId := signer.tenantId
  policyId := some "pol_1"
  signatures := some
    [⟨"0xa", "0x" ++ contentHashHex plainDeps.sha256 rejectPayments.json⟩]
  isAuthorizedSigner _ _ := .ok true

def plainEnvironment : PolicyEnvironment := ⟨"pol_1", .ok ()⟩

/-- A policy is composed and signed, up to the commit that activates it. -/
def signedLabels : List PolicyLabel :=
  .begin (.compose composeRejectPayments) :: List.replicate 5 (.advance 0 plainEnvironment) ++
    .begin (.sign signRejectPayments) :: List.replicate 5 (.advance 1 plainEnvironment)

def signedWorld : PolicyWorld :=
  ((policyMachine plainDeps).run { committed := Table.empty } signedLabels).getD
    { committed := Table.empty }

def activatedWorld : PolicyWorld :=
  ((policyMachine plainDeps).step signedWorld (.advance 1 plainEnvironment)).getD
    { committed := Table.empty }

theorem atMostOneActive_empty : AtMostOneActive Table.empty := by
  intro id id' row row' hrow
  cases hrow

theorem policies_of_signed :
    activatedWorld.committed.rows.map (·.state) = [.active] ∧
      AtMostOneActive activatedWorld.committed ∧
      LawfulChange plainDeps (Begun (signedLabels ++ [.advance 1 plainEnvironment]))
        signedWorld.committed activatedWorld.committed ∧
      ∀ tenant row,
        getActive plainDeps.sha256 tenant activatedWorld.committed = .ok (some row) →
          contentHashHex plainDeps.sha256 row.content = row.contentHash ∧
            Trusted plainDeps (Begun (signedLabels ++ [.advance 1 plainEnvironment])) Table.empty
              row := by
  have hrun : (policyMachine plainDeps).run { committed := Table.empty } signedLabels =
      some signedWorld := rfl
  have hstep : (policyMachine plainDeps).step signedWorld (.advance 1 plainEnvironment) =
      some activatedWorld := rfl
  exact ⟨rfl, policies_of_run plainDeps atMostOneActive_empty hrun hstep⟩

end BrainCore.Policy
