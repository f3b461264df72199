import BrainCore.Audit.JsValue
import BrainCore.Audit.Hash
import BrainCore.Foundation.ScriptRuns
import BrainCore.Foundation.Table
import BrainCore.Policy.Linter

/-!
# The policies table

The repository of `services/policy/src/repository.ts` over the table of
`migrations/0001_policies.sql`: the state machine of a policy, the insert, the
signers and the transition that deactivates the active policy first.  Row level
security lets a statement see the rows of its tenant alone.
-/

namespace BrainCore.Policy

open BrainCore.Foundation BrainCore.Audit

/-- An error of the policy service, by its code and its message. -/
structure PolicyError where
  code : String
  message : String
deriving DecidableEq

inductive PolicyState where
  | draft
  | pendingSignatures
  | active
  | deactivated
  | cancelled
  | expired
deriving DecidableEq

def PolicyState.text : PolicyState → String
  | .draft => "draft"
  | .pendingSignatures => "pending_signatures"
  | .active => "active"
  | .deactivated => "deactivated"
  | .cancelled => "cancelled"
  | .expired => "expired"

def isValidTransition : PolicyState → PolicyState → Bool
  | .draft, target => target = .pendingSignatures || target = .cancelled
  | .pendingSignatures, target => target = .active || target = .expired
  | .active, target => target = .deactivated
  | .deactivated, _ | .cancelled, _ | .expired, _ => false

structure PolicySignature where
  address : String
  signature : String

structure PolicyRow where
  id : String
  tenantId : String
  version : Nat
  content : Json
  contentHash : String
  signers : Option (List PolicySignature)
  state : PolicyState
  quorumRequired : Nat
  createdBy : String

/-- The policies of all tenants. -/
abbrev Policies := Table PolicyRow.id

/-- `canonicalize` and its digest, in hexadecimal. -/
def contentHashHex (sha256 : List Char → String) (content : Json) : String :=
  sha256 (stableStringify content)

/-! ## The rows a statement locks -/

namespace PolicyRow

def isActive (row : PolicyRow) : Bool := row.state = .active

/-- A row of one key, of one version of a tenant, or a second active one of a tenant. -/
def clash (first second : PolicyRow) : Bool :=
  first.id = second.id || first.tenantId = second.tenantId &&
    (first.version = second.version || first.isActive && second.isActive)

theorem clash_symm (first second : PolicyRow) : clash first second = clash second first := by
  unfold clash
  rw [Bool.and_comm first.isActive second.isActive]
  simp only [@eq_comm _ first.id, @eq_comm _ first.tenantId, @eq_comm _ first.version]

end PolicyRow

def policyStore : Store Policies PolicyRow := ⟨Table.put, PolicyRow.clash⟩

abbrev PolicyTransact (α : Type) := Program Policies PolicyRow PolicyError α

/-! ## Statements -/

namespace PolicyRepository

def duplicateKey : PolicyError :=
  ⟨"internal_server_error", "duplicate key value violates unique constraint"⟩

def integerOutOfRange : PolicyError := ⟨"internal_server_error", "integer out of range"⟩

/-- The largest `INTEGER`. -/
def maxInteger : Nat := 2147483647

/-- A row of the tenant. -/
def findPolicy (db : Policies) (tenant id : String) : Option PolicyRow :=
  (db.find? id).filter fun row => row.tenantId = tenant

def getById (tenant id : String) : PolicyTransact (Option PolicyRow) :=
  .select fun db => findPolicy db tenant id

/-- The active policy, unless its content is not what its hash is of. -/
def getActive (sha256 : List Char → String) (tenant : String) (db : Policies) :
    Except PolicyError (Option PolicyRow) :=
  match db.rows.find? fun row => row.tenantId = tenant && row.isActive with
  | none => .ok none
  | some row =>
      if contentHashHex sha256 row.content ≠ row.contentHash then
        .error ⟨"policy_not_active", "active policy content_hash does not match content"⟩
      else .ok (some row)

def insertPolicy (row : PolicyRow) : PolicyTransact PolicyRow :=
  .execute fun db =>
    if maxInteger < row.version || maxInteger < row.quorumRequired then .error integerOutOfRange
    else if (db.find? row.id).isSome ||
        db.rows.any (fun other => other.tenantId = row.tenantId && other.version = row.version) then
      .error duplicateKey
    else .ok ([row], row)

def setSigners (tenant id : String) (signers : List PolicySignature) : PolicyTransact Unit :=
  .execute fun db =>
    match findPolicy db tenant id with
    | none => .ok ([], ())
    | some row => .ok ([{ row with signers := some signers }], ())

/-- The update that deactivates takes its rows one after the other and looks at each again once it
has the row's lock. -/
def deactivateEach (tenant : String) : List String → PolicyTransact Unit
  | [] => pure ()
  | id :: rest => do
      .execute fun db =>
        match findPolicy db tenant id with
        | none => .ok ([], ())
        | some row =>
            if row.state = .active then .ok ([{ row with state := .deactivated }], ())
            else .ok ([], ())
      deactivateEach tenant rest

def deactivateActive (tenant : String) : PolicyTransact Unit := do
  let ids ← .select fun db =>
    (db.rows.filter fun row => row.tenantId = tenant && row.isActive).map (·.id)
  deactivateEach tenant ids

/-- The unique index refuses a second active policy of the tenant. -/
def moved (db : Policies) (tenant id : String) (source target : PolicyState) :
    Except PolicyError PolicyRow :=
  match (findPolicy db tenant id).filter fun row => row.state = source with
  | none =>
      .error ⟨"execution_proposal_invalid_state",
        "policy " ++ id ++ " is not in state " ++ source.text⟩
  | some row =>
      if target = .active && db.rows.any (fun other =>
          other.tenantId = tenant && other.isActive && other.id ≠ id) then
        .error duplicateKey
      else .ok { row with state := target }

def moveTo (tenant id : String) (source target : PolicyState) : PolicyTransact PolicyRow :=
  .execute fun db => (moved db tenant id source target).map fun row => ([row], row)

def transition (tenant id : String) (source target : PolicyState) : PolicyTransact PolicyRow :=
  if isValidTransition source target then do
    if target = .active then deactivateActive tenant else pure ()
    moveTo tenant id source target
  else
    .throw ⟨"execution_proposal_invalid_state",
      "invalid policy state transition " ++ source.text ++ " → " ++ target.text⟩

theorem findPolicy_eq_some {db : Policies} {tenant id : String} {row : PolicyRow} :
    findPolicy db tenant id = some row ↔ db.find? id = some row ∧ row.tenantId = tenant := by
  rw [findPolicy, Option.filter_eq_some_iff, decide_eq_true_eq]

/-- A policy that moves is in the source's state, and becomes active beside no other. -/
theorem moved_ok {db : Policies} {tenant id : String} {source target : PolicyState}
    {row : PolicyRow} (h : moved db tenant id source target = .ok row) :
    ∃ old, db.find? id = some old ∧ old.tenantId = tenant ∧ old.state = source ∧
      row = { old with state := target } ∧
      (target = .active → ∀ other ∈ db.rows, other.tenantId = tenant → other.state = .active →
        other.id = id) := by
  unfold moved at h
  split at h
  · cases h
  · rename_i old hold
    obtain ⟨hfound, hstate⟩ := Option.filter_eq_some_iff.mp hold
    obtain ⟨hfind, htenant⟩ := findPolicy_eq_some.mp hfound
    split at h
    · cases h
    · rename_i halone
      cases h
      refine ⟨old, hfind, htenant, of_decide_eq_true hstate, rfl, ?_⟩
      intro htarget other hother hsame hactive
      by_contra hne
      apply halone
      rw [Bool.and_eq_true, decide_eq_true_eq, List.any_eq_true]
      exact ⟨htarget, other, hother, by simp [PolicyRow.isActive, hsame, hactive, hne]⟩

end PolicyRepository

end BrainCore.Policy
