import BrainCore.Foundation.Machine
import BrainCore.Foundation.Table
import BrainCore.Foundation.Text

/-!
# Email approvers

`services/surface-gateway/src/storage.ts` and the email routes of `server.ts`:
an address is bound to an actor and roles by an admin, and becomes active when
its holder confirms the link mailed to it.  Starting a verification anew writes
the binding of an address that is active already.
-/

namespace BrainCore.Surfaces

open BrainCore.Foundation

inductive RecipientStatus where
  | pending
  | active
  | disabled
deriving DecidableEq

/-- A row of `surface_email_recipients`, of one tenant. -/
structure EmailRecipientRow where
  email : String
  actorId : String
  roles : List String
  verifiedAt : Option Nat
  status : RecipientStatus
deriving DecidableEq

/-- What a verification link carries; `exp` is in seconds. -/
structure EmailVerificationTokenClaims where
  email : String
  actorId : String
  roles : List String
  exp : Nat
deriving DecidableEq

inductive EmailEvent where
  | confirmed (claims : EmailVerificationTokenClaims)
  | disabled (email : String)

structure EmailWorld where
  recipients : Table EmailRecipientRow.email := Table.empty
  /-- `users.role` by id. -/
  users : String → Option String := fun _ => none
  /-- The links mailed so far. -/
  issued : List EmailVerificationTokenClaims := []
  /-- The latest event first. -/
  history : List EmailEvent := []

structure ResolvedEmailActor where
  actorId : String
  roles : List String
  email : String
deriving DecidableEq

def normalizeEmail (email : String) : String := String.ofList ((trim email.toList).map Char.toLower)

/-- `verified_at IS NOT NULL AND status = 'active'`. -/
def EmailRecipientRow.resolves (row : EmailRecipientRow) : Bool :=
  row.verifiedAt.isSome && row.status = .active

/-- The row an upsert leaves: a new one is pending, a disabled one becomes so, and the others keep
their status. -/
def upsertedRecipient (email actorId : String) (roles : List String) :
    Option EmailRecipientRow → EmailRecipientRow
  | none => ⟨email, actorId, roles, none, .pending⟩
  | some old =>
      ⟨email, actorId, roles, old.verifiedAt,
        if old.status = .disabled then .pending else old.status⟩

namespace EmailWorld

def upsertRecipient (s : EmailWorld) (email actorId : String) (roles : List String) : EmailWorld :=
  let email := normalizeEmail email
  { s with
    recipients := s.recipients.put
      (upsertedRecipient email actorId roles (s.recipients.find? email)) }

def verifyRecipient (s : EmailWorld) (now : Nat) (email actorId : String) (roles : List String) :
    EmailWorld :=
  { s with
    recipients := s.recipients.put ⟨normalizeEmail email, actorId, roles, some now, .active⟩ }

def disabledRow (row : EmailRecipientRow) : EmailRecipientRow := { row with status := .disabled }

theorem disabledRow_email (row : EmailRecipientRow) : (disabledRow row).email = row.email := rfl

def disableRecipient (s : EmailWorld) (email : String) : EmailWorld :=
  { s with
    recipients := s.recipients.update (normalizeEmail email) disabledRow disabledRow_email }

/-- `POST /surfaces/email/recipients/verify/start`; the mail may not go out. -/
def verifyStart (s : EmailWorld) (now : Nat) (email actorId : String) (roles : List String)
    (mailed : Bool) : EmailWorld :=
  let normalizedEmail := normalizeEmail email
  let bound := s.upsertRecipient normalizedEmail actorId roles
  if mailed then
    { bound with issued := ⟨normalizedEmail, actorId, roles, now / 1000 + 15 * 60⟩ :: bound.issued }
  else bound

/-- `POST /surfaces/email/verify` with a link that was mailed and has not expired. -/
def verify (s : EmailWorld) (now : Nat) (claims : EmailVerificationTokenClaims) :
    Option EmailWorld :=
  if claims ∈ s.issued ∧ ¬claims.exp * 1000 ≤ now then
    some { s.verifyRecipient now claims.email claims.actorId claims.roles with
      history := .confirmed claims :: s.history }
  else none

/-- `POST /surfaces/email/events`: a bounce or a complaint. -/
def emailEvent (s : EmailWorld) (email : String) : EmailWorld :=
  { s.disableRecipient email with history := .disabled (normalizeEmail email) :: s.history }

def setUser (s : EmailWorld) (id : String) (role : Option String) : EmailWorld :=
  { s with users := fun other => if other = id then role else s.users other }

/-- The bound actor, with the roles of the binding and the actor's own. -/
def lookupEmailActor (s : EmailWorld) (externalId : String) : Option ResolvedEmailActor :=
  let email := normalizeEmail externalId
  (s.recipients.find? email).bind fun row =>
    if row.resolves then
      some ⟨row.actorId, (row.roles ++ (s.users row.actorId).toList).eraseDups, email⟩
    else none

end EmailWorld

inductive EmailLabel where
  | start (now : Nat) (email actorId : String) (roles : List String) (mailed : Bool)
  | verify (now : Nat) (claims : EmailVerificationTokenClaims)
  | event (email : String)
  | setUser (id : String) (role : Option String)

def emailStep (s : EmailWorld) : EmailLabel → Option EmailWorld
  | .start now email actorId roles mailed => some (s.verifyStart now email actorId roles mailed)
  | .verify now claims => s.verify now claims
  | .event email => some (s.emailEvent email)
  | .setUser id role => some (s.setUser id role)

/-- The routes of one tenant, one request after the other. -/
def emailMachine : Machine EmailWorld EmailLabel where
  step := emailStep

/-! ## What was confirmed -/

/-- The links confirmed for an address since it was last disabled. -/
def confirmedSince (email : String) : List EmailEvent → List EmailVerificationTokenClaims
  | [] => []
  | .disabled other :: rest => if other = email then [] else confirmedSince email rest
  | .confirmed claims :: rest =>
      if normalizeEmail claims.email = email then claims :: confirmedSince email rest
      else confirmedSince email rest

/-- The holder of the address has confirmed a link for this actor and these roles since the address
was last disabled. -/
def Confirmed (s : EmailWorld) (email actorId : String) (roles : List String) : Prop :=
  ∃ claims ∈ confirmedSince email s.history,
    claims.actorId = actorId ∧ ∀ role, role ∈ claims.roles ↔ role ∈ roles

/-- Each binding that resolves was confirmed. -/
def BindingsConfirmed (s : EmailWorld) : Prop :=
  ∀ email row, s.recipients.find? email = some row → row.resolves = true →
    Confirmed s email row.actorId row.roles

/-- A verification of an active address is started for a binding its holder has confirmed. -/
def KeepsBinding (s : EmailWorld) : EmailLabel → Prop
  | .start _ email actorId roles _ => ∀ row,
      s.recipients.find? (normalizeEmail (normalizeEmail email)) = some row →
        row.resolves = true →
          Confirmed s (normalizeEmail (normalizeEmail email)) actorId roles
  | .verify _ _ | .event _ | .setUser _ _ => True

/-- The actor's own role is one of the binding's. -/
def OwnRoleBound (s : EmailWorld) (row : EmailRecipientRow) : Prop :=
  ∀ role, s.users row.actorId = some role → role ∈ row.roles

variable {s next : EmailWorld}

theorem upsertedRecipient_email (email actorId : String) (roles : List String)
    (old : Option EmailRecipientRow) : (upsertedRecipient email actorId roles old).email = email := by
  cases old <;> rfl

theorem upsertedRecipient_resolves {email actorId : String} {roles : List String}
    {old : Option EmailRecipientRow} :
    (upsertedRecipient email actorId roles old).resolves = true ↔
      ∃ row, old = some row ∧ row.resolves = true := by
  cases old with
  | none => simp [upsertedRecipient, EmailRecipientRow.resolves]
  | some row => cases hstatus : row.status <;> simp [upsertedRecipient, EmailRecipientRow.resolves, hstatus]

/-! ## Steps -/

/-- An upsert keeps the bindings confirmed when the one it writes on an active address is. -/
theorem upsertRecipient_decides {email actorId : String} {roles : List String}
    (h : BindingsConfirmed s) :
    BindingsConfirmed (s.upsertRecipient email actorId roles) ↔
      ∀ row, s.recipients.find? (normalizeEmail email) = some row → row.resolves = true →
        Confirmed s (normalizeEmail email) actorId roles := by
  unfold BindingsConfirmed EmailWorld.upsertRecipient
  simp only [Table.find?_put, upsertedRecipient_email]
  constructor
  · intro hnext row hrow hresolves
    have hbound := hnext (normalizeEmail email) _ (if_pos rfl)
      (upsertedRecipient_resolves.mpr ⟨row, hrow, hresolves⟩)
    rw [hrow] at hbound
    exact hbound
  · intro hguard other row hrow hresolves
    by_cases hsame : other = normalizeEmail email
    · subst hsame
      rw [if_pos rfl] at hrow
      obtain rfl := Option.some.inj hrow
      obtain ⟨old, hold, hactive⟩ := upsertedRecipient_resolves.mp hresolves
      rw [hold]
      exact hguard old hold hactive
    · rw [if_neg hsame] at hrow
      exact h other row hrow hresolves

theorem BindingsConfirmed.verify (h : BindingsConfirmed s) {now : Nat}
    {claims : EmailVerificationTokenClaims} (hstep : s.verify now claims = some next) :
    BindingsConfirmed next := by
  unfold EmailWorld.verify at hstep
  split at hstep
  · cases hstep
    intro email row hrow hresolves
    unfold Confirmed confirmedSince
    by_cases hsame : email = normalizeEmail claims.email
    · subst hsame
      have hverified := hrow
      unfold EmailWorld.verifyRecipient at hverified
      rw [Table.find?_put, if_pos rfl] at hverified
      obtain rfl := Option.some.inj hverified
      rw [if_pos rfl]
      exact ⟨claims, List.mem_cons_self, rfl, fun _ => Iff.rfl⟩
    · have hother := hrow
      unfold EmailWorld.verifyRecipient at hother
      rw [Table.find?_put, if_neg hsame] at hother
      rw [if_neg (Ne.symm hsame)]
      exact h email row hother hresolves
  · cases hstep

theorem BindingsConfirmed.emailEvent (h : BindingsConfirmed s) (email : String) :
    BindingsConfirmed (s.emailEvent email) := by
  intro other row hrow hresolves
  have hupdated := hrow
  unfold EmailWorld.emailEvent EmailWorld.disableRecipient at hupdated
  rw [Table.find?_update] at hupdated
  by_cases hsame : other = normalizeEmail email
  · -- a disabled row does not resolve
    rw [if_pos hsame] at hupdated
    obtain ⟨old, -, rfl⟩ := Option.map_eq_some_iff.mp hupdated
    simp [EmailWorld.disabledRow, EmailRecipientRow.resolves] at hresolves
  · rw [if_neg hsame] at hupdated
    unfold Confirmed EmailWorld.emailEvent confirmedSince
    rw [if_neg (Ne.symm hsame)]
    exact h other row hupdated hresolves

theorem emailStep_decides {label : EmailLabel} (h : BindingsConfirmed s)
    (hstep : emailMachine.step s label = some next) :
    BindingsConfirmed next ↔ KeepsBinding s label := by
  cases label with
  | start now email actorId roles mailed =>
      rw [KeepsBinding, ← upsertRecipient_decides h]
      obtain rfl := Option.some.inj hstep
      unfold EmailWorld.verifyStart
      cases mailed <;> exact Iff.rfl
  | verify now claims => exact iff_of_true (h.verify hstep) trivial
  | event email =>
      obtain rfl := Option.some.inj hstep
      exact iff_of_true (h.emailEvent email) trivial
  | setUser id role =>
      obtain rfl := Option.some.inj hstep
      exact iff_of_true h trivial

/-! ## Runs -/

theorem bindingsConfirmed_empty (users : String → Option String) :
    BindingsConfirmed { users } := by
  intro email row hrow
  cases hrow

/-- The bindings are confirmed throughout a run exactly when no verification is started for an
active address with a binding its holder has not confirmed. -/
theorem bindings_confirmed_iff {users : String → Option String} {labels : List EmailLabel}
    {final : EmailWorld} (hrun : emailMachine.run { users } labels = some final) :
    emailMachine.Always BindingsConfirmed { users } labels ↔
      emailMachine.Meets KeepsBinding { users } labels :=
  emailMachine.always_iff_meets (fun _ _ _ h hstep => emailStep_decides h hstep)
    (bindingsConfirmed_empty users) hrun

namespace SecondStart

def firstLink : EmailVerificationTokenClaims := ⟨"a@b.c", "user_1", ["approver"], 900⟩

/-- The holder confirms the link for one user. -/
def onboarded : List EmailLabel :=
  [.start 0 "A@b.c" "user_1" ["approver"] true, .verify 1000 firstLink]

/-- Then a verification is started for another. -/
def rebound : List EmailLabel := onboarded ++ [.start 2000 "a@b.c" "user_2" ["admin"] false]

end SecondStart

end BrainCore.Surfaces
