import BrainCore.Foundation.Machine
import BrainCore.Foundation.Parties
import BrainCore.Foundation.Table
import BrainCore.Foundation.Text

/-!
# Authorization codes and refresh-token families

`services/auth/src/routes/oauth.ts` with `oauth-codes.ts`, `oauth-refresh.ts` and
`consent.ts`: a code is exchanged once, a refresh token is rotated on use, and a
replay of either revokes the family.  Any number of requests run at the same
time.  A transaction is executed, with the locks it takes, and committed later;
what it writes is seen by the others from its commit on.
-/

namespace BrainCore.Auth

open BrainCore.Foundation

/-! ## Scopes -/

/-- A scope, as the `TEXT[]` columns hold it. -/
abbrev Scope := String

def VALID_SCOPES : List Scope :=
  ["raw:read", "raw:write", "raw:admin", "canonical:read", "canonical:write", "canonical:admin",
    "ledger:read", "ledger:write", "ledger:admin", "wiki:read", "wiki:write", "wiki:admin",
    "policy:read", "policy:write", "policy:admin", "policy:sign", "execution:read",
    "execution:write", "execution:admin", "execution:propose", "payment_intent:propose",
    "payment_intent:approve", "payment_intent:execute", "audit:read", "audit:write", "audit:admin",
    "governance:read", "surfaces:admin", "tenant:create", "tenant:agent-mint", "tenant:delete",
    "session:exchange", "invite:consume"]

def AGENT_PERMITTED_SCOPES : List Scope :=
  ["ledger:read", "wiki:read", "raw:read", "raw:write", "payment_intent:propose",
    "execution:propose"]

/-- Unknown words are dropped. -/
def parseScopeParam : Option String → List Scope
  | none => []
  | some raw => ((splitWhite [] raw.toList).map String.ofList).filter (· ∈ VALID_SCOPES)

def computeConsentableScopes (requested registered : List Scope) : List Scope :=
  requested.filter fun scope => scope ∈ registered && scope ∈ AGENT_PERMITTED_SCOPES

def narrowByDeselection (consentable : List Scope) (selected : List String) : List Scope :=
  consentable.filter (· ∈ selected)

def intersectAgentPermitted (scopes : List Scope) : List Scope :=
  scopes.filter (· ∈ AGENT_PERMITTED_SCOPES)

/-- A request for more than is stored is refused. -/
def narrowRefreshScopes (stored : List Scope) : Option String → Option (List Scope)
  | none => some (intersectAgentPermitted stored)
  | some param =>
      let requested := parseScopeParam (some param)
      if requested.any (· ∉ stored) then none else some (intersectAgentPermitted requested)

/-! ## Rows -/

/-- Milliseconds. -/
abbrev Instant := Nat

structure AuthorizationCode where
  codeHash : String
  clientId : String
  agentId : String
  grantId : String
  scopes : List Scope
  redirectUri : String
  codeChallenge : String
  resource : Option String
  expiresAt : Instant
  consumedAt : Option Instant := none

structure ConsentGrant where
  id : String
  clientId : String
  agentId : String
  scopes : List Scope
  scopeHashAtGrant : String
  revokedAt : Option Instant := none

structure RefreshToken where
  tokenHash : String
  agentId : String
  clientId : String
  grantId : String
  familyId : String
  tokenId : String
  scopes : List Scope
  expiresAt : Instant
  rotatedAt : Option Instant := none
  revokedAt : Option Instant := none

namespace RefreshToken

variable (token : RefreshToken)

/-- Neither rotated nor revoked. -/
def isLive : Bool := token.rotatedAt.isNone && token.revokedAt.isNone

def rotate (now : Instant) : RefreshToken := { token with rotatedAt := some now }

/-- `COALESCE(revoked_at, now())`. -/
def revoke (now : Instant) : RefreshToken :=
  { token with revokedAt := some (token.revokedAt.getD now) }

end RefreshToken

def AUTHORIZATION_CODE_TTL : Nat := 60 * 1000

def REFRESH_TOKEN_TTL : Nat := 30 * 24 * 60 * 60 * 1000

/-- What the consent page and the admin send for one grant. -/
structure Consent where
  grantId : String
  code : String
  clientId : String
  agentId : String
  scope : Option String
  registered : List Scope
  selected : List String
  scopeHash : String
  redirectUri : String
  codeChallenge : String
  resource : Option String

def Consent.scopes (consent : Consent) : List Scope :=
  narrowByDeselection
    (computeConsentableScopes (parseScopeParam consent.scope) consent.registered) consent.selected

/-! ## Requests -/

inductive OauthRequest where
  | exchange (code redirectUri clientId : String)
  | refresh (refreshToken clientId : String) (scope resource : Option String)
  | revoke (token : String) (clientId : Option String)

/-- An access token is signed for these. -/
structure Minting where
  agentId : String
  grantId : String
  scopes : List Scope
  resource : Option String

/-- Where a request stands; a phase says what comes next, and `…ing` that the transaction is
executed and not committed. -/
inductive OauthPhase where
  | presented
  | identified (grantTypes : List String)
  | checked (code : AuthorizationCode) (mayRefresh : Bool)
  | consuming (codeHash : String) (seed : Option RefreshToken) (now : Instant) (mint : Minting)
  /-- `handleCodeReplay`; `consumed` says that the code was found consumed. -/
  | replayed (grantId : String) (consumed : Bool)
  | loaded (token : RefreshToken)
  | granted (token : RefreshToken) (grant : ConsentGrant)
  | narrowed (token : RefreshToken) (scopes : List Scope)
  | rotating (tokenHash : String) (seed : RefreshToken) (now : Instant) (mint : Minting)
  | compromised (grantId familyId : String)
  /-- The tokens of these hashes are revoked; with `all`, they are all of the grant's. -/
  | revoking (grantId : String) (hashes : List String) (now : Instant) (all : Bool)
  | minting (mint : Minting)
  | answered (status : Nat) (error : String)

structure OauthCall where
  request : OauthRequest
  phase : OauthPhase := .presented

/-- The `token`'s grant as history. -/
structure AccessToken where
  agentId : String
  grantId : String
  scopes : List Scope
  tokenId : String
  audience : List String

/-- What is committed, the requests, the access tokens that were signed, and as history the codes
whose consumption was committed and the grants whose family was revoked. -/
structure OauthWorld where
  codes : Table AuthorizationCode.codeHash := Table.empty
  grants : Table ConsentGrant.id := Table.empty
  tokens : Table RefreshToken.tokenHash := Table.empty
  calls : List OauthCall := []
  minted : List AccessToken := []
  consumed : List String := []
  dead : List String := []

inductive OauthStep where
  /-- `findActiveOauthClient`. -/
  | client (grantTypes : Option (List String))
  /-- The lookup by hash and the checks on what it finds; `pkce` is the answer of `verifyPkce`. -/
  | lookup (now : Instant) (pkce : Bool)
  | consume (now : Instant) (refreshToken tokenId familyId : String)
  | loadConsentGrant
  /-- `loadActiveAgent`: the scope hash of the agent, when it is active. -/
  | loadActiveAgent (scopeHash : Option (Option String))
  | rotate (now : Instant) (refreshToken tokenId : String)
  | revoke (now : Instant)
  | commit
  | sign (tokenId : String)
  /-- Something throws, or the process stops; a transaction is rolled back. -/
  | stop

inductive OauthLabel where
  | consent (consent : Consent) (now : Instant)
  /-- A grant is revoked from outside. -/
  | revokeGrant (grantId : String) (now : Instant)
  | present (request : OauthRequest)
  | advance (i : Nat) (step : OauthStep)

namespace OauthPhase

/-- The advisory lock that is held, by the id of its grant. -/
def lock : OauthPhase → Option String
  | .rotating _ seed _ _ => some seed.grantId
  | .revoking grantId _ _ _ => some grantId
  | _ => none

/-- The row of a code that is locked. -/
def lockedCode : OauthPhase → Option String
  | .consuming codeHash _ _ _ => some codeHash
  | _ => none

/-- The refresh token that a commit will insert. -/
def seed : OauthPhase → Option RefreshToken
  | .consuming _ seed _ _ => seed
  | .rotating _ seed _ _ => some seed
  | _ => none

end OauthPhase

section Machine

variable (sha256Hex : String → String) (authAudience mcpPublicResourceUrl : String)

def resolveAudience (resource : Option String) : List String :=
  if resource = some mcpPublicResourceUrl then [authAudience, mcpPublicResourceUrl]
  else [authAudience]

def refuse (error : String) : OauthPhase := .answered 400 error

def identify (request : OauthRequest) (grantTypes : Option (List String)) : OauthPhase :=
  match request, grantTypes with
  | _, none => .answered 401 "invalid_client"
  | .refresh .., some grantTypes =>
      if "refresh_token" ∈ grantTypes then .identified grantTypes else refuse "unauthorized_client"
  | _, some grantTypes => .identified grantTypes

def checkCode (redirectUri clientId : String) (mayRefresh : Bool) (now : Instant) (pkce : Bool) :
    Option AuthorizationCode → OauthPhase
  | none => refuse "invalid_grant"
  | some code =>
      if code.consumedAt.isSome then .replayed code.grantId true
      else if code.expiresAt ≤ now then refuse "invalid_grant"
      else if code.clientId ≠ clientId ∨ code.redirectUri ≠ redirectUri then refuse "invalid_grant"
      else if !pkce then refuse "invalid_grant"
      else .checked code mayRefresh

/-- Reuse is looked for before expiry. -/
def checkRefresh (clientId : String) (now : Instant) : Option RefreshToken → OauthPhase
  | none => refuse "invalid_grant"
  | some token =>
      if token.revokedAt.isSome then refuse "invalid_grant"
      else if token.rotatedAt.isSome then .compromised token.grantId token.familyId
      else if token.expiresAt ≤ now then refuse "invalid_grant"
      else if token.clientId ≠ clientId then refuse "invalid_grant"
      else .loaded token

def checkRevoke (clientId : Option String) : Option RefreshToken → OauthPhase
  | none => .answered 200 ""
  | some token =>
      if token.revokedAt.isNone && clientId.all (· = token.clientId) then
        .compromised token.grantId token.familyId
      else .answered 200 ""

def checkGrant (token : RefreshToken) : Option ConsentGrant → OauthPhase
  | none => .compromised token.grantId token.familyId
  | some grant =>
      if grant.revokedAt.isSome then .compromised token.grantId token.familyId
      else .granted token grant

/-- The scopes of the token that the grant still lists, narrowed by the request. -/
def checkAgent (request : OauthRequest) (token : RefreshToken) (grant : ConsentGrant) :
    Option (Option String) → OauthPhase
  | none => refuse "invalid_grant"
  | some scopeHash =>
      if scopeHash ≠ some grant.scopeHashAtGrant then .compromised token.grantId token.familyId
      else
        let param := match request with
          | .refresh _ _ scope _ => scope
          | _ => none
        match narrowRefreshScopes (token.scopes.filter (· ∈ grant.scopes)) param with
        | none => refuse "invalid_scope"
        | some scopes => .narrowed token scopes

namespace OauthWorld

variable (s : OauthWorld)

/-- New tokens and families were never used before. -/
def isNew (tokenHash familyId : String) : Bool :=
  (s.tokens.find? tokenHash).isNone && s.tokens.rows.all (·.familyId ≠ familyId) &&
    s.calls.all fun call => call.phase.seed.all fun seed =>
      seed.tokenHash ≠ tokenHash && seed.familyId ≠ familyId

def isNewHash (tokenHash : String) : Bool :=
  (s.tokens.find? tokenHash).isNone &&
    s.calls.all fun call => call.phase.seed.all fun seed => seed.tokenHash ≠ tokenHash

/-- Nobody holds the advisory lock of the grant. -/
def unlocked (grantId : String) : Bool := s.calls.all fun call => call.phase.lock ≠ some grantId

/-- `consumeAuthorizationCode`, executed; a request waits for the lock on a row it would take. -/
def consume (code : AuthorizationCode) (mayRefresh : Bool) (now : Instant)
    (refreshToken tokenId familyId : String) : Option OauthPhase :=
  match s.codes.find? code.codeHash with
  | none => some (.replayed code.grantId false)
  | some row =>
      if row.consumedAt.isSome || row.expiresAt ≤ now then
        some (.replayed code.grantId row.consumedAt.isSome)
      else if (s.calls.all fun call => call.phase.lockedCode ≠ some row.codeHash) &&
          s.isNew (sha256Hex refreshToken) familyId then
        let seed : RefreshToken :=
          { tokenHash := sha256Hex refreshToken, agentId := row.agentId, clientId := row.clientId
            grantId := row.grantId, familyId, tokenId, scopes := row.scopes
            expiresAt := now + REFRESH_TOKEN_TTL }
        some (.consuming row.codeHash (if mayRefresh then some seed else none) now
          ⟨row.agentId, row.grantId, intersectAgentPermitted row.scopes, row.resource⟩)
      else none

/-- `rotateRefreshToken`, executed under the lock of the grant. -/
def rotate (token : RefreshToken) (scopes : List Scope) (resource : Option String) (now : Instant)
    (refreshToken tokenId : String) : Option OauthPhase :=
  if s.unlocked token.grantId && s.isNewHash (sha256Hex refreshToken) then
    match s.tokens.find? token.tokenHash with
    | none => some (.compromised token.grantId token.familyId)
    | some row =>
        if row.isLive then
          some (.rotating row.tokenHash
            { tokenHash := sha256Hex refreshToken, agentId := token.agentId
              clientId := token.clientId, grantId := token.grantId, familyId := token.familyId
              tokenId, scopes, expiresAt := now + REFRESH_TOKEN_TTL } now
            ⟨token.agentId, token.grantId, scopes, resource⟩)
        else some (.compromised token.grantId token.familyId)
  else none

/-- The tokens that an update under the lock of the grant sees. -/
def hashesWhere (p : RefreshToken → Bool) : List String := (s.tokens.rows.filter p).map (·.tokenHash)

/-- `revokeRefreshTokenFamilyForGrant` or `revokeRefreshFamily`, executed. -/
def revoke (phase : OauthPhase) (now : Instant) : Option OauthPhase :=
  match phase with
  | .replayed grantId consumed =>
      if s.unlocked grantId then
        some (.revoking grantId
          (s.hashesWhere fun token => token.grantId = grantId && token.revokedAt.isNone) now consumed)
      else none
  | .compromised grantId familyId =>
      if s.unlocked grantId then
        some (.revoking grantId (s.hashesWhere fun token => token.familyId = familyId) now true)
      else none
  | _ => none

/-- The phase after a step that commits nothing. -/
def advance (call : OauthCall) : OauthStep → Option OauthPhase
  | .client grantTypes =>
      match call.phase, call.request with
      | .presented, .exchange .. | .presented, .refresh .. => some (identify call.request grantTypes)
      | _, _ => none
  | .lookup now pkce =>
      match call.phase, call.request with
      | .identified grantTypes, .exchange code redirectUri clientId =>
          some (checkCode redirectUri clientId ("refresh_token" ∈ grantTypes) now pkce
            (s.codes.find? (sha256Hex code)))
      | .identified _, .refresh refreshToken clientId _ _ =>
          some (checkRefresh clientId now (s.tokens.find? (sha256Hex refreshToken)))
      | .presented, .revoke token clientId =>
          some (checkRevoke clientId (s.tokens.find? (sha256Hex token)))
      | _, _ => none
  | .consume now refreshToken tokenId familyId =>
      match call.phase with
      | .checked code mayRefresh =>
          s.consume sha256Hex code mayRefresh now refreshToken tokenId familyId
      | _ => none
  | .loadConsentGrant =>
      match call.phase with
      | .loaded token => some (checkGrant token (s.grants.find? token.grantId))
      | _ => none
  | .loadActiveAgent scopeHash =>
      match call.phase with
      | .granted token grant => some (checkAgent call.request token grant scopeHash)
      | _ => none
  | .rotate now refreshToken tokenId =>
      match call.phase, call.request with
      | .narrowed token scopes, .refresh _ _ _ resource =>
          s.rotate sha256Hex token scopes resource now refreshToken tokenId
      | _, _ => none
  | .revoke now => s.revoke call.phase now
  | .commit | .sign _ => none
  | .stop =>
      match call.phase with
      | .answered _ _ => none
      | _ => some (.answered 500 "internal_server_error")

def setPhase (i : Nat) (call : OauthCall) (phase : OauthPhase) : OauthWorld :=
  { s with calls := s.calls.set i { call with phase } }

/-- The answer of a request that revoked its family. -/
def revokedAnswer : OauthRequest → OauthPhase
  | .revoke _ _ => .answered 200 ""
  | _ => refuse "invalid_grant"

/-- The commit of a transaction. -/
def commit (i : Nat) (call : OauthCall) : Option OauthWorld :=
  match call.phase with
  | .consuming codeHash seed now mint =>
      some { (s.setPhase i call (.minting mint)) with
        codes := s.codes.update codeHash (fun code => { code with consumedAt := some now }) fun _ => rfl
        tokens := match seed with
          | none => s.tokens
          | some seed => s.tokens.put seed
        consumed := s.consumed ++ [codeHash] }
  | .rotating tokenHash seed now mint =>
      some { (s.setPhase i call (.minting mint)) with
        tokens := (s.tokens.update tokenHash (·.rotate now) fun _ => rfl).put seed }
  | .revoking grantId hashes now all =>
      some { (s.setPhase i call (revokedAnswer call.request)) with
        tokens := s.tokens.updateWhere (fun token => token.tokenHash ∈ hashes) (·.revoke now)
          fun _ => rfl
        dead := if all then s.dead ++ [grantId] else s.dead }
  | _ => none

/-- The access token is signed. -/
def sign (i : Nat) (call : OauthCall) (tokenId : String) : Option OauthWorld :=
  match call.phase with
  | .minting mint =>
      some { (s.setPhase i call (.answered 200 "")) with
        minted := s.minted ++ [
          { agentId := mint.agentId, grantId := mint.grantId, scopes := mint.scopes, tokenId
            audience := resolveAudience authAudience mcpPublicResourceUrl mint.resource }] }
  | _ => none

/-- `issueAuthorizationCode`; the grant is new. -/
def issueAuthorizationCode (consent : Consent) (now : Instant) : Option OauthWorld := do
  let grants ← s.grants.insert?
    { id := consent.grantId, clientId := consent.clientId, agentId := consent.agentId
      scopes := consent.scopes, scopeHashAtGrant := consent.scopeHash }
  let codes ← s.codes.insert?
    { codeHash := sha256Hex consent.code, clientId := consent.clientId, agentId := consent.agentId
      grantId := consent.grantId, scopes := consent.scopes, redirectUri := consent.redirectUri
      codeChallenge := consent.codeChallenge, resource := consent.resource
      expiresAt := now + AUTHORIZATION_CODE_TTL }
  some { s with grants, codes }

def step : OauthLabel → Option OauthWorld
  | .consent consent now => s.issueAuthorizationCode sha256Hex consent now
  | .revokeGrant grantId now =>
      some { s with
        grants := s.grants.update grantId (fun grant => { grant with revokedAt := some now })
          fun _ => rfl }
  | .present request => some { s with calls := s.calls ++ [{ request }] }
  | .advance i step =>
      match s.calls[i]? with
      | none => none
      | some call =>
          match step with
          | .commit => s.commit i call
          | .sign tokenId => s.sign authAudience mcpPublicResourceUrl i call tokenId
          | step => (s.advance sha256Hex call step).map (s.setPhase i call)

end OauthWorld

def oauthServer : Machine OauthWorld OauthLabel :=
  ⟨fun s label => s.step sha256Hex authAudience mcpPublicResourceUrl label⟩

end Machine

end BrainCore.Auth
