import BrainCore.Auth.OauthFamilySafety

/-!
# No token goes beyond its consent

A code, a stored token, a request under way and a signed token each claim scopes
of a grant for an agent.  Steps only pass claims on or narrow them, so that each
claim goes back to the consent of its grant.
-/

namespace BrainCore.Auth

open BrainCore.Foundation

/-- Scopes of a grant, for the agent. -/
structure ScopeClaim where
  grantId : String
  agentId : String
  scopes : List Scope

/-- The same grant and agent, and no other scopes. -/
structure Narrows (first second : ScopeClaim) : Prop where
  grant : first.grantId = second.grantId
  agent : first.agentId = second.agentId
  scopes : first.scopes ⊆ second.scopes

def AuthorizationCode.claim (code : AuthorizationCode) : ScopeClaim :=
  ⟨code.grantId, code.agentId, code.scopes⟩

def RefreshToken.claim (token : RefreshToken) : ScopeClaim :=
  ⟨token.grantId, token.agentId, token.scopes⟩

def AccessToken.claim (token : AccessToken) : ScopeClaim :=
  ⟨token.grantId, token.agentId, token.scopes⟩

def Minting.claim (mint : Minting) : ScopeClaim := ⟨mint.grantId, mint.agentId, mint.scopes⟩

def Consent.claim (consent : Consent) : ScopeClaim :=
  ⟨consent.grantId, consent.agentId, consent.scopes⟩

/-- What a request will store or sign for. -/
def OauthPhase.claims : OauthPhase → List ScopeClaim
  | .consuming _ seed _ mint => mint.claim :: seed.toList.map RefreshToken.claim
  | .loaded token => [token.claim]
  | .granted token _ => [token.claim]
  | .narrowed token scopes => [⟨token.grantId, token.agentId, scopes⟩]
  | .rotating _ seed _ mint => [seed.claim, mint.claim]
  | .minting mint => [mint.claim]
  | _ => []

namespace OauthWorld

/-- What is claimed anywhere. -/
inductive Claims (s : OauthWorld) : ScopeClaim → Prop where
  | code {code : AuthorizationCode} (mem : code ∈ s.codes.rows) : Claims s code.claim
  | token {token : RefreshToken} (mem : token ∈ s.tokens.rows) : Claims s token.claim
  | call {call : OauthCall} {claim : ScopeClaim} (mem : call ∈ s.calls)
      (claimed : claim ∈ call.phase.claims) : Claims s claim
  | minted {token : AccessToken} (mem : token ∈ s.minted) : Claims s token.claim

theorem narrowRefreshScopes_subset {stored scopes : List Scope} {param : Option String}
    (h : narrowRefreshScopes stored param = some scopes) : scopes ⊆ stored := by
  unfold narrowRefreshScopes at h
  split at h
  · cases h
    exact List.filter_subset_self _
  · dsimp only at h
    split at h
    · cases h
    · rename_i hnone
      cases h
      intro scope hscope
      by_contra hmissing
      exact hnone (List.any_eq_true.mpr
        ⟨scope, (List.mem_filter.mp hscope).1, decide_eq_true hmissing⟩)

section Steps

variable {s next : OauthWorld} {sha256Hex : String → String}
  {authAudience mcpPublicResourceUrl : String} {i : Nat} {call : OauthCall} {phase : OauthPhase}

/-- Something like it, with these scopes and maybe more, is claimed already. -/
def Derives (s : OauthWorld) (claim : ScopeClaim) : Prop :=
  ∃ before, s.Claims before ∧ Narrows claim before

theorem Claims.derives {claim : ScopeClaim} (h : s.Claims claim) : s.Derives claim :=
  ⟨claim, h, rfl, rfl, List.Subset.refl _⟩

/-- A phase claims nothing of its own. -/
def Passes (s : OauthWorld) (phase : OauthPhase) : Prop := ∀ claim ∈ phase.claims, s.Derives claim

theorem passes_of_mem (s : OauthWorld) : ∀ call ∈ s.calls, s.Passes call.phase :=
  fun _ hcall _ hclaim => (Claims.call hcall hclaim).derives

theorem Passes.of_nil (none : phase.claims = []) : s.Passes phase := by
  intro claim hclaim
  rw [none] at hclaim
  cases hclaim

theorem Passes.ite {p : Prop} [Decidable p] {first second : OauthPhase}
    (hfirst : s.Passes first) (hsecond : s.Passes second) :
    s.Passes (if p then first else second) := by
  split
  · exact hfirst
  · exact hsecond

theorem passes_consume {code : AuthorizationCode} {mayRefresh : Bool} {now : Instant}
    {refreshToken tokenId familyId : String}
    (h : s.consume sha256Hex code mayRefresh now refreshToken tokenId familyId = some phase) :
    s.Passes phase := by
  unfold consume at h
  split at h
  · cases h
    exact .of_nil rfl
  · rename_i row hfound
    split at h
    · cases h
      exact .of_nil rfl
    · split at h
      · cases h
        have hcode := Claims.code (Table.mem_of_find? hfound)
        intro claim hclaim
        rcases List.mem_cons.mp hclaim with rfl | hseed
        · exact ⟨_, hcode, rfl, rfl, List.filter_subset_self _⟩
        · cases mayRefresh with
          | false => cases hseed
          | true =>
              rw [List.mem_singleton.mp hseed]
              exact hcode.derives
      · cases h

theorem passes_rotate {token : RefreshToken} {scopes : List Scope} {resource : Option String}
    {now : Instant} {refreshToken tokenId : String}
    (claimed : s.Passes (.narrowed token scopes))
    (h : s.rotate sha256Hex token scopes resource now refreshToken tokenId = some phase) :
    s.Passes phase := by
  unfold rotate at h
  split at h
  · split at h
    · cases h
      exact .of_nil rfl
    · split at h
      · cases h
        intro claim hclaim
        rcases List.mem_cons.mp hclaim with rfl | hmint
        · exact claimed _ (List.mem_singleton_self _)
        · rw [List.mem_singleton.mp hmint]
          exact claimed _ (List.mem_singleton_self _)
      · cases h
        exact .of_nil rfl
  · cases h

theorem passes_advance (hcall : call ∈ s.calls) {step : OauthStep}
    (h : s.advance sha256Hex call step = some phase) : s.Passes phase := by
  have hold := passes_of_mem s _ hcall
  obtain ⟨request, before⟩ := call
  cases step with
  | client grantTypes =>
      dsimp only [advance] at h
      split at h <;> cases h
      · cases grantTypes <;> exact .of_nil rfl
      · cases grantTypes with
        | none => exact .of_nil rfl
        | some grantTypes => exact .ite (.of_nil rfl) (.of_nil rfl)
  | lookup now pkce =>
      dsimp only [advance] at h
      split at h <;> cases h
      · rename_i code redirectUri clientId
        cases s.codes.find? (sha256Hex code) with
        | none => exact .of_nil rfl
        | some code =>
            refine .ite (.of_nil rfl) (.ite (.of_nil rfl) (.ite (.of_nil rfl) ?_))
            exact .ite (.of_nil rfl) (.of_nil rfl)
      · rename_i refreshToken clientId scope resource
        cases hfound : s.tokens.find? (sha256Hex refreshToken) with
        | none => exact .of_nil rfl
        | some token =>
            refine .ite (.of_nil rfl) (.ite (.of_nil rfl) (.ite (.of_nil rfl) ?_))
            refine .ite (.of_nil rfl) fun claim hclaim => ?_
            rw [List.mem_singleton.mp hclaim]
            exact (Claims.token (Table.mem_of_find? hfound)).derives
      · rename_i token clientId
        cases s.tokens.find? (sha256Hex token) with
        | none => exact .of_nil rfl
        | some token => exact .ite (.of_nil rfl) (.of_nil rfl)
  | consume now refreshToken tokenId familyId =>
      dsimp only [advance] at h
      split at h
      · exact passes_consume h
      · cases h
  | loadConsentGrant =>
      dsimp only [advance] at h
      split at h <;> cases h
      rename_i token
      cases s.grants.find? token.grantId with
      | none => exact .of_nil rfl
      | some grant => exact .ite (.of_nil rfl) hold
  | loadActiveAgent scopeHash =>
      dsimp only [advance] at h
      split at h <;> cases h
      rename_i token grant
      cases scopeHash with
      | none => exact .of_nil rfl
      | some scopeHash =>
          refine .ite (.of_nil rfl) ?_
          split
          · exact .of_nil rfl
          · rename_i scopes hscopes
            intro claim hclaim
            obtain ⟨claimed, hclaimed, hgrant, hagent, hwithin⟩ :=
              hold token.claim (List.mem_singleton_self _)
            rw [List.mem_singleton.mp hclaim]
            refine ⟨claimed, hclaimed, hgrant, hagent, fun scope hscope => hwithin ?_⟩
            exact List.filter_subset_self _ (narrowRefreshScopes_subset hscopes hscope)
  | rotate now refreshToken tokenId =>
      dsimp only [advance] at h
      split at h
      · exact passes_rotate hold h
      · cases h
  | revoke now =>
      dsimp only [advance, OauthWorld.revoke] at h
      split at h <;> first | cases h | (split at h <;> cases h; exact .of_nil rfl)
  | commit => cases h
  | sign tokenId => cases h
  | stop =>
      dsimp only [advance] at h
      split at h <;> cases h
      exact .of_nil rfl

/-- The claims after a step, by where they stand. -/
theorem derives_of_parts {claim : ScopeClaim} (h : next.Claims claim)
    (codes : ∀ code ∈ next.codes.rows, s.Derives code.claim)
    (tokens : ∀ token ∈ next.tokens.rows, s.Derives token.claim)
    (calls : ∀ call ∈ next.calls, s.Passes call.phase)
    (minted : ∀ token ∈ next.minted, s.Derives token.claim) : s.Derives claim := by
  cases h with
  | code mem => exact codes _ mem
  | token mem => exact tokens _ mem
  | call mem claimed => exact calls _ mem claim claimed
  | minted mem => exact minted _ mem

theorem derives_code (s : OauthWorld) : ∀ code ∈ s.codes.rows, s.Derives code.claim :=
  fun _ hcode => (Claims.code hcode).derives

theorem derives_token (s : OauthWorld) : ∀ token ∈ s.tokens.rows, s.Derives token.claim :=
  fun _ htoken => (Claims.token htoken).derives

theorem derives_minted (s : OauthWorld) : ∀ token ∈ s.minted, s.Derives token.claim :=
  fun _ htoken => (Claims.minted htoken).derives

theorem passes_set (passes : s.Passes phase) :
    ∀ other ∈ s.calls.set i { call with phase }, s.Passes other.phase := by
  intro other hother
  rcases List.mem_or_eq_of_mem_set hother with hold | rfl
  · exact passes_of_mem s _ hold
  · exact passes

theorem derives_setPhase (passes : s.Passes phase) {claim : ScopeClaim}
    (h : (s.setPhase i call phase).Claims claim) : s.Derives claim :=
  derives_of_parts h (derives_code s) (derives_token s) (passes_set passes)
    (derives_minted s)

/-- An update of tokens leaves their claims alone. -/
theorem derives_update {p : RefreshToken → Bool} (assign : RefreshToken → RefreshToken)
    (keeps : ∀ row, (assign row).tokenHash = row.tokenHash)
    (claims : ∀ row, (assign row).claim = row.claim) :
    ∀ token ∈ (s.tokens.updateWhere p assign keeps).rows, s.Derives token.claim := by
  intro token htoken
  obtain ⟨old, hold, rfl⟩ := Table.mem_updateWhere.mp htoken
  split
  · rw [claims]
    exact derives_token s old hold
  · exact derives_token s old hold

theorem derives_put {tokens : Table RefreshToken.tokenHash} {seed token : RefreshToken}
    (stored : ∀ token ∈ tokens.rows, s.Derives token.claim) (seeded : s.Derives seed.claim)
    (htoken : token ∈ (tokens.put seed).rows) : s.Derives token.claim := by
  rcases Table.mem_of_mem_put htoken with hold | rfl
  · exact stored token hold
  · exact seeded

theorem derives_commit (hcall : call ∈ s.calls) (h : s.commit i call = some next)
    {claim : ScopeClaim} (claimed : next.Claims claim) : s.Derives claim := by
  have hold := passes_of_mem s _ hcall
  obtain ⟨request, before⟩ := call
  cases before with
  | consuming codeHash seed now mint =>
      cases h
      refine derives_of_parts claimed (fun code hcode => ?_) (fun token htoken => ?_)
        (passes_set fun other hother => ?_) (derives_minted s)
      · obtain ⟨old, hmem, rfl⟩ := (@Table.mem_updateWhere _ _ _ _ _ (fun old : AuthorizationCode =>
          { old with consumedAt := some now }) (fun _ => rfl) code).mp hcode
        split <;> exact derives_code s old hmem
      · cases seed with
        | none => exact derives_token s _ htoken
        | some seed =>
            exact derives_put (derives_token s)
              (hold _ (List.mem_cons_of_mem _ (List.mem_singleton_self _))) htoken
      · rw [List.mem_singleton.mp hother]
        exact hold _ List.mem_cons_self
  | rotating tokenHash seed now mint =>
      cases h
      refine derives_of_parts claimed (derives_code s)
        (fun token htoken => derives_put
          (derives_update (·.rotate now) (fun _ => rfl) fun _ => rfl)
          (hold _ List.mem_cons_self) htoken)
        (passes_set fun other hother => ?_) (derives_minted s)
      · rw [List.mem_singleton.mp hother]
        exact hold _ (List.mem_cons_of_mem _ (List.mem_singleton_self _))
  | revoking grantId hashes now all =>
      cases h
      refine derives_of_parts claimed (derives_code s)
        (derives_update (·.revoke now) (fun _ => rfl) fun _ => rfl) (passes_set (.of_nil ?_))
        (derives_minted s)
      cases request <;> rfl
  | _ => cases h

/-- A step claims only what was claimed, or what its consent grants. -/
theorem derives_step {label : OauthLabel}
    (h : s.step sha256Hex authAudience mcpPublicResourceUrl label = some next) {claim : ScopeClaim}
    (claimed : next.Claims claim) :
    s.Derives claim ∨ ∃ consent now, label = .consent consent now ∧ claim = consent.claim := by
  cases label with
  | consent consent now =>
      rw [step, issueAuthorizationCode] at h
      obtain ⟨grants, -, h⟩ := Option.bind_eq_some_iff.mp h
      obtain ⟨codes, hcodes, h⟩ := Option.bind_eq_some_iff.mp h
      cases h
      cases claimed with
      | code mem =>
          change _ ∈ codes.rows at mem
          rw [Table.insert?_rows hcodes, List.mem_append, List.mem_singleton] at mem
          rcases mem with hold | rfl
          · exact .inl (derives_code s _ hold)
          · exact .inr ⟨consent, now, rfl, rfl⟩
      | token mem => exact .inl (derives_token s _ mem)
      | call mem claimed => exact .inl (passes_of_mem s _ mem claim claimed)
      | minted mem => exact .inl (derives_minted s _ mem)
  | revokeGrant grantId now =>
      cases h
      exact .inl (derives_of_parts claimed (derives_code s) (derives_token s)
        (passes_of_mem s) (derives_minted s))
  | present request =>
      cases h
      refine .inl (derives_of_parts claimed (derives_code s) (derives_token s)
        (fun other hother => ?_) (derives_minted s))
      rcases List.mem_append.mp hother with hold | hnew
      · exact passes_of_mem s _ hold
      · rw [List.mem_singleton.mp hnew]
        exact .of_nil rfl
  | advance i step =>
      dsimp only [OauthWorld.step] at h
      split at h
      · cases h
      · rename_i call hcall
        have hmem := List.mem_of_getElem? hcall
        split at h
        · exact .inl (derives_commit hmem h claimed)
        · rename_i tokenId
          unfold OauthWorld.sign at h
          split at h
          · rename_i mint hphase
            cases h
            refine .inl (derives_of_parts claimed (derives_code s) (derives_token s)
              (passes_set (.of_nil rfl)) fun token htoken => ?_)
            rcases List.mem_append.mp htoken with hold | hnew
            · exact derives_minted s _ hold
            · rw [List.mem_singleton.mp hnew]
              exact passes_of_mem s _ hmem _ (by rw [hphase]; exact List.mem_singleton_self _)
          · cases h
        · obtain ⟨phase, hphase, rfl⟩ := Option.map_eq_some_iff.mp h
          exact .inl (derives_setPhase (passes_advance hmem hphase) claimed)

theorem mem_consent_scopes {consent : Consent} {scope : Scope} :
    scope ∈ consent.scopes ↔ scope ∈ parseScopeParam consent.scope ∧ scope ∈ consent.registered ∧
      scope ∈ AGENT_PERMITTED_SCOPES ∧ scope ∈ consent.selected := by
  simp only [Consent.scopes, narrowByDeselection, computeConsentableScopes, List.mem_filter,
    Bool.and_eq_true, decide_eq_true_eq, and_assoc]

/-- Whatever is claimed in a run was asked for, registered, permitted to agents and left selected
in the consent of its grant, for the agent of that consent. -/
theorem claims_within_consent {labels : List OauthLabel}
    (hrun : (oauthServer sha256Hex authAudience mcpPublicResourceUrl).run {} labels = some s) :
    ∀ claim, s.Claims claim → ∃ consent now, OauthLabel.consent consent now ∈ labels ∧
      claim.grantId = consent.grantId ∧ claim.agentId = consent.agentId ∧
      ∀ scope ∈ claim.scopes, scope ∈ parseScopeParam consent.scope ∧
        scope ∈ consent.registered ∧ scope ∈ AGENT_PERMITTED_SCOPES ∧ scope ∈ consent.selected := by
  have hbounded : ∀ claim, s.Claims claim →
      ∃ consent now, OauthLabel.consent consent now ∈ labels ∧ Narrows claim consent.claim := by
    refine @Machine.invariant_of_meets _ _ (oauthServer sha256Hex authAudience mcpPublicResourceUrl)
      (fun _ label => label ∈ labels) (fun s : OauthWorld => ∀ claim, s.Claims claim →
        ∃ consent now, OauthLabel.consent consent now ∈ labels ∧ Narrows claim consent.claim)
      ?_ _ _ _ ?_ (Machine.meets_of_forall _ _ fun _ hlabel => hlabel) hrun
    · intro state label next hlabel holds hstep claim claimed
      rcases derives_step hstep claimed with ⟨before, hbefore, hnarrows⟩ | ⟨consent, now, rfl, rfl⟩
      · obtain ⟨consent, now, hmem, hwithin⟩ := holds before hbefore
        exact ⟨consent, now, hmem, hnarrows.grant.trans hwithin.grant,
          hnarrows.agent.trans hwithin.agent, List.Subset.trans hnarrows.scopes hwithin.scopes⟩
      · exact ⟨consent, now, hlabel, rfl, rfl, List.Subset.refl _⟩
    · intro claim claimed
      cases claimed with
      | code mem => cases mem
      | token mem => cases mem
      | call mem => cases mem
      | minted mem => cases mem
  intro claim claimed
  obtain ⟨consent, now, hmem, hgrant, hagent, hscopes⟩ := hbounded claim claimed
  exact ⟨consent, now, hmem, hgrant, hagent, fun scope hscope =>
    mem_consent_scopes.mp (hscopes hscope)⟩

end Steps

end OauthWorld

namespace Replay

theorem replayed_within_consent : ∃ s, server.run {} labels = some s ∧ s.minted.length = 2 ∧
    ∀ token ∈ s.minted, ∀ scope ∈ token.scopes, scope ∈ AGENT_PERMITTED_SCOPES := by
  have hsome : (server.run {} labels).map (fun s => s.minted.length) = some 2 := rfl
  obtain ⟨s, hrun, hlength⟩ := Option.map_eq_some_iff.mp hsome
  refine ⟨s, hrun, hlength, fun token htoken scope hscope => ?_⟩
  obtain ⟨consent, now, -, -, -, hwithin⟩ :=
    OauthWorld.claims_within_consent hrun _ (.minted htoken)
  exact (hwithin scope hscope).2.2.1

end Replay

end BrainCore.Auth
