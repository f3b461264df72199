import BrainCore.Auth.OauthFamilies

/-!
# A family is revoked as a whole

In every run of the token endpoint a code is consumed once, a grant has one
family with at most one live token, and no token of a family outlives its
revocation.  What a transaction holds until its commit is held by one request.
-/

namespace BrainCore.Auth

open BrainCore.Foundation

/-! ## What a transaction holds -/

/-- The locks, and the keys that a commit will insert. -/
inductive Held where
  | grant (grantId : String)
  | code (codeHash : String)
  | token (tokenHash : String)
  | family (familyId : String)

namespace OauthPhase

def holds : OauthPhase → List Held
  | .consuming codeHash none _ _ => [.code codeHash]
  | .consuming codeHash (some seed) _ _ =>
      [.code codeHash, .token seed.tokenHash, .family seed.familyId]
  | .rotating _ seed _ _ => [.grant seed.grantId, .token seed.tokenHash]
  | .revoking grantId _ _ _ => [.grant grantId]
  | _ => []

variable {phase : OauthPhase}

theorem lock_of_holds {grantId : String} (h : Held.grant grantId ∈ phase.holds) :
    phase.lock = some grantId := by
  unfold holds at h
  split at h <;> simp_all [lock]

theorem lockedCode_of_holds {codeHash : String} (h : Held.code codeHash ∈ phase.holds) :
    phase.lockedCode = some codeHash := by
  unfold holds at h
  split at h <;> simp_all [lockedCode]

theorem seed_of_holds_token {tokenHash : String} (h : Held.token tokenHash ∈ phase.holds) :
    ∃ seed, phase.seed = some seed ∧ seed.tokenHash = tokenHash := by
  unfold holds at h
  split at h <;> simp_all [seed]

theorem seed_of_holds_family {familyId : String} (h : Held.family familyId ∈ phase.holds) :
    ∃ seed, phase.seed = some seed ∧ seed.familyId = familyId := by
  unfold holds at h
  split at h <;> simp_all [seed]

end OauthPhase

/-- Nothing is held twice. -/
def Exclusive (calls : List OauthCall) : Prop :=
  ∀ (i j : Nat) (first second : OauthCall) (held : Held),
    calls[i]? = some first → calls[j]? = some second → held ∈ first.phase.holds →
      held ∈ second.phase.holds → i = j

section Exclusive

variable {calls : List OauthCall} {i : Nat} {call : OauthCall} {phase : OauthPhase}

theorem Exclusive.set (exclusive : Exclusive calls) (hcall : calls[i]? = some call)
    (free : ∀ held ∈ phase.holds, ∀ j other, calls[j]? = some other → j ≠ i →
      held ∉ other.phase.holds) : Exclusive (calls.set i { call with phase }) := by
  intro j k first second held hj hk hfirst hsecond
  rcases set_cases hcall hj with ⟨hji, rfl⟩ | ⟨hji, hjold⟩
  · rcases set_cases hcall hk with ⟨hki, -⟩ | ⟨hki, hkold⟩
    · exact hji.trans hki.symm
    · exact absurd hsecond (free held hfirst k second hkold hki)
  · rcases set_cases hcall hk with ⟨hki, rfl⟩ | ⟨hki, hkold⟩
    · exact absurd hfirst (free held hsecond j first hjold hji)
    · exact exclusive j k first second held hjold hkold hfirst hsecond

theorem Exclusive.snoc (exclusive : Exclusive calls) (idle : call.phase.holds = []) :
    Exclusive (calls ++ [call]) := by
  intro j k first second held hj hk hfirst hsecond
  rcases snoc_cases hj with ⟨-, rfl⟩ | hjold
  · rw [idle] at hfirst
    cases hfirst
  · rcases snoc_cases hk with ⟨-, rfl⟩ | hkold
    · rw [idle] at hsecond
      cases hsecond
    · exact exclusive j k first second held hjold hkold hfirst hsecond

end Exclusive

namespace OauthWorld

/-! ## The invariant -/

section Invariant

variable (s : OauthWorld)

/-- The code of the grant was consumed. -/
def Spent (grantId : String) : Prop :=
  ∃ code ∈ s.codes.rows, code.grantId = grantId ∧ code.consumedAt.isSome = true

/-- The token, rotated and revoked or not, stands in the table. -/
def Stored (token : RefreshToken) : Prop :=
  ∃ row ∈ s.tokens.rows, row.tokenHash = token.tokenHash ∧ row.grantId = token.grantId ∧
    row.familyId = token.familyId

def HasFamily (grantId familyId : String) : Prop :=
  ∃ row ∈ s.tokens.rows, row.grantId = grantId ∧ row.familyId = familyId

def NewToken (tokenHash : String) : Prop := ∀ row ∈ s.tokens.rows, row.tokenHash ≠ tokenHash

def NewFamily (familyId : String) : Prop := ∀ row ∈ s.tokens.rows, row.familyId ≠ familyId

/-- What a request knows of the tables. -/
def PhaseSound : OauthPhase → Prop
  | .checked code _ =>
      ∃ row ∈ s.codes.rows, row.codeHash = code.codeHash ∧ row.grantId = code.grantId
  | .consuming codeHash seed _ _ =>
      ∃ code ∈ s.codes.rows, code.codeHash = codeHash ∧ code.consumedAt = none ∧
        ∀ token, seed = some token → token.isLive = true ∧ token.grantId = code.grantId ∧
          s.NewToken token.tokenHash ∧ s.NewFamily token.familyId
  | .replayed grantId consumed => consumed = true → s.Spent grantId
  | .loaded token => s.Stored token
  | .granted token _ => s.Stored token
  | .narrowed token _ => s.Stored token
  | .rotating tokenHash seed _ _ =>
      ∃ old ∈ s.tokens.rows, old.tokenHash = tokenHash ∧ old.isLive = true ∧
        old.grantId = seed.grantId ∧ old.familyId = seed.familyId ∧ seed.isLive = true ∧
          s.NewToken seed.tokenHash
  | .compromised grantId familyId => s.HasFamily grantId familyId
  | .revoking grantId hashes _ all =>
      (∀ hash ∈ hashes, ∃ row ∈ s.tokens.rows, row.tokenHash = hash ∧ row.grantId = grantId) ∧
        (all = true → s.Spent grantId) ∧
        (all = true ∨ hashes ≠ [] → ∀ row ∈ s.tokens.rows, row.grantId = grantId →
          row.revokedAt = none → row.tokenHash ∈ hashes)
  | _ => True

/-- What holds of the tables between two commits. -/
structure RowsSound : Prop where
  one_code : ∀ first ∈ s.codes.rows, ∀ second ∈ s.codes.rows,
    first.grantId = second.grantId → first.codeHash = second.codeHash
  granted : ∀ code ∈ s.codes.rows, ∃ grant ∈ s.grants.rows, grant.id = code.grantId
  spent : ∀ token ∈ s.tokens.rows, s.Spent token.grantId
  one_family : ∀ first ∈ s.tokens.rows, ∀ second ∈ s.tokens.rows,
    first.grantId = second.grantId ↔ first.familyId = second.familyId
  one_live : ∀ first ∈ s.tokens.rows, ∀ second ∈ s.tokens.rows, first.grantId = second.grantId →
    first.isLive = true → second.isLive = true → first = second
  together : ∀ first ∈ s.tokens.rows, ∀ second ∈ s.tokens.rows, first.grantId = second.grantId →
    first.revokedAt.isSome = true → second.revokedAt.isSome = true
  dead : ∀ grantId ∈ s.dead, s.Spent grantId ∧
    ∀ token ∈ s.tokens.rows, token.grantId = grantId → token.revokedAt.isSome = true
  consumed : s.consumed.Nodup ∧ ∀ codeHash, codeHash ∈ s.consumed ↔
    ∃ code ∈ s.codes.rows, code.codeHash = codeHash ∧ code.consumedAt.isSome = true

/-- The invariant of every run. -/
structure Sound : Prop where
  rows : s.RowsSound
  exclusive : Exclusive s.calls
  phases : ∀ (i : Nat) (call : OauthCall), s.calls[i]? = some call → s.PhaseSound call.phase

/-- What a commit leaves to the others, when it is made by a request that holds `held`. -/
structure Commits (next : OauthWorld) (held : List Held) : Prop where
  codes : ∀ code ∈ s.codes.rows, ∃ row ∈ next.codes.rows, row.codeHash = code.codeHash ∧
    row.grantId = code.grantId ∧ (code.consumedAt.isSome = true → row.consumedAt.isSome = true)
  tokens : ∀ token ∈ s.tokens.rows, next.Stored token
  others : ∀ code ∈ s.codes.rows, Held.code code.codeHash ∉ held → code ∈ next.codes.rows
  newToken : ∀ row ∈ next.tokens.rows, Held.token row.tokenHash ∉ held →
    ∃ old ∈ s.tokens.rows, old.tokenHash = row.tokenHash
  newFamily : ∀ row ∈ next.tokens.rows, Held.family row.familyId ∉ held →
    ∃ old ∈ s.tokens.rows, old.familyId = row.familyId
  untouched : ∀ row ∈ s.tokens.rows, Held.grant row.grantId ∉ held → row ∈ next.tokens.rows
  unrevoked : ∀ row ∈ next.tokens.rows, row.revokedAt = none → Held.grant row.grantId ∉ held →
    s.Spent row.grantId → row ∈ s.tokens.rows

end Invariant

variable {s next : OauthWorld} {held : List Held}

theorem Spent.later {grantId : String} (spent : s.Spent grantId) (commits : s.Commits next held) :
    next.Spent grantId := by
  obtain ⟨code, hcode, rfl, hconsumed⟩ := spent
  obtain ⟨row, hrow, -, hgrant, hkept⟩ := commits.codes code hcode
  exact ⟨row, hrow, hgrant, hkept hconsumed⟩

theorem Stored.later {token : RefreshToken} (stored : s.Stored token)
    (commits : s.Commits next held) : next.Stored token := by
  obtain ⟨row, hrow, hhash, hgrant, hfamily⟩ := stored
  obtain ⟨kept, hkept, hhash', hgrant', hfamily'⟩ := commits.tokens row hrow
  exact ⟨kept, hkept, hhash'.trans hhash, hgrant'.trans hgrant, hfamily'.trans hfamily⟩

theorem HasFamily.later {grantId familyId : String} (has : s.HasFamily grantId familyId)
    (commits : s.Commits next held) : next.HasFamily grantId familyId := by
  obtain ⟨row, hrow, rfl, rfl⟩ := has
  obtain ⟨kept, hkept, -, hgrant, hfamily⟩ := commits.tokens row hrow
  exact ⟨kept, hkept, hgrant, hfamily⟩

theorem Stored.hasFamily {token : RefreshToken} (stored : s.Stored token) :
    s.HasFamily token.grantId token.familyId := by
  obtain ⟨row, hrow, -, hgrant, hfamily⟩ := stored
  exact ⟨row, hrow, hgrant, hfamily⟩

theorem stored_of_mem {token : RefreshToken} (hmem : token ∈ s.tokens.rows) : s.Stored token :=
  ⟨token, hmem, rfl, rfl, rfl⟩

/-- A commit does not disturb a request that holds something else. -/
theorem PhaseSound.later {phase : OauthPhase} (h : s.PhaseSound phase) (sound : s.RowsSound)
    (commits : s.Commits next held) (apart : ∀ mine ∈ phase.holds, mine ∉ held) :
    next.PhaseSound phase := by
  have hnewToken : ∀ {hash}, Held.token hash ∈ phase.holds → s.NewToken hash →
      next.NewToken hash := by
    rintro hash hheld hnew row hrow rfl
    obtain ⟨old, hold, hsame⟩ := commits.newToken row hrow (apart _ hheld)
    exact hnew old hold hsame
  cases phase with
  | checked code mayRefresh =>
      obtain ⟨row, hrow, hhash, hgrant⟩ := h
      obtain ⟨kept, hkept, hhash', hgrant', -⟩ := commits.codes row hrow
      exact ⟨kept, hkept, hhash'.trans hhash, hgrant'.trans hgrant⟩
  | replayed grantId consumed => exact fun hconsumed => (h hconsumed).later commits
  | loaded token => exact Stored.later h commits
  | granted token grant => exact Stored.later h commits
  | narrowed token scopes => exact Stored.later h commits
  | compromised grantId familyId => exact HasFamily.later h commits
  | consuming codeHash seed now mint =>
      obtain ⟨row, hrow, rfl, hopen, hseeded⟩ := h
      have hcode := apart (.code row.codeHash) (by cases seed <;> simp [OauthPhase.holds])
      refine ⟨row, commits.others row hrow hcode, rfl, hopen, ?_⟩
      rintro token rfl
      obtain ⟨hlive, hgrant, hhash, hfamily⟩ := hseeded token rfl
      refine ⟨hlive, hgrant, hnewToken (by simp [OauthPhase.holds]) hhash, ?_⟩
      rintro row' hrow' heq
      obtain ⟨old, hold, hsame⟩ := commits.newFamily row' hrow'
        (heq ▸ apart _ (by simp [OauthPhase.holds]))
      exact hfamily old hold (hsame.trans heq)
  | rotating tokenHash seed now mint =>
      obtain ⟨old, hold, rfl, hlive, hgrant, hfamily, hseedLive, hnew⟩ := h
      have hlock := apart (.grant seed.grantId) (by simp [OauthPhase.holds])
      exact ⟨old, commits.untouched old hold (hgrant ▸ hlock), rfl, hlive, hgrant, hfamily,
        hseedLive, hnewToken (by simp [OauthPhase.holds]) hnew⟩
  | revoking grantId hashes now all =>
      obtain ⟨hhashes, hspent, hall⟩ := h
      refine ⟨fun hash hhash => ?_, fun htrue => (hspent htrue).later commits,
        fun hsome row hrow hgrant hrevoked => ?_⟩
      · obtain ⟨row, hrow, rfl, rfl⟩ := hhashes hash hhash
        obtain ⟨kept, hkept, hhash', hgrant', -⟩ := commits.tokens row hrow
        exact ⟨kept, hkept, hhash', hgrant'⟩
      · -- a grant with something to revoke has its code consumed
        have hgrantSpent : s.Spent grantId := by
          rcases hsome with htrue | hne
          · exact hspent htrue
          · obtain ⟨hash, hhash⟩ := List.exists_mem_of_ne_nil hashes hne
            obtain ⟨member, hmember, -, rfl⟩ := hhashes hash hhash
            exact sound.spent member hmember
        have hlock := apart (.grant grantId) (by simp [OauthPhase.holds])
        subst hgrant
        exact hall hsome row (commits.unrevoked row hrow hrevoked hlock hgrantSpent) rfl hrevoked
  | presented => trivial
  | identified grantTypes => trivial
  | minting mint => trivial
  | answered status error => trivial

/-! ## Steps that commit nothing -/

/-- A request may come to this phase: it is sound, and nobody has what it holds. -/
def Enters (s : OauthWorld) (phase : OauthPhase) : Prop :=
  s.PhaseSound phase ∧ ∀ held ∈ phase.holds, ∀ call ∈ s.calls, held ∉ call.phase.holds

theorem Enters.idle {phase : OauthPhase} (sound : s.PhaseSound phase) (none : phase.holds = []) :
    s.Enters phase := by
  refine ⟨sound, fun held hheld => ?_⟩
  rw [none] at hheld
  cases hheld

theorem Enters.ite {p : Prop} [Decidable p] {first second : OauthPhase}
    (hfirst : p → s.Enters first) (hsecond : s.Enters second) :
    s.Enters (if p then first else second) := by
  split
  · exact hfirst ‹p›
  · exact hsecond

theorem enters_answered (status : Nat) (error : String) : s.Enters (.answered status error) :=
  .idle trivial rfl

theorem enters_refuse (error : String) : s.Enters (refuse error) := enters_answered 400 error

theorem enters_identify (request : OauthRequest) (grantTypes : Option (List String)) :
    s.Enters (identify request grantTypes) := by
  unfold identify
  split
  · exact enters_answered _ _
  · exact .ite (fun _ => .idle trivial rfl) (enters_refuse _)
  · exact .idle trivial rfl

theorem enters_checkCode {codeHash : String} (redirectUri clientId : String)
    (mayRefresh : Bool) (now : Instant) (pkce : Bool) :
    s.Enters (checkCode redirectUri clientId mayRefresh now pkce (s.codes.find? codeHash)) := by
  cases hfound : s.codes.find? codeHash with
  | none => exact enters_refuse _
  | some code =>
      have hmem := Table.mem_of_find? hfound
      refine .ite (fun hconsumed => .idle (fun _ => ⟨code, hmem, rfl, hconsumed⟩) rfl) ?_
      refine .ite (fun _ => enters_refuse _) (.ite (fun _ => enters_refuse _) ?_)
      exact .ite (fun _ => enters_refuse _) (.idle ⟨code, hmem, rfl, rfl⟩ rfl)

theorem enters_checkRefresh {tokenHash : String} (clientId : String) (now : Instant) :
    s.Enters (checkRefresh clientId now (s.tokens.find? tokenHash)) := by
  cases hfound : s.tokens.find? tokenHash with
  | none => exact enters_refuse _
  | some token =>
      have hstored := stored_of_mem (Table.mem_of_find? hfound)
      refine .ite (fun _ => enters_refuse _) (.ite (fun _ => .idle hstored.hasFamily rfl) ?_)
      refine .ite (fun _ => enters_refuse _) (.ite (fun _ => enters_refuse _) ?_)
      exact .idle hstored rfl

theorem enters_checkRevoke {tokenHash : String} (clientId : Option String) :
    s.Enters (checkRevoke clientId (s.tokens.find? tokenHash)) := by
  cases hfound : s.tokens.find? tokenHash with
  | none => exact enters_answered _ _
  | some token =>
      have hstored := stored_of_mem (Table.mem_of_find? hfound)
      exact .ite (fun _ => .idle hstored.hasFamily rfl) (enters_answered _ _)

theorem enters_checkGrant {token : RefreshToken} (stored : s.Stored token)
    (grant : Option ConsentGrant) : s.Enters (checkGrant token grant) := by
  cases grant with
  | none => exact .idle stored.hasFamily rfl
  | some grant => exact .ite (fun _ => .idle stored.hasFamily rfl) (.idle stored rfl)

theorem enters_checkAgent {token : RefreshToken} (stored : s.Stored token) (request : OauthRequest)
    (grant : ConsentGrant) (scopeHash : Option (Option String)) :
    s.Enters (checkAgent request token grant scopeHash) := by
  cases scopeHash with
  | none => exact enters_refuse _
  | some scopeHash =>
      refine .ite (fun _ => .idle stored.hasFamily rfl) ?_
      split
      · exact enters_refuse _
      · exact .idle stored rfl

theorem free_of_unlocked {grantId : String} (h : s.unlocked grantId = true) :
    ∀ call ∈ s.calls, Held.grant grantId ∉ call.phase.holds := by
  intro call hcall hheld
  have hne := List.all_eq_true.mp h call hcall
  rw [OauthPhase.lock_of_holds hheld] at hne
  simp at hne

theorem newToken_of_find? {tokenHash : String} (h : (s.tokens.find? tokenHash).isNone = true) :
    s.NewToken tokenHash := by
  rintro row hrow rfl
  rw [Table.find?_key hrow] at h
  cases h

theorem of_isNewHash {tokenHash : String} (h : s.isNewHash tokenHash = true) :
    s.NewToken tokenHash ∧ ∀ call ∈ s.calls, Held.token tokenHash ∉ call.phase.holds := by
  rw [isNewHash, Bool.and_eq_true] at h
  refine ⟨newToken_of_find? h.1, fun call hcall hheld => ?_⟩
  obtain ⟨seed, hseed, hhash⟩ := OauthPhase.seed_of_holds_token hheld
  have hne := List.all_eq_true.mp h.2 call hcall
  rw [hseed, Option.all_some, hhash] at hne
  simp at hne

theorem of_isNew {tokenHash familyId : String} (h : s.isNew tokenHash familyId = true) :
    s.NewToken tokenHash ∧ s.NewFamily familyId ∧ ∀ call ∈ s.calls,
      Held.token tokenHash ∉ call.phase.holds ∧ Held.family familyId ∉ call.phase.holds := by
  simp only [isNew, Bool.and_eq_true, List.all_eq_true, decide_eq_true_eq, Option.all_eq_true] at h
  obtain ⟨⟨hnone, hfamily⟩, hcalls⟩ := h
  refine ⟨newToken_of_find? hnone, hfamily, fun call hcall => ⟨fun hheld => ?_, fun hheld => ?_⟩⟩
  · obtain ⟨seed, hseed, hhash⟩ := OauthPhase.seed_of_holds_token hheld
    exact (hcalls call hcall seed hseed).1 hhash
  · obtain ⟨seed, hseed, hsame⟩ := OauthPhase.seed_of_holds_family hheld
    exact (hcalls call hcall seed hseed).2 hsame

theorem enters_consume {sha256Hex : String → String} {code : AuthorizationCode} {mayRefresh : Bool}
    {now : Instant} {refreshToken tokenId familyId : String} {phase : OauthPhase}
    (checked : s.PhaseSound (.checked code mayRefresh))
    (h : s.consume sha256Hex code mayRefresh now refreshToken tokenId familyId = some phase) :
    s.Enters phase := by
  obtain ⟨old, hold, hhash, hgrant⟩ := checked
  have hfound : s.codes.find? code.codeHash = some old := hhash ▸ Table.find?_key hold
  rw [consume, hfound] at h
  dsimp only at h
  split at h
  · cases h
    exact .idle (fun hconsumed => ⟨old, hold, hgrant, hconsumed⟩) rfl
  · rename_i hopen
    split at h
    · rename_i hfree
      rw [Bool.and_eq_true] at hfree
      obtain ⟨hunlocked, hnew⟩ := hfree
      obtain ⟨htoken, hfamily, hheld⟩ := of_isNew hnew
      have hcode : ∀ call ∈ s.calls, Held.code old.codeHash ∉ call.phase.holds := by
        intro call hcall hcode
        have hne := List.all_eq_true.mp hunlocked call hcall
        rw [OauthPhase.lockedCode_of_holds hcode] at hne
        simp at hne
      have hunconsumed : old.consumedAt = none := by
        cases hconsumed : old.consumedAt with
        | none => rfl
        | some instant => simp [hconsumed] at hopen
      cases h
      refine ⟨⟨old, hold, rfl, hunconsumed, fun token htokenEq => ?_⟩, ?_⟩
      · cases mayRefresh with
        | false => cases htokenEq
        | true =>
            cases htokenEq
            exact ⟨rfl, rfl, htoken, hfamily⟩
      · intro held hmem call hcall
        cases mayRefresh with
        | false =>
            rw [List.mem_singleton.mp hmem]
            exact hcode call hcall
        | true =>
            rcases List.mem_cons.mp hmem with rfl | hmem
            · exact hcode call hcall
            · rcases List.mem_cons.mp hmem with rfl | hmem
              · exact (hheld call hcall).1
              · rw [List.mem_singleton.mp hmem]
                exact (hheld call hcall).2
    · cases h

theorem enters_rotate {sha256Hex : String → String} {token : RefreshToken} {scopes : List Scope}
    {resource : Option String} {now : Instant} {refreshToken tokenId : String} {phase : OauthPhase}
    (stored : s.Stored token)
    (h : s.rotate sha256Hex token scopes resource now refreshToken tokenId = some phase) :
    s.Enters phase := by
  obtain ⟨old, hold, hhash, hgrant, hfamily⟩ := stored
  have hfound : s.tokens.find? token.tokenHash = some old := hhash ▸ Table.find?_key hold
  rw [rotate, hfound] at h
  split at h
  · rename_i hfree
    rw [Bool.and_eq_true] at hfree
    obtain ⟨hnew, hheld⟩ := of_isNewHash hfree.2
    dsimp only at h
    split at h
    · rename_i hlive
      cases h
      refine ⟨⟨old, hold, rfl, hlive, hgrant, hfamily, rfl, hnew⟩, fun held hmem call hcall => ?_⟩
      rcases List.mem_cons.mp hmem with rfl | hmem
      · exact free_of_unlocked hfree.1 call hcall
      · rw [List.mem_singleton.mp hmem]
        exact hheld call hcall
    · cases h
      exact .idle ⟨old, hold, hgrant, hfamily⟩ rfl
  · cases h

theorem mem_hashesWhere {p : RefreshToken → Bool} {hash : String} :
    hash ∈ s.hashesWhere p ↔ ∃ row ∈ s.tokens.rows, p row = true ∧ row.tokenHash = hash := by
  simp [hashesWhere, and_assoc]

/-- The tokens of a family are those of its grant. -/
theorem enters_revoke (sound : s.RowsSound) {phase next : OauthPhase} {now : Instant}
    (current : s.PhaseSound phase) (h : s.revoke phase now = some next) : s.Enters next := by
  unfold revoke at h
  split at h
  · rename_i grantId consumed
    split at h
    · rename_i hfree
      cases h
      refine ⟨⟨fun hash hhash => ?_, current, fun _ row hrow hgrant hrevoked => ?_⟩, ?_⟩
      · obtain ⟨row, hrow, hp, hsame⟩ := mem_hashesWhere.mp hhash
        exact ⟨row, hrow, hsame, by simpa using (Bool.and_eq_true_iff.mp hp).1⟩
      · exact mem_hashesWhere.mpr ⟨row, hrow, by simp [hgrant, hrevoked], rfl⟩
      · intro held hmem call hcall
        rw [List.mem_singleton.mp hmem]
        exact free_of_unlocked hfree call hcall
    · cases h
  · rename_i grantId familyId
    obtain ⟨member, hmember, rfl, rfl⟩ := current
    split at h
    · rename_i hfree
      cases h
      refine ⟨⟨fun hash hhash => ?_, fun _ => sound.spent member hmember,
        fun _ row hrow hgrant _ => ?_⟩, ?_⟩
      · obtain ⟨row, hrow, hp, hsame⟩ := mem_hashesWhere.mp hhash
        exact ⟨row, hrow, hsame,
          (sound.one_family row hrow member hmember).mpr (of_decide_eq_true hp)⟩
      · exact mem_hashesWhere.mpr
          ⟨row, hrow, decide_eq_true ((sound.one_family row hrow member hmember).mp hgrant), rfl⟩
      · intro held hmem call hcall
        rw [List.mem_singleton.mp hmem]
        exact free_of_unlocked hfree call hcall
    · cases h
  · cases h

/-- Each step of a request leads to a sound phase. -/
theorem enters_advance (sound : s.RowsSound) {sha256Hex : String → String} {call : OauthCall}
    {step : OauthStep} {phase : OauthPhase} (current : s.PhaseSound call.phase)
    (h : s.advance sha256Hex call step = some phase) : s.Enters phase := by
  obtain ⟨request, before⟩ := call
  cases step with
  | client grantTypes =>
      dsimp only [advance] at h
      split at h
      · cases h
        exact enters_identify _ _
      · cases h
        exact enters_identify _ _
      · cases h
  | lookup now pkce =>
      dsimp only [advance] at h
      split at h
      · cases h
        exact enters_checkCode _ _ _ _ _
      · cases h
        exact enters_checkRefresh _ _
      · cases h
        exact enters_checkRevoke _
      · cases h
  | consume now refreshToken tokenId familyId =>
      dsimp only [advance] at h
      split at h
      · exact enters_consume current h
      · cases h
  | loadConsentGrant =>
      dsimp only [advance] at h
      split at h
      · cases h
        exact enters_checkGrant current _
      · cases h
  | loadActiveAgent scopeHash =>
      dsimp only [advance] at h
      split at h
      · cases h
        exact enters_checkAgent current _ _ _
      · cases h
  | rotate now refreshToken tokenId =>
      dsimp only [advance] at h
      split at h
      · exact enters_rotate current h
      · cases h
  | revoke now => exact enters_revoke sound current h
  | commit => cases h
  | sign tokenId => cases h
  | stop =>
      dsimp only [advance] at h
      split at h
      · cases h
      · cases h
        exact enters_answered _ _

/-! ## The commit of `consumeAuthorizationCode` -/

structure Consumes (s next : OauthWorld) (code : AuthorizationCode) (seed : Option RefreshToken)
    (now : Instant) : Prop where
  mem : code ∈ s.codes.rows
  unspent : code.consumedAt = none
  seeded : ∀ token, seed = some token → token.isLive = true ∧ token.grantId = code.grantId ∧
    s.NewToken token.tokenHash ∧ s.NewFamily token.familyId
  codes : ∀ row, row ∈ next.codes.rows ↔ row ∈ s.codes.rows ∧ row.codeHash ≠ code.codeHash ∨
    row = { code with consumedAt := some now }
  tokens : ∀ row, row ∈ next.tokens.rows ↔ row ∈ s.tokens.rows ∨ seed = some row
  grants : next.grants = s.grants
  dead : next.dead = s.dead
  consumed : next.consumed = s.consumed ++ [code.codeHash]

theorem code_unique {first second : AuthorizationCode} (hfirst : first ∈ s.codes.rows)
    (hsecond : second ∈ s.codes.rows) (same : first.codeHash = second.codeHash) : first = second :=
  List.inj_on_of_nodup_map s.codes.nodup hfirst hsecond same

theorem token_unique {first second : RefreshToken} (hfirst : first ∈ s.tokens.rows)
    (hsecond : second ∈ s.tokens.rows) (same : first.tokenHash = second.tokenHash) :
    first = second :=
  List.inj_on_of_nodup_map s.tokens.nodup hfirst hsecond same

namespace Consumes

variable {code : AuthorizationCode} {seed : Option RefreshToken} {now : Instant}

theorem origin (commit : Consumes s next code seed now) {row : AuthorizationCode}
    (hrow : row ∈ next.codes.rows) :
    ∃ old ∈ s.codes.rows, old.codeHash = row.codeHash ∧ old.grantId = row.grantId := by
  rcases (commit.codes row).mp hrow with ⟨hold, -⟩ | rfl
  · exact ⟨row, hold, rfl, rfl⟩
  · exact ⟨code, commit.mem, rfl, rfl⟩

theorem not_spent (commit : Consumes s next code seed now) (sound : s.RowsSound) :
    ¬s.Spent code.grantId := by
  rintro ⟨other, hother, hgrant, hconsumed⟩
  cases code_unique hother commit.mem (sound.one_code other hother code commit.mem hgrant)
  rw [commit.unspent] at hconsumed
  cases hconsumed

/-- The tokens there are of other grants. -/
theorem other_grant (commit : Consumes s next code seed now) (sound : s.RowsSound)
    {token : RefreshToken} (htoken : token ∈ s.tokens.rows) : token.grantId ≠ code.grantId :=
  fun hgrant => commit.not_spent sound (hgrant ▸ sound.spent token htoken)

theorem commits (commit : Consumes s next code seed now) (sound : s.RowsSound) (mint : Minting) :
    s.Commits next (OauthPhase.consuming code.codeHash seed now mint).holds where
  codes row hrow := by
    by_cases hhash : row.codeHash = code.codeHash
    · cases code_unique hrow commit.mem hhash
      exact ⟨_, (commit.codes _).mpr (.inr rfl), rfl, rfl, fun _ => rfl⟩
    · exact ⟨row, (commit.codes row).mpr (.inl ⟨hrow, hhash⟩), rfl, rfl, id⟩
  tokens token htoken := stored_of_mem ((commit.tokens token).mpr (.inl htoken))
  others row hrow hfree := by
    refine (commit.codes row).mpr (.inl ⟨hrow, fun heq => hfree ?_⟩)
    rw [heq]
    cases seed <;> simp [OauthPhase.holds]
  newToken row hrow hfree := by
    rcases (commit.tokens row).mp hrow with hold | rfl
    · exact ⟨row, hold, rfl⟩
    · exact absurd (by simp [OauthPhase.holds]) hfree
  newFamily row hrow hfree := by
    rcases (commit.tokens row).mp hrow with hold | rfl
    · exact ⟨row, hold, rfl⟩
    · exact absurd (by simp [OauthPhase.holds]) hfree
  untouched row hrow _ := (commit.tokens row).mpr (.inl hrow)
  unrevoked row hrow _ _ hspent := by
    rcases (commit.tokens row).mp hrow with hold | hnew
    · exact hold
    · rw [(commit.seeded row hnew).2.1] at hspent
      exact absurd hspent (commit.not_spent sound)

theorem pair_cases (commit : Consumes s next code seed now) (sound : s.RowsSound)
    {first second : RefreshToken} (hfirst : first ∈ next.tokens.rows)
    (hsecond : second ∈ next.tokens.rows)
    (same : first.grantId = second.grantId ∨ first.familyId = second.familyId) :
    first ∈ s.tokens.rows ∧ second ∈ s.tokens.rows ∨ first = second := by
  rcases (commit.tokens first).mp hfirst with hold | hnew
  · rcases (commit.tokens second).mp hsecond with hold' | hnew'
    · exact .inl ⟨hold, hold'⟩
    · obtain ⟨-, hgrant, -, hfamily⟩ := commit.seeded second hnew'
      rcases same with same | same
      · exact absurd (same.trans hgrant) (commit.other_grant sound hold)
      · exact absurd same (hfamily first hold)
  · rcases (commit.tokens second).mp hsecond with hold' | hnew'
    · obtain ⟨-, hgrant, -, hfamily⟩ := commit.seeded first hnew
      rcases same with same | same
      · exact absurd (same.symm.trans hgrant) (commit.other_grant sound hold')
      · exact absurd same.symm (hfamily second hold')
    · exact .inr (Option.some.inj (hnew.symm.trans hnew'))

theorem rows (commit : Consumes s next code seed now) (sound : s.RowsSound) (mint : Minting) :
    next.RowsSound where
  one_code first hfirst second hsecond same := by
    obtain ⟨old, hold, hhash, hgrant⟩ := commit.origin hfirst
    obtain ⟨old', hold', hhash', hgrant'⟩ := commit.origin hsecond
    exact hhash.symm.trans
      ((sound.one_code old hold old' hold' (hgrant.trans (same.trans hgrant'.symm))).trans hhash')
  granted row hrow := by
    obtain ⟨old, hold, -, hgrant⟩ := commit.origin hrow
    rw [commit.grants, ← hgrant]
    exact sound.granted old hold
  spent token htoken := by
    rcases (commit.tokens token).mp htoken with hold | hnew
    · exact (sound.spent token hold).later (commit.commits sound mint)
    · exact ⟨_, (commit.codes _).mpr (.inr rfl), (commit.seeded token hnew).2.1.symm, rfl⟩
  one_family first hfirst second hsecond := by
    constructor
    · intro same
      rcases commit.pair_cases sound hfirst hsecond (.inl same) with ⟨hold, hold'⟩ | rfl
      · exact (sound.one_family first hold second hold').mp same
      · rfl
    · intro same
      rcases commit.pair_cases sound hfirst hsecond (.inr same) with ⟨hold, hold'⟩ | rfl
      · exact (sound.one_family first hold second hold').mpr same
      · rfl
  one_live first hfirst second hsecond same hlive hlive' := by
    rcases commit.pair_cases sound hfirst hsecond (.inl same) with ⟨hold, hold'⟩ | rfl
    · exact sound.one_live first hold second hold' same hlive hlive'
    · rfl
  together first hfirst second hsecond same hrevoked := by
    rcases commit.pair_cases sound hfirst hsecond (.inl same) with ⟨hold, hold'⟩ | rfl
    · exact sound.together first hold second hold' same hrevoked
    · exact hrevoked
  dead grantId hdead := by
    rw [commit.dead] at hdead
    obtain ⟨hspent, hrevoked⟩ := sound.dead grantId hdead
    refine ⟨hspent.later (commit.commits sound mint), fun token htoken hgrant => ?_⟩
    rcases (commit.tokens token).mp htoken with hold | hnew
    · exact hrevoked token hold hgrant
    · rw [← hgrant, (commit.seeded token hnew).2.1] at hspent
      exact absurd hspent (commit.not_spent sound)
  consumed := by
    have hfresh : code.codeHash ∉ s.consumed := by
      intro hmem
      obtain ⟨row, hrow, hhash, hconsumed⟩ := (sound.consumed.2 _).mp hmem
      exact commit.not_spent sound
        ⟨row, hrow, congrArg (·.grantId) (code_unique hrow commit.mem hhash), hconsumed⟩
    rw [commit.consumed]
    refine ⟨?_, fun codeHash => ?_⟩
    · rw [List.nodup_append]
      refine ⟨sound.consumed.1, List.nodup_singleton _, fun hash hmem other hother => ?_⟩
      rw [List.mem_singleton.mp hother]
      exact fun heq => hfresh (heq ▸ hmem)
    · rw [List.mem_append, List.mem_singleton, sound.consumed.2]
      constructor
      · rintro (⟨row, hrow, rfl, hconsumed⟩ | rfl)
        · obtain ⟨kept, hkept, hhash, -, hkeeps⟩ :=
            (commit.commits sound mint).codes row hrow
          exact ⟨kept, hkept, hhash, hkeeps hconsumed⟩
        · exact ⟨_, (commit.codes _).mpr (.inr rfl), rfl, rfl⟩
      · rintro ⟨row, hrow, rfl, hconsumed⟩
        rcases (commit.codes row).mp hrow with ⟨hold, -⟩ | rfl
        · exact .inl ⟨row, hold, rfl, hconsumed⟩
        · exact .inr rfl

end Consumes

/-! ## The commits that keep the families -/

/-- A commit that leaves codes and families alone. -/
theorem RowsSound.of_origin (sound : s.RowsSound) (codes : next.codes = s.codes)
    (grants : ∀ grant ∈ s.grants.rows, ∃ row ∈ next.grants.rows, row.id = grant.id)
    (consumed : next.consumed = s.consumed)
    (origin : ∀ row ∈ next.tokens.rows, s.HasFamily row.grantId row.familyId)
    (one_live : ∀ first ∈ next.tokens.rows, ∀ second ∈ next.tokens.rows,
      first.grantId = second.grantId → first.isLive = true → second.isLive = true → first = second)
    (together : ∀ first ∈ next.tokens.rows, ∀ second ∈ next.tokens.rows,
      first.grantId = second.grantId → first.revokedAt.isSome = true →
        second.revokedAt.isSome = true)
    (dead : ∀ grantId ∈ next.dead, s.Spent grantId ∧
      ∀ token ∈ next.tokens.rows, token.grantId = grantId → token.revokedAt.isSome = true) :
    next.RowsSound := by
  have hspent : ∀ {grantId}, s.Spent grantId → next.Spent grantId := by
    rintro grantId ⟨code, hcode, hkept⟩
    exact ⟨code, codes ▸ hcode, hkept⟩
  refine ⟨?_, fun code hcode => ?_, fun token htoken => ?_, fun first hfirst second hsecond => ?_,
    one_live, together,
    fun grantId hdead => ⟨hspent (dead grantId hdead).1, (dead grantId hdead).2⟩, ?_⟩
  · rw [codes]
    exact sound.one_code
  · obtain ⟨grant, hgrant, hid⟩ := sound.granted code (codes ▸ hcode)
    obtain ⟨row, hrow, hsame⟩ := grants grant hgrant
    exact ⟨row, hrow, hsame.trans hid⟩
  · obtain ⟨row, hrow, hgrant, -⟩ := origin token htoken
    exact hspent (hgrant ▸ sound.spent row hrow)
  · obtain ⟨row, hrow, hgrant, hfamily⟩ := origin first hfirst
    obtain ⟨row', hrow', hgrant', hfamily'⟩ := origin second hsecond
    rw [← hgrant, ← hgrant', ← hfamily, ← hfamily']
    exact sound.one_family row hrow row' hrow'
  · rw [codes, consumed]
    exact sound.consumed

/-- A step that commits nothing. -/
theorem RowsSound.same (sound : s.RowsSound) (codes : next.codes = s.codes)
    (tokens : next.tokens = s.tokens) (dead : next.dead = s.dead)
    (consumed : next.consumed = s.consumed)
    (grants : ∀ grant ∈ s.grants.rows, ∃ row ∈ next.grants.rows, row.id = grant.id) :
    next.RowsSound := by
  refine sound.of_origin codes grants consumed ?_ ?_ ?_ ?_
  · rw [tokens]
    exact fun row hrow => ⟨row, hrow, rfl, rfl⟩
  · rw [tokens]
    exact sound.one_live
  · rw [tokens]
    exact sound.together
  · rw [tokens, dead]
    exact sound.dead

theorem revokedAt_of_isLive {token : RefreshToken} (live : token.isLive = true) :
    token.revokedAt = none := by
  rw [RefreshToken.isLive, Bool.and_eq_true, Option.isNone_iff_eq_none,
    Option.isNone_iff_eq_none] at live
  exact live.2

/-! ### `rotateRefreshToken` -/

structure Rotates (s next : OauthWorld) (old seed : RefreshToken) (now : Instant) : Prop where
  mem : old ∈ s.tokens.rows
  live : old.isLive = true
  grant : old.grantId = seed.grantId
  family : old.familyId = seed.familyId
  seedLive : seed.isLive = true
  newToken : s.NewToken seed.tokenHash
  tokens : ∀ row, row ∈ next.tokens.rows ↔
    row ∈ s.tokens.rows ∧ row.tokenHash ≠ old.tokenHash ∨ row = old.rotate now ∨ row = seed
  codes : next.codes = s.codes
  grants : next.grants = s.grants
  dead : next.dead = s.dead
  consumed : next.consumed = s.consumed

namespace Rotates

variable {old seed : RefreshToken} {now : Instant}

/-- Each token continues one that was there, revoked or not as that one. -/
theorem origin (commit : Rotates s next old seed now) {row : RefreshToken}
    (hrow : row ∈ next.tokens.rows) : ∃ before ∈ s.tokens.rows, before.grantId = row.grantId ∧
      before.familyId = row.familyId ∧ before.revokedAt = row.revokedAt := by
  rcases (commit.tokens row).mp hrow with ⟨hold, -⟩ | rfl | rfl
  · exact ⟨row, hold, rfl, rfl, rfl⟩
  · exact ⟨old, commit.mem, rfl, rfl, rfl⟩
  · exact ⟨old, commit.mem, commit.grant, commit.family,
      (revokedAt_of_isLive commit.live).trans (revokedAt_of_isLive commit.seedLive).symm⟩

/-- After the rotation the new token is the one that lives. -/
theorem live_cases (commit : Rotates s next old seed now) (sound : s.RowsSound) {row : RefreshToken}
    (hrow : row ∈ next.tokens.rows) (hlive : row.isLive = true) :
    row = seed ∨ row ∈ s.tokens.rows ∧ row.grantId ≠ seed.grantId := by
  rcases (commit.tokens row).mp hrow with ⟨hold, hhash⟩ | rfl | rfl
  · refine .inr ⟨hold, fun hgrant => hhash ?_⟩
    rw [sound.one_live row hold old commit.mem (hgrant.trans commit.grant.symm) hlive commit.live]
  · cases hlive
  · exact .inl rfl

theorem rows (commit : Rotates s next old seed now) (sound : s.RowsSound) : next.RowsSound := by
  refine sound.of_origin commit.codes (fun grant hgrant => ⟨grant, commit.grants ▸ hgrant, rfl⟩)
    commit.consumed (fun row hrow => ?_)
    (fun first hfirst second hsecond same hlive hlive' => ?_)
    (fun first hfirst second hsecond same hrevoked => ?_) (fun grantId hdead => ?_)
  · obtain ⟨before, hbefore, hgrant, hfamily, -⟩ := commit.origin hrow
    exact ⟨before, hbefore, hgrant, hfamily⟩
  · rcases commit.live_cases sound hfirst hlive with rfl | ⟨hold, hne⟩
    · rcases commit.live_cases sound hsecond hlive' with rfl | ⟨-, hne'⟩
      · rfl
      · exact absurd same.symm hne'
    · rcases commit.live_cases sound hsecond hlive' with rfl | ⟨hold', -⟩
      · exact absurd same hne
      · exact sound.one_live first hold second hold' same hlive hlive'
  · obtain ⟨before, hbefore, hgrant, -, hkept⟩ := commit.origin hfirst
    obtain ⟨before', hbefore', hgrant', -, hkept'⟩ := commit.origin hsecond
    rw [← hkept']
    rw [← hkept] at hrevoked
    exact sound.together before hbefore before' hbefore'
      (hgrant.trans (same.trans hgrant'.symm)) hrevoked
  · rw [commit.dead] at hdead
    obtain ⟨hspent, hrevoked⟩ := sound.dead grantId hdead
    refine ⟨hspent, fun row hrow hrowGrant => ?_⟩
    obtain ⟨before, hbefore, hgrant, -, hkept⟩ := commit.origin hrow
    rw [← hkept]
    exact hrevoked before hbefore (hgrant.trans hrowGrant)

theorem commits (commit : Rotates s next old seed now) (tokenHash : String) (mint : Minting) :
    s.Commits next (OauthPhase.rotating tokenHash seed now mint).holds where
  codes code hcode := ⟨code, commit.codes ▸ hcode, rfl, rfl, id⟩
  tokens token htoken := by
    by_cases hhash : token.tokenHash = old.tokenHash
    · cases token_unique htoken commit.mem hhash
      exact ⟨_, (commit.tokens _).mpr (.inr (.inl rfl)), rfl, rfl, rfl⟩
    · exact stored_of_mem ((commit.tokens token).mpr (.inl ⟨htoken, hhash⟩))
  others code hcode _ := commit.codes ▸ hcode
  newToken row hrow hfree := by
    rcases (commit.tokens row).mp hrow with ⟨hold, -⟩ | rfl | rfl
    · exact ⟨row, hold, rfl⟩
    · exact ⟨old, commit.mem, rfl⟩
    · exact absurd (by simp [OauthPhase.holds]) hfree
  newFamily row hrow _ := by
    obtain ⟨before, hbefore, -, hfamily, -⟩ := commit.origin hrow
    exact ⟨before, hbefore, hfamily⟩
  untouched row hrow hfree := by
    refine (commit.tokens row).mpr (.inl ⟨hrow, fun hhash => hfree ?_⟩)
    rw [token_unique hrow commit.mem hhash, commit.grant]
    simp [OauthPhase.holds]
  unrevoked row hrow _ hfree _ := by
    rcases (commit.tokens row).mp hrow with ⟨hold, -⟩ | rfl | rfl
    · exact hold
    · exact absurd (commit.grant ▸ by simp [OauthPhase.holds]) hfree
    · exact absurd (by simp [OauthPhase.holds]) hfree

end Rotates

/-! ### `revokeRefreshFamily` and `revokeRefreshTokenFamilyForGrant` -/

structure Revokes (s next : OauthWorld) (grantId : String) (hashes : List String) (now : Instant)
    (all : Bool) : Prop where
  sound : s.PhaseSound (.revoking grantId hashes now all)
  tokens : ∀ row, row ∈ next.tokens.rows ↔ row ∈ s.tokens.rows ∧ row.tokenHash ∉ hashes ∨
    ∃ old ∈ s.tokens.rows, old.tokenHash ∈ hashes ∧ row = old.revoke now
  codes : next.codes = s.codes
  grants : next.grants = s.grants
  dead : next.dead = if all then s.dead ++ [grantId] else s.dead
  consumed : next.consumed = s.consumed

namespace Revokes

variable {grantId : String} {hashes : List String} {now : Instant} {all : Bool}

/-- Each token is one that was there, revoked if that one was; what lives was not touched. -/
theorem origin (commit : Revokes s next grantId hashes now all) {row : RefreshToken}
    (hrow : row ∈ next.tokens.rows) : ∃ before ∈ s.tokens.rows,
      before.tokenHash = row.tokenHash ∧ before.grantId = row.grantId ∧
        before.familyId = row.familyId ∧
        (before.revokedAt.isSome = true → row.revokedAt.isSome = true) ∧
        (row.revokedAt = none → before = row) := by
  rcases (commit.tokens row).mp hrow with ⟨hold, -⟩ | ⟨old, hold, -, rfl⟩
  · exact ⟨row, hold, rfl, rfl, rfl, id, fun _ => rfl⟩
  · exact ⟨old, hold, rfl, rfl, rfl, fun _ => rfl, fun hnone => by cases hnone⟩

/-- The tokens of the hashes are the grant's. -/
theorem grant_of_mem (commit : Revokes s next grantId hashes now all) {token : RefreshToken}
    (htoken : token ∈ s.tokens.rows) (hhash : token.tokenHash ∈ hashes) :
    token.grantId = grantId := by
  obtain ⟨row, hrow, hsame, hgrant⟩ := commit.sound.1 _ hhash
  cases token_unique hrow htoken hsame
  exact hgrant

/-- Once something of the grant is revoked, all of it is. -/
theorem revoked_of_grant (commit : Revokes s next grantId hashes now all)
    (some : all = true ∨ hashes ≠ []) {row : RefreshToken} (hrow : row ∈ next.tokens.rows)
    (hgrant : row.grantId = grantId) : row.revokedAt.isSome = true := by
  rcases (commit.tokens row).mp hrow with ⟨hold, hhash⟩ | ⟨old, -, -, rfl⟩
  · cases hrevoked : row.revokedAt with
    | none => exact absurd (commit.sound.2.2 some row hold hgrant hrevoked) hhash
    | some instant => rfl
  · rfl

theorem rows (commit : Revokes s next grantId hashes now all) (sound : s.RowsSound) :
    next.RowsSound := by
  refine sound.of_origin commit.codes (fun grant hgrant => ⟨grant, commit.grants ▸ hgrant, rfl⟩)
    commit.consumed (fun row hrow => ?_)
    (fun first hfirst second hsecond same hlive hlive' => ?_)
    (fun first hfirst second hsecond same hrevoked => ?_) (fun deadId hdead => ?_)
  · obtain ⟨before, hbefore, -, hgrant, hfamily, -⟩ := commit.origin hrow
    exact ⟨before, hbefore, hgrant, hfamily⟩
  · obtain ⟨before, hbefore, -, -, -, -, hsame⟩ := commit.origin hfirst
    obtain ⟨before', hbefore', -, -, -, -, hsame'⟩ := commit.origin hsecond
    cases hsame (revokedAt_of_isLive hlive)
    cases hsame' (revokedAt_of_isLive hlive')
    exact sound.one_live first hbefore second hbefore' same hlive hlive'
  · rcases (commit.tokens first).mp hfirst with ⟨hold, -⟩ | ⟨old, hold, hhash, rfl⟩
    · obtain ⟨before, hbefore, -, hgrant, -, hkept, -⟩ := commit.origin hsecond
      exact hkept (sound.together first hold before hbefore (same.trans hgrant.symm) hrevoked)
    · have hgrant : old.grantId = grantId := commit.grant_of_mem hold hhash
      exact commit.revoked_of_grant (.inr (List.ne_nil_of_mem hhash)) hsecond
        (same.symm.trans hgrant)
  · by_cases hlate : all = true ∧ deadId = grantId
    · obtain ⟨hall, rfl⟩ := hlate
      exact ⟨commit.sound.2.1 hall,
        fun row hrow hgrant => commit.revoked_of_grant (.inl hall) hrow hgrant⟩
    · have hearlier : deadId ∈ s.dead := by
        rw [commit.dead] at hdead
        split at hdead
        · rename_i hall
          rcases List.mem_append.mp hdead with hdead | hdead
          · exact hdead
          · exact absurd ⟨hall, List.mem_singleton.mp hdead⟩ hlate
        · exact hdead
      obtain ⟨hspent, hrevoked⟩ := sound.dead deadId hearlier
      refine ⟨hspent, fun row hrow hrowGrant => ?_⟩
      obtain ⟨before, hbefore, -, hgrant, -, hkept, -⟩ := commit.origin hrow
      exact hkept (hrevoked before hbefore (hgrant.trans hrowGrant))

theorem commits (commit : Revokes s next grantId hashes now all) :
    s.Commits next (OauthPhase.revoking grantId hashes now all).holds where
  codes code hcode := ⟨code, commit.codes ▸ hcode, rfl, rfl, id⟩
  tokens token htoken := by
    by_cases hhash : token.tokenHash ∈ hashes
    · exact ⟨_, (commit.tokens _).mpr (.inr ⟨token, htoken, hhash, rfl⟩), rfl, rfl, rfl⟩
    · exact stored_of_mem ((commit.tokens token).mpr (.inl ⟨htoken, hhash⟩))
  others code hcode _ := commit.codes ▸ hcode
  newToken row hrow _ := by
    obtain ⟨before, hbefore, hhash, -⟩ := commit.origin hrow
    exact ⟨before, hbefore, hhash⟩
  newFamily row hrow _ := by
    obtain ⟨before, hbefore, -, -, hfamily, -⟩ := commit.origin hrow
    exact ⟨before, hbefore, hfamily⟩
  untouched row hrow hfree := by
    refine (commit.tokens row).mpr (.inl ⟨hrow, fun hhash => hfree ?_⟩)
    rw [commit.grant_of_mem hrow hhash]
    simp [OauthPhase.holds]
  unrevoked row hrow hrevoked _ _ := by
    obtain ⟨before, hbefore, -, -, -, -, hsame⟩ := commit.origin hrow
    exact hsame hrevoked ▸ hbefore

end Revokes

/-! ## Steps and runs -/

section Steps

variable {sha256Hex : String → String} {authAudience mcpPublicResourceUrl : String} {i : Nat}
  {call : OauthCall}

theorem Sound.setPhase (sound : s.Sound) (hcall : s.calls[i]? = some call) {phase : OauthPhase}
    (enters : s.Enters phase) : (s.setPhase i call phase).Sound where
  rows := sound.rows.same rfl rfl rfl rfl fun grant hgrant => ⟨grant, hgrant, rfl⟩
  exclusive := sound.exclusive.set hcall fun held hheld _ other hother _ =>
    enters.2 held hheld other (List.mem_of_getElem? hother)
  phases j other hother := by
    rcases set_cases hcall hother with ⟨-, rfl⟩ | ⟨-, hold⟩
    · exact enters.1
    · exact sound.phases j other hold

/-- A commit by the request `i`, whose transaction is then closed. -/
theorem Sound.of_commit (sound : s.Sound) (hcall : s.calls[i]? = some call) {phase : OauthPhase}
    (calls : next.calls = s.calls.set i { call with phase }) (closed : phase.holds = [])
    (current : next.PhaseSound phase) (rows : next.RowsSound)
    (commits : s.Commits next call.phase.holds) : next.Sound where
  rows := rows
  exclusive := by
    rw [calls]
    refine sound.exclusive.set hcall fun held hheld => ?_
    rw [closed] at hheld
    cases hheld
  phases j other hother := by
    rw [calls] at hother
    rcases set_cases hcall hother with ⟨-, rfl⟩ | ⟨hne, hold⟩
    · exact current
    · exact (sound.phases j other hold).later sound.rows commits fun held hmine hheld =>
        hne (sound.exclusive j i other call held hold hcall hmine hheld)

theorem Sound.commit (sound : s.Sound) (hcall : s.calls[i]? = some call)
    (h : s.commit i call = some next) : next.Sound := by
  obtain ⟨request, phase⟩ := call
  have hphase := sound.phases i _ hcall
  cases phase with
  | consuming codeHash seed now mint =>
      obtain ⟨code, hcode, rfl, hopen, hseeded⟩ := hphase
      have commit : Consumes s next code seed now := by
        cases h
        refine ⟨hcode, hopen, hseeded, fun row => ?_, fun row => ?_, rfl, rfl, rfl⟩
        · refine (@Table.mem_updateWhere_cases _ _ _ _ _ (fun old : AuthorizationCode =>
            { old with consumedAt := some now }) (fun _ => rfl) row).trans (or_congr ?_ ⟨?_, ?_⟩)
          · rw [decide_eq_false_iff_not]
          · rintro ⟨old, hold, hhash, rfl⟩
            rw [code_unique hold hcode (of_decide_eq_true hhash)]
          · rintro rfl
            exact ⟨code, hcode, decide_eq_true rfl, rfl⟩
        · cases seed with
          | none => simp
          | some token =>
              refine (Table.mem_put_of_fresh (hseeded token rfl).2.2.1).trans (or_congr Iff.rfl ?_)
              rw [Option.some.injEq, eq_comm]
      cases h
      exact sound.of_commit hcall rfl rfl trivial (commit.rows sound.rows mint)
        (commit.commits sound.rows mint)
  | rotating tokenHash seed now mint =>
      obtain ⟨old, hold, rfl, hlive, hgrant, hfamily, hseedLive, hnew⟩ := hphase
      have commit : Rotates s next old seed now := by
        cases h
        refine ⟨hold, hlive, hgrant, hfamily, hseedLive, hnew, fun row => ?_, rfl, rfl, rfl, rfl⟩
        refine (Table.mem_put_of_fresh fun other hother => ?_).trans ?_
        · rcases Table.mem_updateWhere_cases.mp hother with ⟨hkept, -⟩ | ⟨before, hbefore, -, rfl⟩
          · exact hnew other hkept
          · exact hnew before hbefore
        · rw [← or_assoc]
          refine or_congr (Table.mem_updateWhere_cases.trans (or_congr ?_ ⟨?_, ?_⟩)) Iff.rfl
          · rw [decide_eq_false_iff_not]
          · rintro ⟨before, hbefore, hhash, rfl⟩
            rw [token_unique hbefore hold (of_decide_eq_true hhash)]
          · rintro rfl
            exact ⟨old, hold, decide_eq_true rfl, rfl⟩
      cases h
      exact sound.of_commit hcall rfl rfl trivial (commit.rows sound.rows)
        (commit.commits old.tokenHash mint)
  | revoking grantId hashes now all =>
      have commit : Revokes s next grantId hashes now all := by
        cases h
        refine ⟨hphase, fun row => ?_, rfl, rfl, rfl, rfl⟩
        refine (@Table.mem_updateWhere_cases _ _ _ _ _ (fun old : RefreshToken => old.revoke now)
          (fun _ => rfl) row).trans
          (or_congr ?_ ?_)
        · rw [decide_eq_false_iff_not]
        · simp only [decide_eq_true_eq]
      cases h
      refine sound.of_commit hcall rfl ?_ ?_ (commit.rows sound.rows) commit.commits
      · cases request <;> rfl
      · cases request <;> trivial
  | _ => cases h

theorem Sound.sign (sound : s.Sound) (hcall : s.calls[i]? = some call) {tokenId : String}
    (h : s.sign authAudience mcpPublicResourceUrl i call tokenId = some next) : next.Sound := by
  unfold OauthWorld.sign at h
  split at h
  · cases h
    have hset := sound.setPhase hcall (enters_answered 200 "")
    exact ⟨hset.rows.same rfl rfl rfl rfl fun grant hgrant => ⟨grant, hgrant, rfl⟩,
      hset.exclusive, hset.phases⟩
  · cases h

/-- A consent brings a grant of its own. -/
theorem Sound.consent (sound : s.Sound) {consent : Consent} {now : Instant}
    (h : s.issueAuthorizationCode sha256Hex consent now = some next) : next.Sound := by
  rw [issueAuthorizationCode] at h
  obtain ⟨grants, hgrants, h⟩ := Option.bind_eq_some_iff.mp h
  obtain ⟨codes, hcodes, h⟩ := Option.bind_eq_some_iff.mp h
  cases h
  have hgrantRows := Table.insert?_rows hgrants
  have hcodeRows := Table.insert?_rows hcodes
  have hfresh : ∀ code ∈ s.codes.rows, code.grantId ≠ consent.grantId := by
    rintro code hcode heq
    obtain ⟨grant, hgrant, hid⟩ := sound.rows.granted code hcode
    have hnone := Table.insert?_fresh hgrants
    rw [← heq, ← hid, Table.find?_key hgrant] at hnone
    cases hnone
  have hold : ∀ code ∈ s.codes.rows, code ∈ codes.rows := fun code hcode =>
    hcodeRows ▸ List.mem_append_left _ hcode
  have hspent : ∀ grantId, s.Spent grantId →
      ({ s with grants, codes } : OauthWorld).Spent grantId :=
    fun grantId ⟨code, hcode, hkept⟩ => ⟨code, hold code hcode, hkept⟩
  refine ⟨⟨?_, ?_, fun token htoken => hspent _ (sound.rows.spent token htoken),
    sound.rows.one_family, sound.rows.one_live, sound.rows.together,
    fun grantId hdead => ⟨hspent _ (sound.rows.dead grantId hdead).1,
      (sound.rows.dead grantId hdead).2⟩, sound.rows.consumed.1, fun codeHash => ?_⟩,
    sound.exclusive, fun j other hother => ?_⟩
  · intro first hfirst second hsecond same
    rw [show ({ s with grants, codes } : OauthWorld).codes.rows = _ from hcodeRows,
      List.mem_append, List.mem_singleton] at hfirst hsecond
    rcases hfirst with hfirst | rfl
    · rcases hsecond with hsecond | rfl
      · exact sound.rows.one_code first hfirst second hsecond same
      · exact absurd same (hfresh first hfirst)
    · rcases hsecond with hsecond | rfl
      · exact absurd same.symm (hfresh second hsecond)
      · rfl
  · intro code hcode
    rw [show ({ s with grants, codes } : OauthWorld).codes.rows = _ from hcodeRows,
      List.mem_append, List.mem_singleton] at hcode
    rcases hcode with hcode | rfl
    · obtain ⟨grant, hgrant, hid⟩ := sound.rows.granted code hcode
      exact ⟨grant, hgrantRows ▸ List.mem_append_left _ hgrant, hid⟩
    · exact ⟨_, hgrantRows ▸ List.mem_append_right _ (List.mem_singleton_self _), rfl⟩
  · rw [sound.rows.consumed.2]
    constructor
    · rintro ⟨code, hcode, hkept⟩
      exact ⟨code, hold code hcode, hkept⟩
    · rintro ⟨code, hcode, hhash, hconsumed⟩
      rw [show ({ s with grants, codes } : OauthWorld).codes.rows = _ from hcodeRows,
        List.mem_append, List.mem_singleton] at hcode
      rcases hcode with hcode | rfl
      · exact ⟨code, hcode, hhash, hconsumed⟩
      · cases hconsumed
  · have commits : s.Commits { s with grants, codes } [] :=
      ⟨fun code hcode => ⟨code, hold code hcode, rfl, rfl, id⟩, fun token htoken =>
        stored_of_mem htoken, fun code hcode _ => hold code hcode, fun row hrow _ =>
        ⟨row, hrow, rfl⟩, fun row hrow _ => ⟨row, hrow, rfl⟩, fun row hrow _ => hrow,
        fun row hrow _ _ _ => hrow⟩
    exact (sound.phases j other hother).later sound.rows commits fun _ _ => List.not_mem_nil

/-- Every step keeps the invariant. -/
theorem Sound.step (sound : s.Sound) {label : OauthLabel}
    (h : s.step sha256Hex authAudience mcpPublicResourceUrl label = some next) : next.Sound := by
  cases label with
  | consent consent now => exact sound.consent h
  | revokeGrant grantId now =>
      cases h
      refine ⟨sound.rows.same rfl rfl rfl rfl fun grant hgrant => ?_, sound.exclusive, sound.phases⟩
      exact ⟨_, (@Table.mem_updateWhere _ _ _ _ _ (fun old : ConsentGrant =>
        { old with revokedAt := some now }) (fun _ => rfl) _).mpr ⟨grant, hgrant, rfl⟩,
        by split <;> rfl⟩
  | present request =>
      cases h
      refine ⟨sound.rows.same rfl rfl rfl rfl fun grant hgrant => ⟨grant, hgrant, rfl⟩,
        sound.exclusive.snoc rfl, fun j other hother => ?_⟩
      rcases snoc_cases hother with ⟨-, rfl⟩ | hold
      · trivial
      · exact sound.phases j other hold
  | advance i step =>
      dsimp only [OauthWorld.step] at h
      split at h
      · cases h
      · rename_i call hcall
        split at h
        · exact sound.commit hcall h
        · exact sound.sign hcall h
        · obtain ⟨phase, hphase, rfl⟩ := Option.map_eq_some_iff.mp h
          exact sound.setPhase hcall (enters_advance sound.rows (sound.phases i call hcall) hphase)

theorem sound_empty : ({} : OauthWorld).Sound := by
  refine ⟨⟨?_, ?_, ?_, ?_, ?_, ?_, ?_, List.nodup_nil, fun codeHash => ⟨?_, ?_⟩⟩,
    fun _ _ _ _ _ h => (by cases h), fun _ _ h => by cases h⟩
  iterate 7 exact fun _ h => by cases h
  · exact fun h => by cases h
  · exact fun ⟨_, h, _⟩ => by cases h

theorem sound_of_run {labels : List OauthLabel}
    (hrun : (oauthServer sha256Hex authAudience mcpPublicResourceUrl).run {} labels = some s) :
    s.Sound :=
  (oauthServer sha256Hex authAudience mcpPublicResourceUrl).invariant_of_run
    (fun _ _ _ sound hstep => sound.step hstep) sound_empty hrun

/-- However the requests interleave: a code is consumed once, a grant has one family with one
live token at most, its tokens are revoked together, and none outlives a revocation. -/
theorem families_safe {labels : List OauthLabel}
    (hrun : (oauthServer sha256Hex authAudience mcpPublicResourceUrl).run {} labels = some s) :
    s.consumed.Nodup ∧
      (∀ first ∈ s.tokens.rows, ∀ second ∈ s.tokens.rows, first.grantId = second.grantId →
        first.familyId = second.familyId ∧
          (first.isLive = true → second.isLive = true → first = second) ∧
          (first.revokedAt.isSome = true → second.revokedAt.isSome = true)) ∧
      ∀ token ∈ s.tokens.rows, token.grantId ∈ s.dead → token.revokedAt.isSome = true := by
  have sound := (sound_of_run hrun).rows
  refine ⟨sound.consumed.1, fun first hfirst second hsecond same => ⟨?_, ?_, ?_⟩,
    fun token htoken hdead => (sound.dead _ hdead).2 token htoken rfl⟩
  · exact (sound.one_family first hfirst second hsecond).mp same
  · exact sound.one_live first hfirst second hsecond same
  · exact sound.together first hfirst second hsecond same

end Steps

end OauthWorld

/-! ## A refresh token comes twice -/

namespace Replay

def consent : Consent :=
  { grantId := "grant_1", code := "code_1", clientId := "client_1", agentId := "agent_1"
    scope := some "ledger:read wiki:read raw:write"
    registered := ["ledger:read", "wiki:read", "raw:write"]
    selected := ["ledger:read", "wiki:read"], scopeHash := "0x01"
    redirectUri := "https://client.example/callback", codeChallenge := "challenge"
    resource := none }

def grantTypes : Option (List String) := some ["authorization_code", "refresh_token"]

/-- The code is exchanged, and the refresh token used and then used again. -/
def labels : List OauthLabel :=
  [.consent consent 0,
    .present (.exchange "code_1" "https://client.example/callback" "client_1"),
    .advance 0 (.client grantTypes),
    .advance 0 (.lookup 1000 true),
    .advance 0 (.consume 1000 "refresh_1" "tok_1" "fam_1"),
    .advance 0 .commit,
    .advance 0 (.sign "tok_2"),
    .present (.refresh "refresh_1" "client_1" (some "ledger:read") none),
    .advance 1 (.client grantTypes),
    .advance 1 (.lookup 2000 false),
    .advance 1 .loadConsentGrant,
    .advance 1 (.loadActiveAgent (some (some "0x01"))),
    .advance 1 (.rotate 2000 "refresh_2" "tok_3"),
    .advance 1 .commit,
    .advance 1 (.sign "tok_4"),
    .present (.refresh "refresh_1" "client_1" none none),
    .advance 2 (.client grantTypes),
    .advance 2 (.lookup 3000 false),
    .advance 2 (.revoke 3000),
    .advance 2 .commit]

def server : Machine OauthWorld OauthLabel :=
  oauthServer (fun text => "sha256:" ++ text) "https://api.brain.fi" "https://mcp.brain.fi"

theorem replayed_revoked : ∃ s, server.run {} labels = some s ∧ s.dead = ["grant_1"] ∧
    s.tokens.rows.length = 2 ∧
      ∀ token ∈ s.tokens.rows, token.grantId ∈ s.dead → token.revokedAt.isSome = true := by
  have hsome : (server.run {} labels).map (fun s => (s.dead, s.tokens.rows.length)) =
      some (["grant_1"], 2) := rfl
  obtain ⟨s, hrun, hpair⟩ := Option.map_eq_some_iff.mp hsome
  obtain ⟨hdead, hlength⟩ := Prod.mk.inj hpair
  exact ⟨s, hrun, hdead, hlength, (OauthWorld.families_safe hrun).2.2⟩

end Replay

end BrainCore.Auth
