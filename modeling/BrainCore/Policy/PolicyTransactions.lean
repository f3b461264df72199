import BrainCore.Policy.PolicyLifecycle

/-!
# The routes keep the life of a policy

Each transaction of the two routes, interleaved with any others, ends in a
commit that the discipline permits, and so every run of requests keeps to it.
-/

namespace BrainCore.Policy

open BrainCore.Foundation BrainCore.Audit PolicyRepository

/-! ## The signatures of a request -/

structure Accepted (deps : PolicyDeps) (request : SignRequest) (typed : PolicyTypedData)
    (seen : List String) (signatures : List PolicySignature) : Prop where
  verified : ∀ sig ∈ signatures, deps.verifyTypedData typed sig = .ok true
  distinct : (signatures.map fun sig => toLowerCase sig.address).Nodup
  fresh : ∀ sig ∈ signatures, toLowerCase sig.address ∉ seen
  authorized : ∀ sig ∈ signatures,
    request.isAuthorizedSigner request.tenantId sig.address = .ok true

theorem checkSignatures_ok {deps : PolicyDeps} {request : SignRequest} {typed : PolicyTypedData}
    {seen : List String} {signatures : List PolicySignature} {result : Unit}
    (h : checkSignatures deps request typed seen signatures = .ok result) :
    Accepted deps request typed seen signatures := by
  induction signatures generalizing seen with
  | nil =>
      constructor
      · intro sig hsig
        cases hsig
      · exact List.nodup_nil
      · intro sig hsig
        cases hsig
      · intro sig hsig
        cases hsig
  | cons sig rest ih =>
      unfold checkSignatures at h
      obtain ⟨ok, hok, h⟩ := bind_ok.mp h
      split at h
      · cases h
      · rename_i hverified
        split at h
        · cases h
        · rename_i hseen
          obtain ⟨authorized, hauthorized, h⟩ := bind_ok.mp h
          split at h
          · cases h
          · rename_i hknown
            have hrest := ih h
            simp only [Bool.not_eq_true', Bool.not_eq_false] at hverified hknown
            subst hverified hknown
            constructor
            · exact List.forall_mem_cons.mpr ⟨hok, hrest.verified⟩
            · rw [List.map_cons, List.nodup_cons]
              refine ⟨fun hmem => ?_, hrest.distinct⟩
              obtain ⟨other, hother, hsame⟩ := List.mem_map.mp hmem
              apply hrest.fresh other hother
              rw [hsame]
              exact List.mem_append_right _ List.mem_cons_self
            · refine List.forall_mem_cons.mpr ⟨hseen, fun other hother hmem => ?_⟩
              exact hrest.fresh other hother (List.mem_append_left _ hmem)
            · exact List.forall_mem_cons.mpr ⟨hauthorized, hrest.authorized⟩

/-! ## Rows that are rewritten -/

/-- A committed row of the tenant, as it is but for its signers or deactivated. -/
structure Rewrites (tenant : String) (db : Policies) (w old : PolicyRow) : Prop where
  stored : db.find? w.id = some old
  document : w.document = old.document
  tenant : w.tenantId = tenant
  state : w.state = old.state ∨ old.state = .active ∧ w.state = .deactivated

/-- The transaction has rewritten such rows alone. -/
def Rewritten (tenant : String) (db : Policies) (own : List PolicyRow) : Prop :=
  ∀ w ∈ own, ∃ old, Rewrites tenant db w old

/-- The transaction has moved no state. -/
def Unmoved (tenant : String) (db : Policies) (own : List PolicyRow) : Prop :=
  ∀ w ∈ own, ∃ old, Rewrites tenant db w old ∧ w.state = old.state

/-- The document of the row is stored. -/
def Stored (db : Policies) (row : PolicyRow) : Prop :=
  ∃ current, db.find? row.id = some current ∧ current.document = row.document

section Rules

variable {deps : PolicyDeps} {begun : SignRequest → Prop} {start db : Policies}
  {own : List PolicyRow} {tenant : String}

theorem Unmoved.rewritten (h : Unmoved tenant db own) : Rewritten tenant db own := by
  intro w hw
  obtain ⟨old, hold, -⟩ := h w hw
  exact ⟨old, hold⟩

theorem Rewrites.of_free {theirs : List PolicyRow} {w old : PolicyRow}
    (h : Rewrites tenant db w old) (hfree : Free policyStore theirs own) (hw : w ∈ own) :
    Rewrites tenant (policyStore.view db theirs) w old :=
  ⟨(find?_of_free hfree hw).trans h.stored, h.document, h.tenant, h.state⟩

theorem rewritten_stable :
    (policyDiscipline deps begun start).Stable fun db own => Rewritten tenant db own := by
  intro db own theirs _ h _ hfree w hw
  obtain ⟨old, hold⟩ := h w hw
  exact ⟨old, hold.of_free hfree hw⟩

theorem unmoved_stable :
    (policyDiscipline deps begun start).Stable fun db own => Unmoved tenant db own := by
  intro db own theirs _ h _ hfree w hw
  obtain ⟨old, hold, hstate⟩ := h w hw
  exact ⟨old, hold.of_free hfree hw, hstate⟩

theorem stored_lasting (row : PolicyRow) :
    (policyDiscipline deps begun start).Lasting fun db => Stored db row := by
  rintro db writes - ⟨current, hcurrent, hsame⟩ hcommit
  obtain ⟨next, hnext, hdocument, -⟩ := hcommit.lawful.kept row.id current hcurrent
  exact ⟨next, hnext, hdocument.trans hsame⟩

theorem mayCommit_stable :
    (policyDiscipline deps begun start).Stable fun db own => MayCommit deps begun db own :=
  fun _ _ _ hdb h htheirs hfree => h.after hdb.single htheirs hfree

/-- What holds of each row the transaction has written and the one in its place holds of every
row that it sees. -/
theorem seen {P : PolicyRow → PolicyRow → Prop} (hrefl : ∀ row, P row row)
    (h : ∀ w ∈ own, ∃ old, db.find? w.id = some old ∧ P old w) {id : String} {row : PolicyRow}
    (hrow : (policyStore.view db own).find? id = some row) :
    ∃ old, db.find? id = some old ∧ P old row := by
  rw [find?_policies] at hrow
  cases hlatest : Table.latest PolicyRow.id own id with
  | none =>
      rw [hlatest, Option.none_or] at hrow
      exact ⟨row, hrow, hrefl row⟩
  | some w =>
      rw [hlatest] at hrow
      obtain rfl := Option.some.inj hrow
      obtain ⟨hw, rfl⟩ := Table.mem_of_latest hlatest
      exact h w hw

/-- Every policy is still there. -/
theorem exists_seen (own : List PolicyRow) {id : String} {old : PolicyRow}
    (hold : db.find? id = some old) : ∃ row, (policyStore.view db own).find? id = some row := by
  rw [find?_policies]
  cases Table.latest PolicyRow.id own id with
  | none => exact ⟨old, hold⟩
  | some w => exact ⟨w, rfl⟩

theorem Rewritten.seen (h : Rewritten tenant db own) {id : String} {row : PolicyRow}
    (hrow : (policyStore.view db own).find? id = some row) :
    ∃ old, db.find? id = some old ∧ row.document = old.document ∧
      (row.state = old.state ∨
        row.tenantId = tenant ∧ old.state = .active ∧ row.state = .deactivated) := by
  refine Policy.seen (P := fun old row => row.document = old.document ∧
      (row.state = old.state ∨
        row.tenantId = tenant ∧ old.state = .active ∧ row.state = .deactivated))
    (fun _ => ⟨rfl, .inl rfl⟩) (fun w hw => ?_) hrow
  obtain ⟨old, hold⟩ := h w hw
  exact ⟨old, hold.stored, hold.document, hold.state.imp_right (And.intro hold.tenant)⟩

/-- A policy that is active there is active in the table. -/
theorem Rewritten.active (h : Rewritten tenant db own) {id : String} {row : PolicyRow}
    (hrow : (policyStore.view db own).find? id = some row) (hactive : row.state = .active) :
    ∃ old, db.find? id = some old ∧ row.document = old.document ∧ old.state = .active := by
  obtain ⟨old, hold, hdocument, hstate | ⟨-, -, hstate⟩⟩ := h.seen hrow
  · exact ⟨old, hold, hdocument, hstate ▸ hactive⟩
  · rw [hactive] at hstate
    cases hstate

theorem Rewritten.single (h : Rewritten tenant db own) (hdb : AtMostOneActive db) :
    AtMostOneActive (policyStore.view db own) := by
  intro id id' row row' hrow hrow' hactive hactive' htenant
  obtain ⟨old, hold, hdocument, hstate⟩ := h.active hrow hactive
  obtain ⟨old', hold', hdocument', hstate'⟩ := h.active hrow' hactive'
  apply hdb id id' old old' hold hold' hstate hstate'
  rw [← tenantId_of_document hdocument, ← tenantId_of_document hdocument', htenant]

/-- Only the signers have changed. -/
theorem Unmoved.mayCommit (h : Unmoved tenant db own) (hdb : AtMostOneActive db) :
    MayCommit deps begun db own := by
  have hsame : ∀ {id : String} {row : PolicyRow},
      (policyStore.view db own).find? id = some row →
        ∃ old, db.find? id = some old ∧ row.document = old.document ∧ row.state = old.state := by
    refine seen (P := fun old row => row.document = old.document ∧ row.state = old.state)
      (fun _ => ⟨rfl, rfl⟩) fun w hw => ?_
    obtain ⟨old, hold, hstate⟩ := h w hw
    exact ⟨old, hold.stored, hold.document, hstate⟩
  have hstate : ∀ {id : String} {old row : PolicyRow}, db.find? id = some old →
      (policyStore.view db own).find? id = some row → row.state = old.state := by
    intro id old row hold hrow
    obtain ⟨old', hold', -, hstate⟩ := hsame hrow
    rw [hstate, Option.some.inj (hold.symm.trans hold')]
  refine ⟨⟨?_, ?_, ?_, ?_⟩, h.rewritten.single hdb⟩
  · intro id old hold
    obtain ⟨row, hrow⟩ := exists_seen own hold
    obtain ⟨old', hold', hdocument, hstate⟩ := hsame hrow
    obtain rfl := Option.some.inj (hold.symm.trans hold')
    exact ⟨row, hrow, hdocument, .inl hstate⟩
  · intro id old row hold hrow hactive hne
    exact absurd ((hstate hold hrow).symm.trans hactive) hne
  · intro id old row hold hrow hactive hne
    exact absurd ((hstate hold hrow).trans hactive) hne
  · intro id row hnone hrow
    obtain ⟨old, hold, -⟩ := hsame hrow
    rw [hnone] at hold
    cases hold

/-- One policy is activated on evidence, behind the one that was active. -/
theorem Rewritten.activate (h : Rewritten tenant db own) (hdb : AtMostOneActive db)
    {row current : PolicyRow} (hattested : Attested deps begun row)
    (hcurrent : (policyStore.view db own).find? row.id = some current)
    (hdocument : current.document = row.document) (htenant : current.tenantId = tenant)
    (hpending : current.state = .pendingSignatures)
    (halone : ∀ other ∈ (policyStore.view db own).rows, other.tenantId = tenant →
      other.state = .active → other.id = row.id) :
    MayCommit deps begun db (own ++ [{ current with state := .active }]) := by
  have hid : current.id = row.id := Table.key_of_find? hcurrent
  have hafter : ∀ id, (policyStore.view db (own ++ [{ current with state := .active }])).find? id =
      if id = row.id then some { current with state := .active }
      else (policyStore.view db own).find? id := by
    intro id
    rw [Store.view_append, ← hid]
    exact Table.find?_put _ _ id
  obtain ⟨stored, hstored, hsame, hstate | ⟨-, -, hstate⟩⟩ := h.seen hcurrent
  swap
  · rw [hpending] at hstate
    cases hstate
  refine ⟨⟨?_, ?_, ?_, ?_⟩, ?_⟩
  · intro id old hold
    rw [hafter]
    split
    · rename_i heq
      rw [heq, hstored] at hold
      cases hold
      refine ⟨_, rfl, hsame, .inr ?_⟩
      rw [← hstate, hpending]
      rfl
    · obtain ⟨next, hnext⟩ := exists_seen own hold
      obtain ⟨old', hold', hsame', hstate'⟩ := h.seen hnext
      obtain rfl := Option.some.inj (hold.symm.trans hold')
      refine ⟨next, hnext, hsame', hstate'.imp_right ?_⟩
      rintro ⟨-, hold, hnext⟩
      rw [hold, hnext]
      rfl
  · intro id old next hold hnext hactive hne
    rw [hafter] at hnext
    split at hnext
    · rename_i heq
      rw [heq, hstored] at hold
      cases hold
      cases hnext
      exact ⟨hstate ▸ hpending, hattested.of_document hdocument⟩
    · obtain ⟨old', hold', -, hactive'⟩ := h.active hnext hactive
      obtain rfl := Option.some.inj (hold.symm.trans hold')
      exact absurd hactive' hne
  · intro id old next hold hnext hactive hne
    rw [hafter] at hnext
    split at hnext
    · cases hnext
      exact absurd rfl hne
    · rename_i hother
      obtain ⟨old', hold', hsame', hstate' | ⟨htenant', -⟩⟩ := h.seen hnext
      · obtain rfl := Option.some.inj (hold.symm.trans hold')
        exact absurd (hstate'.trans hactive) hne
      · obtain rfl := Option.some.inj (hold.symm.trans hold')
        refine ⟨row.id, { current with state := .active }, Ne.symm hother, ?_, rfl, ?_⟩
        · rw [hafter, if_pos rfl]
        · rw [← tenantId_of_document hsame', htenant']
          exact htenant
  · intro id next hnone hnext
    rw [hafter] at hnext
    split at hnext
    · rename_i heq
      rw [heq, hstored] at hnone
      cases hnone
    · obtain ⟨old, hold, -⟩ := h.seen hnext
      rw [hnone] at hold
      cases hold
  · intro id id' first second hfirst hsecond hactive hactive' hsame'
    rw [hafter] at hfirst hsecond
    split at hfirst
    · rename_i heq
      split at hsecond
      · rename_i heq'
        rw [heq, heq']
      · cases hfirst
        have hmem := Table.mem_of_find? hsecond
        rw [heq, ← halone second hmem (hsame'.symm.trans htenant) hactive',
          Table.key_of_find? hsecond]
    · split at hsecond
      · rename_i heq'
        cases hsecond
        have hmem := Table.mem_of_find? hfirst
        rw [heq', ← halone first hmem (hsame'.trans htenant) hactive, Table.key_of_find? hfirst]
      · exact h.single hdb id id' first second hfirst hsecond hactive hactive' hsame'

/-- A new policy that awaits its signatures. -/
theorem mayCommit_born {row : PolicyRow} (hdb : AtMostOneActive db)
    (hfresh : db.find? row.id = none)
    (hhash : contentHashHex deps.sha256 row.content = row.contentHash) :
    MayCommit deps begun db [row, { row with state := .pendingSignatures }] := by
  have hafter : ∀ id,
      (policyStore.view db [row, { row with state := .pendingSignatures }]).find? id =
        if id = row.id then some { row with state := .pendingSignatures } else db.find? id := by
    intro id
    change ((db.put row).put _).find? id = _
    rw [Table.find?_put, Table.find?_put]
    by_cases hid : id = row.id
    · rw [if_pos hid, if_pos hid]
    · rw [if_neg hid, if_neg hid, if_neg hid]
  have hsame : ∀ {id : String} {old : PolicyRow}, db.find? id = some old → id ≠ row.id := by
    intro id old hold heq
    rw [heq, hfresh] at hold
    cases hold
  have hlast : ∀ {id : String} {old next : PolicyRow}, db.find? id = some old →
      (policyStore.view db [row, { row with state := .pendingSignatures }]).find? id = some next →
        next = old := by
    intro id old next hold hnext
    rw [hafter, if_neg (hsame hold)] at hnext
    exact Option.some.inj (hnext.symm.trans hold)
  refine ⟨⟨?_, ?_, ?_, ?_⟩, ?_⟩
  · intro id old hold
    refine ⟨old, ?_, rfl, .inl rfl⟩
    rw [hafter, if_neg (hsame hold), hold]
  · intro id old next hold hnext hactive hne
    exact absurd (hlast hold hnext ▸ hactive) hne
  · intro id old next hold hnext hactive hne
    exact absurd (hlast hold hnext ▸ hactive) hne
  · intro id next hnone hnext
    rw [hafter] at hnext
    split at hnext
    · cases hnext
      exact ⟨rfl, hhash⟩
    · rw [hnone] at hnext
      cases hnext
  · have hold : ∀ {id : String} {next : PolicyRow},
        (policyStore.view db [row, { row with state := .pendingSignatures }]).find? id =
          some next → next.state = .active → db.find? id = some next := by
      intro id next hnext hactive
      rw [hafter] at hnext
      split at hnext
      · cases hnext
        cases hactive
      · exact hnext
    exact fun id id' first second hfirst hsecond hactive hactive' =>
      hdb id id' first second (hold hfirst hactive) (hold hsecond hactive') hactive hactive'

/-! ## The statements -/

theorem triple_setSigners (tenant id : String) (signers : List PolicySignature) :
    (policyDiscipline deps begun start).Triple (fun _ own => own = [])
      (setSigners tenant id signers) fun _ => Unmoved tenant := by
  apply Discipline.Triple.execute fun _ => unmoved_stable
  rintro db own new value - rfl hrun w hw
  split at hrun
  · cases hrun
    cases hw
  · rename_i row hrow
    cases hrun
    obtain ⟨hfind, htenant⟩ := findPolicy_eq_some.mp hrow
    obtain rfl := List.mem_singleton.mp hw
    exact ⟨row, ⟨Table.find?_key (Table.mem_of_find? hfind), rfl, htenant, .inl rfl⟩, rfl⟩

theorem triple_deactivateEach (tenant : String) (ids : List String) :
    (policyDiscipline deps begun start).Triple (Rewritten tenant) (deactivateEach tenant ids)
      fun _ => Rewritten tenant := by
  induction ids with
  | nil => exact Discipline.Triple.done fun _ _ _ => id
  | cons id rest ih =>
      refine Discipline.Triple.bind
        (Discipline.Triple.execute (fun _ => rewritten_stable) ?_) fun _ => ih
      intro db own new value _ hown hrun w hw
      rcases List.mem_append.mp hw with hw | hw
      · exact hown w hw
      · split at hrun
        · cases hrun
          cases hw
        · rename_i row hrow
          split at hrun
          · rename_i hactive
            cases hrun
            obtain rfl := List.mem_singleton.mp hw
            obtain ⟨hfind, htenant⟩ := findPolicy_eq_some.mp hrow
            obtain ⟨old, hold, hdocument, hstate⟩ := hown.active hfind hactive
            refine ⟨old, ?_, hdocument, htenant, .inr ⟨hstate, rfl⟩⟩
            exact (congrArg db.find? (Table.key_of_find? hfind)).trans hold
          · cases hrun
            cases hw

theorem triple_deactivateActive (tenant : String) :
    (policyDiscipline deps begun start).Triple (Rewritten tenant) (deactivateActive tenant)
      fun _ => Rewritten tenant := by
  refine Discipline.Triple.bind (Discipline.Triple.select (fun _ => rewritten_stable) ?_)
    fun ids => triple_deactivateEach tenant ids
  exact fun _ _ _ => id

/-- The transition that activates ends in a permitted commit. -/
theorem triple_activate (tenant : String) {row : PolicyRow} (hattested : Attested deps begun row) :
    (policyDiscipline deps begun start).Triple
      (fun db own => Stored db row ∧ Rewritten tenant db own)
      (PolicyRepository.transition tenant row.id .pendingSignatures .active)
      fun _ => MayCommit deps begun := by
  refine Discipline.Triple.bind
    (Discipline.Triple.frame (stored_lasting row) (triple_deactivateActive tenant)) fun _ => ?_
  apply Discipline.Triple.execute fun _ => mayCommit_stable
  rintro db own new value hdb ⟨⟨stored, hstored, hsame⟩, hown⟩ hrun
  obtain ⟨next, hnext, hvalue⟩ := map_ok.mp hrun
  cases hvalue
  obtain ⟨current, hcurrent, htenant, hpending, rfl, halone⟩ := moved_ok hnext
  obtain ⟨old, hold, hdocument, -⟩ := hown.seen hcurrent
  obtain rfl := Option.some.inj (hstored.symm.trans hold)
  exact hown.activate hdb.single hattested hcurrent (hdocument.trans hsame) htenant hpending
    (halone rfl)

/-! ## The transactions -/

theorem triple_compose {row : PolicyRow}
    (hhash : contentHashHex deps.sha256 row.content = row.contentHash) :
    (policyDiscipline deps begun start).Triple (fun _ own => own = []) (composeTransaction row)
      fun _ => MayCommit deps begun := by
  have hinsert : (policyDiscipline deps begun start).Triple (fun _ own => own = [])
      (insertPolicy row) fun inserted db own =>
        db.find? row.id = none ∧ inserted = row ∧ own = [row] := by
    apply Discipline.Triple.execute
    · rintro inserted db own theirs - ⟨hfresh, hinserted, rfl⟩ - hfree
      exact ⟨(find?_of_free hfree List.mem_cons_self).trans hfresh, hinserted, rfl⟩
    · rintro db own new value - rfl hrun
      split at hrun
      · cases hrun
      · split at hrun
        · cases hrun
        · rename_i hunique
          cases hrun
          rw [Bool.or_eq_true, not_or, Bool.not_eq_true, Option.isSome_eq_false_iff,
            Option.isNone_iff_eq_none] at hunique
          exact ⟨hunique.1, rfl, rfl⟩
  apply Discipline.Triple.bind hinsert
  intro inserted
  change (policyDiscipline deps begun start).Triple _
    (moveTo row.tenantId inserted.id .draft .pendingSignatures) _
  apply Discipline.Triple.execute fun _ => mayCommit_stable
  rintro db own new value hdb ⟨hfresh, rfl, rfl⟩ hrun
  obtain ⟨next, hnext, hvalue⟩ := map_ok.mp hrun
  cases hvalue
  obtain ⟨current, hcurrent, -, -, rfl, -⟩ := moved_ok hnext
  have hself : (policyStore.view db [inserted]).find? inserted.id = some inserted :=
    (Table.find?_put db inserted inserted.id).trans (if_pos rfl)
  obtain rfl := Option.some.inj (hcurrent.symm.trans hself)
  exact mayCommit_born hdb.single hfresh hhash

/-- The evidence that has come together when the quorum is reached. -/
theorem evidence_of_accepted {request : SignRequest} {policyId : String} {row : PolicyRow}
    {signatures : List PolicySignature} {document : PolicyDocument}
    (hpolicy : request.policyId = some policyId)
    (hpresented : request.signatures = some signatures) (hid : row.id = policyId)
    (htenant : row.tenantId = request.tenantId)
    (haccepted : Accepted deps request
      (deps.buildTypedData request.tenantId row.version row.contentHash) [] signatures)
    (hdocument : documentOf row.content = .ok document)
    (hquorum : row.quorumRequired ≤ signatures.length)
    (hlinted : (activationGate deps request document).blocking = []) :
    Evidence deps request signatures row := by
  subst hid
  constructor
  · exact htenant.symm
  · exact hpolicy
  · exact hpresented
  · unfold PolicyDeps.typedDataOf
    rw [htenant]
    exact haccepted.verified
  · exact haccepted.distinct
  · rw [htenant]
    exact haccepted.authorized
  · exact hquorum
  · exact ⟨document, hdocument, hlinted⟩

theorem triple_activateSigned {request : SignRequest} {row : PolicyRow} {document : PolicyDocument}
    (hattested : (activationGate deps request document).blocking = [] → Attested deps begun row) :
    (policyDiscipline deps begun start).Triple
      (fun db own => Stored db row ∧ Unmoved request.tenantId db own)
      (activateSigned deps request row document) fun _ => MayCommit deps begun := by
  change (policyDiscipline deps begun start).Triple _ (if _ then _ else _) _
  split
  · exact Discipline.Triple.throw _
  · rename_i hblocking
    rw [Bool.not_eq_true', Bool.not_eq_false, List.isEmpty_iff] at hblocking
    refine Discipline.Triple.bind
      ((triple_activate request.tenantId (hattested hblocking)).weaken ?_) fun _ =>
        Discipline.Triple.done fun _ _ _ => id
    exact fun db own _ hown => ⟨hown.1, hown.2.rewritten⟩

theorem triple_sign {request : SignRequest} {policyId : String}
    {signatures : List PolicySignature} (hbegun : begun request)
    (hpolicy : request.policyId = some policyId)
    (hpresented : request.signatures = some signatures) :
    (policyDiscipline deps begun start).Triple (fun _ own => own = [])
      (signTransaction deps request policyId signatures) fun _ => MayCommit deps begun := by
  have hselect : (policyDiscipline deps begun start).Triple (fun _ own => own = [])
      (getById request.tenantId policyId) fun existing db own =>
        (∀ row ∈ existing, row.id = policyId ∧ row.tenantId = request.tenantId ∧ Stored db row) ∧
          own = [] := by
    apply Discipline.Triple.select
    · rintro existing db own theirs hdb ⟨hrow, hown⟩ hcommit -
      refine ⟨fun row hmem => ?_, hown⟩
      obtain ⟨hid, htenant, hstored⟩ := hrow row hmem
      exact ⟨hid, htenant, stored_lasting row db theirs hdb hstored hcommit⟩
    · rintro db own - rfl
      refine ⟨fun row hmem => ?_, rfl⟩
      obtain ⟨hfind, htenant⟩ := findPolicy_eq_some.mp hmem
      have hid := Table.key_of_find? hfind
      exact ⟨hid, htenant, row, hid ▸ hfind, rfl⟩
  apply Discipline.Triple.bind hselect
  rintro (_ | row)
  · exact Discipline.Triple.throw _
  change (policyDiscipline deps begun start).Triple _ (if _ then _ else _) _
  split
  · exact Discipline.Triple.throw _
  suffices hrest : row.id = policyId ∧ row.tenantId = request.tenantId →
      (policyDiscipline deps begun start).Triple (fun db own => Stored db row ∧ own = []) _
        fun _ => MayCommit deps begun by
    refine (Discipline.Triple.assume hrest).weaken ?_
    rintro db own - ⟨hrow, hown⟩
    obtain ⟨hid, htenant, hstored⟩ := hrow row rfl
    exact ⟨⟨hid, htenant⟩, hstored, hown⟩
  rintro ⟨hid, htenant⟩
  refine Discipline.Triple.bind (Discipline.Triple.ofExcept fun _ hchecked db own _ hown =>
    And.intro (checkSignatures_ok hchecked) hown) fun _ => ?_
  apply Discipline.Triple.assume
  intro haccepted
  refine Discipline.Triple.bind (Discipline.Triple.frame (stored_lasting row)
    (triple_setSigners request.tenantId row.id signatures)) fun _ => ?_
  refine Discipline.Triple.bind (Discipline.Triple.ofExcept fun document hdocument db own _ hown =>
    And.intro hdocument hown) fun document => ?_
  apply Discipline.Triple.assume
  intro hdocument
  split
  · rename_i hquorum
    apply triple_activateSigned
    intro hlinted
    exact ⟨request, signatures, hbegun, evidence_of_accepted hpolicy hpresented hid htenant
      haccepted hdocument hquorum hlinted⟩
  · exact Discipline.Triple.done fun db own hdb hown => hown.2.mayCommit hdb.single

end Rules

end BrainCore.Policy
