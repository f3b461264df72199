import BrainCore.Policy.PolicyRoutes

/-!
# What a commit does to the policies

A commit keeps the documents, moves their states along the edges of the state
machine, activates a policy on the evidence of a request to sign alone and
deactivates one only to put another in its place.  This stays so while other
requests commit, since their writes clash with those of a transaction that
activates a policy of the same tenant.
-/

namespace BrainCore.Policy

open BrainCore.Foundation BrainCore.Audit

/-! ## The table after some writes -/

theorem find?_policies (db : Policies) (writes : List PolicyRow) (id : String) :
    (policyStore.view db writes).find? id =
      (Table.latest PolicyRow.id writes id).or (db.find? id) :=
  Table.find?_foldl_put db writes id

/-- Another transaction's writes leave the rows of one's own alone. -/
theorem find?_of_free {db : Policies} {own theirs : List PolicyRow} {row : PolicyRow}
    (hfree : Free policyStore theirs own) (hmem : row ∈ own) :
    (policyStore.view db theirs).find? row.id = db.find? row.id := by
  have hnone : Table.latest PolicyRow.id theirs row.id = none := by
    apply Table.latest_none_iff.mpr
    intro other hother hid
    have hclash := hfree other hother row hmem
    simp [policyStore, PolicyRow.clash, hid] at hclash
  rw [find?_policies, hnone, Option.none_or]

/-- A row that a transaction sees is one it has written, which no other has, or a committed one. -/
theorem own_or_committed {db : Policies} {own theirs : List PolicyRow}
    (hfree : Free policyStore theirs own) (id : String) :
    (∃ w ∈ own, (policyStore.view db own).find? id = some w ∧
      (policyStore.view (policyStore.view db theirs) own).find? id = some w ∧
      (policyStore.view db theirs).find? id = db.find? id) ∨
    ((policyStore.view db own).find? id = db.find? id ∧
      (policyStore.view (policyStore.view db theirs) own).find? id =
        (policyStore.view db theirs).find? id) := by
  rw [find?_policies db own, find?_policies _ own]
  cases hlatest : Table.latest PolicyRow.id own id with
  | none => exact .inr ⟨rfl, rfl⟩
  | some w =>
      obtain ⟨hmem, hid⟩ := Table.mem_of_latest hlatest
      exact .inl ⟨w, hmem, rfl, rfl, hid ▸ find?_of_free hfree hmem⟩

/-! ## What holds between commits -/

/-- The row but for its state and its signers, which are all that a request changes. -/
def PolicyRow.document (row : PolicyRow) : PolicyRow := { row with state := .draft, signers := none }

theorem id_of_document {row other : PolicyRow} (h : row.document = other.document) :
    row.id = other.id := by
  change row.document.id = other.document.id
  rw [h]

theorem tenantId_of_document {row other : PolicyRow} (h : row.document = other.document) :
    row.tenantId = other.tenantId := by
  change row.document.tenantId = other.document.tenantId
  rw [h]

def AtMostOneActive (db : Policies) : Prop :=
  ∀ id id' row row', db.find? id = some row → db.find? id' = some row' →
    row.state = .active → row'.state = .active → row.tenantId = row'.tenantId → id = id'

/-- What a request to sign has to show before its policy is activated. -/
structure Evidence (deps : PolicyDeps) (request : SignRequest) (signatures : List PolicySignature)
    (row : PolicyRow) : Prop where
  tenant : request.tenantId = row.tenantId
  policy : request.policyId = some row.id
  presented : request.signatures = some signatures
  verified : ∀ sig ∈ signatures, deps.verifyTypedData (deps.typedDataOf row) sig = .ok true
  distinct : (signatures.map fun sig => toLowerCase sig.address).Nodup
  authorized : ∀ sig ∈ signatures, request.isAuthorizedSigner row.tenantId sig.address = .ok true
  quorum : row.quorumRequired ≤ signatures.length
  linted : ∃ document, documentOf row.content = .ok document ∧
    (activationGate deps request document).blocking = []

/-- A request has shown it. -/
def Attested (deps : PolicyDeps) (begun : SignRequest → Prop) (row : PolicyRow) : Prop :=
  ∃ request signatures, begun request ∧ Evidence deps request signatures row

/-- The step from one committed table to the next: no document is lost or changed, a state moves
along an edge, a policy becomes active on evidence and stops being active for another of its
tenant, and a new one awaits its signatures under the hash of its content. -/
structure LawfulChange (deps : PolicyDeps) (begun : SignRequest → Prop)
    (before after : Policies) : Prop where
  kept : ∀ id old, before.find? id = some old → ∃ row, after.find? id = some row ∧
    row.document = old.document ∧
    (row.state = old.state ∨ isValidTransition old.state row.state = true)
  activated : ∀ id old row, before.find? id = some old → after.find? id = some row →
    row.state = .active → old.state ≠ .active →
      old.state = .pendingSignatures ∧ Attested deps begun row
  replaced : ∀ id old row, before.find? id = some old → after.find? id = some row →
    old.state = .active → row.state ≠ .active →
      ∃ id' other, id' ≠ id ∧ after.find? id' = some other ∧ other.state = .active ∧
        other.tenantId = old.tenantId
  born : ∀ id row, before.find? id = none → after.find? id = some row →
    row.state = .pendingSignatures ∧ contentHashHex deps.sha256 row.content = row.contentHash

/-- What a commit may write. -/
structure MayCommit (deps : PolicyDeps) (begun : SignRequest → Prop) (db : Policies)
    (writes : List PolicyRow) : Prop where
  lawful : LawfulChange deps begun db (policyStore.view db writes)
  single : AtMostOneActive (policyStore.view db writes)

/-- It was active from the start or has become so on evidence. -/
def Trusted (deps : PolicyDeps) (begun : SignRequest → Prop) (start : Policies)
    (row : PolicyRow) : Prop :=
  Attested deps begun row ∨
    ∃ old, start.find? row.id = some old ∧ old.state = .active ∧ row.document = old.document

structure Consistent (deps : PolicyDeps) (begun : SignRequest → Prop) (start db : Policies) :
    Prop where
  single : AtMostOneActive db
  trusted : ∀ id row, db.find? id = some row → row.state = .active → Trusted deps begun start row

variable {deps : PolicyDeps} {begun : SignRequest → Prop} {start db : Policies}
  {own theirs : List PolicyRow}

/-! ## What lasts -/

/-- Evidence is about the document. -/
theorem Attested.of_document {row other : PolicyRow} (h : Attested deps begun row)
    (hsame : other.document = row.document) : Attested deps begun other := by
  obtain ⟨request, signatures, hbegun, h⟩ := h
  have hdocument : Evidence deps request signatures row.document :=
    ⟨h.tenant, h.policy, h.presented, h.verified, h.distinct, h.authorized, h.quorum, h.linted⟩
  rw [← hsame] at hdocument
  obtain ⟨htenant, hpolicy, hpresented, hverified, hdistinct, hauthorized, hquorum, hlinted⟩ :=
    hdocument
  exact ⟨request, signatures, hbegun, htenant, hpolicy, hpresented, hverified, hdistinct,
    hauthorized, hquorum, hlinted⟩

theorem LawfulChange.refl (db : Policies) : LawfulChange deps begun db db := by
  have hsame : ∀ {id : String} {old row : PolicyRow}, db.find? id = some old →
      db.find? id = some row → row = old := fun hold hrow =>
    Option.some.inj (hrow.symm.trans hold)
  constructor
  · exact fun id old hold => ⟨old, hold, rfl, .inl rfl⟩
  · intro id old row hold hrow hactive hne
    exact absurd (hsame hold hrow ▸ hactive) hne
  · intro id old row hold hrow hactive hne
    exact absurd (hsame hold hrow ▸ hactive) hne
  · intro id row hnone hrow
    rw [hnone] at hrow
    cases hrow

/-- A policy that is active after the commit was so before it or has been attested. -/
theorem Consistent.view (h : Consistent deps begun start db)
    (hcommit : MayCommit deps begun db own) :
    Consistent deps begun start (policyStore.view db own) := by
  refine ⟨hcommit.single, fun id row hrow hactive => ?_⟩
  cases hbefore : db.find? id with
  | none =>
      have hstate := (hcommit.lawful.born id row hbefore hrow).1
      rw [hactive] at hstate
      cases hstate
  | some old =>
      by_cases hold : old.state = .active
      · obtain ⟨row', hrow', hdocument, -⟩ := hcommit.lawful.kept id old hbefore
        obtain rfl := Option.some.inj (hrow.symm.trans hrow')
        rcases h.trusted id old hbefore hold with hattested | ⟨first, hfirst, hstate, hsame⟩
        · exact .inl (hattested.of_document hdocument)
        · exact .inr ⟨first, id_of_document hdocument ▸ hfirst, hstate, hdocument.trans hsame⟩
      · exact .inl (hcommit.lawful.activated id old row hbefore hrow hactive hold).2

/-- Another request's commit puts no active policy beside the one of an open transaction. -/
theorem single_beside {id id' : String} {w row' : PolicyRow} (h : MayCommit deps begun db own)
    (hfree : Free policyStore theirs own) (hw : w ∈ own)
    (hview : (policyStore.view db own).find? id = some w)
    (hother : (policyStore.view db own).find? id' = db.find? id')
    (hrow' : (policyStore.view db theirs).find? id' = some row')
    (hactive : w.state = .active) (hactive' : row'.state = .active)
    (htenant : w.tenantId = row'.tenantId) : id = id' := by
  rw [find?_policies] at hrow'
  cases hlatest : Table.latest PolicyRow.id theirs id' with
  | some w' =>
      rw [hlatest] at hrow'
      obtain rfl := Option.some.inj hrow'
      have hclash := hfree w' (Table.mem_of_latest hlatest).1 w hw
      simp [policyStore, PolicyRow.clash, PolicyRow.isActive, hactive, hactive', htenant] at hclash
  | none =>
      rw [hlatest, Option.none_or] at hrow'
      exact h.single id id' w row' hview (hother.trans hrow') hactive hactive' htenant

/-- What a transaction may commit it may commit after another one's commit too. -/
theorem MayCommit.after (h : MayCommit deps begun db own) (hdb : AtMostOneActive db)
    (htheirs : MayCommit deps begun db theirs) (hfree : Free policyStore theirs own) :
    MayCommit deps begun (policyStore.view db theirs) own := by
  constructor
  · constructor
    · intro id old hold
      rcases own_or_committed hfree id with ⟨w, -, hview, hafter, hbefore⟩ | ⟨-, hafter⟩
      · obtain ⟨row, hrow, hkept⟩ := h.lawful.kept id old (hbefore ▸ hold)
        exact ⟨row, hafter.trans (hview.symm.trans hrow), hkept⟩
      · exact ⟨old, hafter.trans hold, rfl, .inl rfl⟩
    · intro id old row hold hrow hactive hne
      rcases own_or_committed hfree id with ⟨w, -, hview, hafter, hbefore⟩ | ⟨-, hafter⟩
      · exact h.lawful.activated id old row (hbefore ▸ hold)
          (hview.trans (hafter.symm.trans hrow)) hactive hne
      · obtain rfl := Option.some.inj (hold.symm.trans (hafter.symm.trans hrow))
        exact absurd hactive hne
    · intro id old row hold hrow hactive hne
      rcases own_or_committed hfree id with ⟨w, -, hview, hafter, hbefore⟩ | ⟨-, hafter⟩
      · have hold' := hbefore ▸ hold
        obtain ⟨id', other, hne', hother, hactive', htenant⟩ :=
          h.lawful.replaced id old row hold' (hview.trans (hafter.symm.trans hrow)) hactive hne
        rcases own_or_committed hfree id' with ⟨w', -, hview', hafter', -⟩ | ⟨hview', -⟩
        · exact ⟨id', other, hne', hafter'.trans (hview'.symm.trans hother), hactive', htenant⟩
        · exact absurd (hdb id' id other old (hview'.symm.trans hother) hold' hactive' hactive
            htenant) hne'
      · obtain rfl := Option.some.inj (hold.symm.trans (hafter.symm.trans hrow))
        exact absurd hactive hne
    · intro id row hnone hrow
      rcases own_or_committed hfree id with ⟨w, -, hview, hafter, hbefore⟩ | ⟨-, hafter⟩
      · exact h.lawful.born id row (hbefore ▸ hnone) (hview.trans (hafter.symm.trans hrow))
      · rw [hafter, hnone] at hrow
        cases hrow
  · intro id id' row row' hrow hrow' hactive hactive' htenant
    rcases own_or_committed hfree id with ⟨w, hw, hview, hafter, -⟩ | ⟨hview, hafter⟩
    · obtain rfl := Option.some.inj (hrow.symm.trans hafter)
      rcases own_or_committed hfree id' with ⟨w', -, hview', hafter', -⟩ | ⟨hview', hafter'⟩
      · obtain rfl := Option.some.inj (hrow'.symm.trans hafter')
        exact h.single id id' row row' hview hview' hactive hactive' htenant
      · exact single_beside h hfree hw hview hview' (hafter'.symm.trans hrow') hactive hactive'
          htenant
    · rcases own_or_committed hfree id' with ⟨w', hw', hview', hafter'', -⟩ | ⟨-, hafter'⟩
      · obtain rfl := Option.some.inj (hrow'.symm.trans hafter'')
        exact (single_beside h hfree hw' hview' hview (hafter.symm.trans hrow) hactive' hactive
          htenant.symm).symm
      · exact htheirs.single id id' row row' (hafter.symm.trans hrow) (hafter'.symm.trans hrow')
          hactive hactive' htenant

/-- The discipline of the two routes. -/
def policyDiscipline (deps : PolicyDeps) (begun : SignRequest → Prop) (start : Policies) :
    Discipline policyStore where
  invariant := Consistent deps begun start
  permits := MayCommit deps begun
  keeps _ _ h hcommit := h.view hcommit

end BrainCore.Policy
