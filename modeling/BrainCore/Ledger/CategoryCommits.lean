import BrainCore.Ledger.Categorization

/-!
# What an assignment commits

A call commits the category of its code and the lock of its transaction, and
with them a first assignment or nothing.  No assignment is ever superseded: the
row that would supersede it is inserted after the reference to it is checked.
-/

namespace BrainCore.Ledger

open BrainCore.Foundation BrainCore.Policy

variable {db : CategoryDb} {call other : AssignCall} {own theirs cats : List CategoryWrite}
  {who who' : AssignCall → Prop} {categoryId id : String}

/-! ## What holds between commits -/

/-- The category of an assignment is that of its code, and that of its transaction. -/
structure Assigned (db : CategoryDb) (row : CategoryAssignmentRow) : Prop where
  active : row.supersededAt = none
  category : ∃ category, db.categories.find? row.categoryId = some category ∧
    category.tenantId = row.tenantId ∧ category.canonicalCode = some row.canonicalCode
  transaction : ∃ transaction, db.transactions.find? row.transactionId = some transaction ∧
    transaction.ownerId = row.tenantId ∧ transaction.categoryId = some row.categoryId

structure CategorySound (db : CategoryDb) : Prop where
  names : ∀ id id' row row', db.categories.find? id = some row →
    db.categories.find? id' = some row' → row.tenantId = row'.tenantId → row.name = row'.name →
    id = id'
  codes : ∀ id row code, db.categories.find? id = some row → row.canonicalCode = some code →
    row.name = code.definition.name
  assignments : ∀ id row, db.assignments.find? id = some row → Assigned db row
  unique : ∀ id id' row row', db.assignments.find? id = some row →
    db.assignments.find? id' = some row' → row.transactionId = row'.transactionId → id = id'

/-- The ids a call draws are not in use. -/
structure AssignCall.Fresh (call : AssignCall) (db : CategoryDb) : Prop where
  category : db.categories.find? call.newCategoryId = none
  assignment : db.assignments.find? call.newAssignmentId = none

/-- No assignment of the transaction is stored. -/
def Unassigned (db : CategoryDb) (transactionId : String) : Prop :=
  ∀ id row, db.assignments.find? id = some row → row.transactionId ≠ transactionId

/-! ## Shapes of commits -/

/-- The writes by which a call comes to the category of its code. -/
inductive CategoryPart (call : AssignCall) (db : CategoryDb) : List CategoryWrite → String → Prop where
  | found (row : CategoryRow) (stored : db.categories.find? row.id = some row)
      (tenant : row.tenantId = call.tenantId)
      (code : row.canonicalCode = some call.input.canonicalCode) :
      CategoryPart call db [.lockCategory row.id] row.id
  | put (new : CategoryRow) (tenant : new.tenantId = call.tenantId)
      (name : new.name = call.input.canonicalCode.definition.name)
      (code : new.canonicalCode = some call.input.canonicalCode)
      (old : ∀ row, db.categories.find? new.id = some row →
        row.tenantId = new.tenantId ∧ row.name = new.name)
      (fresh : db.categories.find? new.id = none → new.id = call.newCategoryId)
      (unique : ∀ id row, db.categories.find? id = some row → row.tenantId = new.tenantId →
        row.name = new.name → id = new.id) :
      CategoryPart call db [.category new] new.id

/-- The commits of the calls that `who` says, and of others. -/
inductive CategoryCommit (who : AssignCall → Prop) (db : CategoryDb) : List CategoryWrite → Prop where
  | kept (call : AssignCall) (cats : List CategoryWrite) (categoryId : String) (mine : who call)
      (part : CategoryPart call db cats categoryId)
      (active : ∃ id row, db.assignments.find? id = some row ∧
        row.transactionId = call.transactionId) :
      CategoryCommit who db (cats ++ [.lockTransaction call.request])
  | assigned (call : AssignCall) (cats : List CategoryWrite) (categoryId : String)
      (transaction : CategorizedTransaction) (mine : who call)
      (part : CategoryPart call db cats categoryId)
      (first : Unassigned db call.transactionId)
      (stored : db.transactions.find? call.transactionId = some transaction)
      (tenant : transaction.ownerId = call.tenantId)
      (fresh : db.assignments.find? call.newAssignmentId = none) :
      CategoryCommit who db (cats ++ [.lockTransaction call.request,
        .assignment (call.newAssignment categoryId),
        .transaction { transaction with categoryId := some categoryId }])
  | added (row : CategorizedTransaction) (new : db.transactions.find? row.id = none) :
      CategoryCommit who db [.transaction row]

theorem CategoryCommit.mono (h : CategoryCommit who db own) (hwho : ∀ c, who c → who' c) :
    CategoryCommit who' db own := by
  cases h with
  | kept c cats categoryId hmine hpart hactive =>
      exact .kept c cats categoryId (hwho c hmine) hpart hactive
  | assigned c cats categoryId transaction hmine hpart hfirst hstored htenant hfresh =>
      exact .assigned c cats categoryId transaction (hwho c hmine) hpart hfirst hstored htenant hfresh
  | added row hnew => exact .added row hnew

/-! ## The category part -/

namespace CategoryPart

theorem view_assignments (h : CategoryPart call db cats categoryId) :
    (categoryStore.view db cats).assignments = db.assignments := by
  cases h <;> rfl

theorem view_transactions (h : CategoryPart call db cats categoryId) :
    (categoryStore.view db cats).transactions = db.transactions := by
  cases h <;> rfl

/-- The category is there afterwards, with the code. -/
theorem stored (h : CategoryPart call db cats categoryId) :
    ∃ row, (categoryStore.view db cats).categories.find? categoryId = some row ∧
      row.tenantId = call.tenantId ∧ row.canonicalCode = some call.input.canonicalCode := by
  cases h with
  | found row hstored htenant hcode => exact ⟨row, hstored, htenant, hcode⟩
  | put new htenant hname hcode =>
      refine ⟨new, ?_, htenant, hcode⟩
      change (db.categories.put new).find? new.id = some new
      rw [Table.find?_put, if_pos rfl]

/-- What a category row keeps. -/
theorem kept (h : CategoryPart call db cats categoryId) (hsound : CategorySound db)
    {row : CategoryRow} (hrow : db.categories.find? id = some row) :
    ∃ new, (categoryStore.view db cats).categories.find? id = some new ∧
      new.tenantId = row.tenantId ∧ new.name = row.name ∧
        ∀ code, row.canonicalCode = some code → new.canonicalCode = some code := by
  cases h with
  | found => exact ⟨row, hrow, rfl, rfl, fun _ h => h⟩
  | put new htenant hname hcode hold =>
      change ∃ other, (db.categories.put new).find? id = some other ∧ _
      rw [Table.find?_put]
      by_cases hid : id = new.id
      · subst hid
        obtain ⟨hsame, hnamed⟩ := hold row hrow
        refine ⟨new, if_pos rfl, hsame.symm, hnamed.symm, fun code hrowCode => ?_⟩
        have hdefined := hsound.codes _ row code hrow hrowCode
        rw [hnamed, hname] at hdefined
        rw [hcode, CanonicalTransactionCategoryCode.definition_name_injective hdefined]
      · exact ⟨row, by rw [if_neg hid, hrow], rfl, rfl, fun _ h => h⟩

/-- A row that is there afterwards was there before, or is the category. -/
theorem stored_or_new (h : CategoryPart call db cats categoryId) {row : CategoryRow}
    (hrow : (categoryStore.view db cats).categories.find? id = some row) :
    db.categories.find? id = some row ∨ id = categoryId ∧ row.tenantId = call.tenantId ∧
      row.name = call.input.canonicalCode.definition.name ∧ .category row ∈ cats ∧
        row.canonicalCode = some call.input.canonicalCode ∧
          (db.categories.find? id = none → id = call.newCategoryId) := by
  cases h with
  | found => exact .inl hrow
  | put new htenant hname hcode hold hfresh =>
      change (db.categories.put new).find? id = some row at hrow
      rw [Table.find?_put] at hrow
      split at hrow
      · rename_i hid
        cases hrow
        subst hid
        exact .inr ⟨rfl, htenant, hname, List.mem_cons_self, hcode, hfresh⟩
      · exact .inl hrow

/-- Every row of the category's tenant and name is the category. -/
theorem id_of_name (h : CategoryPart call db cats categoryId) (hsound : CategorySound db)
    {row : CategoryRow} (hrow : db.categories.find? id = some row)
    (htenant : row.tenantId = call.tenantId)
    (hname : row.name = call.input.canonicalCode.definition.name) : id = categoryId := by
  cases h with
  | found stored hstored hsame hcode =>
      have hnamed := hsound.codes _ stored _ hstored hcode
      exact hsound.names _ _ row stored hrow hstored (htenant.trans hsame.symm)
        (hname.trans hnamed.symm)
  | put new hsame hnamed hcode hold hfresh hunique =>
      exact hunique id row hrow (htenant.trans hsame.symm) (hname.trans hnamed.symm)

theorem sound (h : CategoryPart call db cats categoryId) (hsound : CategorySound db) :
    CategorySound (categoryStore.view db cats) where
  names i j row row' hrow hrow' htenant hname := by
    rcases h.stored_or_new hrow with hi | ⟨hi, hti, hni, -⟩
    · rcases h.stored_or_new hrow' with hj | ⟨hj, htj, hnj, -⟩
      · exact hsound.names i j row row' hi hj htenant hname
      · rw [hj]
        exact h.id_of_name hsound hi (htenant.trans htj) (hname.trans hnj)
    · rcases h.stored_or_new hrow' with hj | ⟨hj, -⟩
      · rw [hi]
        exact (h.id_of_name hsound hj (htenant.symm.trans hti) (hname.symm.trans hni)).symm
      · rw [hi, hj]
  codes i row code hrow hcode := by
    rcases h.stored_or_new hrow with hi | ⟨-, -, hname, -, hnew, -⟩
    · exact hsound.codes i row code hi hcode
    · rw [hnew] at hcode
      cases hcode
      exact hname
  assignments i row hrow := by
    rw [h.view_assignments] at hrow
    obtain ⟨hactive, ⟨category, hcategory, htenant, hcode⟩, htransaction⟩ :=
      hsound.assignments i row hrow
    obtain ⟨new, hnew, hsame, -, hcodes⟩ := h.kept hsound hcategory
    refine ⟨hactive, ⟨new, hnew, hsame.trans htenant, hcodes _ hcode⟩, ?_⟩
    rwa [h.view_transactions]
  unique i j row row' hrow hrow' := by
    rw [h.view_assignments] at hrow hrow'
    exact hsound.unique i j row row' hrow hrow'

end CategoryPart

/-! ## Whole commits -/

namespace CategoryCommit

theorem category_kept (h : CategoryCommit who db own) (hsound : CategorySound db)
    {row : CategoryRow} (hrow : db.categories.find? id = some row) :
    ∃ new, (categoryStore.view db own).categories.find? id = some new ∧
      new.tenantId = row.tenantId ∧ new.name = row.name ∧
        ∀ code, row.canonicalCode = some code → new.canonicalCode = some code := by
  cases h with
  | kept c cats categoryId hmine hpart =>
      rw [Store.view_append]
      exact hpart.kept hsound hrow
  | assigned c cats categoryId transaction hmine hpart =>
      rw [Store.view_append]
      exact hpart.kept hsound hrow
  | added row hnew => exact ⟨_, hrow, rfl, rfl, fun _ h => h⟩

theorem assignment_kept (h : CategoryCommit who db own) {row : CategoryAssignmentRow}
    (hrow : db.assignments.find? id = some row) :
    (categoryStore.view db own).assignments.find? id = some row := by
  cases h with
  | kept c cats categoryId hmine hpart =>
      rw [Store.view_append]
      change (categoryStore.view db cats).assignments.find? id = some row
      rw [hpart.view_assignments, hrow]
  | assigned c cats categoryId transaction hmine hpart hfirst hstored htenant hfresh =>
      rw [Store.view_append]
      change ((categoryStore.view db cats).assignments.put (c.newAssignment categoryId)).find? id =
        some row
      have hne : id ≠ (c.newAssignment categoryId).id := by
        rintro rfl
        rw [AssignCall.newAssignment, hfresh] at hrow
        cases hrow
      rw [Table.find?_put, if_neg hne, hpart.view_assignments, hrow]
  | added => exact hrow

/-- An assignment that is there afterwards was there before, or is the first of its
transaction. -/
theorem assignment_or_new (h : CategoryCommit who db own) {row : CategoryAssignmentRow}
    (hrow : (categoryStore.view db own).assignments.find? id = some row) :
    db.assignments.find? id = some row ∨ ∃ call categoryId, who call ∧
      id = call.newAssignmentId ∧ row = call.newAssignment categoryId ∧
        Unassigned db call.transactionId ∧ .lockTransaction call.request ∈ own ∧
          ∀ other, (categoryStore.view db own).assignments.find? other ≠ none →
            db.assignments.find? other ≠ none ∨ other = id := by
  cases h with
  | kept c cats categoryId hmine hpart =>
      rw [Store.view_append] at hrow
      change (categoryStore.view db cats).assignments.find? id = some row at hrow
      rw [hpart.view_assignments] at hrow
      exact .inl hrow
  | assigned c cats categoryId transaction hmine hpart hfirst hstored htenant hfresh =>
      rw [Store.view_append] at hrow
      change ((categoryStore.view db cats).assignments.put (c.newAssignment categoryId)).find? id =
        some row at hrow
      rw [Table.find?_put, hpart.view_assignments] at hrow
      split at hrow
      · rename_i hid
        cases hrow
        refine .inr ⟨c, categoryId, hmine, hid, rfl, hfirst, by simp, fun other hother => ?_⟩
        rw [Store.view_append] at hother
        change ((categoryStore.view db cats).assignments.put
          (c.newAssignment categoryId)).find? other ≠ none at hother
        rw [Table.find?_put, hpart.view_assignments] at hother
        split at hother
        · rename_i hsame
          exact .inr (hsame.trans hid.symm)
        · exact .inl hother
      · exact .inl hrow
  | added => exact .inl hrow

theorem transaction_kept (h : CategoryCommit who db own) {row : CategorizedTransaction}
    (hrow : db.transactions.find? id = some row) :
    ∃ new, (categoryStore.view db own).transactions.find? id = some new ∧
      new.ownerId = row.ownerId ∧ (new = row ∨ Unassigned db id ∧
        ∃ call, who call ∧ call.transactionId = id ∧ .lockTransaction call.request ∈ own) := by
  cases h with
  | kept c cats categoryId hmine hpart =>
      rw [Store.view_append]
      change ∃ new, (categoryStore.view db cats).transactions.find? id = some new ∧ _
      rw [hpart.view_transactions]
      exact ⟨row, hrow, rfl, .inl rfl⟩
  | assigned c cats categoryId transaction hmine hpart hfirst hstored htenant hfresh =>
      rw [Store.view_append]
      change ∃ new, ((categoryStore.view db cats).transactions.put
        { transaction with categoryId := some categoryId }).find? id = some new ∧ _
      rw [Table.find?_put, hpart.view_transactions]
      have hkey := Table.key_of_find? hstored
      by_cases hid : id = transaction.id
      · obtain rfl : c.transactionId = id := hkey.symm.trans hid.symm
        rw [hstored] at hrow
        cases hrow
        exact ⟨_, if_pos hid, rfl, .inr ⟨hfirst, c, hmine, rfl, by simp⟩⟩
      · exact ⟨row, by rw [if_neg hid, hrow], rfl, .inl rfl⟩
  | added new hnew =>
      change ∃ other, (db.transactions.put new).find? id = some other ∧ _
      have hne : id ≠ new.id := by
        rintro rfl
        rw [hnew] at hrow
        cases hrow
      rw [Table.find?_put, if_neg hne]
      exact ⟨row, hrow, rfl, .inl rfl⟩

theorem category_fresh (h : CategoryCommit who db own) (hnone : db.categories.find? id = none)
    (hwho : ∀ c, who c → c.newCategoryId ≠ id) :
    (categoryStore.view db own).categories.find? id = none := by
  have hpart : ∀ (c : AssignCall) (cats : List CategoryWrite) (categoryId : String), who c →
      CategoryPart c db cats categoryId →
        (categoryStore.view db cats).categories.find? id = none := by
    intro c cats categoryId hmine hpart
    rw [Option.eq_none_iff_forall_not_mem]
    intro row hrow
    rcases hpart.stored_or_new hrow with hold | ⟨-, -, -, -, -, hfresh⟩
    · rw [hnone] at hold
      cases hold
    · exact hwho c hmine (hfresh hnone).symm
  cases h with
  | kept c cats categoryId hmine hcats =>
      rw [Store.view_append]
      exact hpart c cats categoryId hmine hcats
  | assigned c cats categoryId transaction hmine hcats =>
      rw [Store.view_append]
      exact hpart c cats categoryId hmine hcats
  | added => exact hnone

theorem fresh (h : CategoryCommit who db own) (hfresh : call.Fresh db)
    (hwho : ∀ c, who c → c.newCategoryId ≠ call.newCategoryId ∧
      c.newAssignmentId ≠ call.newAssignmentId) : call.Fresh (categoryStore.view db own) where
  category := h.category_fresh hfresh.category fun c hc => (hwho c hc).1
  assignment := by
    rw [Option.eq_none_iff_forall_not_mem]
    intro row hrow
    rcases h.assignment_or_new hrow with hold | ⟨c, categoryId, hmine, hid, -⟩
    · rw [hfresh.assignment] at hold
      cases hold
    · exact (hwho c hmine).2 hid.symm

/-- An assignment that was stored is still sound. -/
theorem assigned_kept (h : CategoryCommit who db own) (hsound : CategorySound db)
    {row : CategoryAssignmentRow} (hrow : db.assignments.find? id = some row) :
    Assigned (categoryStore.view db own) row := by
  obtain ⟨hactive, ⟨category, hcategory, htenant, hcode⟩,
    ⟨transaction, htransaction, howner, hsame⟩⟩ := hsound.assignments id row hrow
  obtain ⟨newCategory, hnew, hnewTenant, -, hcodes⟩ := h.category_kept hsound hcategory
  obtain ⟨newTransaction, hfound, hnewOwner, hkept⟩ := h.transaction_kept htransaction
  refine ⟨hactive, ⟨newCategory, hnew, hnewTenant.trans htenant, hcodes _ hcode⟩,
    ⟨newTransaction, hfound, hnewOwner.trans howner, ?_⟩⟩
  rcases hkept with rfl | ⟨hnone, -⟩
  · exact hsame
  · exact absurd rfl (hnone id row hrow)

theorem categories_sound (h : CategoryCommit who db own) (hsound : CategorySound db) :
    ∃ middle, CategorySound middle ∧
      (categoryStore.view db own).categories = middle.categories := by
  cases h with
  | kept c cats categoryId hmine hpart =>
      rw [Store.view_append]
      exact ⟨_, hpart.sound hsound, rfl⟩
  | assigned c cats categoryId transaction hmine hpart =>
      rw [Store.view_append]
      exact ⟨_, hpart.sound hsound, rfl⟩
  | added => exact ⟨_, hsound, rfl⟩

theorem assigned_new (h : CategoryCommit who db own) (hnew : db.assignments.find? id = none)
    {row : CategoryAssignmentRow}
    (hrow : (categoryStore.view db own).assignments.find? id = some row) :
    Assigned (categoryStore.view db own) row := by
  cases h with
  | kept c cats categoryId hmine hpart =>
      rw [Store.view_append] at hrow
      change (categoryStore.view db cats).assignments.find? id = some row at hrow
      rw [hpart.view_assignments, hnew] at hrow
      cases hrow
  | assigned c cats categoryId transaction hmine hpart hfirst hstored htenant hfresh =>
      rw [Store.view_append] at hrow ⊢
      change ((categoryStore.view db cats).assignments.put (c.newAssignment categoryId)).find? id =
        some row at hrow
      rw [Table.find?_put, hpart.view_assignments] at hrow
      split at hrow
      · cases hrow
        obtain ⟨category, hcategory, hsame, hcode⟩ := hpart.stored
        refine ⟨rfl, ⟨category, hcategory, hsame, hcode⟩,
          ⟨{ transaction with categoryId := some categoryId }, ?_, htenant, rfl⟩⟩
        change ((categoryStore.view db cats).transactions.put
          { transaction with categoryId := some categoryId }).find? c.transactionId = _
        rw [Table.find?_put, if_pos (Table.key_of_find? hstored).symm]
      · rw [hnew] at hrow
        cases hrow
  | added =>
      change db.assignments.find? id = some row at hrow
      rw [hnew] at hrow
      cases hrow

theorem sound (h : CategoryCommit who db own) (hsound : CategorySound db) :
    CategorySound (categoryStore.view db own) := by
  obtain ⟨middle, hmiddle, hcategories⟩ := h.categories_sound hsound
  refine ⟨?_, ?_, ?_, ?_⟩
  · rw [hcategories]
    exact hmiddle.names
  · rw [hcategories]
    exact hmiddle.codes
  · intro i row hrow
    cases hold : db.assignments.find? i with
    | none => exact h.assigned_new hold hrow
    | some old =>
        have hkept := h.assignment_kept hold
        rw [hrow] at hkept
        cases hkept
        exact h.assigned_kept hsound hold
  · intro i j row row' hrow hrow' hsame
    rcases h.assignment_or_new hrow with hi | ⟨c, categoryId, -, -, rfl, hfirst, -, honly⟩
    · rcases h.assignment_or_new hrow' with hj | ⟨c', categoryId', -, -, rfl, hfirst', -⟩
      · exact hsound.unique i j row row' hi hj hsame
      · exact absurd hsame (hfirst' i row hi)
    · cases hj : db.assignments.find? j with
      | some old =>
          have hkept := h.assignment_kept hj
          rw [hrow'] at hkept
          cases hkept
          exact absurd hsame.symm (hfirst j row' hj)
      | none =>
          have hstored : (categoryStore.view db own).assignments.find? j ≠ none := by
            rw [hrow']
            exact Option.some_ne_none row'
          rcases honly j hstored with hne | rfl
          · exact absurd hj hne
          · rfl

end CategoryCommit

end BrainCore.Ledger
