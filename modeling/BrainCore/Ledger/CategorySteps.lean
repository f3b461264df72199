import BrainCore.Ledger.CategoryCommits

/-!
# One assignment among others

What a call has read stays as it is until its end: its category is locked or
taken by its name, and the lock of its transaction keeps every other assignment
of that transaction out.  A statement fails only for an input the call refuses,
or to supersede an assignment.
-/

namespace BrainCore.Ledger

open BrainCore.Foundation BrainCore.Policy

variable {db : CategoryDb} {call : AssignCall} {own theirs cats : List CategoryWrite}
  {who : AssignCall → Prop} {categoryId id : String}

/-! ## What a lock keeps -/

theorem sameCategory_symm (first second : CategoryRow) :
    CategoryWrite.sameCategory first second = CategoryWrite.sameCategory second first := by
  unfold CategoryWrite.sameCategory
  grind

theorem sameAssignment_symm (first second : CategoryAssignmentRow) :
    CategoryWrite.sameAssignment first second = CategoryWrite.sameAssignment second first := by
  unfold CategoryWrite.sameAssignment
  grind

theorem CategoryWrite.clash_symm (w w' : CategoryWrite) : w.clash w' = w'.clash w := by
  have hids : ∀ first second : Option String,
      (first.isSome && first = second) = (second.isSome && second = first) := by
    intro first second
    cases first <;> cases second <;> simp [eq_comm]
  unfold clash
  rw [hids w.categoryId? w'.categoryId?, hids w.transactionId? w'.transactionId?,
    any_any_comm w.category? w'.category? sameCategory_symm,
    any_any_comm w.assignment? w'.assignment? sameAssignment_symm]

theorem not_free_of_categoryId {w held : CategoryWrite} (hid : w.categoryId? = some id)
    (hheld : held.categoryId? = some id) : w.clash held = true := by
  simp [CategoryWrite.clash, hid, hheld]

theorem not_free_of_transactionId {w held : CategoryWrite} (hid : w.transactionId? = some id)
    (hheld : held.transactionId? = some id) : w.clash held = true := by
  simp [CategoryWrite.clash, hid, hheld]

theorem not_free_of_name {row new : CategoryRow} (htenant : row.tenantId = new.tenantId)
    (hname : row.name = new.name) :
    (CategoryWrite.category row).clash (.category new) = true := by
  simp [CategoryWrite.clash, CategoryWrite.category?, CategoryWrite.sameCategory, htenant, hname]

namespace CategoryCommit

theorem category_or_new (h : CategoryCommit who db own) {row : CategoryRow}
    (hrow : (categoryStore.view db own).categories.find? id = some row) :
    db.categories.find? id = some row ∨ row.id = id ∧ .category row ∈ own ∧
      row.canonicalCode ≠ none := by
  have hpart : ∀ (c : AssignCall) (cats : List CategoryWrite) (categoryId : String),
      CategoryPart c db cats categoryId →
      (categoryStore.view db cats).categories.find? id = some row →
        db.categories.find? id = some row ∨ row.id = id ∧ .category row ∈ cats ∧
          row.canonicalCode ≠ none := by
    intro c cats categoryId hpart hrow
    rcases hpart.stored_or_new hrow with hold | ⟨-, -, -, hmem, hcode, -⟩
    · exact .inl hold
    · exact .inr ⟨Table.key_of_find? hrow, hmem, by rw [hcode]; exact Option.some_ne_none _⟩
  cases h with
  | kept c cats categoryId hmine hcats =>
      rw [Store.view_append] at hrow
      rcases hpart c cats categoryId hcats hrow with hold | ⟨hid, hmem, hcode⟩
      · exact .inl hold
      · exact .inr ⟨hid, List.mem_append_left _ hmem, hcode⟩
  | assigned c cats categoryId transaction hmine hcats =>
      rw [Store.view_append] at hrow
      rcases hpart c cats categoryId hcats hrow with hold | ⟨hid, hmem, hcode⟩
      · exact .inl hold
      · exact .inr ⟨hid, List.mem_append_left _ hmem, hcode⟩
  | added => exact .inl hrow

theorem category_of_free (h : CategoryCommit who db theirs) (hsound : CategorySound db)
    (hfree : Free categoryStore theirs own) {held : CategoryWrite} (hheld : held ∈ own)
    (hid : held.categoryId? = some id) :
    (categoryStore.view db theirs).categories.find? id = db.categories.find? id := by
  have hback : ∀ row, (categoryStore.view db theirs).categories.find? id = some row →
      db.categories.find? id = some row := by
    intro row hrow
    rcases h.category_or_new hrow with hold | ⟨hrowId, hmem, -⟩
    · exact hold
    · have hclash := not_free_of_categoryId (w := .category row) (congrArg some hrowId) hid
      rw [show (CategoryWrite.category row).clash held = false from hfree _ hmem _ hheld] at hclash
      cases hclash
  cases hold : db.categories.find? id with
  | some row =>
      obtain ⟨new, hnew, -⟩ := h.category_kept hsound hold
      have hsame := hback new hnew
      rw [hold] at hsame
      rw [hnew, hsame]
  | none =>
      rw [Option.eq_none_iff_forall_not_mem]
      intro row hrow
      have hsame := hback row hrow
      rw [hold] at hsame
      cases hsame

theorem transaction_of_free (h : CategoryCommit who db theirs)
    (hfree : Free categoryStore theirs own) (hlock : .lockTransaction call.request ∈ own)
    {row : CategorizedTransaction} (hrow : db.transactions.find? call.transactionId = some row) :
    (categoryStore.view db theirs).transactions.find? call.transactionId = some row := by
  obtain ⟨new, hnew, -, hsame | ⟨-, c, -, hid, hmem⟩⟩ := h.transaction_kept hrow
  · rw [hnew, hsame]
  · have hheld : (CategoryWrite.lockTransaction call.request).transactionId? =
        some call.transactionId := rfl
    have hclash := not_free_of_transactionId (w := .lockTransaction c.request) (congrArg some hid)
      hheld
    rw [show (CategoryWrite.lockTransaction c.request).clash _ = false from
      hfree _ hmem _ hlock] at hclash
    cases hclash

theorem unassigned_of_free (h : CategoryCommit who db theirs)
    (hfree : Free categoryStore theirs own) (hlock : .lockTransaction call.request ∈ own)
    (hnone : Unassigned db call.transactionId) :
    Unassigned (categoryStore.view db theirs) call.transactionId := by
  intro id row hrow hsame
  rcases h.assignment_or_new hrow with hold | ⟨c, categoryId, -, -, rfl, -, hmem, -⟩
  · exact hnone id row hold hsame
  · have hheld : (CategoryWrite.lockTransaction call.request).transactionId? =
        some call.transactionId := rfl
    have hclash := not_free_of_transactionId (w := .lockTransaction c.request)
      (congrArg some hsame) hheld
    rw [show (CategoryWrite.lockTransaction c.request).clash _ = false from
      hfree _ hmem _ hlock] at hclash
    cases hclash

end CategoryCommit

theorem CategoryPart.of_free (h : CategoryPart call db cats categoryId)
    (hcommit : CategoryCommit who db theirs) (hsound : CategorySound db)
    (hfree : Free categoryStore theirs cats) :
    CategoryPart call (categoryStore.view db theirs) cats categoryId := by
  cases h with
  | found row hstored htenant hcode =>
      have hsame := hcommit.category_of_free hsound hfree List.mem_cons_self
        (rfl : (CategoryWrite.lockCategory row.id).categoryId? = some row.id)
      exact .found row (hsame.trans hstored) htenant hcode
  | put new htenant hname hcode hold hfresh hunique =>
      have hsame := hcommit.category_of_free hsound hfree List.mem_cons_self
        (rfl : (CategoryWrite.category new).categoryId? = some new.id)
      refine .put new htenant hname hcode (hsame ▸ hold) (hsame ▸ hfresh) ?_
      intro id row hrow hrowTenant hrowName
      rcases hcommit.category_or_new hrow with hstored | ⟨-, hmem, -⟩
      · exact hunique id row hstored hrowTenant hrowName
      · have hclash := not_free_of_name hrowTenant hrowName
        rw [show (CategoryWrite.category row).clash _ = false from
          hfree _ hmem _ List.mem_cons_self] at hclash
        cases hclash

/-! ## The role of a call -/

/-- The ids that two calls draw are different. -/
def AssignCall.Apart (call other : AssignCall) : Prop :=
  call.newCategoryId ≠ other.newCategoryId ∧ call.newAssignmentId ≠ other.newAssignmentId

/-- A call relies on the others to draw other ids. -/
def categoryRoles : CallRoles categoryStore AssignCall where
  invariant := CategorySound
  rely call := CategoryCommit (·.Apart call)
  share call := CategoryCommit (· = call)
  start call := call.Fresh
  relies _ _ _ h hcommit := hcommit.sound h
  keeps _ _ _ h hcommit := hcommit.sound h
  begins _ _ _ _ hfresh hcommit := hcommit.fresh hfresh fun _ hc => hc

theorem categoryRoles_fit {call other : AssignCall} (h : call.Apart other) :
    categoryRoles.Fit call other := by
  intro db writes _
  constructor
  · exact fun hcommit => CategoryCommit.mono hcommit fun c (hc : c = call) => hc ▸ h
  · exact fun hcommit => CategoryCommit.mono hcommit fun c (hc : c = other) =>
      hc ▸ ⟨h.1.symm, h.2.symm⟩

theorem fresh_lasting (call : AssignCall) : (categoryRoles.discipline call).Lasting call.Fresh :=
  fun _ _ _ hfresh hcommit => CategoryCommit.fresh hcommit hfresh fun _ hc => hc

/-- The call has come to its category. -/
def HasCategory (call : AssignCall) (categoryId : String) (db : CategoryDb)
    (own : List CategoryWrite) : Prop :=
  call.Fresh db ∧ CategoryPart call db own categoryId

theorem hasCategory_stable (call : AssignCall) (categoryId : String) :
    (categoryRoles.discipline call).Stable (HasCategory call categoryId) :=
  fun db _ theirs hdb h hcommit hfree =>
    ⟨fresh_lasting call db theirs hdb h.1 hcommit, CategoryPart.of_free h.2 hcommit hdb hfree⟩

/-- The call has come to its category and locked its transaction; what it has written since
depends on the transaction. -/
def HasLock (call : AssignCall) (categoryId : String)
    (tail : CategorizedTransaction → List CategoryWrite) (fact : CategoryDb → Prop)
    (db : CategoryDb) (own : List CategoryWrite) : Prop :=
  ∃ cats transaction, HasCategory call categoryId db cats ∧
    db.transactions.find? call.transactionId = some transaction ∧
    transaction.ownerId = call.tenantId ∧
    own = cats ++ .lockTransaction call.request :: tail transaction ∧ fact db

theorem free_left {own rest : List CategoryWrite} (h : Free categoryStore theirs (own ++ rest)) :
    Free categoryStore theirs own :=
  fun w hw held hheld => h w hw held (List.mem_append_left _ hheld)

/-- What no commit makes false while the transaction of the call is locked. -/
def KeptByLock (call : AssignCall) (fact : CategoryDb → Prop) : Prop :=
  ∀ db own theirs, CategorySound db → fact db → CategoryCommit (·.Apart call) db theirs →
    .lockTransaction call.request ∈ own → Free categoryStore theirs own →
      fact (categoryStore.view db theirs)

theorem hasLock_stable (call : AssignCall) (categoryId : String)
    (tail : CategorizedTransaction → List CategoryWrite) {fact : CategoryDb → Prop}
    (hfact : KeptByLock call fact) :
    (categoryRoles.discipline call).Stable (HasLock call categoryId tail fact) := by
  rintro db _ theirs hdb ⟨cats, transaction, hcategory, hstored, htenant, rfl, hholds⟩ hcommit
    hfree
  have hlock : .lockTransaction call.request ∈
      cats ++ .lockTransaction call.request :: tail transaction := by simp
  exact ⟨cats, transaction,
    hasCategory_stable call categoryId db cats theirs hdb hcategory hcommit (free_left hfree),
    CategoryCommit.transaction_of_free hcommit hfree hlock hstored, htenant, rfl,
    hfact db _ theirs hdb hholds hcommit hlock hfree⟩

theorem unassigned_kept (call : AssignCall) :
    KeptByLock call fun db => Unassigned db call.transactionId :=
  fun _ _ _ _ hnone hcommit hlock hfree => hcommit.unassigned_of_free hfree hlock hnone

/-- The assignment that was read. -/
def Found (call : AssignCall) (row : CategoryAssignmentRow) (db : CategoryDb) : Prop :=
  db.assignments.find? row.id = some row ∧ row.transactionId = call.transactionId ∧
    row.tenantId = call.tenantId

theorem found_kept (call : AssignCall) (row : CategoryAssignmentRow) :
    KeptByLock call (Found call row) :=
  fun _ _ _ _ h hcommit _ _ => ⟨hcommit.assignment_kept h.1, h.2⟩

/-! ## Where a call fails -/

/-- An assignment stands in the way that the call would replace. -/
def AssignmentRequest.Replaces (request : AssignmentRequest) (db : CategoryDb) : Prop :=
  ∃ id row, db.assignments.find? id = some row ∧ row.transactionId = request.transactionId ∧
    row.canonicalCode ≠ request.canonicalCode ∧
      row.assignmentMethod.priority ≤ request.method.priority

/-- The ways a transaction of a call fails on its own. -/
inductive AssignFails (call : AssignCall) : AssignError → CategoryDb → List CategoryWrite → Prop where
  | confidence {db : CategoryDb} {own : List CategoryWrite}
      (invalid : call.input.confidence < 0 ∨ 1 < call.input.confidence) :
      AssignFails call .confidence db own
  | transactionRequired {db : CategoryDb} {own : List CategoryWrite}
      (missing : db.transaction? call.tenantId call.transactionId = none) :
      AssignFails call .transactionRequired db own
  | replaces {error : AssignError} {db : CategoryDb} {own : List CategoryWrite}
      (locked : .lockTransaction call.request ∈ own) (stands : call.request.Replaces db) :
      AssignFails call error db own

/-! ## The statements -/

theorem canonicalCategory?_some {tenantId : String} {code : CanonicalTransactionCategoryCode}
    {row : CategoryRow} (h : db.canonicalCategory? tenantId code = some row) :
    db.categories.find? row.id = some row ∧ row.tenantId = tenantId ∧
      row.canonicalCode = some code := by
  obtain ⟨htenant, hcode⟩ : row.tenantId = tenantId ∧ row.canonicalCode = some code := by
    simpa using List.find?_some h
  exact ⟨Table.find?_key (List.mem_of_find?_eq_some h), htenant, hcode⟩

theorem categoryNamed?_some {tenantId name : String} {row : CategoryRow}
    (h : db.categoryNamed? tenantId name = some row) :
    db.categories.find? row.id = some row ∧ row.tenantId = tenantId ∧ row.name = name := by
  obtain ⟨htenant, hname⟩ : row.tenantId = tenantId ∧ row.name = name := by
    simpa using List.find?_some h
  exact ⟨Table.find?_key (List.mem_of_find?_eq_some h), htenant, hname⟩

theorem canonicalCategory?_none {tenantId : String} {code : CanonicalTransactionCategoryCode}
    (h : db.canonicalCategory? tenantId code = none) {row : CategoryRow}
    (hrow : db.categories.find? id = some row) (htenant : row.tenantId = tenantId) :
    row.canonicalCode ≠ some code := by
  intro hcode
  have hnone := List.find?_eq_none.mp h row (Table.mem_of_find? hrow)
  exact hnone (decide_eq_true ⟨htenant, hcode⟩)

/-- A category that has the name of the code and a code has this code. -/
theorem CategorySound.code_of_name (h : CategorySound db) {row : CategoryRow}
    (hrow : db.categories.find? id = some row) {code : CanonicalTransactionCategoryCode}
    (hname : row.name = code.definition.name) (hcoded : row.canonicalCode ≠ none) :
    row.canonicalCode = some code := by
  obtain ⟨other, hother⟩ := Option.ne_none_iff_exists'.mp hcoded
  have hdefined := h.codes id row other hrow hother
  rw [hname] at hdefined
  rw [hother, CanonicalTransactionCategoryCode.definition_name_injective hdefined]

section Statements

variable (call : AssignCall)

/-- Either the category is there, or nothing is written and the fact holds. -/
def Sought (fact : CategoryDb → Prop) (existing : Option String) (db : CategoryDb)
    (own : List CategoryWrite) : Prop :=
  (∀ categoryId, existing = some categoryId → HasCategory call categoryId db own) ∧
    (existing = none → call.Fresh db ∧ fact db ∧ own = [])

theorem sought_stable {fact : CategoryDb → Prop}
    (hfact : (categoryRoles.discipline call).Lasting fact) (existing : Option String) :
    (categoryRoles.discipline call).Stable (Sought call fact existing) := by
  rintro db own theirs hdb ⟨hsome, hnone⟩ hcommit hfree
  refine ⟨fun categoryId h => hasCategory_stable call categoryId db own theirs hdb
    (hsome categoryId h) hcommit hfree, fun h => ?_⟩
  obtain ⟨hfresh, hholds, hown⟩ := hnone h
  exact ⟨fresh_lasting call db theirs hdb hfresh hcommit, hfact db theirs hdb hholds hcommit, hown⟩

/-- Every category of the tenant that has the name of the code has a code. -/
def Unmapped (db : CategoryDb) : Prop :=
  ∀ id row, db.categories.find? id = some row → row.tenantId = call.tenantId →
    row.name = call.input.canonicalCode.definition.name → row.canonicalCode ≠ none

theorem unmapped_lasting : (categoryRoles.discipline call).Lasting (Unmapped call) := by
  intro db writes _ hholds hcommit id row hrow htenant hname
  rcases CategoryCommit.category_or_new hcommit hrow with hold | ⟨-, -, hcode⟩
  · exact hholds id row hold htenant hname
  · exact hcode

theorem outcome_selectCanonical : (categoryRoles.discipline call).Outcome (AssignFails call)
    (fun db own => call.Fresh db ∧ own = []) (selectCanonical call)
      (Sought call fun _ => True) := by
  refine Discipline.Outcome.execute (sought_stable call Discipline.lasting_true) ?_ ?_
  · rintro db own error hdb ⟨hfresh, rfl⟩ hrun
    split at hrun <;> cases hrun
  · rintro db own new existing hdb ⟨hfresh, rfl⟩ hrun
    rw [Store.view_nil] at hrun
    rw [List.nil_append]
    split at hrun
    · cases hrun
      exact ⟨fun _ h => (by cases h), fun _ => ⟨hfresh, trivial, rfl⟩⟩
    · rename_i row hfound
      obtain ⟨hstored, htenant, hcode⟩ := canonicalCategory?_some hfound
      cases hrun
      refine ⟨fun categoryId h => ?_, fun h => (by cases h)⟩
      cases h
      exact ⟨hfresh, .found row hstored htenant hcode⟩

theorem outcome_mapNamed : (categoryRoles.discipline call).Outcome (AssignFails call)
    (fun db own => call.Fresh db ∧ True ∧ own = []) (mapNamed call) (Sought call (Unmapped call)) := by
  have huncoded : ∀ {db : CategoryDb} {row : CategoryRow}, CategorySound db →
      ((db.categoryNamed? call.tenantId call.input.canonicalCode.definition.name).filter
        fun row => row.canonicalCode.isNone) = some row →
      db.canonicalCategory? call.tenantId call.input.canonicalCode = none ∧
        db.categories.find? row.id = some row ∧ row.tenantId = call.tenantId ∧
          row.name = call.input.canonicalCode.definition.name := by
    intro db row hdb hrow
    obtain ⟨hfound, hnone⟩ := Option.filter_eq_some_iff.mp hrow
    obtain ⟨hstored, htenant, hname⟩ := categoryNamed?_some hfound
    refine ⟨?_, hstored, htenant, hname⟩
    cases hcoded : db.canonicalCategory? call.tenantId call.input.canonicalCode with
    | none => rfl
    | some other =>
        obtain ⟨hother, hsame, hcode⟩ := canonicalCategory?_some hcoded
        have hid := hdb.names _ _ row other hstored hother (htenant.trans hsame.symm)
          (hname.trans (hdb.codes _ other _ hother hcode).symm)
        rw [hid, hother] at hstored
        cases hstored
        rw [hcode] at hnone
        cases hnone
  refine Discipline.Outcome.execute (sought_stable call (unmapped_lasting call)) ?_ ?_
  · rintro db own error hdb ⟨hfresh, -, rfl⟩ hrun
    rw [Store.view_nil] at hrun
    split at hrun
    · cases hrun
    · rename_i row hrow
      rw [(huncoded hdb hrow).1, isCanonicalCode_text] at hrun
      cases hrun
  · rintro db own new existing hdb ⟨hfresh, -, rfl⟩ hrun
    rw [Store.view_nil] at hrun
    rw [List.nil_append]
    split at hrun
    · rename_i hnone
      cases hrun
      refine ⟨fun _ h => (by cases h), fun _ => ⟨hfresh, ?_, rfl⟩⟩
      intro id row hrow htenant hname huncoded
      cases hnamed : db.categoryNamed? call.tenantId call.input.canonicalCode.definition.name with
      | none =>
          exact List.find?_eq_none.mp hnamed row (Table.mem_of_find? hrow)
            (decide_eq_true ⟨htenant, hname⟩)
      | some other =>
          obtain ⟨hother, hsame, hotherName⟩ := categoryNamed?_some hnamed
          have hid := hdb.names _ _ row other hrow hother (htenant.trans hsame.symm)
            (hname.trans hotherName.symm)
          rw [hid, hother] at hrow
          cases hrow
          rw [hnamed, Option.filter_some, huncoded] at hnone
          cases hnone
    · rename_i row hrow
      obtain ⟨hnone, hstored, htenant, hname⟩ := huncoded hdb hrow
      rw [hnone, isCanonicalCode_text] at hrun
      cases hrun
      refine ⟨fun categoryId h => ?_, fun h => (by cases h)⟩
      cases h
      refine ⟨hfresh, CategoryPart.put
        { row with canonicalCode := some call.input.canonicalCode, updatedAt := call.now }
        htenant hname rfl ?_ ?_ ?_⟩
      · intro other hother
        rw [hstored] at hother
        cases hother
        exact ⟨rfl, rfl⟩
      · intro hfree
        rw [hstored] at hfree
        cases hfree
      · exact fun id other hother hsame hotherName =>
          hdb.names id row.id other row hother hstored hsame hotherName

theorem outcome_insertCategory : (categoryRoles.discipline call).Outcome (AssignFails call)
    (fun db own => call.Fresh db ∧ Unmapped call db ∧ own = []) (insertCategory call)
      (HasCategory call) := by
  have hunnamed : ∀ {db : CategoryDb}, CategorySound db → Unmapped call db →
      db.canonicalCategory? call.tenantId call.input.canonicalCode = none →
      ∀ id row, db.categories.find? id = some row → row.tenantId = call.tenantId →
        row.name ≠ call.input.canonicalCode.definition.name := by
    intro db hdb hunmapped hnone id row hrow htenant hname
    exact canonicalCategory?_none hnone hrow htenant
      (hdb.code_of_name hrow hname (hunmapped id row hrow htenant hname))
  have hnamed : ∀ {db : CategoryDb}, CategorySound db → Unmapped call db →
      db.canonicalCategory? call.tenantId call.input.canonicalCode = none →
      db.categoryNamed? call.tenantId call.input.canonicalCode.definition.name = none := by
    intro db hdb hunmapped hnone
    cases hfound : db.categoryNamed? call.tenantId call.input.canonicalCode.definition.name with
    | none => rfl
    | some row =>
        obtain ⟨hstored, htenant, hname⟩ := categoryNamed?_some hfound
        exact absurd hname (hunnamed hdb hunmapped hnone row.id row hstored htenant)
  refine Discipline.Outcome.execute (hasCategory_stable call) ?_ ?_
  · rintro db own error hdb ⟨hfresh, hunmapped, rfl⟩ hrun
    rw [Store.view_nil] at hrun
    split at hrun
    · cases hrun
    · rename_i hnone
      rw [hfresh.category, hnamed hdb hunmapped hnone, isCanonicalCode_text] at hrun
      cases hrun
  · rintro db own new categoryId hdb ⟨hfresh, hunmapped, rfl⟩ hrun
    rw [Store.view_nil] at hrun
    rw [List.nil_append]
    split at hrun
    · rename_i row hfound
      obtain ⟨hstored, htenant, hcode⟩ := canonicalCategory?_some hfound
      cases hrun
      have hname := hdb.codes _ row _ hstored hcode
      refine ⟨hfresh, CategoryPart.put { row with updatedAt := call.now } htenant hname hcode
        ?_ ?_ ?_⟩
      · intro other hother
        rw [hstored] at hother
        cases hother
        exact ⟨rfl, rfl⟩
      · intro hfree
        rw [hstored] at hfree
        cases hfree
      · exact fun id other hother hsame hotherName =>
          hdb.names id row.id other row hother hstored hsame hotherName
    · rename_i hnone
      rw [hfresh.category, hnamed hdb hunmapped hnone, isCanonicalCode_text] at hrun
      cases hrun
      refine ⟨hfresh, CategoryPart.put _ rfl rfl rfl ?_ (fun _ => rfl) ?_⟩
      · intro row hrow
        rw [hfresh.category] at hrow
        cases hrow
      · exact fun id row hrow htenant hname =>
          absurd hname (hunnamed hdb hunmapped hnone id row hrow htenant)

/-- A call comes to its category without a failure. -/
theorem outcome_categoryOf : (categoryRoles.discipline call).Outcome (AssignFails call)
    (fun db own => call.Fresh db ∧ own = []) (categoryOf call) (HasCategory call) := by
  refine Discipline.Outcome.bind (outcome_selectCanonical call) fun existing => ?_
  cases existing with
  | some categoryId => exact Discipline.Outcome.done fun db own _ h => h.1 categoryId rfl
  | none =>
      refine Discipline.Outcome.bind (Discipline.Outcome.weaken (outcome_mapNamed call)
        fun db own _ h => h.2 rfl) fun mapped => ?_
      cases mapped with
      | some categoryId => exact Discipline.Outcome.done fun db own _ h => h.1 categoryId rfl
      | none =>
          exact Discipline.Outcome.weaken (outcome_insertCategory call) fun db own _ h => h.2 rfl

theorem HasLock.view_assignments {tail : CategorizedTransaction → List CategoryWrite}
    {fact : CategoryDb → Prop} (h : HasLock call categoryId tail fact db own)
    (htail : ∀ transaction, tail transaction = []) :
    (categoryStore.view db own).assignments = db.assignments := by
  obtain ⟨cats, transaction, ⟨-, hpart⟩, -, -, rfl, -⟩ := h
  rw [Store.view_append, htail]
  exact hpart.view_assignments

theorem outcome_lockTransaction (categoryId : String) :
    (categoryRoles.discipline call).Outcome (AssignFails call) (HasCategory call categoryId)
      (lockTransaction call) fun _ => HasLock call categoryId (fun _ => []) fun _ => True := by
  have hview : ∀ {db : CategoryDb} {own : List CategoryWrite}, HasCategory call categoryId db own →
      (categoryStore.view db own).transaction? call.tenantId call.transactionId =
        db.transaction? call.tenantId call.transactionId := by
    intro db own h
    rw [CategoryDb.transaction?, h.2.view_transactions]
    rfl
  refine Discipline.Outcome.execute
    (fun _ => hasLock_stable call categoryId _ fun _ _ _ _ _ _ _ _ => trivial) ?_ ?_
  · intro db own error hdb h hrun
    rw [hview h] at hrun
    split at hrun
    · rename_i hmissing
      cases hrun
      exact .transactionRequired hmissing
    · cases hrun
  · intro db own new value hdb h hrun
    rw [hview h] at hrun
    split at hrun
    · cases hrun
    · rename_i transaction hfound
      cases hrun
      obtain ⟨hstored, htenant⟩ := Option.filter_eq_some_iff.mp hfound
      exact ⟨own, transaction, h, hstored, of_decide_eq_true htenant, rfl, trivial⟩

/-- What was read of the assignment of the transaction. -/
def ReadActive (active : Option CategoryAssignmentRow) (db : CategoryDb) : Prop :=
  (active = none → Unassigned db call.transactionId) ∧
    ∀ row, active = some row → Found call row db

theorem readActive_kept (active : Option CategoryAssignmentRow) :
    KeptByLock call (ReadActive call active) :=
  fun db own theirs hdb h hcommit hlock hfree =>
    ⟨fun hnone => unassigned_kept call db own theirs hdb (h.1 hnone) hcommit hlock hfree,
      fun row hrow => found_kept call row db own theirs hdb (h.2 row hrow) hcommit hlock hfree⟩

theorem outcome_selectActive (categoryId : String) :
    (categoryRoles.discipline call).Outcome (AssignFails call)
      (HasLock call categoryId (fun _ => []) fun _ => True) (selectActive call) fun active =>
        HasLock call categoryId (fun _ => []) (ReadActive call active) := by
  refine Discipline.Outcome.select
    (fun active => hasLock_stable call categoryId _ (readActive_kept call active)) ?_
  intro db own hdb h
  have hview := h.view_assignments call fun _ => rfl
  obtain ⟨cats, transaction, hcategory, hstored, htenant, hown, -⟩ := h
  refine ⟨cats, transaction, hcategory, hstored, htenant, hown, fun hnone => ?_, fun row hrow => ?_⟩
  · intro id row hrow hsame
    obtain ⟨hactive, -, other, hother, howner, -⟩ := hdb.assignments id row hrow
    rw [hsame, hstored] at hother
    cases hother
    rw [CategoryDb.active?, hview] at hnone
    exact List.find?_eq_none.mp hnone row (Table.mem_of_find? hrow)
      (decide_eq_true ⟨howner.symm.trans htenant, hsame, hactive⟩)
  · rw [CategoryDb.active?, hview] at hrow
    obtain ⟨hrowTenant, hsame, -⟩ : row.tenantId = call.tenantId ∧
        row.transactionId = call.transactionId ∧ row.supersededAt = none := by
      simpa using List.find?_some hrow
    exact ⟨Table.find?_key (List.mem_of_find?_eq_some hrow), hsame, hrowTenant⟩

theorem outcome_insertAssignment (categoryId : String)
    (hvalid : ¬(call.input.confidence < 0 ∨ 1 < call.input.confidence)) :
    (categoryRoles.discipline call).Outcome (AssignFails call)
      (HasLock call categoryId (fun _ => []) fun db => Unassigned db call.transactionId)
      (insertAssignment call categoryId) fun _ =>
        HasLock call categoryId (fun _ => [.assignment (call.newAssignment categoryId)])
          fun db => Unassigned db call.transactionId := by
  have hrun : ∀ {db : CategoryDb} {own : List CategoryWrite}, CategorySound db →
      HasLock call categoryId (fun _ => []) (fun db => Unassigned db call.transactionId) db own →
      let view := categoryStore.view db own
      (view.assignments.find? call.newAssignmentId).isSome = false ∧
        (view.transactions.find? call.transactionId).isNone = false ∧
        (view.categories.find? categoryId).isNone = false ∧
        (view.active? call.tenantId call.transactionId).isSome = false := by
    intro db own hdb h
    have hassignments := h.view_assignments call fun _ => rfl
    obtain ⟨cats, transaction, ⟨hfresh, hpart⟩, hstored, htenant, rfl, hnone⟩ := h
    obtain ⟨category, hcategory, -⟩ := hpart.stored
    have htransactions : (categoryStore.view db (cats ++ [.lockTransaction call.request])).transactions =
        db.transactions := by
      rw [Store.view_append]
      exact hpart.view_transactions
    have hcategories : (categoryStore.view db (cats ++ [.lockTransaction call.request])).categories =
        (categoryStore.view db cats).categories := by
      rw [Store.view_append]
      rfl
    refine ⟨?_, ?_, ?_, ?_⟩
    · rw [hassignments, hfresh.assignment]
      rfl
    · rw [htransactions, hstored]
      rfl
    · rw [hcategories, hcategory]
      rfl
    · rw [CategoryDb.active?, hassignments, Option.isSome_eq_false_iff, Option.isNone_iff_eq_none,
        List.find?_eq_none]
      intro row hrow hactive
      exact hnone row.id row (Table.find?_key hrow) (of_decide_eq_true hactive).2.1
  refine Discipline.Outcome.execute
    (fun _ => hasLock_stable call categoryId _ (unassigned_kept call)) ?_ ?_
  · intro db own error hdb h hresult
    obtain ⟨hfresh, htransaction, hcategory, hactive⟩ := hrun hdb h
    rw [hfresh, htransaction, hcategory, isCanonicalCode_text, hactive, if_neg hvalid] at hresult
    cases hresult
  · intro db own new value hdb h hresult
    obtain ⟨hfresh, htransaction, hcategory, hactive⟩ := hrun hdb h
    rw [hfresh, htransaction, hcategory, isCanonicalCode_text, hactive, if_neg hvalid] at hresult
    cases hresult
    obtain ⟨cats, transaction, hpart, hstored, htenant, rfl, hnone⟩ := h
    exact ⟨cats, transaction, hpart, hstored, htenant, by simp, hnone⟩

theorem outcome_updateTransaction (categoryId : String) :
    (categoryRoles.discipline call).Outcome (AssignFails call)
      (HasLock call categoryId (fun _ => [.assignment (call.newAssignment categoryId)])
        fun db => Unassigned db call.transactionId)
      (updateTransaction call categoryId) fun _ =>
        HasLock call categoryId (fun transaction => [.assignment (call.newAssignment categoryId),
          .transaction { transaction with categoryId := some categoryId }])
            fun db => Unassigned db call.transactionId := by
  have hrun : ∀ {db : CategoryDb} {own cats : List CategoryWrite}
      {transaction : CategorizedTransaction}, CategoryPart call db cats categoryId →
      db.transactions.find? call.transactionId = some transaction →
      transaction.ownerId = call.tenantId →
      own = cats ++ [.lockTransaction call.request, .assignment (call.newAssignment categoryId)] →
      (categoryStore.view db own).transaction? call.tenantId call.transactionId =
          some transaction ∧
        ((categoryStore.view db own).categories.find? categoryId).isNone = false := by
    rintro db _ cats transaction hpart hstored htenant rfl
    obtain ⟨category, hcategory, -⟩ := hpart.stored
    rw [Store.view_append]
    constructor
    · change (((categoryStore.view db cats).transactions.find? call.transactionId).filter
        fun row => row.ownerId = call.tenantId) = some transaction
      rw [hpart.view_transactions, hstored, Option.filter_some, if_pos (decide_eq_true htenant)]
    · change ((categoryStore.view db cats).categories.find? categoryId).isNone = false
      rw [hcategory]
      rfl
  refine Discipline.Outcome.execute
    (fun _ => hasLock_stable call categoryId _ (unassigned_kept call)) ?_ ?_
  · rintro db own error hdb ⟨cats, transaction, ⟨hfresh, hpart⟩, hstored, htenant, hown, hnone⟩
      hresult
    obtain ⟨hfound, hcategory⟩ := hrun hpart hstored htenant hown
    rw [hfound] at hresult
    dsimp only at hresult
    rw [hcategory] at hresult
    cases hresult
  · rintro db own new value hdb ⟨cats, transaction, ⟨hfresh, hpart⟩, hstored, htenant, hown, hnone⟩
      hresult
    obtain ⟨hfound, hcategory⟩ := hrun hpart hstored htenant hown
    rw [hfound] at hresult
    dsimp only at hresult
    rw [hcategory] at hresult
    cases hresult
    subst hown
    exact ⟨cats, transaction, ⟨hfresh, hpart⟩, hstored, htenant, by simp, hnone⟩

/-- The reference to the row that supersedes is checked before that row is inserted. -/
theorem outcome_supersede (categoryId : String) (row : CategoryAssignmentRow)
    (hother : ¬(row.canonicalCode = call.input.canonicalCode ∧ row.categoryId = categoryId))
    (hpriority : row.assignmentMethod.priority ≤ call.input.method.priority) :
    (categoryRoles.discipline call).Outcome (AssignFails call)
      (HasLock call categoryId (fun _ => []) (Found call row)) (supersede call row)
        fun _ _ _ => False := by
  have hrun : ∀ {db : CategoryDb} {own : List CategoryWrite},
      HasLock call categoryId (fun _ => []) (Found call row) db own →
      ((categoryStore.view db own).assignments.find? row.id).filter
          (fun row => row.tenantId = call.tenantId) = some row ∧
        ((categoryStore.view db own).assignments.find? call.newAssignmentId).isNone = true := by
    intro db own h
    have hview := h.view_assignments call fun _ => rfl
    obtain ⟨cats, transaction, ⟨hfresh, -⟩, -, -, -, hstored, -, htenant⟩ := h
    rw [hview, hstored, hfresh.assignment, Option.filter_some, if_pos (decide_eq_true htenant)]
    exact ⟨rfl, rfl⟩
  refine Discipline.Outcome.execute (fun _ => Discipline.stable_own fun _ => False) ?_ ?_
  · intro db own error hdb h hresult
    obtain ⟨cats, transaction, ⟨hfresh, hpart⟩, hlocked, hsame, rfl, hstored, hrow, htenant⟩ := h
    refine .replaces (by simp) ⟨row.id, row, hstored, hrow, fun hcode => hother ⟨hcode, ?_⟩,
      hpriority⟩
    obtain ⟨-, ⟨category, hcategory, hcategoryTenant, hcategoryCode⟩, -⟩ :=
      hdb.assignments _ row hstored
    rw [hcode] at hcategoryCode
    exact hpart.id_of_name hdb hcategory (hcategoryTenant.trans htenant)
      (hdb.codes _ category _ hcategory hcategoryCode)
  · intro db own new value hdb h hresult
    obtain ⟨hfound, hmissing⟩ := hrun h
    rw [hfound] at hresult
    dsimp only at hresult
    rw [hmissing] at hresult
    cases hresult

theorem outcome_replaceAssignment_none (categoryId : String)
    (hvalid : ¬(call.input.confidence < 0 ∨ 1 < call.input.confidence)) :
    (categoryRoles.discipline call).Outcome (AssignFails call)
      (HasLock call categoryId (fun _ => []) (ReadActive call none))
      (replaceAssignment call categoryId none) fun _ => CategoryCommit (· = call) := by
  refine Discipline.Outcome.bind (Discipline.Outcome.weaken
    (outcome_insertAssignment call categoryId hvalid) ?_) fun _ => ?_
  · rintro db own - ⟨cats, transaction, hcategory, hstored, htenant, hown, hread⟩
    exact ⟨cats, transaction, hcategory, hstored, htenant, hown, hread.1 rfl⟩
  · refine Discipline.Outcome.bind (outcome_updateTransaction call categoryId) fun _ => ?_
    refine Discipline.Outcome.done ?_
    rintro db _ - ⟨cats, transaction, ⟨hfresh, hpart⟩, hstored, htenant, rfl, hnone⟩
    exact .assigned call cats categoryId transaction rfl hpart hnone hstored htenant hfresh.assignment

theorem commit_of_found {row : CategoryAssignmentRow}
    (h : HasLock call categoryId (fun _ => []) (Found call row) db own) :
    CategoryCommit (· = call) db own := by
  obtain ⟨cats, transaction, ⟨-, hpart⟩, -, -, rfl, hstored, hsame, -⟩ := h
  exact .kept call cats categoryId rfl hpart ⟨row.id, row, hstored, hsame⟩

/-- A call commits as it may, and fails only as it may. -/
theorem outcome_assignTransactionCategory : (categoryRoles.discipline call).Outcome
    (AssignFails call) (fun db own => call.Fresh db ∧ own = []) (assignTransactionCategory call)
      fun _ => CategoryCommit (· = call) := by
  have hchecked : (categoryRoles.discipline call).Outcome (AssignFails call)
      (fun db own => call.Fresh db ∧ own = [])
      (Program.ofExcept (assertConfidence call.input.confidence)) fun _ db own =>
        (¬(call.input.confidence < 0 ∨ 1 < call.input.confidence)) ∧ call.Fresh db ∧ own = [] := by
    refine Discipline.Outcome.ofExcept ?_ ?_
    · intro error hresult db own _ _
      rw [assertConfidence] at hresult
      split at hresult
      · rename_i hinvalid
        cases hresult
        exact .confidence hinvalid
      · cases hresult
    · intro _ hresult db own _ h
      rw [assertConfidence] at hresult
      split at hresult
      · cases hresult
      · rename_i hvalid
        exact ⟨hvalid, h⟩
  refine Discipline.Outcome.bind hchecked fun _ => ?_
  by_cases hvalid : call.input.confidence < 0 ∨ 1 < call.input.confidence
  · exact Discipline.Outcome.of_false fun _ _ h => h.1 hvalid
  · refine Discipline.Outcome.weaken (Discipline.Outcome.bind (outcome_categoryOf call)
      fun categoryId => ?_) fun _ _ _ h => h.2
    refine Discipline.Outcome.bind (outcome_lockTransaction call categoryId) fun _ => ?_
    refine Discipline.Outcome.bind (outcome_selectActive call categoryId) fun active => ?_
    cases active with
    | none => exact outcome_replaceAssignment_none call categoryId hvalid
    | some row =>
        have hfound : ∀ db own, HasLock call categoryId (fun _ => []) (ReadActive call (some row))
            db own → HasLock call categoryId (fun _ => []) (Found call row) db own := by
          rintro db own ⟨cats, transaction, hcategory, hstored, htenant, hown, hread⟩
          exact ⟨cats, transaction, hcategory, hstored, htenant, hown, hread.2 row rfl⟩
        dsimp only
        split
        · exact Discipline.Outcome.done fun db own _ h => commit_of_found call (hfound db own h)
        · rename_i hother
          split
          · exact Discipline.Outcome.done fun db own _ h => commit_of_found call (hfound db own h)
          · rename_i hpriority
            have hle := Nat.le_of_not_lt hpriority
            refine Discipline.Outcome.weaken (Discipline.Outcome.bind
              (outcome_supersede call categoryId row hother hle) fun _ => ?_)
              fun db own _ h => hfound db own h
            exact Discipline.Outcome.of_false fun _ _ h => h

theorem assignScript_sound : (categoryRoles.discipline call).SoundAs (categoryRoles.share call)
    (categoryRoles.start call) (assignScript call) fun _ _ => True := by
  refine Discipline.Sound.transact (fresh_lasting call) (fun _ => Discipline.lasting_true) ?_
  exact Discipline.Triple.mono (outcome_assignTransactionCategory call).triple
    fun _ _ _ _ h => ⟨h, trivial⟩

theorem assignScript_fails : (categoryRoles.discipline call).Fails (AssignFails call)
    (categoryRoles.start call) (assignScript call) :=
  ⟨⟨_, outcome_assignTransactionCategory call⟩, fun _ => trivial⟩

end Statements

end BrainCore.Ledger
