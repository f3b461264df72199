import BrainCore.Ledger.CategorySteps
import Mathlib.Data.List.Induction

/-!
# The category of a transaction over whole runs

A transaction has at most one assignment and its category, and no constraint is
violated, as long as no call comes upon an assignment that it would replace or
that it would confirm by a stronger method.  To replace an assignment violates
a foreign key, and to confirm one leaves the weaker method in place.
-/

namespace BrainCore.Ledger

open BrainCore.Foundation BrainCore.Policy

variable {db : CategoryDb} {call : AssignCall} {own : List CategoryWrite}
  {who : AssignCall → Prop}

/-! ## The invariant -/

/-- The stored assignment of its transaction is at least as strong as the request. -/
def AssignmentRequest.Outranked (request : AssignmentRequest) (db : CategoryDb) : Prop :=
  ∃ id row, db.assignments.find? id = some row ∧ row.transactionId = request.transactionId ∧
    row.supersededAt = none ∧ request.method.priority ≤ row.assignmentMethod.priority

/-- At most one assignment of a transaction is active, the transaction has its category, and its
method is at least as strong as every method applied so far. -/
structure Categorized (db : CategoryDb) : Prop where
  active : ∀ id id' row row', db.assignments.find? id = some row →
    db.assignments.find? id' = some row' → row.transactionId = row'.transactionId →
    row.supersededAt = none → row'.supersededAt = none → id = id'
  category : ∀ id row, db.assignments.find? id = some row → row.supersededAt = none →
    ∃ transaction, db.transactions.find? row.transactionId = some transaction ∧
      transaction.categoryId = some row.categoryId
  strongest : ∀ request ∈ db.applied, request.Outranked db

theorem CategorySound.categorized (h : CategorySound db)
    (hstrongest : ∀ request ∈ db.applied, request.Outranked db) : Categorized db where
  active id id' row row' hrow hrow' hsame _ _ := h.unique id id' row row' hrow hrow' hsame
  category id row hrow _ := by
    obtain ⟨-, -, transaction, htransaction, -, hcategory⟩ := h.assignments id row hrow
    exact ⟨transaction, htransaction, hcategory⟩
  strongest := hstrongest

/-- The stored assignment gives way to nothing: of the request's code it is as strong as the
request, and of another code it is stronger. -/
def AssignmentRequest.Yields (request : AssignmentRequest) (db : CategoryDb) : Prop :=
  ∀ id row, db.assignments.find? id = some row → row.transactionId = request.transactionId →
    (row.canonicalCode = request.canonicalCode →
      request.method.priority ≤ row.assignmentMethod.priority) ∧
    (row.canonicalCode ≠ request.canonicalCode →
      request.method.priority < row.assignmentMethod.priority)

theorem AssignmentRequest.Yields.not_replaces {request : AssignmentRequest}
    (h : request.Yields db) : ¬request.Replaces db := by
  rintro ⟨id, row, hrow, hsame, hcode, hle⟩
  exact absurd ((h id row hrow hsame).2 hcode) (Nat.not_lt.mpr hle)

theorem AssignmentRequest.Outranked.kept {request : AssignmentRequest} (h : request.Outranked db)
    (hcommit : CategoryCommit who db own) : request.Outranked (categoryStore.view db own) := by
  obtain ⟨id, row, hrow, hrest⟩ := h
  exact ⟨id, row, hcommit.assignment_kept hrow, hrest⟩

/-! ## One commit -/

def CategoryWrite.request? : CategoryWrite → Option AssignmentRequest
  | .lockTransaction request => some request
  | .category _ | .lockCategory _ | .transaction _ | .assignment _ => none

theorem applied_view (db : CategoryDb) (own : List CategoryWrite) :
    (categoryStore.view db own).applied = db.applied ++ own.filterMap CategoryWrite.request? := by
  induction own generalizing db with
  | nil => exact (List.append_nil _).symm
  | cons w own ih =>
      change (categoryStore.view (w.apply db) own).applied = _
      rw [ih]
      cases w with
      | lockTransaction request => exact List.append_assoc _ _ _
      | category row => rfl
      | lockCategory id => rfl
      | transaction row => rfl
      | assignment row => rfl

theorem CategoryPart.request?_eq_none {cats : List CategoryWrite} {categoryId : String}
    (h : CategoryPart call db cats categoryId) : cats.filterMap CategoryWrite.request? = [] := by
  cases h <;> rfl

/-- A commit applies one request at most, and its transaction has an assignment afterwards: the
one it had, or one of the request's method. -/
theorem CategoryCommit.applied (h : CategoryCommit who db own) (hsound : CategorySound db) :
    own.filterMap CategoryWrite.request? = [] ∨ ∃ call, who call ∧
      own.filterMap CategoryWrite.request? = [call.request] ∧
        (call.request.Yields db → call.request.Outranked (categoryStore.view db own)) := by
  have hcommit := h
  cases h with
  | added => exact .inl rfl
  | kept c cats categoryId hmine hpart hactive =>
      refine .inr ⟨c, hmine, ?_, fun hyields => ?_⟩
      · rw [List.filterMap_append, hpart.request?_eq_none]
        rfl
      · obtain ⟨id, row, hrow, hsame⟩ := hactive
        obtain ⟨hequal, hother⟩ := hyields id row hrow hsame
        refine ⟨id, row, hcommit.assignment_kept hrow, hsame, (hsound.assignments id row hrow).active,
          ?_⟩
        by_cases hcode : row.canonicalCode = c.request.canonicalCode
        · exact hequal hcode
        · exact Nat.le_of_lt (hother hcode)
  | assigned c cats categoryId transaction hmine hpart =>
      refine .inr ⟨c, hmine, ?_, fun _ => ?_⟩
      · rw [List.filterMap_append, hpart.request?_eq_none]
        rfl
      · refine ⟨c.newAssignmentId, c.newAssignment categoryId, ?_, rfl, rfl, Nat.le_refl _⟩
        rw [Store.view_append]
        change ((categoryStore.view db cats).assignments.put (c.newAssignment categoryId)).find? _ = _
        rw [Table.find?_put]
        exact if_pos rfl

/-! ## Runs -/

abbrev CategoryWorld :=
  Calls CategoryDb CategoryWrite Unit Empty AssignError TransactionCategoryAssignmentResult

abbrev CategoryLabel := CallLabel CategoryWrite Unit AssignError AssignCall

/-- The call that goes on holds the lock of no transaction whose assignment it would replace or
confirm by a stronger method. -/
def YieldsAt (s : CategoryWorld) (label : CategoryLabel) : Prop :=
  ∀ i env, label = .advance i env → ∀ request, .lockTransaction request ∈ s.ownOf i →
    request.Yields s.committed

/-- Before any assignment; a canonical category has the name of its code. -/
structure Uncategorized (db : CategoryDb) : Prop where
  names : ∀ id id' row row', db.categories.find? id = some row →
    db.categories.find? id' = some row' → row.tenantId = row'.tenantId → row.name = row'.name →
    id = id'
  codes : ∀ id row code, db.categories.find? id = some row → row.canonicalCode = some code →
    row.name = code.definition.name
  assignments : db.assignments = Table.empty
  applied : db.applied = []

theorem Uncategorized.sound (h : Uncategorized db) : CategorySound db where
  names := h.names
  codes := h.codes
  assignments id row hrow := by
    rw [h.assignments] at hrow
    cases hrow
  unique id id' row row' hrow := by
    rw [h.assignments] at hrow
    cases hrow

section Runs

variable {labels : List CategoryLabel} {label : CategoryLabel} {s next : CategoryWorld}

theorem otherTransactions_added {writes : List CategoryWrite}
    (h : otherTransactions db writes = true) : CategoryCommit who db writes := by
  unfold otherTransactions at h
  split at h
  · rename_i row
    exact .added row (Option.isNone_iff_eq_none.mp h)
  · cases h

theorem otherTransactions_permitted (db : CategoryDb) (writes : List CategoryWrite)
    (hsound : CategorySound db) (h : otherTransactions db writes = true) :
    CategorySound (categoryStore.view db writes) ∧
      ∀ call, categoryRoles.rely call db writes :=
  have hadded : CategoryCommit (fun _ => True) db writes := otherTransactions_added h
  ⟨hadded.sound hsound, fun _ => otherTransactions_added h⟩

/-- One step of a run, by whom its commit is. -/
theorem category_commit_of_run (hdb : Uncategorized db)
    (hfresh : ∀ call, .begin call ∈ labels ++ [label] → call.Fresh db)
    (hids : (begunCalls (labels ++ [label])).Pairwise AssignCall.Apart)
    (hrun : assignMachine.run { committed := db } labels = some s)
    (hstep : assignMachine.step s label = some next) :
    CategorySound s.committed ∧ CategorySound next.committed ∧
      Discipline.Attributed categoryStore categoryRoles.share otherTransactions
        (begunCalls (labels ++ [label])) s.committed next.committed label :=
  CallRoles.attributed_of_run CategoryWrite.clash_symm otherTransactions_permitted
    hdb.sound hfresh (hids.imp categoryRoles_fit) (fun call _ => ⟨_, assignScript_sound call⟩)
    hrun hstep

theorem sound_of_run (hdb : Uncategorized db)
    (hfresh : ∀ call, .begin call ∈ labels → call.Fresh db)
    (hids : (begunCalls labels).Pairwise AssignCall.Apart)
    (hrun : assignMachine.run { committed := db } labels = some s) :
    CategorySound s.committed := by
  induction labels using List.reverseRecOn generalizing s with
  | nil =>
      cases hrun
      exact hdb.sound
  | append_singleton labels label _ =>
      obtain ⟨middle, hbefore, hstep⟩ := Machine.run_concat_some _ hrun
      exact (category_commit_of_run hdb hfresh hids hbefore hstep).2.1

/-- A call that applies a request holds its lock. -/
theorem lock_of_applied {i : Nat} {env : Unit} {writes : List CategoryWrite}
    (hstep : assignMachine.step s (.advance i env) = some next)
    (hview : next.committed = categoryStore.view s.committed writes)
    {request : AssignmentRequest} (hmem : request ∈ writes.filterMap CategoryWrite.request?) :
    .lockTransaction request ∈ s.ownOf i := by
  have hcommitted : next.committed = categoryStore.view s.committed
      (s.committing (.advance i env : CategoryLabel)) :=
    @committed_of_step _ _ _ _ _ _ _ categoryStore assignScript otherTransactions s next _ hstep
  have happlied := congrArg CategoryDb.applied (hview.symm.trans hcommitted)
  rw [applied_view, applied_view] at happlied
  rw [List.append_cancel_left happlied] at hmem
  obtain ⟨w, hw, hrequest⟩ := List.mem_filterMap.mp hmem
  cases w with
  | lockTransaction other =>
      cases hrequest
      exact Calls.mem_ownOf_of_committing hw
  | category row => cases hrequest
  | lockCategory id => cases hrequest
  | transaction row => cases hrequest
  | assignment row => cases hrequest

/-- Every request that was applied is outranked by the assignment of its transaction. -/
theorem outranked_of_run (hdb : Uncategorized db)
    (hfresh : ∀ call, .begin call ∈ labels → call.Fresh db)
    (hids : (begunCalls labels).Pairwise AssignCall.Apart)
    (hmeets : assignMachine.Meets YieldsAt { committed := db } labels)
    (hrun : assignMachine.run { committed := db } labels = some s) :
    ∀ request ∈ s.committed.applied, request.Outranked s.committed := by
  induction labels using List.reverseRecOn generalizing s with
  | nil =>
      cases hrun
      intro request hmem
      change request ∈ db.applied at hmem
      rw [hdb.applied] at hmem
      cases hmem
  | append_singleton labels label ih =>
      obtain ⟨middle, hbefore, hstep⟩ := Machine.run_concat_some _ hrun
      have hfewer : (begunCalls labels).Pairwise AssignCall.Apart := by
        rw [begunCalls_append] at hids
        exact (List.pairwise_append.mp hids).1
      have hold := ih (fun call hcall => hfresh call (List.mem_append_left _ hcall)) hfewer
        hmeets.of_append hbefore
      obtain ⟨hsound, -, hattributed⟩ := category_commit_of_run hdb hfresh hids hbefore hstep
      have hyields := (Machine.Meets.split _ hmeets hbefore).1
      cases hattributed with
      | quiet hsame => rwa [hsame]
      | outside hallowed hview =>
          have hcommit : CategoryCommit (fun _ => False) middle.committed _ :=
            otherTransactions_added hallowed
          rw [hview]
          intro request hmem
          rw [applied_view, List.mem_append] at hmem
          rcases hmem with hmem | hmem
          · exact (hold request hmem).kept hcommit
          · rcases hcommit.applied hsound with hnone | ⟨call, hfalse, -⟩
            · rw [hnone] at hmem
              cases hmem
            · exact hfalse.elim
      | own hnumber hmine hview =>
          rw [hview]
          intro request hmem
          rw [applied_view, List.mem_append] at hmem
          rcases hmem with hmem | hmem
          · exact (hold request hmem).kept hmine
          · rcases CategoryCommit.applied hmine hsound with hnone | ⟨call, rfl, hone, houtranked⟩
            · rw [hnone] at hmem
              cases hmem
            · rw [hone] at hmem
              obtain rfl := List.mem_singleton.mp hmem
              refine houtranked (hyields _ _ rfl _ (lock_of_applied hstep hview ?_))
              rw [hone]
              exact List.mem_cons_self

/-- In every run whose calls come upon no assignment that they would replace or confirm by a
stronger method, a transaction has one assignment at most, its category and a method as strong as
any applied to it; and a call fails only for an input it refuses. -/
theorem assignments_keep_priority (hdb : Uncategorized db)
    (hfresh : ∀ call, .begin call ∈ labels → call.Fresh db)
    (hids : (begunCalls labels).Pairwise AssignCall.Apart)
    (hmeets : assignMachine.Meets YieldsAt { committed := db } (labels ++ [label]))
    (hrun : assignMachine.run { committed := db } labels = some s) :
    Categorized s.committed ∧
      ∀ error, s.failing categoryStore label = some error →
        ∃ i env call, label = .advance i env ∧ (begunCalls labels)[i]? = some call ∧
          (error = .confidence ∧ (call.input.confidence < 0 ∨ 1 < call.input.confidence) ∨
            error = .transactionRequired ∧
              s.committed.transaction? call.tenantId call.transactionId = none) := by
  constructor
  · have hstrongest := outranked_of_run hdb hfresh hids hmeets.of_append hrun
    exact (sound_of_run hdb hfresh hids hrun).categorized hstrongest
  · intro error hfailing
    obtain ⟨i, env, call, rfl, hcall, hfails⟩ := CallRoles.failing_of_run
      CategoryWrite.clash_symm otherTransactions_permitted hdb.sound hfresh
      (hids.imp categoryRoles_fit)
      (fun call _ => ⟨⟨_, assignScript_sound call⟩, assignScript_fails call⟩) hrun hfailing
    refine ⟨i, env, call, rfl, hcall, ?_⟩
    cases hfails with
    | confidence hinvalid => exact .inl ⟨rfl, hinvalid⟩
    | transactionRequired hmissing => exact .inr ⟨rfl, hmissing⟩
    | replaces hlocked hstands =>
        have hyields := (Machine.Meets.split _ hmeets hrun).1 i env rfl call.request hlocked
        exact absurd hstands hyields.not_replaces

end Runs

/-! ## A rule and a person -/

namespace Correction

def untagged : CategorizedTransaction := ⟨"tx", "tnt", none⟩

def start : CategoryDb := { transactions := Table.empty.put untagged }

def rule (number : String) (code : CanonicalTransactionCategoryCode) : AssignCall where
  tenantId := "tnt"
  transactionId := "tx"
  input := ⟨code, .deterministicRule, 1, some "v1", none⟩
  newCategoryId := "cat" ++ number
  newAssignmentId := "asg" ++ number
  now := 0

def person (number : String) (code : CanonicalTransactionCategoryCode) : AssignCall :=
  { rule number code with input := ⟨code, .humanConfirmed, 1, none, none⟩ }

/-- A first assignment of a transaction from its begin to its commit. -/
def first (call : AssignCall) : List CategoryLabel :=
  .begin call :: List.replicate 9 (.advance 0 ())

def worldAfter (labels : List CategoryLabel) : CategoryWorld :=
  (assignMachine.run { committed := start } labels).getD { committed := start }

/-- A person corrects what a rule has assigned, up to the update of the old assignment. -/
def correctedLabels : List CategoryLabel :=
  first (rule "1" .expenseCloudInfrastructure) ++
    .begin (person "2" .expensePayrollAndBenefits) :: List.replicate 6 (.advance 1 ())

/-- A person confirms what a rule has assigned. -/
def confirmedLabels : List CategoryLabel :=
  first (rule "1" .expenseCloudInfrastructure) ++
    .begin (person "2" .expenseCloudInfrastructure) :: List.replicate 5 (.advance 1 ())

theorem categorized_first : (worldAfter confirmedLabels).committed.assignments.rows =
    [(rule "1" .expenseCloudInfrastructure).newAssignment "cat1"] := rfl

/-- The correction violates a foreign key, and the confirmation leaves the rule in place. -/
theorem correction_fails :
    (assignMachine.run { committed := start } correctedLabels = some (worldAfter correctedLabels) ∧
      (worldAfter correctedLabels).failing categoryStore (.advance 1 () : CategoryLabel) =
        some (.violates "ledger_transaction_category_assignments_superseded_by_fkey")) ∧
    assignMachine.run { committed := start } confirmedLabels = some (worldAfter confirmedLabels) ∧
      ¬Categorized (worldAfter confirmedLabels).committed := by
  refine ⟨⟨rfl, rfl⟩, rfl, fun h => ?_⟩
  have hmem : (person "2" .expenseCloudInfrastructure).request ∈
      (worldAfter confirmedLabels).committed.applied := List.mem_cons_of_mem _ List.mem_cons_self
  obtain ⟨id, row, hrow, -, -, hle⟩ := h.strongest _ hmem
  have hstored := Table.mem_of_find? hrow
  rw [categorized_first] at hstored
  obtain rfl := List.mem_singleton.mp hstored
  exact absurd hle (by decide)

/-- What `YieldsAt` asks of a step, computed. -/
def yieldsAt (s : CategoryWorld) : CategoryLabel → Bool
  | .advance i _ => (s.ownOf i).all fun w => w.request?.all fun request =>
      s.committed.assignments.rows.all fun row => row.transactionId ≠ request.transactionId ||
        if row.canonicalCode = request.canonicalCode then
          decide (request.method.priority ≤ row.assignmentMethod.priority)
        else decide (request.method.priority < row.assignmentMethod.priority)
  | .begin _ | .fail _ _ | .crash _ | .outside _ => true

theorem yieldsAt_of_check {s : CategoryWorld} {label : CategoryLabel}
    (h : yieldsAt s label = true) : YieldsAt s label := by
  rintro i env rfl request hlock id row hrow hsame
  have hrequest := List.all_eq_true.mp h _ hlock
  have hstored := List.all_eq_true.mp ((Option.all_eq_true _ _).mp hrequest request rfl) row
    (Table.mem_of_find? hrow)
  rw [Bool.or_eq_true, decide_eq_true_eq] at hstored
  have hranks := hstored.resolve_left fun hne => hne hsame
  constructor
  · intro hcode
    rw [if_pos hcode] at hranks
    exact of_decide_eq_true hranks
  · intro hcode
    rw [if_neg hcode] at hranks
    exact of_decide_eq_true hranks

theorem uncategorized_start : Uncategorized start where
  names id id' row row' hrow := by cases hrow
  codes id row code hrow := by cases hrow
  assignments := rfl
  applied := rfl

/-- A rule comes after a person who chose another code, up to its commit. -/
def overruledLabels : List CategoryLabel :=
  first (person "1" .expensePayrollAndBenefits) ++
    .begin (rule "2" .expenseCloudInfrastructure) :: List.replicate 6 (.advance 1 ())

theorem rule_leaves_person :
    assignMachine.run { committed := start } overruledLabels = some (worldAfter overruledLabels) ∧
      Categorized (worldAfter overruledLabels).committed := by
  have hrun : assignMachine.run { committed := start } overruledLabels =
      some (worldAfter overruledLabels) := rfl
  have hcalls : begunCalls overruledLabels =
      [person "1" .expensePayrollAndBenefits, rule "2" .expenseCloudInfrastructure] := rfl
  have hfresh : ∀ call, .begin call ∈ overruledLabels → call.Fresh start :=
    fun call _ => ⟨rfl, rfl⟩
  have hids : (begunCalls overruledLabels).Pairwise AssignCall.Apart := by
    rw [hcalls]
    refine List.pairwise_pair.mpr ⟨?_, ?_⟩ <;> decide
  have hchecked : assignMachine.check yieldsAt { committed := start }
      (overruledLabels ++ [.advance 1 ()]) = true := rfl
  have hmeets := Machine.Meets.mono assignMachine
    (fun s label (h : yieldsAt s label = true) => yieldsAt_of_check h)
    (Machine.meets_of_check assignMachine hchecked)
  exact ⟨hrun, (assignments_keep_priority uncategorized_start hfresh hids hmeets hrun).1⟩

end Correction

end BrainCore.Ledger
