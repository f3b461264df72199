import BrainCore.Audit.ChainStability
import BrainCore.Foundation.LinkedChain

/-!
# The chain of a tenant is linear

What an emit does alone, and what it keeps: the events of a tenant are one
chain from its genesis to the stored head.
-/

namespace BrainCore.Audit

open BrainCore.Foundation
open BrainCore.Foundation.Program

/-! ## An emit alone -/

namespace AuditDatabase

variable (db : AuditDatabase) (tenantId : String)

/-- A tenant without a head row has the empty head. -/
def headOf : AuditChainHead := (db.heads tenantId).getD {}

/-- The database with an event after the head of its tenant. -/
def appended (row : AuditEventRow) : AuditDatabase where
  events := db.events ++ [row]
  heads := Function.update db.heads row.tenantId
    (some ⟨some row.id, some row.eventHash, (db.headOf row.tenantId).sequence + 1⟩)

end AuditDatabase

/-- The event of the call comes after the head of its tenant, and is in no index twice. -/
structure Appends (sha256 : List Char → String) (call : EmitCall) (db next : AuditDatabase)
    (row : AuditEventRow) : Prop where
  stored : auditEventRow sha256 call.event call.id call.createdAt row.prevEventHash = .ok row
  tenant : row.tenantId = call.event.tenantId
  prev : row.prevEventHash = (db.headOf row.tenantId).headEventHash
  unique : ∀ other ∈ db.events, uniqueClash row other = none
  next : next = db.appended row

variable {sha256 : List Char → String} {hashtext : String → Int} {call : EmitCall}
  {db next : AuditDatabase} {row result : AuditEventRow}

theorem insert_alone {head : AuditChainHead} (hhead : db.heads call.event.tenantId = some head)
    (h : (emitInsert sha256 call head.headEventHash).runAlone auditStore db = .ok (next, row)) :
    Appends sha256 call db next row := by
  obtain ⟨new, value, hrun, hdone⟩ := (runAlone_statement auditStore).mp h
  cases hdone
  obtain ⟨row', hrow, hinsert⟩ := bind_ok.mp hrun
  obtain ⟨rfl, hunique, head', hadvance, rfl⟩ := insertAuditEvent_ok hinsert
  obtain ⟨htenant, hprev⟩ := auditEventRow_tenant hrow
  have hheadOf : db.headOf row.tenantId = head := by
    rw [htenant, AuditDatabase.headOf, hhead, Option.getD_some]
  rw [advanceAuditChainHead, htenant, hhead] at hadvance
  dsimp only at hadvance
  rw [if_pos hprev.symm] at hadvance
  cases hadvance
  refine ⟨hprev.symm ▸ hrow, htenant, by rw [hheadOf, hprev], List.findSome?_eq_none_iff.mp hunique, ?_⟩
  rw [AuditDatabase.appended, hheadOf]
  rfl

theorem readHead_alone {head : AuditChainHead} (hhead : db.heads call.event.tenantId = some head)
    (h : (emitReadHead sha256 call).runAlone auditStore db = .ok (next, row)) :
    Appends sha256 call db next row := by
  obtain ⟨new, value, hrun, hrest⟩ := (runAlone_statement auditStore).mp h
  rw [hhead] at hrun
  cases hrun
  exact insert_alone hhead hrest

/-- Creating the head of a new tenant makes no difference to the event. -/
theorem ensureHead_alone
    (h : (emitEnsureHead sha256 call).runAlone auditStore db = .ok (next, row)) :
    Appends sha256 call db next row := by
  obtain ⟨new, value, hrun, hrest⟩ := (runAlone_statement auditStore).mp h
  cases hhead : db.heads call.event.tenantId with
  | some head =>
      rw [hhead] at hrun
      cases hrun
      exact readHead_alone hhead hrest
  | none =>
      rw [hhead] at hrun
      cases hrun
      have hempty : (auditStore.view db [.head call.event.tenantId {}]).heads call.event.tenantId =
          some {} := Function.update_self ..
      obtain ⟨hstored, htenant, hprev, hunique, hnext⟩ := readHead_alone hempty hrest
      have hheadOf : (auditStore.view db [.head call.event.tenantId {}]).headOf row.tenantId =
          db.headOf row.tenantId := by
        rw [AuditDatabase.headOf, AuditDatabase.headOf, htenant, hempty, hhead]
        rfl
      refine ⟨hstored, htenant, hheadOf ▸ hprev, hunique, ?_⟩
      rw [hnext, AuditDatabase.appended, AuditDatabase.appended, hheadOf, htenant]
      exact congrArg _ (Function.update_idem ..)

/-- An emit that commits returns an event of its key, or appends one. -/
theorem emit_alone (h : (emit sha256 hashtext call).runAlone auditStore db = .ok (next, row)) :
    next = db ∨ Appends sha256 call.normalized db next row := by
  obtain ⟨_, _, hlock, hrest⟩ := (runAlone_statement auditStore).mp h
  cases hlock
  change (emitLookUp sha256 call.normalized).runAlone auditStore db = .ok (next, row) at hrest
  unfold emitLookUp at hrest
  split at hrest
  · exact .inr (ensureHead_alone hrest)
  · obtain ⟨new, found, hfound, hrest⟩ := (runAlone_statement auditStore).mp hrest
    obtain ⟨rfl, -⟩ := findEmitted_ok hfound
    cases found with
    | some hit =>
        cases hrest
        exact .inl rfl
    | none => exact .inr (ensureHead_alone hrest)

/-! ## Linear chains -/

/-- The head row says what the last event of the chain is, and how many there are. -/
def HeadsChain (head : Option AuditChainHead) (chain : List AuditEventRow) : Prop :=
  match head with
  | none => chain = []
  | some head =>
      head.sequence = chain.length ∧ head.headEventId = chain.getLast?.map AuditEventRow.id ∧
        head.headEventHash = chain.getLast?.map AuditEventRow.eventHash

/-- A chain of all events of a tenant, from the genesis to the stored head. -/
structure IsChain (db : AuditDatabase) (tenantId : String) (chain : List AuditEventRow) : Prop where
  all : chain.Perm (db.ofTenant tenantId)
  linked : Chained AuditEventRow.eventHash AuditEventRow.prevEventHash none chain
  headed : HeadsChain (db.heads tenantId) chain

/-- The events in the order of their inserts are the chain, and no index has a row twice. -/
structure Linear (db : AuditDatabase) : Prop where
  unique : db.events.Pairwise fun row other => uniqueClash row other = none
  chain : ∀ tenantId, IsChain db tenantId (db.ofTenant tenantId)

theorem linear_empty : Linear {} := ⟨.nil, fun _ => ⟨.nil, trivial, rfl⟩⟩

theorem HeadsChain.lastHash {db : AuditDatabase} {tenantId : String} {chain : List AuditEventRow}
    (h : HeadsChain (db.heads tenantId) chain) :
    (db.headOf tenantId).headEventHash = lastHash AuditEventRow.eventHash none chain ∧
      (db.headOf tenantId).sequence = chain.length := by
  unfold AuditDatabase.headOf Foundation.lastHash
  cases hhead : db.heads tenantId with
  | none =>
      rw [hhead] at h
      obtain rfl : chain = [] := h
      exact ⟨rfl, rfl⟩
  | some head =>
      rw [hhead] at h
      obtain ⟨hsequence, -, hhash⟩ := h
      refine ⟨?_, hsequence⟩
      rw [Option.getD_some, hhash]
      cases chain.getLast? with
      | none => rfl
      | some last => rfl

theorem ofTenant_appended (tenantId : String) :
    (db.appended row).ofTenant tenantId =
      db.ofTenant tenantId ++ if row.tenantId = tenantId then [row] else [] := by
  unfold AuditDatabase.ofTenant AuditDatabase.appended
  rw [List.filter_append, List.filter_singleton, Bool.cond_decide]

theorem heads_appended (tenantId : String) :
    (db.appended row).heads tenantId =
      if row.tenantId = tenantId then
        some ⟨some row.id, some row.eventHash, (db.headOf tenantId).sequence + 1⟩
      else db.heads tenantId := by
  unfold AuditDatabase.appended
  split
  · rename_i htenant
    subst htenant
    exact Function.update_self ..
  · rename_i htenant
    exact Function.update_of_ne (Ne.symm htenant) ..

theorem Linear.appended (h : Linear db)
    (hprev : row.prevEventHash = (db.headOf row.tenantId).headEventHash)
    (hunique : ∀ other ∈ db.events, uniqueClash row other = none) :
    Linear (db.appended row) := by
  constructor
  · apply List.pairwise_append.mpr
    refine ⟨h.unique, List.pairwise_singleton _ _, ?_⟩
    intro other hother last hlast
    obtain rfl := List.mem_singleton.mp hlast
    exact uniqueClash_symm (hunique other hother)
  · intro tenantId
    obtain ⟨-, hlinked, hheaded⟩ := h.chain tenantId
    rw [ofTenant_appended]
    by_cases htenant : row.tenantId = tenantId
    · subst htenant
      rw [if_pos rfl]
      obtain ⟨hhash, hsequence⟩ := hheaded.lastHash
      refine ⟨?_, hlinked.concat (hprev.trans hhash), ?_⟩
      · rw [ofTenant_appended, if_pos rfl]
      · rw [heads_appended, if_pos rfl, hsequence]
        refine ⟨?_, ?_, ?_⟩
        · rw [List.length_append, List.length_singleton]
        · rw [List.getLast?_concat, Option.map_some]
        · rw [List.getLast?_concat, Option.map_some]
    · rw [if_neg htenant, List.append_nil]
      refine ⟨?_, hlinked, ?_⟩
      · rw [ofTenant_appended, if_neg htenant, List.append_nil]
      · rw [heads_appended, if_neg htenant]
        exact hheaded

theorem Linear.emit (h : Linear db)
    (halone : (emit sha256 hashtext call).runAlone auditStore db = .ok (next, row)) :
    Linear next := by
  rcases emit_alone halone with rfl | happends
  · exact h
  · rw [happends.next]
    exact h.appended happends.prev happends.unique

/-- Two events of one tenant differ in their predecessor and in their key. -/
theorem Linear.distinct (h : Linear db) (tenantId : String) :
    (db.ofTenant tenantId).Pairwise fun row other =>
      (row.idempotencyKey.isSome → row.idempotencyKey ≠ other.idempotencyKey) ∧
        row.prevEventHash ≠ other.prevEventHash := by
  have hunique := h.unique.filter fun row => decide (row.tenantId = tenantId)
  refine hunique.imp_of_mem ?_
  intro row other hrow hother hnone
  have htenant : row.tenantId = other.tenantId :=
    (of_decide_eq_true (List.mem_filter.mp hrow).2).trans
      (of_decide_eq_true (List.mem_filter.mp hother).2).symm
  exact ((uniqueClash_eq_none.mp hnone).2 htenant).2

/-- The chain is the only one, since no two events have the same predecessor. -/
theorem Linear.oneChain (h : Linear db) (tenantId : String) :
    ∃! chain, IsChain db tenantId chain := by
  refine ⟨_, h.chain tenantId, fun chain hchain => ?_⟩
  refine (h.chain tenantId).linked.eq_of_perm ?_ hchain.linked hchain.all
  exact (h.distinct tenantId).imp fun hdistinct => hdistinct.2

theorem Linear.idempotent (h : Linear db) (tenantId key : String) :
    (db.ofTenant tenantId).countP (fun row => row.idempotencyKey = some key) ≤ 1 := by
  have hdistinct := (h.distinct tenantId).filter fun row =>
    decide (row.idempotencyKey = some key)
  rw [List.countP_eq_length_filter]
  cases hfound : (db.ofTenant tenantId).filter fun row =>
      decide (row.idempotencyKey = some key) with
  | nil => exact Nat.zero_le 1
  | cons row others =>
      cases others with
      | nil => exact Nat.le_refl 1
      | cons other others =>
          rw [hfound] at hdistinct
          have hkey : ∀ event ∈ row :: other :: others, event.idempotencyKey = some key := by
            rw [← hfound]
            exact fun event hevent => of_decide_eq_true (List.mem_filter.mp hevent).2
          have hrow := hkey row List.mem_cons_self
          have hother := hkey other (List.mem_cons_of_mem _ List.mem_cons_self)
          have hboth := (List.pairwise_cons.mp hdistinct).1 other List.mem_cons_self
          exact absurd (hrow.trans hother.symm) (hboth.1 (hrow ▸ rfl))

/-! ## Every interleaving -/

/-- What the audit log promises of the events that are committed. -/
structure Accountable (db : AuditDatabase) : Prop where
  oneChain : ∀ tenantId, ∃! chain, IsChain db tenantId chain
  sequence : ∀ tenantId, (db.headOf tenantId).sequence = (db.ofTenant tenantId).length
  idempotent : ∀ tenantId key,
    (db.ofTenant tenantId).countP (fun row => row.idempotencyKey = some key) ≤ 1

theorem Linear.accountable (h : Linear db) : Accountable db :=
  ⟨h.oneChain, fun tenantId => (h.chain tenantId).headed.lastHash.2, h.idempotent⟩

theorem linear_of_run {start : AuditDatabase}
    {labels : List (SessionLabel EmitCall)}
    {final : Sessions AuditDatabase AuditWrite EmitError AuditEventRow} (hstart : Linear start)
    (hrun : (auditMachine sha256 hashtext).run { committed := start } labels = some final) :
    Linear final.committed :=
  committed_invariant_of_run emit_stable auditClash_symm
    (fun _ _ _ _ h halone => h.emit halone) hstart hrun

/-- However emits interleave and abort, the events of each tenant are one chain up to its head,
and only an emit that commits changes it, by one event. -/
theorem accountable_of_run {start : AuditDatabase}
    {labels : List (SessionLabel EmitCall)}
    {final : Sessions AuditDatabase AuditWrite EmitError AuditEventRow} (hstart : Linear start)
    (hrun : (auditMachine sha256 hashtext).run { committed := start } labels = some final) :
    Accountable final.committed ∧
      ∀ label next, (auditMachine sha256 hashtext).step final label = some next →
        next.committed = final.committed ∨
          ∃ i, ∃ call : EmitCall, ∃ row, label = .commit i ∧ final.sessions i = .running (.done row) ∧
            Appends sha256 call.normalized final.committed next.committed row := by
  refine ⟨(linear_of_run hstart hrun).accountable, fun label next hstep => ?_⟩
  have hisolated := isolated_of_run emit_stable auditClash_symm hrun
  rcases hisolated.committed_step hstep with hsame | ⟨i, call, row, hlabel, hsession, halone⟩
  · exact .inl hsame
  · rcases emit_alone halone with hsame | happends
    · exact .inl hsame
    · exact .inr ⟨i, call, row, hlabel, hsession, happends⟩

/-- An object without members. -/
def emptyObject : JsData := ⟨.obj [], List.nodup_nil, trivial, nofun⟩

def activityOf (tenantId : String) : EmitCall where
  event := {
    tenantId
    layer := .audit
    actor := "system"
    action := "audit.activity"
    inputs := emptyObject
    outputs := emptyObject }
  id := tenantId
  createdAt := "2026-01-01T00:00:00.000Z"

/-- One emit commits while the emit of another tenant, begun before it, is given up. -/
def interleavedActivity : List (SessionLabel EmitCall) :=
  [.begin 0 (activityOf "a"), .begin 1 (activityOf "bb"), .advance 0, .advance 1, .advance 0,
    .advance 1, .advance 0, .abort 1, .advance 0, .commit 0]

theorem interleavedActivity_accountable : ∃ final,
    (auditMachine String.ofList fun tenantId => tenantId.length).run { committed := {} }
      interleavedActivity = some final ∧ Accountable final.committed := by
  obtain ⟨final, hrun⟩ : ∃ final,
      (auditMachine String.ofList fun tenantId => tenantId.length).run { committed := {} }
        interleavedActivity = some final := Option.isSome_iff_exists.mp rfl
  exact ⟨final, hrun, (accountable_of_run linear_empty hrun).1⟩

end BrainCore.Audit
