import BrainCore.Audit.ChainLinearity

/-!
# The structural check of the audit log

`services/audit/src/audit-consistency.ts`: three counts over `audit_events`.
All of them are zero when, and only when, the events of each tenant are one
chain from its genesis.
-/

namespace BrainCore.Audit

open BrainCore.Foundation

structure AuditConsistencyResult where
  forks : Nat
  gaps : Nat
  invalidGenesis : Nat
deriving DecidableEq

namespace AuditDatabase

variable (db : AuditDatabase)

/-- The tenants with a predecessor that is not null, once for each event. -/
def links : List (String × String) :=
  db.events.filterMap fun e => e.prevEventHash.map fun prev => (e.tenantId, prev)

/-- `GROUP BY tenant_id, prev_event_hash HAVING count(*) > 1`. -/
def forks : Nat := db.links.eraseDups.countP fun link => 1 < db.links.count link

/-- `NOT EXISTS` an event of the tenant with the hash that the event names. -/
def isGap (e : AuditEventRow) : Bool :=
  e.prevEventHash.any fun prev =>
    !db.events.any fun p => p.tenantId = e.tenantId ∧ p.eventHash = prev

def gaps : Nat := db.events.countP db.isGap

/-- `count(*) FILTER (WHERE prev_event_hash IS NULL)` of a tenant. -/
def genesisCount (tenantId : String) : Nat :=
  (db.ofTenant tenantId).countP fun e => e.prevEventHash = none

/-- `GROUP BY tenant_id HAVING` a number of genesis events that is not one. -/
def invalidGenesis : Nat :=
  (db.events.map AuditEventRow.tenantId).eraseDups.countP fun tenantId =>
    db.genesisCount tenantId ≠ 1

end AuditDatabase

def checkAuditConsistency (db : AuditDatabase) : AuditConsistencyResult where
  forks := db.forks
  gaps := db.gaps
  invalidGenesis := db.invalidGenesis

/-- All events of the tenant, from its genesis on. -/
def IsLinearChain (db : AuditDatabase) (tenantId : String) (chain : List AuditEventRow) : Prop :=
  chain.Perm (db.ofTenant tenantId) ∧ Chained AuditEventRow.eventHash AuditEventRow.prevEventHash none chain

/-- No event comes back to itself by the predecessors of its tenant. -/
def AcyclicLinks (db : AuditDatabase) : Prop :=
  ∀ tenantId, Acyclic AuditEventRow.eventHash AuditEventRow.prevEventHash (db.ofTenant tenantId)

/-- The unique index on the hashes of a tenant. -/
def DistinctHashes (db : AuditDatabase) : Prop :=
  ∀ tenantId, ((db.ofTenant tenantId).map AuditEventRow.eventHash).Nodup

variable {db : AuditDatabase} {tenantId : String}

namespace AuditDatabase

theorem mem_ofTenant {e : AuditEventRow} :
    e ∈ db.ofTenant tenantId ↔ e ∈ db.events ∧ e.tenantId = tenantId := by
  unfold ofTenant
  rw [List.mem_filter, decide_eq_true_iff]

/-! ## Each count of one tenant -/

theorem count_links (tenantId prev : String) :
    db.links.count (tenantId, prev) =
      ((db.ofTenant tenantId).map AuditEventRow.prevEventHash).count (some prev) := by
  unfold links ofTenant
  induction db.events with
  | nil => rfl
  | cons e events ih =>
      cases hprev : e.prevEventHash with
      | none =>
          by_cases htenant : e.tenantId = tenantId <;> simp [hprev, htenant, ih]
      | some other =>
          by_cases htenant : e.tenantId = tenantId <;> simp [hprev, htenant, ih, List.count_cons]

/-- No forks: two events of a tenant never name one predecessor. -/
theorem forks_eq_zero : db.forks = 0 ↔
    ∀ tenantId prev,
      ((db.ofTenant tenantId).map AuditEventRow.prevEventHash).count (some prev) ≤ 1 := by
  unfold forks
  rw [List.countP_eq_zero]
  constructor
  · intro h tenantId prev
    rw [← count_links]
    by_cases hmem : (tenantId, prev) ∈ db.links
    · have hfew := h _ (List.mem_eraseDups.mpr hmem)
      exact Nat.not_lt.mp fun hmany => hfew (decide_eq_true hmany)
    · rw [List.count_eq_zero_of_not_mem hmem]
      exact Nat.zero_le 1
  · rintro h ⟨tenantId, prev⟩ - hmany
    rw [count_links] at hmany
    exact Nat.not_lt.mpr (h tenantId prev) (of_decide_eq_true hmany)

/-- No gaps: what an event names is an event of its tenant. -/
theorem gaps_eq_zero : db.gaps = 0 ↔
    ∀ tenantId, ∀ e ∈ db.ofTenant tenantId, e.prevEventHash = none ∨
      ∃ p ∈ db.ofTenant tenantId, e.prevEventHash = some p.eventHash := by
  unfold gaps
  rw [List.countP_eq_zero]
  constructor
  · intro h tenantId e he
    obtain ⟨hevent, htenant⟩ := mem_ofTenant.mp he
    have hfound := h e hevent
    unfold isGap at hfound
    cases hprev : e.prevEventHash with
    | none => exact .inl rfl
    | some prev =>
        rw [hprev, Option.any_some, Bool.not_eq_true', Bool.not_eq_false, List.any_eq_true] at hfound
        obtain ⟨p, hp, hsame⟩ := hfound
        obtain ⟨hptenant, rfl⟩ := of_decide_eq_true hsame
        exact .inr ⟨p, mem_ofTenant.mpr ⟨hp, hptenant.trans htenant⟩, rfl⟩
  · intro h e hevent hgap
    unfold isGap at hgap
    rcases h e.tenantId e (mem_ofTenant.mpr ⟨hevent, rfl⟩) with hnone | ⟨p, hp, hprev⟩
    · rw [hnone] at hgap
      cases hgap
    · obtain ⟨hmem, hptenant⟩ := mem_ofTenant.mp hp
      rw [hprev, Option.any_some, Bool.not_eq_true', List.any_eq_false] at hgap
      exact hgap p hmem (decide_eq_true ⟨hptenant, rfl⟩)

theorem invalidGenesis_eq_zero : db.invalidGenesis = 0 ↔
    ∀ tenantId, db.ofTenant tenantId ≠ [] →
      ((db.ofTenant tenantId).map AuditEventRow.prevEventHash).count none = 1 := by
  have hcount : ∀ tenantId, db.genesisCount tenantId =
      ((db.ofTenant tenantId).map AuditEventRow.prevEventHash).count none := by
    intro tenantId
    unfold genesisCount
    rw [List.count_eq_countP, List.countP_map]
    apply List.countP_congr
    intro e _
    simp
  unfold invalidGenesis
  rw [List.countP_eq_zero]
  constructor
  · intro h tenantId hne
    obtain ⟨e, he⟩ := List.exists_mem_of_ne_nil _ hne
    obtain ⟨hevent, rfl⟩ := mem_ofTenant.mp he
    have hone := h _ (List.mem_eraseDups.mpr (List.mem_map_of_mem hevent))
    rw [← hcount]
    exact Decidable.not_not.mp fun hbad => hone (decide_eq_true hbad)
  · intro h tenantId htenant hbad
    obtain ⟨e, hevent, rfl⟩ := List.mem_map.mp (List.mem_eraseDups.mp htenant)
    have hone := h e.tenantId (List.ne_nil_of_mem (mem_ofTenant.mpr ⟨hevent, rfl⟩))
    exact of_decide_eq_true hbad ((hcount _).trans hone)

/-- The events of a tenant name distinct predecessors when there is no fork and one genesis. -/
theorem nodup_prev (hforks : db.forks = 0) (hgenesis : db.invalidGenesis = 0) (tenantId : String) :
    ((db.ofTenant tenantId).map AuditEventRow.prevEventHash).Nodup := by
  apply List.nodup_iff_count_le_one.mpr
  intro prev
  cases prev with
  | some prev => exact forks_eq_zero.mp hforks tenantId prev
  | none =>
      by_cases hne : db.ofTenant tenantId = []
      · rw [hne]
        exact Nat.zero_le 1
      · exact Nat.le_of_eq (invalidGenesis_eq_zero.mp hgenesis tenantId hne)

end AuditDatabase

/-! ## What the check finds -/

theorem checkAuditConsistency_eq : checkAuditConsistency db = ⟨0, 0, 0⟩ ↔
    db.forks = 0 ∧ db.gaps = 0 ∧ db.invalidGenesis = 0 := by
  unfold checkAuditConsistency
  rw [AuditConsistencyResult.mk.injEq]

/-- A tenant whose events pass the counts has one chain of them. -/
theorem existsUnique_chain (hacyclic : AcyclicLinks db)
    (hclean : checkAuditConsistency db = ⟨0, 0, 0⟩) (tenantId : String) :
    ∃! chain, IsLinearChain db tenantId chain := by
  obtain ⟨hforks, hgaps, hgenesis⟩ := checkAuditConsistency_eq.mp hclean
  have hdistinct := AuditDatabase.nodup_prev hforks hgenesis tenantId
  obtain ⟨chain, hperm, hlinked⟩ := (hacyclic tenantId).exists_chain hdistinct
    (AuditDatabase.gaps_eq_zero.mp hgaps tenantId)
  refine ⟨chain, ⟨hperm, hlinked⟩, fun other hother => ?_⟩
  have hchain : chain.Pairwise fun a b => a.prevEventHash ≠ b.prevEventHash :=
    List.pairwise_map.mp ((hperm.map AuditEventRow.prevEventHash).nodup_iff.mpr hdistinct)
  exact hlinked.eq_of_perm hchain hother.2 (hother.1.trans hperm.symm)

/-- Chains of all tenants leave nothing for the counts. -/
theorem clean_of_chains (hdistinct : DistinctHashes db)
    (h : ∀ tenantId, ∃ chain, IsLinearChain db tenantId chain) :
    checkAuditConsistency db = ⟨0, 0, 0⟩ := by
  have hnodup : ∀ tenantId, ((db.ofTenant tenantId).map AuditEventRow.prevEventHash).Nodup := by
    intro tenantId
    obtain ⟨chain, hperm, hlinked⟩ := h tenantId
    have hhash := (hperm.map AuditEventRow.eventHash).nodup_iff.mpr (hdistinct tenantId)
    exact (hperm.map AuditEventRow.prevEventHash).nodup_iff.mp (hlinked.nodup_prev hhash)
  refine checkAuditConsistency_eq.mpr ⟨?_, ?_, ?_⟩
  · apply AuditDatabase.forks_eq_zero.mpr
    exact fun tenantId prev => List.nodup_iff_count_le_one.mp (hnodup tenantId) (some prev)
  · apply AuditDatabase.gaps_eq_zero.mpr
    intro tenantId e he
    obtain ⟨chain, hperm, hlinked⟩ := h tenantId
    rcases hlinked.mem (hperm.mem_iff.mpr he) with hgenesis | ⟨p, hp, hprev⟩
    · exact .inl hgenesis
    · exact .inr ⟨p, hperm.mem_iff.mp hp, hprev⟩
  · apply AuditDatabase.invalidGenesis_eq_zero.mpr
    intro tenantId hne
    obtain ⟨chain, hperm, hlinked⟩ := h tenantId
    apply List.count_eq_one_of_mem (hnodup tenantId)
    cases chain with
    | nil => exact absurd hperm.nil_eq.symm hne
    | cons genesis rest =>
        exact List.mem_map.mpr ⟨genesis, hperm.mem_iff.mp List.mem_cons_self, hlinked.1⟩

/-- The structural check is clean when, and only when, the events of each tenant are one chain
from its genesis. -/
theorem structural_check_iff (hdistinct : DistinctHashes db) (hacyclic : AcyclicLinks db) :
    checkAuditConsistency db = ⟨0, 0, 0⟩ ↔ ∀ tenantId, ∃! chain, IsLinearChain db tenantId chain :=
  ⟨fun hclean => existsUnique_chain hacyclic hclean, fun h =>
    clean_of_chains hdistinct fun tenantId => (h tenantId).exists⟩

def emptyColumn : JsonbValue := ⟨.obj [], List.nodup_nil, trivial⟩

def eventAfter (tenantId : String) (prevEventHash : Option String) (eventHash : String) :
    AuditEventRow where
  id := eventHash
  tenantId
  layer := .audit
  eventType := .systemActivity
  severity := .info
  actor := "system"
  actorDisplayName := none
  actorEmail := none
  action := "audit.activity"
  inputs := emptyColumn
  outputs := emptyColumn
  policyVersion := none
  policyDecisionId := none
  policyCheckId := none
  outcome := none
  beforeState := none
  afterState := none
  eventHash
  prevEventHash
  createdAt := "2026-01-01T00:00:00.000Z"
  idempotencyKey := none
  hashSchemaVersion := 1
  correlationId := none
  keyId := none

/-- A log of two tenants, the second with an event of its own before that of the first. -/
def twoTenants : AuditDatabase where
  events := [eventAfter "acme" none "a0", eventAfter "bold" none "b0",
    eventAfter "acme" (some "a0") "a1"]

theorem twoTenants_structural : checkAuditConsistency twoTenants = ⟨0, 0, 0⟩ ↔
    ∀ tenantId, ∃! chain, IsLinearChain twoTenants tenantId chain := by
  have hdistinct : DistinctHashes twoTenants := by
    intro tenantId
    have hall : (twoTenants.events.map AuditEventRow.eventHash).Nodup := by decide
    exact hall.sublist (List.filter_sublist.map _)
  refine structural_check_iff hdistinct fun tenantId => ?_
  refine Acyclic.mono ?_ fun e he => (AuditDatabase.mem_ofTenant.mp he).1
  -- a genesis comes before the event that names it
  apply acyclic_of_rank fun e => if e.prevEventHash = none then 0 else 1
  rintro earlier e ⟨hearlier, he, hprev⟩
  simp only [twoTenants, List.mem_cons, List.not_mem_nil, or_false] at hearlier he
  rcases he with rfl | rfl | rfl
  · cases hprev
  · cases hprev
  · rcases hearlier with rfl | rfl | rfl
    · decide
    · exact absurd hprev (by decide)
    · exact absurd hprev (by decide)

/-! ## What emits write -/

theorem Linear.clean (h : Linear db) : checkAuditConsistency db = ⟨0, 0, 0⟩ := by
  apply clean_of_chains
  · intro tenantId
    apply List.pairwise_map.mpr
    refine (h.unique.filter fun row => decide (row.tenantId = tenantId)).imp_of_mem ?_
    intro row other hrow hother hnone
    have htenant : row.tenantId = other.tenantId :=
      (of_decide_eq_true (List.mem_filter.mp hrow).2).trans
        (of_decide_eq_true (List.mem_filter.mp hother).2).symm
    exact ((uniqueClash_eq_none.mp hnone).2 htenant).1
  · exact fun tenantId => ⟨_, (h.chain tenantId).all, (h.chain tenantId).linked⟩

/-- However emits interleave and abort, the check finds nothing. -/
theorem clean_of_run {sha256 : List Char → String} {hashtext : String → Int} {start : AuditDatabase}
    {labels : List (SessionLabel EmitCall)}
    {final : Sessions AuditDatabase AuditWrite EmitError AuditEventRow} (hstart : Linear start)
    (hrun : (auditMachine sha256 hashtext).run { committed := start } labels = some final) :
    checkAuditConsistency final.committed = ⟨0, 0, 0⟩ :=
  (linear_of_run hstart hrun).clean

theorem interleavedActivity_clean : ∃ final,
    (auditMachine String.ofList fun tenantId => tenantId.length).run { committed := {} }
      interleavedActivity = some final ∧ checkAuditConsistency final.committed = ⟨0, 0, 0⟩ := by
  obtain ⟨final, hrun⟩ : ∃ final,
      (auditMachine String.ofList fun tenantId => tenantId.length).run { committed := {} }
        interleavedActivity = some final := Option.isSome_iff_exists.mp rfl
  exact ⟨final, hrun, clean_of_run linear_empty hrun⟩

end BrainCore.Audit
