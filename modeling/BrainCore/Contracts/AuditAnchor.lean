import BrainCore.Foundation.Evm
import BrainCore.Foundation.Machine
import BrainCore.Foundation.Result
import Mathlib.Data.List.Nodup
import Mathlib.Logic.Function.Basic

/-!
# The audit anchor

`contracts/src/BrainAuditAnchor.sol`: the publisher anchors a root for each
window of a tenant, one at a time or in batches.  A root is published once, and
the latest anchor of a tenant is the one whose window ends last.
-/

namespace BrainCore.Contracts

open BrainCore.Foundation

structure AnchorContext extends CallContext where
  blockNumber : Uint256

inductive AnchorError where
  | notPublisher
  | notPendingPublisher
  | rootAlreadyPublished (tenantId root : Bytes32)
  | zeroAddress
  | invalidPeriod
  | emptyAnchor
  | batchLengthMismatch
  | batchTooLarge (length : Nat)
deriving DecidableEq

/-- The arguments of `anchor`, and of the event `AnchorPublished`. -/
structure AnchorEntry where
  tenantId : Bytes32
  root : Bytes32
  eventCount : Uint256
  periodStart : Uint256
  periodEnd : Uint256

/-- What is published once. -/
def AnchorEntry.pair (entry : AnchorEntry) : Bytes32 × Bytes32 := (entry.tenantId, entry.root)

structure LatestAnchor where
  root : Bytes32 := 0
  blockNumber : Uint256 := 0
  eventCount : Uint256 := 0
  periodEnd : Uint256 := 0

structure AuditAnchor where
  publisher : Address
  pendingPublisher : Address := 0
  latestByTenant : Bytes32 → LatestAnchor := fun _ => {}
  published : Bytes32 → Bytes32 → Bool := fun _ _ => false
  /-- The `AnchorPublished` events, the first one first. -/
  anchorPublished : List AnchorEntry := []

def MAX_BATCH : Nat := 50

inductive AnchorCall where
  | anchor (entry : AnchorEntry)
  | anchorBatch (tenantIds roots : List Bytes32) (eventCounts periodStarts periodEnds : List Uint256)
  | setPublisher (next : Address)
  | acceptPublisher

namespace AuditAnchor

variable (s : AuditAnchor) (context : AnchorContext)

/-- The constructor. -/
def deployed (publisher : Address) : Except AnchorError AuditAnchor :=
  if publisher = 0 then .error .zeroAddress else .ok { publisher }

def onlyPublisher : Except AnchorError Unit :=
  if context.sender ≠ s.publisher then .error .notPublisher else .ok ()

/-- `_recordLatest`. -/
def recordLatest (entry : AnchorEntry) : AuditAnchor :=
  if entry.periodEnd < (s.latestByTenant entry.tenantId).periodEnd then s
  else
    { s with
      latestByTenant := Function.update s.latestByTenant entry.tenantId
        ⟨entry.root, context.blockNumber, entry.eventCount, entry.periodEnd⟩ }

/-- The root is marked, the latest anchor advanced and the event emitted. -/
def publish (entry : AnchorEntry) : AuditAnchor :=
  let marked := { s with
    published := Function.update s.published entry.tenantId
      (Function.update (s.published entry.tenantId) entry.root true) }
  let recorded := marked.recordLatest context entry
  { recorded with anchorPublished := recorded.anchorPublished ++ [entry] }

def anchor (entry : AnchorEntry) : Except AnchorError AuditAnchor := do
  s.onlyPublisher context
  if entry.periodEnd < entry.periodStart then .error .invalidPeriod
  else if entry.eventCount = 0 then .error .emptyAnchor
  else if s.published entry.tenantId entry.root then
    .error (.rootAlreadyPublished entry.tenantId entry.root)
  else .ok (s.publish context entry)

/-- The loop of `anchorBatch`. -/
def anchorEach : AuditAnchor → List AnchorEntry → Except AnchorError AuditAnchor
  | s, [] => .ok s
  | s, entry :: rest =>
      if entry.periodEnd < entry.periodStart then .error .invalidPeriod
      else if entry.eventCount = 0 then .error .emptyAnchor
      else if s.published entry.tenantId entry.root then anchorEach s rest
      else anchorEach (s.publish context entry) rest

/-- The entries at each index of the arrays. -/
def entriesOf : List Bytes32 → List Bytes32 → List Uint256 → List Uint256 → List Uint256 →
    List AnchorEntry
  | tenantId :: tenantIds, root :: roots, eventCount :: eventCounts, periodStart :: periodStarts,
      periodEnd :: periodEnds =>
      ⟨tenantId, root, eventCount, periodStart, periodEnd⟩ ::
        entriesOf tenantIds roots eventCounts periodStarts periodEnds
  | _, _, _, _, _ => []

def anchorBatch (tenantIds roots : List Bytes32)
    (eventCounts periodStarts periodEnds : List Uint256) : Except AnchorError AuditAnchor := do
  s.onlyPublisher context
  let len := tenantIds.length
  if roots.length ≠ len ∨ eventCounts.length ≠ len ∨ periodStarts.length ≠ len ∨
      periodEnds.length ≠ len then .error .batchLengthMismatch
  else if MAX_BATCH < len then .error (.batchTooLarge len)
  else anchorEach context s (entriesOf tenantIds roots eventCounts periodStarts periodEnds)

def setPublisher (next : Address) : Except AnchorError AuditAnchor := do
  s.onlyPublisher context
  .ok { s with pendingPublisher := next }

def acceptPublisher : Except AnchorError AuditAnchor :=
  if context.sender ≠ s.pendingPublisher then .error .notPendingPublisher
  else .ok { s with publisher := s.pendingPublisher, pendingPublisher := 0 }

/-- A call, or the error it reverts with. -/
def call : AnchorCall → Except AnchorError AuditAnchor
  | .anchor entry => s.anchor context entry
  | .anchorBatch tenantIds roots eventCounts periodStarts periodEnds =>
      s.anchorBatch context tenantIds roots eventCounts periodStarts periodEnds
  | .setPublisher next => s.setPublisher context next
  | .acceptPublisher => s.acceptPublisher context

/-- `latestAnchor`. -/
def latestAnchor (tenantId : Bytes32) : Bytes32 × Uint256 :=
  ((s.latestByTenant tenantId).root, (s.latestByTenant tenantId).blockNumber)

/-- `isPublished`. -/
def isPublished (tenantId root : Bytes32) : Bool := s.published tenantId root

end AuditAnchor

structure AnchorTx where
  context : AnchorContext
  call : AnchorCall

/-- Transactions of any callers; one that reverts leaves the storage as it was. -/
def auditAnchorMachine : Machine AuditAnchor AnchorTx where
  step s tx :=
    match s.call tx.context tx.call with
    | .ok next => some next
    | .error _ => some s

/-! ## The last of the greatest -/

section LastGreatest

variable {α κ : Type} [LinearOrder κ] (key : α → κ)

/-- The entry has the greatest key of the list, and no later one has it as well. -/
def LastGreatest (entries : List α) (entry : α) : Prop :=
  ∃ before after, entries = before ++ entry :: after ∧ (∀ other ∈ before, key other ≤ key entry) ∧
    ∀ other ∈ after, key other < key entry

variable {key}

theorem LastGreatest.le {entries : List α} {entry other : α} (h : LastGreatest key entries entry)
    (hother : other ∈ entries) : key other ≤ key entry := by
  obtain ⟨before, after, rfl, hbefore, hafter⟩ := h
  rcases List.mem_append.mp hother with hmem | hmem
  · exact hbefore other hmem
  · rcases List.mem_cons.mp hmem with rfl | hmem
    · exact le_rfl
    · exact le_of_lt (hafter other hmem)

theorem LastGreatest.append_lt {entries : List α} {entry other : α}
    (h : LastGreatest key entries entry) (hless : key other < key entry) :
    LastGreatest key (entries ++ [other]) entry := by
  obtain ⟨before, after, rfl, hbefore, hafter⟩ := h
  refine ⟨before, after ++ [other], by rw [List.append_assoc, List.cons_append], hbefore, ?_⟩
  intro later hlater
  rcases List.mem_append.mp hlater with hlater | hlater
  · exact hafter later hlater
  · rw [List.mem_singleton.mp hlater]
    exact hless

theorem LastGreatest.append_le {entries : List α} {other : α}
    (h : ∀ entry ∈ entries, key entry ≤ key other) : LastGreatest key (entries ++ [other]) other :=
  ⟨entries, [], rfl, h, fun _ hmem => nomatch hmem⟩

end LastGreatest

/-! ## What holds in every state -/

namespace AuditAnchor

/-- The events of a tenant. -/
def ofTenant (s : AuditAnchor) (tenantId : Bytes32) : List AnchorEntry :=
  s.anchorPublished.filter fun entry => entry.tenantId = tenantId

/-- The latest anchor is empty, or that of the event whose window ends last. -/
def LatestIs (entries : List AnchorEntry) (latest : LatestAnchor) : Prop :=
  (entries = [] ∧ latest.periodEnd = 0) ∨
    ∃ entry, LastGreatest AnchorEntry.periodEnd entries entry ∧ latest.root = entry.root ∧
      latest.eventCount = entry.eventCount ∧ latest.periodEnd = entry.periodEnd

structure Faithful (s : AuditAnchor) : Prop where
  publisher : s.publisher ≠ 0
  once : (s.anchorPublished.map AnchorEntry.pair).Nodup
  emitted : ∀ tenantId root, s.isPublished tenantId root = true ↔
    (tenantId, root) ∈ s.anchorPublished.map AnchorEntry.pair
  latest : ∀ tenantId, LatestIs (s.ofTenant tenantId) (s.latestByTenant tenantId)

/-- Roots stay published and events emitted. -/
structure Grows (s next : AuditAnchor) : Prop where
  published : ∀ tenantId root, s.isPublished tenantId root = true → next.isPublished tenantId root = true
  events : s.anchorPublished <+: next.anchorPublished

variable {s next : AuditAnchor} {context : AnchorContext} {entry : AnchorEntry}

theorem Grows.refl (s : AuditAnchor) : s.Grows s := ⟨fun _ _ h => h, List.prefix_rfl⟩

theorem Grows.of_same (hpublished : next.published = s.published)
    (hevents : next.anchorPublished = s.anchorPublished) : s.Grows next :=
  ⟨fun tenantId root hroot => by rw [isPublished, hpublished]; exact hroot,
    hevents ▸ List.prefix_rfl⟩

theorem Grows.trans {later : AuditAnchor} (h : s.Grows next) (h' : next.Grows later) :
    s.Grows later :=
  ⟨fun tenantId root hroot => h'.published tenantId root (h.published tenantId root hroot),
    h.events.trans h'.events⟩

/-! ## One publication -/

@[simp]
theorem publish_publisher : (s.publish context entry).publisher = s.publisher := by
  unfold publish recordLatest
  dsimp only
  split
  · rfl
  · rfl

@[simp]
theorem publish_anchorPublished :
    (s.publish context entry).anchorPublished = s.anchorPublished ++ [entry] := by
  unfold publish recordLatest
  dsimp only
  split
  · rfl
  · rfl

theorem publish_published (tenantId root : Bytes32) :
    (s.publish context entry).published tenantId root = true ↔
      (tenantId, root) = entry.pair ∨ s.published tenantId root = true := by
  have hsame : (s.publish context entry).published =
      Function.update s.published entry.tenantId
        (Function.update (s.published entry.tenantId) entry.root true) := by
    unfold publish recordLatest
    dsimp only
    split
    · rfl
    · rfl
  rw [hsame, AnchorEntry.pair, Prod.mk.injEq]
  by_cases htenant : tenantId = entry.tenantId
  · subst htenant
    rw [Function.update_self]
    by_cases hroot : root = entry.root
    · subst hroot
      simp
    · rw [Function.update_of_ne hroot]
      simp [hroot]
  · rw [Function.update_of_ne htenant]
    simp [htenant]

theorem publish_latestByTenant (tenantId : Bytes32) :
    (s.publish context entry).latestByTenant tenantId =
      if entry.tenantId = tenantId ∧
          (s.latestByTenant tenantId).periodEnd ≤ entry.periodEnd then
        ⟨entry.root, context.blockNumber, entry.eventCount, entry.periodEnd⟩
      else s.latestByTenant tenantId := by
  have hsame : (s.publish context entry).latestByTenant =
      if entry.periodEnd < (s.latestByTenant entry.tenantId).periodEnd then s.latestByTenant
      else Function.update s.latestByTenant entry.tenantId
        ⟨entry.root, context.blockNumber, entry.eventCount, entry.periodEnd⟩ := by
    unfold publish recordLatest
    dsimp only
    split
    · rfl
    · rfl
  rw [hsame]
  by_cases htenant : entry.tenantId = tenantId
  · subst htenant
    by_cases hless : entry.periodEnd < (s.latestByTenant entry.tenantId).periodEnd
    · rw [if_pos hless, if_neg fun hboth => not_lt.mpr hboth.2 hless]
    · rw [if_neg hless, if_pos ⟨rfl, not_lt.mp hless⟩]
      exact Function.update_self ..
  · rw [if_neg (c := entry.tenantId = tenantId ∧ _) fun hboth => htenant hboth.1]
    split
    · rfl
    · exact Function.update_of_ne (Ne.symm htenant) ..

theorem ofTenant_publish (tenantId : Bytes32) :
    (s.publish context entry).ofTenant tenantId =
      s.ofTenant tenantId ++ if entry.tenantId = tenantId then [entry] else [] := by
  unfold ofTenant
  rw [publish_anchorPublished, List.filter_append, List.filter_singleton, Bool.cond_decide]

/-- The latest anchor of a tenant is a running maximum, with the later of two equal ends. -/
theorem LatestIs.publish {tenantId : Bytes32}
    (h : LatestIs (s.ofTenant tenantId) (s.latestByTenant tenantId)) :
    LatestIs ((s.publish context entry).ofTenant tenantId)
      ((s.publish context entry).latestByTenant tenantId) := by
  rw [ofTenant_publish, publish_latestByTenant]
  by_cases htenant : entry.tenantId = tenantId
  · rw [if_pos htenant]
    rcases h with ⟨hnone, hzero⟩ | ⟨found, hgreatest, hfound⟩
    · -- the first publication of the tenant is its latest
      rw [if_pos ⟨htenant, hzero ▸ Fin.zero_le _⟩, hnone]
      exact .inr ⟨entry, .append_le fun _ hmem => (nomatch hmem), rfl, rfl, rfl⟩
    · by_cases hle : (s.latestByTenant tenantId).periodEnd ≤ entry.periodEnd
      · rw [if_pos ⟨htenant, hle⟩]
        refine .inr ⟨entry, .append_le fun other hother => ?_, rfl, rfl, rfl⟩
        exact (hgreatest.le hother).trans (hfound.2.2 ▸ hle)
      · rw [if_neg fun hboth => hle hboth.2]
        exact .inr ⟨found, hgreatest.append_lt (hfound.2.2 ▸ not_le.mp hle), hfound⟩
  · rw [if_neg htenant, if_neg fun hboth => htenant hboth.1, List.append_nil]
    exact h

theorem Faithful.publish (h : s.Faithful)
    (hfresh : s.published entry.tenantId entry.root = false) : (s.publish context entry).Faithful := by
  have hnew : entry.pair ∉ s.anchorPublished.map AnchorEntry.pair := fun hmem => by
    have hpublished : s.published entry.tenantId entry.root = true := (h.emitted _ _).mpr hmem
    rw [hfresh] at hpublished
    cases hpublished
  refine ⟨?_, ?_, ?_, fun tenantId => (h.latest tenantId).publish⟩
  · rw [publish_publisher]
    exact h.publisher
  · rw [publish_anchorPublished, List.map_append, List.map_singleton]
    exact List.nodup_append.mpr ⟨h.once, List.nodup_singleton _, fun pair hpair other hother heq =>
      hnew (List.mem_singleton.mp hother ▸ heq ▸ hpair)⟩
  · intro tenantId root
    rw [isPublished, publish_published, publish_anchorPublished, List.map_append, List.map_singleton,
      List.mem_append, List.mem_singleton, or_comm, ← h.emitted, isPublished]

theorem grows_publish : s.Grows (s.publish context entry) := by
  refine ⟨fun tenantId root hroot => (publish_published tenantId root).mpr (.inr hroot), ?_⟩
  rw [publish_anchorPublished]
  exact List.prefix_append _ _

/-! ## One call -/

theorem anchor_ok (h : s.anchor context entry = .ok next) :
    entry.periodStart ≤ entry.periodEnd ∧ entry.eventCount ≠ 0 ∧
      s.published entry.tenantId entry.root = false ∧ next = s.publish context entry := by
  obtain ⟨_, _, h⟩ := bind_ok.mp h
  split at h
  · cases h
  split at h
  · cases h
  split at h
  · cases h
  · rename_i hperiod hcount hfresh
    exact ⟨not_lt.mp hperiod, hcount, Bool.eq_false_iff.mpr hfresh, (Except.ok.inj h).symm⟩

/-- A batch that is accepted publishes its new roots one after the other. -/
theorem anchorEach_ok {entries : List AnchorEntry} (hfaithful : s.Faithful)
    (h : anchorEach context s entries = .ok next) : next.Faithful ∧ s.Grows next := by
  induction entries generalizing s with
  | nil =>
      cases h
      exact ⟨hfaithful, .refl _⟩
  | cons entry rest ih =>
      unfold anchorEach at h
      split at h
      · cases h
      split at h
      · cases h
      split at h
      · exact ih hfaithful h
      · rename_i hfresh
        obtain ⟨hnext, hgrows⟩ := ih (hfaithful.publish (Bool.eq_false_iff.mpr hfresh)) h
        exact ⟨hnext, grows_publish.trans hgrows⟩

theorem anchorBatch_ok {tenantIds roots : List Bytes32}
    {eventCounts periodStarts periodEnds : List Uint256}
    (h : s.anchorBatch context tenantIds roots eventCounts periodStarts periodEnds = .ok next) :
    anchorEach context s (entriesOf tenantIds roots eventCounts periodStarts periodEnds) =
      .ok next := by
  obtain ⟨_, _, h⟩ := bind_ok.mp h
  dsimp only at h
  split at h
  · cases h
  split at h
  · cases h
  · exact h

theorem call_ok {call : AnchorCall} (hfaithful : s.Faithful)
    (h : s.call context call = .ok next) : next.Faithful ∧ s.Grows next := by
  cases call with
  | anchor entry =>
      obtain ⟨-, -, hfresh, rfl⟩ := anchor_ok h
      exact ⟨hfaithful.publish hfresh, grows_publish⟩
  | anchorBatch tenantIds roots eventCounts periodStarts periodEnds =>
      exact anchorEach_ok hfaithful (anchorBatch_ok h)
  | setPublisher proposed =>
      obtain ⟨_, _, h⟩ := bind_ok.mp h
      cases h
      exact ⟨⟨hfaithful.publisher, hfaithful.once, hfaithful.emitted, hfaithful.latest⟩,
        .of_same rfl rfl⟩
  | acceptPublisher =>
      change s.acceptPublisher context = .ok next at h
      unfold acceptPublisher at h
      split at h
      · cases h
      · rename_i hsender
        cases h
        -- the pending publisher is the caller, who is an account
        refine ⟨⟨?_, hfaithful.once, hfaithful.emitted, hfaithful.latest⟩, .of_same rfl rfl⟩
        exact not_not.mp hsender ▸ context.sender_ne_zero

theorem faithful_deployed {publisher : Address} (h : deployed publisher = .ok s) : s.Faithful := by
  unfold deployed at h
  split at h
  · cases h
  · rename_i hpublisher
    cases h
    refine ⟨hpublisher, List.nodup_nil, fun tenantId root => ?_, fun tenantId => .inl ⟨rfl, rfl⟩⟩
    exact ⟨fun h => (nomatch h), fun h => (nomatch h)⟩

theorem step_cases {tx : AnchorTx} (h : auditAnchorMachine.step s tx = some next) :
    s.call tx.context tx.call = .ok next ∨
      (∃ error, s.call tx.context tx.call = .error error) ∧ next = s := by
  change (match s.call tx.context tx.call with
    | .ok next => some next
    | .error _ => some s) = some next at h
  cases hcall : s.call tx.context tx.call with
  | ok result =>
      rw [hcall] at h
      exact .inl (congrArg Except.ok (Option.some.inj h))
  | error error =>
      rw [hcall] at h
      exact .inr ⟨⟨error, rfl⟩, (Option.some.inj h).symm⟩

theorem step_faithful {tx : AnchorTx} (hfaithful : s.Faithful)
    (h : auditAnchorMachine.step s tx = some next) : next.Faithful ∧ s.Grows next := by
  rcases step_cases h with hcall | ⟨-, rfl⟩
  · exact call_ok hfaithful hcall
  · exact ⟨hfaithful, .refl _⟩

/-! ## Batches -/

/-- `anchor` of a root that is not published, and nothing otherwise. -/
def anchorUnlessPublished (context : AnchorContext) (s : AuditAnchor) (entry : AnchorEntry) :
    Except AnchorError AuditAnchor :=
  if s.published entry.tenantId entry.root then .ok s else s.anchor context entry

/-- What the loop asks of an entry. -/
def ValidEntry (entry : AnchorEntry) : Prop :=
  entry.periodStart ≤ entry.periodEnd ∧ entry.eventCount ≠ 0

theorem anchorUnlessPublished_eq (hsender : context.sender = s.publisher) (hvalid : ValidEntry entry) :
    anchorUnlessPublished context s entry =
      .ok (if s.published entry.tenantId entry.root then s else s.publish context entry) := by
  unfold anchorUnlessPublished anchor onlyPublisher
  rw [if_neg (not_not.mpr hsender)]
  split
  · rfl
  · change (if _ then _ else _) = _
    rw [if_neg (not_lt.mpr hvalid.1), if_neg hvalid.2]

/-- The loop is a fold of single anchors. -/
theorem anchorEach_eq_foldlM {entries : List AnchorEntry} (hsender : context.sender = s.publisher)
    (hvalid : ∀ entry ∈ entries, ValidEntry entry) :
    anchorEach context s entries = entries.foldlM (anchorUnlessPublished context) s := by
  induction entries generalizing s with
  | nil => rfl
  | cons entry rest ih =>
      have hentry := hvalid entry List.mem_cons_self
      have hrest : ∀ entry ∈ rest, ValidEntry entry := fun other hother =>
        hvalid other (List.mem_cons_of_mem _ hother)
      rw [List.foldlM_cons, anchorUnlessPublished_eq hsender hentry]
      unfold anchorEach
      rw [if_neg (not_lt.mpr hentry.1), if_neg hentry.2]
      split
      · exact ih hsender hrest
      · exact ih (hsender.trans publish_publisher.symm) hrest

/-- A batch is a fold of single anchors that skips what is published. -/
theorem anchorBatch_eq_foldlM {tenantIds roots : List Bytes32}
    {eventCounts periodStarts periodEnds : List Uint256} (hsender : context.sender = s.publisher)
    (hlengths : roots.length = tenantIds.length ∧ eventCounts.length = tenantIds.length ∧
      periodStarts.length = tenantIds.length ∧ periodEnds.length = tenantIds.length)
    (hsmall : tenantIds.length ≤ MAX_BATCH)
    (hvalid : ∀ entry ∈ entriesOf tenantIds roots eventCounts periodStarts periodEnds,
      ValidEntry entry) :
    s.anchorBatch context tenantIds roots eventCounts periodStarts periodEnds =
      (entriesOf tenantIds roots eventCounts periodStarts periodEnds).foldlM
        (anchorUnlessPublished context) s := by
  obtain ⟨hroots, hcounts, hstarts, hends⟩ := hlengths
  rw [← anchorEach_eq_foldlM hsender hvalid]
  unfold anchorBatch onlyPublisher
  rw [if_neg (not_not.mpr hsender)]
  change (if _ then _ else _) = _
  rw [if_neg (by simp [hroots, hcounts, hstarts, hends]), if_neg (not_lt.mpr hsmall)]

/-! ## Every run -/

variable {start final : AuditAnchor} {publisher : Address} {txs : List AnchorTx}

theorem faithful_of_run (hstart : deployed publisher = .ok start)
    (hrun : auditAnchorMachine.run start txs = some final) : final.Faithful :=
  auditAnchorMachine.invariant_of_run (fun _ _ _ hfaithful hstep => (step_faithful hfaithful hstep).1)
    (faithful_deployed hstart) hrun

/-- Whatever anyone calls, each pair is published once and for good with its event, the latest
anchor of a tenant is the last publication of the greatest end, and a batch does what single
anchors do. -/
theorem anchored_of_run (hstart : deployed publisher = .ok start)
    (hrun : auditAnchorMachine.run start txs = some final) :
    final.Faithful ∧
      (∀ tx next, auditAnchorMachine.step final tx = some next → final.Grows next) ∧
      (∀ tx error, final.call tx.context tx.call = .error error →
        auditAnchorMachine.step final tx = some final) ∧
      ∀ (context : AnchorContext) (tenantIds roots : List Bytes32)
        (eventCounts periodStarts periodEnds : List Uint256), context.sender = final.publisher →
        roots.length = tenantIds.length ∧ eventCounts.length = tenantIds.length ∧
          periodStarts.length = tenantIds.length ∧ periodEnds.length = tenantIds.length →
        tenantIds.length ≤ MAX_BATCH →
        (∀ entry ∈ entriesOf tenantIds roots eventCounts periodStarts periodEnds, ValidEntry entry) →
        final.anchorBatch context tenantIds roots eventCounts periodStarts periodEnds =
          (entriesOf tenantIds roots eventCounts periodStarts periodEnds).foldlM
            (anchorUnlessPublished context) final := by
  have hfaithful := faithful_of_run hstart hrun
  refine ⟨hfaithful, fun tx next hstep => (step_faithful hfaithful hstep).2, ?_, ?_⟩
  · intro tx error hcall
    change (match final.call tx.context tx.call with
      | .ok next => some next
      | .error _ => some final) = some final
    rw [hcall]
  · exact fun context _ _ _ _ _ hsender hlengths hsmall hvalid =>
      anchorBatch_eq_foldlM hsender hlengths hsmall hvalid

/-- The publisher anchors a batch in which a root comes twice, then an older window. -/
def publisherContext : AnchorContext where
  sender := 7
  timestamp := 1
  chainId := 8453
  sender_ne_zero := by decide
  timestamp_ne_zero := by decide
  blockNumber := 1

def olderWindow : List AnchorTx :=
  [⟨publisherContext, .anchorBatch [1, 1, 1] [10, 10, 11] [3, 3, 2] [0, 0, 5] [5, 5, 9]⟩,
    ⟨publisherContext, .anchor ⟨1, 12, 4, 0, 4⟩⟩]

theorem olderWindow_anchored : ∃ start final, deployed 7 = .ok start ∧
    auditAnchorMachine.run start olderWindow = some final ∧ final.Faithful ∧
      final.latestAnchor 1 = (11, 1) := by
  have hstart : deployed 7 = .ok { publisher := 7 } := rfl
  obtain ⟨final, hrun, hlatest⟩ : ∃ final, auditAnchorMachine.run { publisher := 7 } olderWindow =
      some final ∧ final.latestAnchor 1 = (11, 1) := ⟨_, rfl, rfl⟩
  exact ⟨_, final, hstart, hrun, (anchored_of_run hstart hrun).1, hlatest⟩

end AuditAnchor

end BrainCore.Contracts
