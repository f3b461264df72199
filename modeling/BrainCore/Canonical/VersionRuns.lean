import BrainCore.Canonical.Versions

/-!
# Retries and quarantine of versions

As long as outcomes are recorded only of versions that were not projected
before, a row is skipped exactly when its current version was projected or is
quarantined, each version is projected at most once, and a quarantine follows as
many failures as the budget allows.  The catch around the audit event after the
commit records a failure of a version that was projected.
-/

namespace BrainCore.Canonical

open BrainCore.Foundation BrainCore.Raw

variable {projectors : Projectors} {db : ProjectorDb} {row : RawParsedRow}

/-! ## What holds in guarded runs -/

/-- The log has the current version of the row as quarantined. -/
def QuarantinedAt (db : ProjectorDb) (row : RawParsedRow) : Prop :=
  ∃ log, db.projectionLog.find? row.id = some log ∧ log.quarantined = true ∧
    log.parsedExtractedAt = some row.extractedAt

/-- Polls skip a row exactly when its current version was projected or is quarantined, and no
version is projected twice. -/
structure VersionState (db : ProjectorDb) : Prop where
  skipped : ∀ id row, db.rawParsed.find? id = some row →
    (excluded db row = true ↔
      WasProjected db.events id row.extractedAt ∨ QuarantinedAt db row)
  quarantined : ∀ id log, db.projectionLog.find? id = some log → log.quarantined = true →
    ∃ version maxAttempts, log.parsedExtractedAt = some version ∧
      .failed id version maxAttempts ∈ db.events ∧
      maxAttempts ≤ failuresSince db.events id version
  once : ProjectedOnce db.events

/-- The row is pending with a budget of its own. -/
structure Renewed (db : ProjectorDb) (row : RawParsedRow) : Prop where
  pending : excluded db row = false
  attempts : nextAttempts row (db.projectionLog.find? row.id) = 1
  failures : failuresSince db.events row.id row.extractedAt = 0

/-- A quarantine is the record of a failure that uses up the budget; a repair and a replay renew
the row. -/
structure VersionStep (db next : ProjectorDb) : Prop where
  quarantines : ∀ id log, next.projectionLog.find? id = some log → log.quarantined = true →
    db.projectionLog.find? id ≠ some log →
    ∃ version maxAttempts, next.events = db.events ++ [.failed id version maxAttempts] ∧
      log.parsedExtractedAt = some version ∧
      maxAttempts ≤ failuresSince next.events id version
  repaired : ∀ id row, next.rawParsed.find? id = some row → db.rawParsed.find? id ≠ some row →
    Renewed next row
  replayed : ∀ more id log row, next.events = db.events ++ more → .replayed id ∈ more →
    db.projectionLog.find? id = some log → log.quarantined = true →
    next.rawParsed.find? id = some row → Renewed next row

theorem Logged.versionState (h : Logged db) : VersionState db := by
  constructor
  · intro id row hrow
    obtain rfl := Table.key_of_find? hrow
    constructor
    · intro hexcluded
      rw [excluded, Option.any_eq_true] at hexcluded
      obtain ⟨log, hlog, hboth⟩ := hexcluded
      rw [Bool.and_eq_true, Bool.or_eq_true, decide_eq_true_eq] at hboth
      obtain ⟨hterminal, hversion⟩ := hboth
      obtain ⟨version, hentry⟩ := h.entries _ log hlog
      rcases hterminal with herror | hquarantined
      · left
        have hwas := (hentry.projected (Option.isNone_iff_eq_none.mp herror)).1
        rw [hentry.about, Option.some.injEq] at hversion
        rw [Table.key_of_find? hlog, hversion] at hwas
        exact hwas
      · exact .inr ⟨log, hlog, hquarantined, hversion⟩
    · intro hterminal
      rw [excluded, Option.any_eq_true]
      rcases hterminal with hwas | ⟨log, hlog, hquarantined, hversion⟩
      · obtain ⟨log, hlog, herror, hversion⟩ := h.current _ row hrow hwas
        refine ⟨log, hlog, ?_⟩
        simp [herror, hversion]
      · refine ⟨log, hlog, ?_⟩
        simp [hquarantined, hversion]
  · intro id log hlog hquarantined
    obtain ⟨version, hentry⟩ := h.entries id log hlog
    obtain ⟨maxAttempts, hmem, hle⟩ := hentry.quarantined hquarantined
    rw [Table.key_of_find? hlog] at hmem hle
    exact ⟨version, maxAttempts, hentry.about, hmem, hle⟩
  · exact h.once

/-- A version that the row never had was neither logged nor failed. -/
theorem Logged.renewed_of_new (h : Logged db) (hnew : isNewVersion db row = true) :
    Renewed (projectorStore.view db [.parsed row]) row := by
  have hunknown := isNewVersion_iff.mp hnew
  have hversion : ∀ log, db.projectionLog.find? row.id = some log →
      log.parsedExtractedAt ≠ some row.extractedAt := by
    intro log hlog hsame
    obtain ⟨version, hentry⟩ := h.entries _ log hlog
    have hhas := hentry.versioned
    rw [hentry.about, Option.some.injEq] at hsame
    rw [Table.key_of_find? hlog, hsame] at hhas
    exact hunknown hhas
  constructor
  · change (db.projectionLog.find? row.id).any _ = false
    rw [Option.any_eq_false]
    intro log hlog
    simp [hversion log hlog]
  · change nextAttempts row (db.projectionLog.find? row.id) = 1
    cases hlog : db.projectionLog.find? row.id with
    | none => rfl
    | some log => exact if_pos (hversion log hlog)
  · apply failuresSince_eq_zero
    intro maxAttempts hfailed
    rcases List.mem_append.mp hfailed with hfailed | hfailed
    · exact hunknown (h.failed _ _ maxAttempts hfailed)
    · cases List.mem_singleton.mp hfailed

/-- A quarantined row that is released. -/
theorem Logged.renewed_of_released {writes : List ProjectorWrite} (h : Logged db)
    (hreleases : Releases db writes)
    (hreplayed : .replayed row.id ∈ writes.filterMap ProjectorWrite.event?)
    {log : ProjectionLogRow} (hlog : db.projectionLog.find? row.id = some log)
    (hquarantined : log.quarantined = true) : Renewed (projectorStore.view db writes) row := by
  obtain ⟨hquiet, -⟩ | ⟨stored, hstored, -, hfind⟩ := find?_releases hreleases row.id
  · exact absurd rfl (hquiet _ hreplayed)
  obtain rfl := Option.some.inj (hlog.symm.trans hstored)
  obtain ⟨version, hentry⟩ := h.entries _ log hlog
  have herror : log.error ≠ none := by
    intro hnone
    rw [(hentry.projected hnone).2] at hquarantined
    cases hquarantined
  constructor
  · rw [excluded, hfind]
    simp [herror]
  · rw [hfind]
    exact ite_self 1
  · rw [events_view]
    refine failuresSince_replayed (fun event hevent => ?_) hreplayed
    obtain ⟨released, rfl, -⟩ := mem_events_of_releases hreleases hevent
    exact ⟨_, rfl⟩

theorem VersionStep.refl (db : ProjectorDb) : VersionStep db db where
  quarantines id log hlog _ hne := absurd hlog hne
  repaired id row hrow hne := absurd hrow hne
  replayed more id log row hevents hreplayed := by
    rw [List.self_eq_append_right] at hevents
    intro _ _ _
    rw [hevents] at hreplayed
    cases hreplayed

/-- An outcome that is recorded for one row. -/
theorem versionStep_of_outcome {writes : List ProjectorWrite} {w : ProjectorWrite}
    {log : ProjectionLogRow} {event : ProjectionEvent}
    (hwrites : ∀ w ∈ writes, ∃ row, w = .canonical row) (hlog : w.log? = some log)
    (hparsed : w.parsed? = none) (hevent : w.event? = some event)
    (hnot : ∀ id, event ≠ .replayed id)
    (hquarantines : log.quarantined = true → ∃ version maxAttempts,
      event = .failed log.rawParsedId version maxAttempts ∧ log.parsedExtractedAt = some version ∧
        maxAttempts ≤ failuresSince (db.events ++ [event]) log.rawParsedId version) :
    VersionStep db (projectorStore.view db (writes ++ [w])) := by
  obtain ⟨hraw, hfind, hevents⟩ := view_outcome db writes hwrites hlog hparsed
  rw [hevent] at hevents
  change _ = db.events ++ [event] at hevents
  constructor
  · intro id other hother hquarantined hne
    rw [hfind] at hother
    rw [hevents]
    split at hother
    · rename_i hid
      obtain rfl := Option.some.inj hother
      subst hid
      obtain ⟨version, maxAttempts, hsame, hversion, hle⟩ := hquarantines hquarantined
      exact ⟨version, maxAttempts, by rw [hsame], hversion, hle⟩
    · exact absurd hother hne
  · intro id row hrow hne
    rw [hraw] at hrow
    exact absurd hrow hne
  · intro more id other row hmore hreplayed
    rw [hevents] at hmore
    rw [← List.append_cancel_left hmore, List.mem_singleton] at hreplayed
    exact absurd hreplayed.symm (hnot id)

theorem Logged.versionStep {writes : List ProjectorWrite} (h : Logged db)
    (hcommit : ProjectorCommit projectors db writes) (hguard : RecordsUndecided db writes) :
    VersionStep db (projectorStore.view db writes) := by
  cases hcommit with
  | quiet => exact .refl db
  | versioned row new =>
      constructor
      · exact fun id log hlog _ hne => absurd hlog hne
      · intro id other hother hne
        change (db.rawParsed.put row).find? id = some other at hother
        rw [Table.find?_put] at hother
        split at hother
        · cases hother
          exact h.renewed_of_new new
        · exact absurd hother hne
      · intro more id log other hmore hreplayed
        change db.events ++ [.versioned row] = db.events ++ more at hmore
        rw [← List.append_cancel_left hmore, List.mem_singleton] at hreplayed
        cases hreplayed
  | projected row labels recordsWritten now inputs writes polled projects puts =>
      refine versionStep_of_outcome puts.canonical rfl rfl rfl (fun id hsame => ?_)
        fun hquarantined => ?_
      · cases hsame
      · cases hquarantined
  | failed row labels message maxAttempts now polled =>
      have hundecided := hguard _ (List.mem_singleton_self _) _ _ rfl
      rw [← List.nil_append [_]]
      refine versionStep_of_outcome (fun _ hw => by cases hw) rfl rfl rfl (fun id hsame => ?_)
        fun hquarantined => ⟨row.extractedAt, maxAttempts, rfl, rfl, ?_⟩
      · cases hsame
      · have hcount : failuresSince (db.events ++ [.failed row.id row.extractedAt maxAttempts])
            row.id row.extractedAt = failuresSince db.events row.id row.extractedAt + 1 := by
          rw [failuresSince_append, List.foldl_cons, List.foldl_nil, countFailure,
            if_pos ⟨rfl, rfl⟩]
        have hle := h.nextAttempts_le hundecided.unprojected
        exact ((of_decide_eq_true hquarantined).trans hle).trans_eq hcount.symm
  | replayed writes released =>
      have hreleases : Releases db writes := ⟨released⟩
      constructor
      · intro id log hlog hquarantined hne
        rcases find?_releases hreleases id with ⟨-, hsame⟩ | ⟨stored, -, -, hsame⟩
        · exact absurd (hsame.symm.trans hlog) hne
        · rw [hsame] at hlog
          cases hlog
          cases hquarantined
      · intro id row hrow hne
        rw [rawParsed_releases hreleases] at hrow
        exact absurd hrow hne
      · intro more id log row hmore hreplayed hlog hquarantined hrow
        rw [events_view] at hmore
        rw [← List.append_cancel_left hmore] at hreplayed
        obtain rfl := Table.key_of_find? hrow
        exact h.renewed_of_released hreleases hreplayed hlog hquarantined

/-- The guard of a run: each outcome that a step commits is of an undecided version. -/
def DecidesOnce (s : ProjectorWorld) (label : ProjectorLabel) : Prop :=
  RecordsUndecided s.committed (s.committing label)

def ProjectionEvent.isProjected : ProjectionEvent → Bool
  | .projected _ => true
  | .versioned _ | .failed _ _ _ | .replayed _ => false

/-- Nothing is projected yet. -/
def nothingProjected (s : ProjectorWorld) (_ : ProjectorLabel) : Bool :=
  s.committed.events.all fun event => !event.isProjected

theorem decidesOnce_of_nothingProjected {s : ProjectorWorld} {label : ProjectorLabel}
    (h : nothingProjected s label = true) : DecidesOnce s label := by
  rw [nothingProjected, List.all_eq_true] at h
  have hnone : ∀ id version, ¬WasProjected s.committed.events id version := by
    rintro id version ⟨source, hsource, -⟩
    cases h _ hsource
  exact fun _ _ id version _ => ⟨hnone id version, fun row _ => hnone id row.extractedAt⟩

def onePage : Table RawParsedRow.id := Table.empty.put olderPage

/-- The database fails the projection, and the failure is about to be recorded. -/
def failingLabels : List ProjectorLabel :=
  .begin (.cycle {}) :: List.replicate 5 (.advance 0 chartEnvironment) ++ [.fail 0 ⟨"timeout"⟩] ++
    List.replicate 3 (.advance 0 chartEnvironment)

def beforeFailure : ProjectorWorld :=
  ((projectorMachine chartProjectors).run { committed := unprojected onePage } failingLabels).getD
    { committed := unprojected onePage }

def afterFailure : ProjectorWorld :=
  ((projectorMachine chartProjectors).step beforeFailure (.advance 0 chartEnvironment)).getD
    { committed := unprojected onePage }

/-- The audit log cannot be reached. -/
def unaudited : ProjectorEnvironment := { chartEnvironment with audit := .error ⟨"timeout"⟩ }

/-- A page is projected; the audit event after the commit fails and is recorded as a failure. -/
def unauditedLabels : List ProjectorLabel :=
  .begin (.cycle {}) :: List.replicate 13 (.advance 0 unaudited)

/-- The next cycle projects the page again. -/
def againLabels : List ProjectorLabel :=
  .begin (.cycle {}) :: List.replicate 8 (.advance 1 chartEnvironment)

def unauditedWorld : ProjectorWorld :=
  ((projectorMachine chartProjectors).run { committed := unprojected onePage }
    unauditedLabels).getD { committed := unprojected onePage }

def againWorld : ProjectorWorld :=
  ((projectorMachine chartProjectors).run { committed := unprojected onePage }
    (unauditedLabels ++ againLabels)).getD { committed := unprojected onePage }

end BrainCore.Canonical
