import BrainCore.Canonical.Confluence

/-!
# What the projection log says of versions

The versions, projections and failures of a row as they have happened, and what
the log has of them.  Commits keep the log right as long as outcomes are recorded
only of versions that were not projected before.
-/

namespace BrainCore.Canonical

open BrainCore.Foundation BrainCore.Raw

/-! ## What has happened to a version -/

def HasVersion (events : List ProjectionEvent) (id : String) (version : Nat) : Prop :=
  ∃ row, .versioned row ∈ events ∧ row.id = id ∧ row.extractedAt = version

def WasProjected (events : List ProjectionEvent) (id : String) (version : Nat) : Prop :=
  ∃ row, .projected row ∈ events ∧ row.id = id ∧ row.extractedAt = version

/-- One more event, for the failures of a version since the last replay of its row. -/
def countFailure (id : String) (version count : Nat) : ProjectionEvent → Nat
  | .failed failedId failedVersion _ =>
      if failedId = id ∧ failedVersion = version then count + 1 else count
  | .replayed replayedId => if replayedId = id then 0 else count
  | .versioned _ | .projected _ => count

def failuresSince (events : List ProjectionEvent) (id : String) (version : Nat) : Nat :=
  events.foldl (countFailure id version) 0

/-- No two projections are of one version of a row. -/
def ProjectedOnce (events : List ProjectionEvent) : Prop :=
  events.Pairwise fun first second => ∀ source source', first = .projected source →
    second = .projected source' → ¬(source.id = source'.id ∧ source.extractedAt = source'.extractedAt)

variable {events more : List ProjectionEvent} {id : String} {version : Nat}

theorem HasVersion.append (h : HasVersion events id version) :
    HasVersion (events ++ more) id version := by
  obtain ⟨row, hrow, hsame⟩ := h
  exact ⟨row, List.mem_append_left _ hrow, hsame⟩

theorem WasProjected.append (h : WasProjected events id version) :
    WasProjected (events ++ more) id version := by
  obtain ⟨row, hrow, hsame⟩ := h
  exact ⟨row, List.mem_append_left _ hrow, hsame⟩

theorem failuresSince_append :
    failuresSince (events ++ more) id version =
      more.foldl (countFailure id version) (failuresSince events id version) :=
  List.foldl_append

theorem foldl_quiet (hquiet : ∀ event ∈ more, ∀ count,
    countFailure id version count event = count) (count : Nat) :
    more.foldl (countFailure id version) count = count := by
  induction more generalizing count with
  | nil => rfl
  | cons event rest ih =>
      rw [List.foldl_cons, hquiet event List.mem_cons_self]
      exact ih (fun other hother => hquiet other (List.mem_cons_of_mem _ hother)) count

/-- Events of other rows leave the count as it is. -/
theorem failuresSince_append_of_quiet
    (hquiet : ∀ event ∈ more, ∀ count, countFailure id version count event = count) :
    failuresSince (events ++ more) id version = failuresSince events id version := by
  rw [failuresSince_append, foldl_quiet hquiet]

theorem failuresSince_eq_zero (h : ∀ maxAttempts, .failed id version maxAttempts ∉ events) :
    failuresSince events id version = 0 := by
  suffices hall : ∀ rest : List ProjectionEvent,
      (∀ maxAttempts, .failed id version maxAttempts ∉ rest) →
      rest.foldl (countFailure id version) 0 = 0 from hall events h
  intro rest hrest
  induction rest with
  | nil => rfl
  | cons event rest ih =>
      have hevent : countFailure id version 0 event = 0 := by
        cases event with
        | failed failedId failedVersion maxAttempts =>
            refine if_neg ?_
            rintro ⟨rfl, rfl⟩
            exact hrest maxAttempts List.mem_cons_self
        | replayed replayedId => exact ite_self 0
        | versioned row => rfl
        | projected row => rfl
      rw [List.foldl_cons, hevent]
      exact ih fun maxAttempts hmem => hrest maxAttempts (List.mem_cons_of_mem _ hmem)

theorem foldl_replays (hreplays : ∀ event ∈ more, ∃ replayed, event = .replayed replayed) :
    more.foldl (countFailure id version) 0 = 0 := by
  induction more with
  | nil => rfl
  | cons event rest ih =>
      obtain ⟨replayed, rfl⟩ := hreplays event List.mem_cons_self
      rw [List.foldl_cons, countFailure, ite_self]
      exact ih fun other hother => hreplays other (List.mem_cons_of_mem _ hother)

/-- A replay starts the count anew. -/
theorem failuresSince_replayed (hreplays : ∀ event ∈ more, ∃ replayed, event = .replayed replayed)
    (hmem : .replayed id ∈ more) : failuresSince (events ++ more) id version = 0 := by
  rw [failuresSince_append]
  generalize failuresSince events id version = count
  induction more generalizing count with
  | nil => cases hmem
  | cons event rest ih =>
      have hrest : ∀ other ∈ rest, ∃ replayed, other = .replayed replayed :=
        fun other hother => hreplays other (List.mem_cons_of_mem _ hother)
      rw [List.foldl_cons]
      rcases List.mem_cons.mp hmem with rfl | hlater
      · rw [countFailure, if_pos rfl]
        exact foldl_replays hrest
      · exact ih hrest hlater _

theorem ProjectedOnce.append (h : ProjectedOnce events)
    (hmore : ∀ source, ProjectionEvent.projected source ∉ more) : ProjectedOnce (events ++ more) := by
  refine List.pairwise_append.mpr ⟨h, ?_, ?_⟩
  · refine List.Pairwise.imp_of_mem (R := fun _ _ => True) ?_ ?_
    · rintro first second hfirst - - source source' rfl
      exact absurd hfirst (hmore source)
    · exact List.pairwise_of_forall fun _ _ => trivial
  · rintro first - second hsecond source source' - rfl
    exact absurd hsecond (hmore source')

/-! ## What the log says -/

/-- A row of the log is about a version that its row had; without an error that version was
projected, and its attempts are failures of the version. -/
structure LogEntry (events : List ProjectionEvent) (log : ProjectionLogRow) (version : Nat) :
    Prop where
  about : log.parsedExtractedAt = some version
  versioned : HasVersion events log.rawParsedId version
  projected : log.error = none → WasProjected events log.rawParsedId version ∧
    log.quarantined = false
  attempts : log.error ≠ none → log.attempts ≤ failuresSince events log.rawParsedId version
  quarantined : log.quarantined = true → ∃ maxAttempts,
    .failed log.rawParsedId version maxAttempts ∈ events ∧
      maxAttempts ≤ failuresSince events log.rawParsedId version

/-- Events of other rows leave an entry right. -/
theorem LogEntry.append {log : ProjectionLogRow} (h : LogEntry events log version)
    (hquiet : ∀ event ∈ more, ∀ count,
      countFailure log.rawParsedId version count event = count) :
    LogEntry (events ++ more) log version where
  about := h.about
  versioned := h.versioned.append
  projected herror := ⟨(h.projected herror).1.append, (h.projected herror).2⟩
  attempts herror := by
    rw [failuresSince_append_of_quiet hquiet]
    exact h.attempts herror
  quarantined hquarantined := by
    obtain ⟨maxAttempts, hmem, hle⟩ := h.quarantined hquarantined
    rw [failuresSince_append_of_quiet hquiet]
    exact ⟨maxAttempts, List.mem_append_left _ hmem, hle⟩

/-- The log is right about the versions, and has the current version of a row once that was
projected. -/
structure Logged (db : ProjectorDb) : Prop where
  entries : ∀ id log, db.projectionLog.find? id = some log →
    ∃ version, LogEntry db.events log version
  current : ∀ id row, db.rawParsed.find? id = some row →
    WasProjected db.events id row.extractedAt →
      ∃ log, db.projectionLog.find? id = some log ∧ log.error = none ∧
        log.parsedExtractedAt = some row.extractedAt
  once : ProjectedOnce db.events
  projected : ∀ source, .projected source ∈ db.events →
    HasVersion db.events source.id source.extractedAt
  failed : ∀ id version maxAttempts, .failed id version maxAttempts ∈ db.events →
    HasVersion db.events id version

/-! ## Outcomes of versions that were not projected -/

/-- The row and version that a written outcome is of. -/
def ProjectorWrite.outcome? : ProjectorWrite → Option (String × Nat)
  | .projected row _ => some (row.id, row.extractedAt)
  | .failed version _ log => some (log.rawParsedId, version)
  | .parsed _ | .canonical _ | .replayed _ => none

/-- Neither the version nor the current one of its row was projected. -/
structure Undecided (db : ProjectorDb) (id : String) (version : Nat) : Prop where
  unprojected : ¬WasProjected db.events id version
  current : ∀ row, db.rawParsed.find? id = some row → ¬WasProjected db.events id row.extractedAt

/-- The outcomes among the writes are of undecided versions. -/
def RecordsUndecided (db : ProjectorDb) (writes : List ProjectorWrite) : Prop :=
  ∀ w ∈ writes, ∀ id version, w.outcome? = some (id, version) → Undecided db id version

variable {projectors : Projectors} {db : ProjectorDb} {row : RawParsedRow}

theorem isNewVersion_iff : isNewVersion db row = true ↔
    ¬HasVersion db.events row.id row.extractedAt := by
  rw [isNewVersion, List.all_eq_true]
  constructor
  · rintro h ⟨other, hother, hid, hversion⟩
    have hnew := h _ hother
    simp [hid, hversion] at hnew
  · intro h event hevent
    cases event with
    | versioned other =>
        rw [Bool.or_eq_true, decide_eq_true_eq, decide_eq_true_eq]
        by_contra hboth
        rw [not_or, not_not, not_not] at hboth
        exact h ⟨other, hevent, hboth.1, hboth.2⟩
    | projected other => rfl
    | failed id version maxAttempts => rfl
    | replayed id => rfl

/-! ### A new version -/

theorem Logged.versioned (h : Logged db) (hnew : isNewVersion db row = true) :
    Logged (projectorStore.view db [.parsed row]) := by
  have hunknown := isNewVersion_iff.mp hnew
  have hquiet : ∀ {id version}, ∀ event ∈ [ProjectionEvent.versioned row], ∀ count,
      countFailure id version count event = count := by
    intro id version event hevent count
    obtain rfl := List.mem_singleton.mp hevent
    rfl
  have hprojected : ∀ {id version}, WasProjected (db.events ++ [.versioned row]) id version →
      WasProjected db.events id version := by
    rintro id version ⟨source, hsource, hsame⟩
    rcases List.mem_append.mp hsource with hsource | hsource
    · exact ⟨source, hsource, hsame⟩
    · cases List.mem_singleton.mp hsource
  constructor
  · intro id log hlog
    obtain ⟨version, hentry⟩ := h.entries id log hlog
    exact ⟨version, hentry.append hquiet⟩
  · intro id other hother hwas
    have hwas := hprojected hwas
    change (db.rawParsed.put row).find? id = some other at hother
    rw [Table.find?_put] at hother
    split at hother
    · rename_i hid
      cases hother
      obtain ⟨source, hsource, hsame, hversion⟩ := hwas
      have hhas := h.projected source hsource
      rw [hsame, hversion, hid] at hhas
      exact absurd hhas hunknown
    · exact h.current id other hother hwas
  · exact h.once.append fun source hsource => by cases List.mem_singleton.mp hsource
  · intro source hsource
    rcases List.mem_append.mp hsource with hsource | hsource
    · exact (h.projected source hsource).append
    · cases List.mem_singleton.mp hsource
  · intro id version maxAttempts hfailed
    rcases List.mem_append.mp hfailed with hfailed | hfailed
    · exact (h.failed id version maxAttempts hfailed).append
    · cases List.mem_singleton.mp hfailed

/-! ### An outcome -/

section Outcome

variable {w : ProjectorWrite} {log : ProjectionLogRow}

theorem filterMap_canonical {writes : List ProjectorWrite} {α : Type} {f : ProjectorWrite → Option α}
    (hf : ∀ row, f (.canonical row) = none)
    (hwrites : ∀ w ∈ writes, ∃ row, w = ProjectorWrite.canonical row) :
    writes.filterMap f = [] := by
  rw [List.filterMap_eq_nil_iff]
  intro w hw
  obtain ⟨row, rfl⟩ := hwrites w hw
  exact hf row

/-- After canonical rows and one row of the log. -/
theorem view_outcome (db : ProjectorDb) (writes : List ProjectorWrite) (hwrites : ∀ w ∈ writes, ∃ row, w = .canonical row)
    (hlog : w.log? = some log) (hparsed : w.parsed? = none) :
    (projectorStore.view db (writes ++ [w])).rawParsed = db.rawParsed ∧
      (∀ id, (projectorStore.view db (writes ++ [w])).projectionLog.find? id =
        if log.rawParsedId = id then some log else db.projectionLog.find? id) ∧
      (projectorStore.view db (writes ++ [w])).events = db.events ++ w.event?.toList := by
  refine ⟨?_, fun id => ?_, ?_⟩
  · rw [rawParsed_view, List.filterMap_append, filterMap_canonical (fun _ => rfl) hwrites,
      List.filterMap_cons, hparsed]
    rfl
  · rw [find?_projectionLog, List.filterMap_append, filterMap_canonical (fun _ => rfl) hwrites,
      List.filterMap_cons, hlog]
    by_cases hid : log.rawParsedId = id <;> simp [Table.latest, hid]
  · rw [events_view, List.filterMap_append, filterMap_canonical (fun _ => rfl) hwrites,
      List.filterMap_cons]
    cases w.event? <;> rfl

end Outcome

theorem Logged.projected_outcome {writes : List ProjectorWrite} (h : Logged db)
    (hwrites : ∀ w ∈ writes, ∃ row, w = .canonical row)
    (polled : .versioned row ∈ db.events) (hundecided : Undecided db row.id row.extractedAt)
    (labels : LogLabels) (recordsWritten now : Nat) (old : Option ProjectionLogRow) :
    Logged (projectorStore.view db
      (writes ++ [.projected row (projectedLog labels row recordsWritten now old)])) := by
  obtain ⟨hraw, hlog, hevents⟩ := view_outcome db writes hwrites
    (w := .projected row (projectedLog labels row recordsWritten now old)) rfl rfl
  change _ = db.events ++ [.projected row] at hevents
  have hquiet : ∀ {id version}, ∀ event ∈ [ProjectionEvent.projected row], ∀ count,
      countFailure id version count event = count := by
    intro id version event hevent count
    obtain rfl := List.mem_singleton.mp hevent
    rfl
  have hhas : HasVersion db.events row.id row.extractedAt := ⟨row, polled, rfl, rfl⟩
  have hwas : WasProjected (db.events ++ [.projected row]) row.id row.extractedAt :=
    ⟨row, List.mem_append_right _ (List.mem_singleton_self _), rfl, rfl⟩
  constructor
  · intro id log hfind
    rw [hlog] at hfind
    rw [hevents]
    split at hfind
    · cases hfind
      refine ⟨row.extractedAt, rfl, hhas.append, fun _ => ⟨hwas, rfl⟩, fun herror => ?_,
        fun hquarantined => ?_⟩
      · exact absurd rfl herror
      · cases hquarantined
    · obtain ⟨version, hentry⟩ := h.entries id log hfind
      exact ⟨version, hentry.append hquiet⟩
  · intro id other hother hprojected
    rw [hraw] at hother
    rw [hevents] at hprojected
    rw [hlog]
    obtain ⟨source, hsource, hid, hversion⟩ := hprojected
    rcases List.mem_append.mp hsource with hsource | hsource
    · have hbefore : WasProjected db.events id other.extractedAt := ⟨source, hsource, hid, hversion⟩
      have hne : row.id ≠ id := by
        rintro rfl
        exact hundecided.current other hother hbefore
      obtain ⟨log, hfind, hrest⟩ := h.current id other hother hbefore
      exact ⟨log, (if_neg hne).trans hfind, hrest⟩
    · obtain rfl := ProjectionEvent.projected.inj (List.mem_singleton.mp hsource)
      exact ⟨_, if_pos hid, rfl, congrArg some hversion⟩
  · rw [hevents]
    refine List.pairwise_append.mpr ⟨h.once, List.pairwise_singleton _ _, ?_⟩
    rintro first hfirst second hsecond source source' rfl rfl ⟨hid, hversion⟩
    obtain rfl := ProjectionEvent.projected.inj (List.mem_singleton.mp hsecond)
    exact hundecided.unprojected ⟨source, hfirst, hid, hversion⟩
  · intro source hsource
    rw [hevents] at hsource ⊢
    rcases List.mem_append.mp hsource with hsource | hsource
    · exact (h.projected source hsource).append
    · obtain rfl := ProjectionEvent.projected.inj (List.mem_singleton.mp hsource)
      exact hhas.append
  · intro id version maxAttempts hfailed
    rw [hevents] at hfailed ⊢
    rcases List.mem_append.mp hfailed with hfailed | hfailed
    · exact (h.failed id version maxAttempts hfailed).append
    · cases List.mem_singleton.mp hfailed

/-- The attempts that a failure counts are failures of its version. -/
theorem Logged.nextAttempts_le (h : Logged db)
    (hundecided : ¬WasProjected db.events row.id row.extractedAt) :
    nextAttempts row (db.projectionLog.find? row.id) ≤
      failuresSince db.events row.id row.extractedAt + 1 := by
  cases hfind : db.projectionLog.find? row.id with
  | none => exact Nat.succ_le_succ (Nat.zero_le _)
  | some log =>
      obtain ⟨version, hentry⟩ := h.entries _ log hfind
      have hid : log.rawParsedId = row.id := Table.key_of_find? hfind
      change (if _ then _ else _) ≤ _
      split
      · exact Nat.succ_le_succ (Nat.zero_le _)
      · rename_i hsame
        rw [ne_eq, not_not, hentry.about, Option.some.injEq] at hsame
        have herror : log.error ≠ none := by
          intro hnone
          rw [← hid, ← hsame] at hundecided
          exact hundecided (hentry.projected hnone).1
        have hle := hentry.attempts herror
        rw [hid, hsame] at hle
        exact Nat.succ_le_succ hle

theorem Logged.failed_outcome (h : Logged db) (polled : .versioned row ∈ db.events)
    (hundecided : Undecided db row.id row.extractedAt) (labels : LogLabels) (message : String)
    (maxAttempts now : Nat) :
    Logged (projectorStore.view db [.failed row.extractedAt maxAttempts
      (failedLog labels row message maxAttempts now (db.projectionLog.find? row.id))]) := by
  obtain ⟨hraw, hlog, hevents⟩ := view_outcome db [] (fun _ hw => by cases hw)
    (w := .failed row.extractedAt maxAttempts
      (failedLog labels row message maxAttempts now (db.projectionLog.find? row.id))) rfl rfl
  rw [List.nil_append] at hraw hlog hevents
  change _ = db.events ++ [.failed row.id row.extractedAt maxAttempts] at hevents
  have hhas : HasVersion db.events row.id row.extractedAt := ⟨row, polled, rfl, rfl⟩
  have hcount : failuresSince (db.events ++ [.failed row.id row.extractedAt maxAttempts]) row.id
      row.extractedAt = failuresSince db.events row.id row.extractedAt + 1 := by
    rw [failuresSince_append, List.foldl_cons, List.foldl_nil, countFailure, if_pos ⟨rfl, rfl⟩]
  have hattempts := h.nextAttempts_le hundecided.unprojected
  rw [← hcount] at hattempts
  have hprojected : ∀ {id version},
      WasProjected (db.events ++ [.failed row.id row.extractedAt maxAttempts]) id version →
      WasProjected db.events id version := by
    rintro id version ⟨source, hsource, hsame⟩
    rcases List.mem_append.mp hsource with hsource | hsource
    · exact ⟨source, hsource, hsame⟩
    · cases List.mem_singleton.mp hsource
  constructor
  · intro id log hfind
    rw [hlog] at hfind
    rw [hevents]
    split at hfind
    · cases hfind
      refine ⟨row.extractedAt, rfl, hhas.append, fun herror => ?_, fun _ => hattempts,
        fun hquarantined => ⟨maxAttempts, List.mem_append_right _ (List.mem_singleton_self _),
          (of_decide_eq_true hquarantined).trans hattempts⟩⟩
      cases herror
    · rename_i hid
      obtain ⟨version, hentry⟩ := h.entries id log hfind
      refine ⟨version, hentry.append fun event hevent count => ?_⟩
      obtain rfl := List.mem_singleton.mp hevent
      refine if_neg fun hsame => hid ?_
      exact hsame.1.trans (Table.key_of_find? hfind)
  · intro id other hother hwas
    rw [hraw] at hother
    rw [hevents] at hwas
    have hne : row.id ≠ id := by
      rintro rfl
      exact hundecided.current other hother (hprojected hwas)
    obtain ⟨log, hfind, hrest⟩ := h.current id other hother (hprojected hwas)
    rw [hlog]
    exact ⟨log, (if_neg hne).trans hfind, hrest⟩
  · rw [hevents]
    exact h.once.append fun source hsource => by cases List.mem_singleton.mp hsource
  · intro source hsource
    rw [hevents] at hsource ⊢
    rcases List.mem_append.mp hsource with hsource | hsource
    · exact (h.projected source hsource).append
    · cases List.mem_singleton.mp hsource
  · intro id version budget hfailed
    rw [hevents] at hfailed ⊢
    rcases List.mem_append.mp hfailed with hfailed | hfailed
    · exact (h.failed id version budget hfailed).append
    · cases List.mem_singleton.mp hfailed
      exact hhas.append

/-! ### A replay -/

section Replay

variable {writes : List ProjectorWrite}

/-- The events of rows that are released. -/
theorem mem_events_of_releases (h : Releases db writes) {event : ProjectionEvent}
    (hevent : event ∈ writes.filterMap ProjectorWrite.event?) :
    ∃ log : ProjectionLogRow, event = .replayed log.rawParsedId ∧
      ∃ released ∈ writes.filterMap ProjectorWrite.log?, released.rawParsedId = log.rawParsedId := by
  obtain ⟨w, hw, hevent⟩ := List.mem_filterMap.mp hevent
  obtain ⟨log, hlog, rfl⟩ := h.released w hw
  cases hevent
  exact ⟨log, rfl, _, List.mem_filterMap.mpr ⟨_, hw, rfl⟩, rfl⟩

/-- A row of the log after a replay: as before, or released. -/
theorem find?_releases (h : Releases db writes) (id : String) :
    ((∀ event ∈ writes.filterMap ProjectorWrite.event?, event ≠ .replayed id) ∧
      (projectorStore.view db writes).projectionLog.find? id = db.projectionLog.find? id) ∨
    ∃ log, db.projectionLog.find? id = some log ∧
      .replayed id ∈ writes.filterMap ProjectorWrite.event? ∧
      (projectorStore.view db writes).projectionLog.find? id =
        some { log with quarantined := false, attempts := 0 } := by
  rw [find?_projectionLog]
  cases hlatest : Table.latest ProjectionLogRow.rawParsedId (writes.filterMap ProjectorWrite.log?)
      id with
  | none =>
      left
      refine ⟨fun event hevent hsame => ?_, rfl⟩
      obtain ⟨log, rfl, released, hreleased, hid⟩ := mem_events_of_releases h hevent
      exact Table.latest_none_iff.mp hlatest released hreleased
        (hid.trans (ProjectionEvent.replayed.inj hsame))
  | some last =>
      right
      obtain ⟨hmem, rfl⟩ := Table.mem_of_latest hlatest
      obtain ⟨w, hw, hwritten⟩ := List.mem_filterMap.mp hmem
      obtain ⟨log, hlog, rfl⟩ := h.released w hw
      cases hwritten
      exact ⟨log, hlog, List.mem_filterMap.mpr ⟨_, hw, rfl⟩, rfl⟩

theorem rawParsed_releases (h : Releases db writes) :
    (projectorStore.view db writes).rawParsed = db.rawParsed := by
  have hnone : writes.filterMap ProjectorWrite.parsed? = [] := by
    rw [List.filterMap_eq_nil_iff]
    intro w hw
    obtain ⟨log, -, rfl⟩ := h.released w hw
    rfl
  rw [rawParsed_view, hnone]
  rfl

theorem Logged.replayed (h : Logged db) (hreleases : Releases db writes) :
    Logged (projectorStore.view db writes) := by
  have hreplays : ∀ event ∈ writes.filterMap ProjectorWrite.event?,
      ∃ replayed, event = .replayed replayed := by
    intro event hevent
    obtain ⟨log, rfl, -⟩ := mem_events_of_releases hreleases hevent
    exact ⟨_, rfl⟩
  have hprojected : ∀ source,
      ProjectionEvent.projected source ∉ writes.filterMap ProjectorWrite.event? := by
    intro source hsource
    obtain ⟨replayed, hsame⟩ := hreplays _ hsource
    cases hsame
  constructor
  · intro id log hlog
    rw [events_view]
    rcases find?_releases hreleases id with ⟨hquiet, hsame⟩ | ⟨stored, hstored, hreplayed, hsame⟩
    · rw [hsame] at hlog
      obtain ⟨version, hentry⟩ := h.entries id log hlog
      refine ⟨version, hentry.append fun event hevent count => ?_⟩
      obtain ⟨replayed, rfl⟩ := hreplays event hevent
      refine if_neg fun hid => hquiet _ hevent ?_
      rw [hid, Table.key_of_find? hlog]
    · rw [hsame] at hlog
      cases hlog
      obtain ⟨version, hentry⟩ := h.entries id stored hstored
      refine ⟨version, hentry.about, hentry.versioned.append, fun herror => ?_, fun _ => ?_,
        fun hquarantined => ?_⟩
      · exact ⟨(hentry.projected herror).1.append, rfl⟩
      · exact Nat.zero_le _
      · cases hquarantined
  · intro id row hrow hwas
    rw [rawParsed_releases hreleases] at hrow
    rw [events_view] at hwas
    have hbefore : WasProjected db.events id row.extractedAt := by
      obtain ⟨source, hsource, hsame⟩ := hwas
      rcases List.mem_append.mp hsource with hsource | hsource
      · exact ⟨source, hsource, hsame⟩
      · exact absurd hsource (hprojected source)
    obtain ⟨log, hlog, herror, hversion⟩ := h.current id row hrow hbefore
    rcases find?_releases hreleases id with ⟨-, hsame⟩ | ⟨stored, hstored, -, hsame⟩
    · exact ⟨log, hsame.trans hlog, herror, hversion⟩
    · obtain rfl := Option.some.inj (hstored.symm.trans hlog)
      exact ⟨_, hsame, herror, hversion⟩
  · rw [events_view]
    exact h.once.append hprojected
  · intro source hsource
    rw [events_view] at hsource ⊢
    rcases List.mem_append.mp hsource with hsource | hsource
    · exact (h.projected source hsource).append
    · exact absurd hsource (hprojected source)
  · intro id version maxAttempts hfailed
    rw [events_view] at hfailed ⊢
    rcases List.mem_append.mp hfailed with hfailed | hfailed
    · exact (h.failed id version maxAttempts hfailed).append
    · obtain ⟨replayed, hsame⟩ := hreplays _ hfailed
      cases hsame

end Replay

/-! ## Guarded commits -/

theorem Logged.keeps {writes : List ProjectorWrite} (h : Logged db)
    (hcommit : ProjectorCommit projectors db writes) (hguard : RecordsUndecided db writes) :
    Logged (projectorStore.view db writes) := by
  cases hcommit with
  | quiet => exact h
  | versioned row new => exact h.versioned new
  | projected row labels recordsWritten now inputs writes polled projects puts =>
      have hundecided := hguard _ (List.mem_append_right _ (List.mem_singleton_self _)) _ _ rfl
      exact h.projected_outcome puts.canonical polled hundecided labels recordsWritten now _
  | failed row labels message maxAttempts now polled =>
      have hundecided := hguard _ (List.mem_singleton_self _) _ _ rfl
      exact h.failed_outcome polled hundecided labels message maxAttempts now
  | replayed writes released => exact h.replayed ⟨released⟩

theorem logged_unprojected (rows : Table RawParsedRow.id) : Logged (unprojected rows) := by
  have hversioned : ∀ {event}, event ∈ (unprojected rows).events →
      ∃ row, event = .versioned row := by
    intro event hevent
    obtain ⟨row, -, rfl⟩ := List.mem_map.mp hevent
    exact ⟨row, rfl⟩
  constructor
  · intro id log hlog
    cases hlog
  · rintro id row - ⟨source, hsource, -⟩
    obtain ⟨other, hother⟩ := hversioned hsource
    cases hother
  · refine List.pairwise_map.mpr (List.pairwise_of_forall ?_)
    intro first second source source' hfirst
    cases hfirst
  · intro source hsource
    obtain ⟨other, hother⟩ := hversioned hsource
    cases hother
  · intro id version maxAttempts hfailed
    obtain ⟨other, hother⟩ := hversioned hfailed
    cases hother

end BrainCore.Canonical
