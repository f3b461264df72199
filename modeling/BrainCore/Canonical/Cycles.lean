import BrainCore.Canonical.Projection

/-!
# Cycles and replays

A cycle works on what its polls gave, and each of its transactions is a
projection of a version that was polled or the record of a failure of one.  A
replay releases rows of the log as it finds them.
-/

namespace BrainCore.Canonical

open BrainCore.Foundation BrainCore.Raw

variable {projectors : Projectors}

/-! ## Polled rows -/

/-- The versions of the rows are those that `raw_parsed` has or had. -/
def Polled (rows : List RawParsedRow) (db : ProjectorDb) : Prop :=
  ∀ row ∈ rows, .versioned row ∈ db.events

theorem polled_lasting (rows : List RawParsedRow) :
    (projecting projectors).Lasting (Polled rows) :=
  fun _ _ _ h _ row hrow => mem_events_view (h row hrow)

theorem Polled.tail {row : RawParsedRow} {rest : List RawParsedRow} {db : ProjectorDb}
    (h : Polled (row :: rest) db) : Polled rest db :=
  fun other hother => h other (List.mem_cons_of_mem _ hother)

theorem mem_pending {pass : Pass} {options : ProjectionWorkerOptions} {db : ProjectorDb}
    {row : RawParsedRow} (h : row ∈ pass.pending options db) :
    row ∈ db.rawParsed.rows ∧ pass.selects options db row = true :=
  List.mem_filter.mp ((List.mem_insertionSort _).mp (List.mem_of_mem_take h))

theorem parser_of_selects {pass : Pass} {options : ProjectionWorkerOptions} {db : ProjectorDb}
    {row : RawParsedRow} (h : pass.selects options db row = true) : row.parser = pass.parser := by
  simp only [Pass.selects, Bool.and_eq_true, decide_eq_true_eq] at h
  exact h.1.1.1

theorem sound_poll (pass : Pass) (options : ProjectionWorkerOptions) :
    (projecting projectors).Sound (fun _ => True) (poll pass options) fun found db =>
      ∀ rows, found = some rows → (∀ row ∈ rows, row.parser = pass.parser) ∧ Polled rows db := by
  have hlasting : ∀ found : Option (List RawParsedRow), (projecting projectors).Lasting fun db =>
      ∀ rows, found = some rows → (∀ row ∈ rows, row.parser = pass.parser) ∧ Polled rows db :=
    fun found db writes hdb h hcommit rows hrows =>
      ⟨(h rows hrows).1, polled_lasting rows db writes hdb (h rows hrows).2 hcommit⟩
  refine Discipline.Sound.tryCatch Discipline.lasting_true
    (Discipline.Sound.transact Discipline.lasting_true hlasting ?_) fun _ => ?_
  · have hread : (projecting projectors).Triple (fun db own => True ∧ own = [])
        (Program.select (ε := ProjectionError) fun db => some (pass.pending options db))
        fun found db own => own = [] ∧ ∀ rows, found = some rows →
          (∀ row ∈ rows, row.parser = pass.parser) ∧ Polled rows db := by
      apply Discipline.Triple.select
      · exact fun found => (Discipline.stable_own fun own => own = []).and (hlasting found).stable
      · rintro db own hdb ⟨-, rfl⟩
        refine ⟨rfl, fun rows hrows => ?_⟩
        cases hrows
        refine ⟨fun row hrow => parser_of_selects (mem_pending hrow).2, fun row hrow => ?_⟩
        exact hdb.recorded row.id row (Table.find?_key (mem_pending hrow).1)
    refine hread.mono ?_
    rintro found db own - ⟨rfl, hfound⟩
    exact ⟨.quiet, hfound⟩
  · apply Discipline.Sound.pure
    intro db _ _ rows hrows
    cases hrows

/-! ## Failures -/

/-- A failure of the version is logged. -/
structure Failure (row : RawParsedRow) (labels : LogLabels) (message : String)
    (maxAttempts now : Nat) (db : ProjectorDb) (own : List ProjectorWrite) : Prop where
  only : own = [.failed row.extractedAt maxAttempts
    (failedLog labels row message maxAttempts now (db.projectionLog.find? row.id))]

theorem failure_stable (row : RawParsedRow) (labels : LogLabels) (message : String)
    (maxAttempts now : Nat) :
    (projecting projectors).Stable (Failure row labels message maxAttempts now) := by
  rintro db own theirs - ⟨rfl⟩ - hfree
  have hlog : (projectorStore.view db theirs).projectionLog.find? row.id =
      db.projectionLog.find? row.id :=
    find?_log_of_free db hfree (List.mem_singleton_self _) rfl
  exact ⟨by rw [hlog]⟩

theorem commits_recordFailure (row : RawParsedRow) (labels : LogLabels) (message : String)
    (maxAttempts now : Nat) :
    (projecting projectors).Commits (Polled [row])
      (recordFailure labels row message maxAttempts now) fun _ => Polled [row] := by
  have hrecord : (projecting projectors).Triple (fun db own => Polled [row] db ∧ own = [])
      (recordFailure labels row message maxAttempts now)
      fun _ db own => Polled [row] db ∧ Failure row labels message maxAttempts now db own := by
    apply Discipline.Triple.execute
    · exact fun _ => (polled_lasting [row]).stable.and
        (failure_stable row labels message maxAttempts now)
    · rintro db own new log - ⟨hpolled, rfl⟩ hrun
      cases hrun
      exact ⟨hpolled, ⟨rfl⟩⟩
  refine hrecord.mono ?_
  rintro log db own hdb ⟨hpolled, hfailure⟩
  have hcommit : ProjectorCommit projectors db own := by
    rw [hfailure.only]
    exact .failed row labels message maxAttempts now (hpolled row List.mem_cons_self)
  exact ⟨hcommit, polled_lasting [row] db own hdb hpolled hcommit⟩

theorem sound_handleProjectionFailure (pass : Pass) (row : RawParsedRow) (maxAttempts : Nat)
    (error : ProjectionError) :
    (projecting projectors).Sound (Polled [row])
      (handleProjectionFailure pass row maxAttempts error) fun _ _ => True := by
  refine Discipline.Sound.tryCatch (polled_lasting [row]) ?_
    fun _ => Discipline.Sound.pure fun _ _ _ => trivial
  refine Discipline.Sound.bind (Discipline.Sound.ask _) fun env => ?_
  refine Discipline.Sound.bind (Discipline.Sound.transact (polled_lasting [row])
    (fun _ => polled_lasting [row])
    (commits_recordFailure row (pass.labels row) error.message maxAttempts env.now)) fun _ => ?_
  exact Discipline.Sound.pure fun _ _ _ => trivial

/-! ## Projections -/

theorem commits_projectTransaction {pass : Pass} (hpass : pass ∈ passes projectors)
    {row : RawParsedRow} (hparser : row.parser = pass.parser) (env : ProjectorEnvironment) :
    (projecting projectors).Commits (Polled [row]) (projectTransaction projectors pass row env)
      fun _ _ => True := by
  have hprojection : (projecting projectors).Triple
      (fun db own => Polled [row] db ∧ (∀ k, False → ∃ id, Present db k id) ∧ own = [])
      (projectTransaction projectors pass row env)
      fun _ db own => Polled [row] db ∧ Projection projectors row (fun _ => False) db own :=
    Discipline.Triple.frame (polled_lasting [row])
      (triple_projectTransaction hpass hparser env)
  refine (hprojection.weaken ?_).mono ?_
  · exact fun db own _ h => ⟨h.1, fun _ hfalse => hfalse.elim, h.2⟩
  · exact fun _ db own _ h => ⟨h.2.commit (h.1 row List.mem_cons_self), trivial⟩

theorem sound_emitAudit (action : String) (row : RawParsedRow) (know : ProjectorDb → Prop) :
    (projecting projectors).Sound know (emitAudit action row) fun _ => know :=
  Discipline.Sound.callOut _

theorem sound_projectRow {pass : Pass} (hpass : pass ∈ passes projectors) {row : RawParsedRow}
    (hparser : row.parser = pass.parser) (maxAttempts : Nat) :
    (projecting projectors).Sound (Polled [row]) (projectRow projectors pass maxAttempts row)
      fun _ _ => True := by
  refine Discipline.Sound.tryCatch (polled_lasting [row]) ?_
    fun error => sound_handleProjectionFailure pass row maxAttempts error
  refine Discipline.Sound.bind (Discipline.Sound.ask _) fun env => ?_
  refine Discipline.Sound.bind (Discipline.Sound.transact (polled_lasting [row])
    (fun _ => Discipline.lasting_true) (commits_projectTransaction hpass hparser env))
    fun written => ?_
  refine Discipline.Sound.bind (sound_emitAudit "canonical.projected" row _) fun _ => ?_
  split
  · exact Discipline.Sound.callOut _
  · exact Discipline.Sound.pure fun _ _ _ => trivial

theorem sound_projectRows {pass : Pass} (hpass : pass ∈ passes projectors) (maxAttempts : Nat)
    {rows : List RawParsedRow} (hparser : ∀ row ∈ rows, row.parser = pass.parser) :
    (projecting projectors).Sound (Polled rows) (projectRows projectors pass maxAttempts rows)
      fun _ _ => True := by
  induction rows with
  | nil => exact Discipline.Sound.pure fun _ _ _ => trivial
  | cons row rest ih =>
      have hrow := Discipline.Sound.frame (polled_lasting rest)
        (sound_projectRow hpass (hparser row List.mem_cons_self) maxAttempts)
      refine Discipline.Sound.bind (Discipline.Sound.weaken hrow ?_) fun _ => ?_
      · refine fun db _ h => ⟨h.tail, fun other hother => ?_⟩
        exact h other (List.mem_singleton.mp hother ▸ List.mem_cons_self)
      · exact Discipline.Sound.weaken (ih fun other hother =>
          hparser other (List.mem_cons_of_mem _ hother)) fun _ _ h => h.1

/-- What follows a poll. -/
theorem sound_polled {pass : Pass} (hpass : pass ∈ passes projectors)
    (options : ProjectionWorkerOptions) (found : Option (List RawParsedRow)) :
    (projecting projectors).Sound
      (fun db => ∀ rows, found = some rows →
        (∀ row ∈ rows, row.parser = pass.parser) ∧ Polled rows db)
      (match found with
        | none => pure ()
        | some rows => projectRows projectors pass options.maxAttempts rows)
      fun _ _ => True := by
  cases found with
  | none => exact Discipline.Sound.pure fun _ _ _ => trivial
  | some rows =>
      have hrows : (projecting projectors).Sound
          (fun db => (∀ row ∈ rows, row.parser = pass.parser) ∧ Polled rows db)
          (projectRows projectors pass options.maxAttempts rows) fun _ _ => True :=
        Discipline.Sound.assume fun hparser => sound_projectRows hpass options.maxAttempts hparser
      exact Discipline.Sound.weaken hrows fun _ _ h => h rows rfl

theorem sound_runPass {pass : Pass} (hpass : pass ∈ passes projectors)
    (options : ProjectionWorkerOptions) :
    (projecting projectors).Sound (fun _ => True) (runPass projectors options pass)
      fun _ _ => True :=
  Discipline.Sound.bind (sound_poll pass options) fun found => sound_polled hpass options found

theorem sound_runConnectorLedgerPasses (options : ProjectionWorkerOptions) {rest : List Pass}
    (hrest : ∀ pass ∈ rest, pass ∈ passes projectors) :
    (projecting projectors).Sound (fun _ => True)
      (runConnectorLedgerPasses projectors options rest) fun _ _ => True := by
  induction rest with
  | nil => exact Discipline.Sound.pure fun _ _ _ => trivial
  | cons pass rest ih =>
      refine Discipline.Sound.bind (sound_runPass (hrest pass List.mem_cons_self) options)
        fun _ => ?_
      exact ih fun other hother => hrest other (List.mem_cons_of_mem _ hother)

theorem sound_runProjectionCycle (options : ProjectionWorkerOptions) :
    (projecting projectors).Sound (fun _ => True) (runProjectionCycle projectors options)
      fun _ _ => True := by
  have hmerge : mergePass projectors ∈ passes projectors := List.mem_cons_self
  have hdoc : docPass projectors ∈ passes projectors :=
    List.mem_cons_of_mem _ List.mem_cons_self
  refine Discipline.Sound.bind (sound_poll (mergePass projectors) options) fun found => ?_
  cases found with
  | none => exact Discipline.Sound.pure fun _ _ _ => trivial
  | some rows =>
      refine Discipline.Sound.bind (sound_polled hmerge options (some rows)) fun _ => ?_
      refine Discipline.Sound.bind (sound_runPass hdoc options) fun _ => ?_
      exact sound_runConnectorLedgerPasses options fun pass hpass =>
        List.mem_cons_of_mem _ (List.mem_cons_of_mem _ hpass)

/-! ## Replays -/

/-- Rows of the log are released as they are. -/
structure Releases (db : ProjectorDb) (own : List ProjectorWrite) : Prop where
  released : ∀ w ∈ own, ∃ log, db.projectionLog.find? log.rawParsedId = some log ∧
    w = .replayed { log with quarantined := false, attempts := 0 }

theorem releases_stable : (projecting projectors).Stable Releases := by
  rintro db own theirs - ⟨h⟩ - hfree
  refine ⟨fun w hw => ?_⟩
  obtain ⟨log, hlog, rfl⟩ := h w hw
  exact ⟨log, (find?_log_of_free db hfree hw rfl).trans hlog, rfl⟩

/-- A row that was released before in the same update is released as it was. -/
theorem Releases.find? {db : ProjectorDb} {own : List ProjectorWrite} (h : Releases db own)
    {id : String} {log : ProjectionLogRow}
    (hlog : (projectorStore.view db own).projectionLog.find? id = some log) :
    ∃ stored : ProjectionLogRow, db.projectionLog.find? stored.rawParsedId = some stored ∧
      ({ log with quarantined := false, attempts := 0 } : ProjectionLogRow) =
        { stored with quarantined := false, attempts := 0 } := by
  rw [find?_projectionLog] at hlog
  cases hlatest : Table.latest ProjectionLogRow.rawParsedId (own.filterMap ProjectorWrite.log?)
      id with
  | none =>
      rw [hlatest, Option.none_or] at hlog
      exact ⟨log, Table.find?_key (Table.mem_of_find? hlog), rfl⟩
  | some last =>
      rw [hlatest] at hlog
      obtain rfl := Option.some.inj hlog
      obtain ⟨w, hw, hwritten⟩ := List.mem_filterMap.mp (Table.mem_of_latest hlatest).1
      obtain ⟨stored, hstored, rfl⟩ := h.released w hw
      cases hwritten
      exact ⟨stored, hstored, rfl⟩

theorem triple_releaseEach (ids : List String) :
    (projecting projectors).Triple Releases (releaseEach ids) fun _ => Releases := by
  induction ids with
  | nil => exact Discipline.Triple.done fun _ _ _ h => h
  | cons id rest ih =>
      refine Discipline.Triple.bind (Discipline.Triple.execute (fun _ => releases_stable) ?_)
        fun _ => ih
      intro db own new _ _ h hrun
      refine ⟨fun w hw => ?_⟩
      rcases List.mem_append.mp hw with hw | hw
      · exact h.released w hw
      · split at hrun
        · cases hrun
          cases hw
        · rename_i log hlog
          cases hrun
          obtain ⟨stored, hstored, hsame⟩ := h.find? hlog
          exact ⟨stored, hstored, (List.mem_singleton.mp hw).trans (by rw [hsame])⟩

theorem commits_replayQuarantined (tenantId : Option String) (limit : Nat) :
    (projecting projectors).Commits (fun _ => True) (replayQuarantined tenantId limit)
      fun _ _ => True := by
  have hselect : (projecting projectors).Triple (fun _ own => True ∧ own = [])
      (Program.select (ε := ProjectionError) (quarantinedIds tenantId limit))
      fun _ => Releases := by
    apply Discipline.Triple.select fun _ => releases_stable
    rintro db own - ⟨-, rfl⟩
    refine ⟨fun w hw => ?_⟩
    cases hw
  refine Discipline.Triple.bind hselect fun ids => ?_
  refine Discipline.Triple.bind (triple_releaseEach ids) fun _ => ?_
  exact Discipline.Triple.done fun _ own _ h => ⟨.replayed own h.released, trivial⟩

/-! ## All calls -/

theorem sound_projectorScript (call : ProjectorCall) :
    (projecting projectors).Sound (fun _ => True) (projectorScript projectors call)
      fun _ _ => True := by
  cases call with
  | cycle options => exact sound_runProjectionCycle options
  | replay tenantId limit =>
      refine Discipline.Sound.bind (Discipline.Sound.transact Discipline.lasting_true
        (fun _ => Discipline.lasting_true) (commits_replayQuarantined tenantId limit)) fun _ => ?_
      exact Discipline.Sound.pure fun _ _ _ => trivial

theorem commit_of_othersMay {db : ProjectorDb} {writes : List ProjectorWrite}
    (h : othersMay db writes = true) : ProjectorCommit projectors db writes := by
  unfold othersMay at h
  split at h
  · rename_i row
    exact .versioned row h
  · rw [List.isEmpty_iff] at h
    rw [h]
    exact .quiet

/-- Between any two steps of any calls the canonical rows are as projected. -/
theorem faithful_of_run {db : ProjectorDb} (hdb : Faithful projectors db)
    {labels : List ProjectorLabel} {world : ProjectorWorld}
    (hrun : (projectorMachine projectors).run { committed := db } labels = some world) :
    (projecting projectors).Disciplined world :=
  Discipline.Disciplined.of_run ProjectorWrite.clash_symm
    (fun _ _ _ h => commit_of_othersMay h) hdb
    (fun call _ => ⟨_, sound_projectorScript call⟩) hrun

end BrainCore.Canonical
