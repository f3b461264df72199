import BrainCore.Canonical.Worker

/-!
# What a projector commits

The tables after some writes, and what a commit may do to them: other
components version a row, a projection puts the rows of its upserts and logs the
version it read, a failure is logged for the version it read, and a replay
releases rows of the log as they are.
-/

namespace BrainCore.Canonical

open BrainCore.Foundation BrainCore.Raw

/-! ## The tables after some writes -/

section View

variable (db : ProjectorDb) (writes : List ProjectorWrite)

theorem rawParsed_view : (projectorStore.view db writes).rawParsed =
    (writes.filterMap ProjectorWrite.parsed?).foldl Table.put db.rawParsed := by
  induction writes generalizing db with
  | nil => rfl
  | cons w rest ih => cases w <;> exact ih _

theorem projectionLog_view : (projectorStore.view db writes).projectionLog =
    (writes.filterMap ProjectorWrite.log?).foldl Table.put db.projectionLog := by
  induction writes generalizing db with
  | nil => rfl
  | cons w rest ih => cases w <;> exact ih _

theorem canonical_view : (projectorStore.view db writes).canonical =
    (writes.filterMap ProjectorWrite.canonical?).foldl Table.put db.canonical := by
  induction writes generalizing db with
  | nil => rfl
  | cons w rest ih => cases w <;> exact ih _

theorem events_view : (projectorStore.view db writes).events =
    db.events ++ writes.filterMap ProjectorWrite.event? := by
  induction writes generalizing db with
  | nil => exact (List.append_nil _).symm
  | cons w rest ih =>
      refine (ih _).trans ?_
      cases w <;>
        simp [projectorStore, ProjectorWrite.apply, ProjectorWrite.event?, List.filterMap_cons]

/-- The last canonical row of a key among some writes. -/
def written (k : CanonicalKey) : Option CanonicalRow :=
  Table.latest CanonicalRow.key (writes.filterMap ProjectorWrite.canonical?) k

theorem find?_canonical (k : CanonicalKey) : (projectorStore.view db writes).canonical.find? k =
    (written writes k).or (db.canonical.find? k) := by
  rw [canonical_view, Table.find?_foldl_put]
  rfl

theorem find?_rawParsed (id : String) : (projectorStore.view db writes).rawParsed.find? id =
    (Table.latest RawParsedRow.id (writes.filterMap ProjectorWrite.parsed?) id).or
      (db.rawParsed.find? id) := by
  rw [rawParsed_view, Table.find?_foldl_put]

theorem find?_projectionLog (id : String) :
    (projectorStore.view db writes).projectionLog.find? id =
      (Table.latest ProjectionLogRow.rawParsedId (writes.filterMap ProjectorWrite.log?) id).or
        (db.projectionLog.find? id) := by
  rw [projectionLog_view, Table.find?_foldl_put]

end View

theorem written_append (first second : List ProjectorWrite) (k : CanonicalKey) :
    written (first ++ second) k = (written second k).or (written first k) := by
  rw [written, List.filterMap_append, Table.latest_append]
  rfl

theorem written_canonical (row : CanonicalRow) (k : CanonicalKey) :
    written [.canonical row] k = if row.key = k then some row else none := by
  simp [written, ProjectorWrite.canonical?, Table.latest]

theorem mem_of_written {writes : List ProjectorWrite} {k : CanonicalKey} {row : CanonicalRow}
    (h : written writes k = some row) : .canonical row ∈ writes ∧ row.key = k := by
  obtain ⟨hmem, hkey⟩ := Table.mem_of_latest h
  obtain ⟨w, hw, hrow⟩ := List.mem_filterMap.mp hmem
  cases w with
  | canonical other =>
      cases hrow
      exact ⟨hw, hkey⟩
  | parsed row => cases hrow
  | projected row log => cases hrow
  | failed version maxAttempts log => cases hrow
  | replayed log => cases hrow

/-! ## What other commits leave alone -/

/-- No other commit writes a canonical row of a key that the transaction has written. -/
theorem written_of_free {own theirs : List ProjectorWrite} {row : CanonicalRow}
    (hfree : Free projectorStore theirs own) (hmem : .canonical row ∈ own) :
    written theirs row.key = none := by
  cases h : written theirs row.key with
  | none => rfl
  | some other =>
      obtain ⟨hother, hkey⟩ := mem_of_written h
      have hclash := hfree _ hother _ hmem
      simp [projectorStore, ProjectorWrite.clash, ProjectorWrite.sameKey, ProjectorWrite.canonical?,
        hkey] at hclash

/-- No other commit writes a row of the log that the transaction has written. -/
theorem find?_log_of_free (db : ProjectorDb) {own theirs : List ProjectorWrite}
    {w : ProjectorWrite} {log : ProjectionLogRow} (hfree : Free projectorStore theirs own)
    (hmem : w ∈ own) (hlog : w.log? = some log) :
    (projectorStore.view db theirs).projectionLog.find? log.rawParsedId =
      db.projectionLog.find? log.rawParsedId := by
  have hnone : Table.latest ProjectionLogRow.rawParsedId (theirs.filterMap ProjectorWrite.log?)
      log.rawParsedId = none := by
    apply Table.latest_none_iff.mpr
    intro other hother hid
    obtain ⟨w', hw', hlog'⟩ := List.mem_filterMap.mp hother
    have hclash := hfree w' hw' w hmem
    simp [projectorStore, ProjectorWrite.clash, ProjectorWrite.sameKey, hlog, hlog', hid] at hclash
  rw [find?_projectionLog, hnone, Option.none_or]

theorem ProjectorWrite.clash_symm (first second : ProjectorWrite) :
    first.clash second = second.clash first := by
  have hsame : ∀ {κ ρ : Type} [DecidableEq κ] (key : ρ → κ) (first second : Option ρ),
      sameKey key first second = sameKey key second first := by
    intro κ ρ _ key first second
    cases first with
    | none =>
        cases second with
        | none => rfl
        | some row => rfl
    | some row =>
        cases second with
        | none => rfl
        | some other => simp [sameKey, eq_comm]
  unfold clash
  rw [hsame RawParsedRow.id, hsame ProjectionLogRow.rawParsedId, hsame CanonicalRow.key,
    hsame fun row : CanonicalRow => (row.key.table, row.id)]

/-! ## What a projection puts -/

/-- The passes of a cycle, one for each parser. -/
def passes (projectors : Projectors) : List Pass :=
  mergePass projectors :: docPass projectors :: CONNECTOR_LEDGER_PASSES projectors

/-- The upserts of a row: what the pass of its parser makes of its payload. -/
def inputsOf (projectors : Projectors) (row : RawParsedRow) :
    Except ProjectionError (List CanonicalUpsert) :=
  ((passes projectors).find? fun pass => row.parser = pass.parser).elim (.ok []) fun pass =>
    pass.project row

theorem passes_parsers (projectors : Projectors) : (passes projectors).map Pass.parser =
    ["merge_accounting_v1", "doc_obligation_v1", "plaid_tx_v1", "stripe_v1", "finch_payroll_v1",
      "bank_statement_upload_v1", "document_records_upload_v1", "customer_asserted_csv_v1"] := rfl

theorem inputsOf_eq {projectors : Projectors} {pass : Pass} (hpass : pass ∈ passes projectors)
    {row : RawParsedRow} (hparser : row.parser = pass.parser) :
    inputsOf projectors row = pass.project row := by
  have hdistinct : ((passes projectors).map Pass.parser).Nodup := by
    rw [passes_parsers]
    decide
  have hfind : (passes projectors).find? (fun other => row.parser = other.parser) = some pass := by
    rw [List.find?_eq_some_iff_append]
    refine ⟨decide_eq_true hparser, ?_⟩
    obtain ⟨before, after, hsplit⟩ := List.append_of_mem hpass
    refine ⟨before, after, hsplit, fun other hother => ?_⟩
    rw [Bool.not_eq_true', decide_eq_false_iff_not, hparser]
    intro hsame
    rw [hsplit, List.map_append, List.map_cons, List.nodup_append] at hdistinct
    exact hdistinct.2.2 other.parser (List.mem_map_of_mem hother) pass.parser List.mem_cons_self
      hsame.symm
  rw [inputsOf, hfind]
  rfl

/-- The row is as the upsert has it. -/
structure CanonicalUpsert.Gives (input : CanonicalUpsert) (tenantId : String)
    (row : CanonicalRow) : Prop where
  key : row.key = input.key tenantId
  columns : row.columns = input.columns
  common : row.common = input.common
  references : row.references.map ResolvedReference.toCanonicalReference = input.references

/-- The last upsert of a key. -/
def lastInput (inputs : List CanonicalUpsert) (tenantId : String) (k : CanonicalKey) :
    Option CanonicalUpsert :=
  Table.latest (fun input => input.key tenantId) inputs k

theorem lastInput_append (done : List CanonicalUpsert) (input : CanonicalUpsert)
    (tenantId : String) (k : CanonicalKey) :
    lastInput (done ++ [input]) tenantId k =
      if input.key tenantId = k then some input else lastInput done tenantId k := by
  rw [lastInput, Table.latest_append]
  by_cases hkey : input.key tenantId = k <;> simp [Table.latest, lastInput, hkey]

/-- The row stands in for a counterparty that a customer's file refers to. -/
def StandsIn (projectors : Projectors) (inputs : List CanonicalUpsert) (tenantId : String)
    (row : CanonicalRow) : Prop :=
  ∃ input ∈ inputs, input.sourceSystem = CUSTOMER_ASSERTED_CSV_SOURCE ∧
    ∃ reference ∈ input.references, ∃ sourceKey, reference.sourceKey = some sourceKey ∧
      (placeholderOf projectors.placeholderColumns input sourceKey).Gives tenantId row

/-- The key of the row that a stored reference is to. -/
def CanonicalRow.target (row : CanonicalRow) (reference : ResolvedReference) :
    Option CanonicalKey :=
  reference.sourceKey.map fun sourceKey =>
    ⟨reference.table, row.key.tenantId, row.key.sourceSystem, sourceKey⟩

/-- There is a row of the key, with this id. -/
def Present (db : ProjectorDb) (k : CanonicalKey) (id : String) : Prop :=
  ∃ row, db.canonical.find? k = some row ∧ row.id = id

/-- Every id in a reference of the row is that of the row it is to. -/
def ResolvedIn (db : ProjectorDb) (row : CanonicalRow) : Prop :=
  ∀ reference ∈ row.references, ∀ id, reference.id = some id →
    ∃ k, row.target reference = some k ∧ Present db k id

/-- The writes put the rows of the upserts: of each key what its last upsert gives, and besides
these only rows that stand in for others. -/
structure Puts (projectors : Projectors) (inputs done : List CanonicalUpsert) (tenantId : String)
    (db : ProjectorDb) (writes : List ProjectorWrite) : Prop where
  canonical : ∀ w ∈ writes, ∃ row, w = .canonical row
  given : ∀ k input, lastInput done tenantId k = some input →
    ∃ row, written writes k = some row ∧ input.Gives tenantId row
  standing : ∀ k row, lastInput done tenantId k = none → written writes k = some row →
    StandsIn projectors inputs tenantId row
  ids : ∀ k row old, written writes k = some row → db.canonical.find? k = some old →
    row.id = old.id
  resolved : ∀ k row, written writes k = some row →
    ResolvedIn (projectorStore.view db writes) row

/-! ## What a commit may do -/

inductive ProjectorCommit (projectors : Projectors) (db : ProjectorDb) :
    List ProjectorWrite → Prop where
  | quiet : ProjectorCommit projectors db []
  | versioned (row : RawParsedRow) (new : isNewVersion db row = true) :
      ProjectorCommit projectors db [.parsed row]
  | projected (row : RawParsedRow) (labels : LogLabels) (recordsWritten now : Nat)
      (inputs : List CanonicalUpsert) (writes : List ProjectorWrite)
      (polled : .versioned row ∈ db.events) (projects : inputsOf projectors row = .ok inputs)
      (puts : Puts projectors inputs inputs row.tenantId db writes) :
      ProjectorCommit projectors db (writes ++ [.projected row
        (projectedLog labels row recordsWritten now (db.projectionLog.find? row.id))])
  | failed (row : RawParsedRow) (labels : LogLabels) (message : String) (maxAttempts now : Nat)
      (polled : .versioned row ∈ db.events) :
      ProjectorCommit projectors db [.failed row.extractedAt maxAttempts
        (failedLog labels row message maxAttempts now (db.projectionLog.find? row.id))]
  | replayed (writes : List ProjectorWrite)
      (released : ∀ w ∈ writes, ∃ log, db.projectionLog.find? log.rawParsedId = some log ∧
        w = .replayed { log with quarantined := false, attempts := 0 }) :
      ProjectorCommit projectors db writes

/-- A row that is there keeps its id. -/
theorem ProjectorCommit.present {projectors : Projectors} {db : ProjectorDb}
    {writes : List ProjectorWrite} (h : ProjectorCommit projectors db writes) {k : CanonicalKey}
    {id : String} (hpresent : Present db k id) :
    Present (projectorStore.view db writes) k id := by
  obtain ⟨old, hold, rfl⟩ := hpresent
  rw [Present, find?_canonical]
  cases hwritten : written writes k with
  | none => exact ⟨old, hold, rfl⟩
  | some row =>
      refine ⟨row, rfl, ?_⟩
      cases h with
      | quiet => cases hwritten
      | versioned other new => cases hwritten
      | failed other labels message maxAttempts now polled => cases hwritten
      | projected other labels recordsWritten now inputs puts polled projects hputs =>
          have hlast : written (puts ++ [.projected other (projectedLog labels other recordsWritten
              now (db.projectionLog.find? other.id))]) k = written puts k := by
            rw [written_append]
            rfl
          exact hputs.ids k row old (hlast ▸ hwritten) hold
      | replayed writes released =>
          obtain ⟨hmem, -⟩ := mem_of_written hwritten
          obtain ⟨log, -, hlog⟩ := released _ hmem
          cases hlog

/-! ## What holds between commits -/

/-- An upsert of the row has the key. -/
def Contains (projectors : Projectors) (source : RawParsedRow) (k : CanonicalKey) : Prop :=
  ∃ inputs, inputsOf projectors source = .ok inputs ∧
    (lastInput inputs source.tenantId k).isSome = true

/-- The row is what the source gives for its key, or stands in for what no upsert of it gives. -/
def GivenBy (projectors : Projectors) (source : RawParsedRow) (row : CanonicalRow) : Prop :=
  ∃ inputs, inputsOf projectors source = .ok inputs ∧
    ((∃ input, lastInput inputs source.tenantId row.key = some input ∧
        input.Gives source.tenantId row) ∨
      lastInput inputs source.tenantId row.key = none ∧
        StandsIn projectors inputs source.tenantId row)

/-- A source gave the row and no source projected after it contains its key. -/
def LastProjected (projectors : Projectors) (events : List ProjectionEvent) (row : CanonicalRow) :
    Prop :=
  ∃ before source after, events = before ++ .projected source :: after ∧
    GivenBy projectors source row ∧
    ∀ later, .projected later ∈ after → ¬Contains projectors later row.key

/-- Each row of `raw_parsed` is recorded with its version. -/
def Recorded (db : ProjectorDb) : Prop :=
  ∀ id row, db.rawParsed.find? id = some row → .versioned row ∈ db.events

structure Faithful (projectors : Projectors) (db : ProjectorDb) : Prop where
  recorded : Recorded db
  lastProjected : ∀ k row, db.canonical.find? k = some row →
    LastProjected projectors db.events row
  resolved : ∀ k row, db.canonical.find? k = some row → ResolvedIn db row
  /-- Every key of a source that was projected has a row. -/
  contained : ∀ source k, .projected source ∈ db.events → Contains projectors source k →
    ∃ id, Present db k id

variable {projectors : Projectors} {db : ProjectorDb} {writes : List ProjectorWrite}

theorem LastProjected.append {events more : List ProjectionEvent} {row : CanonicalRow}
    (h : LastProjected projectors events row)
    (hmore : ∀ later, .projected later ∈ more → ¬Contains projectors later row.key) :
    LastProjected projectors (events ++ more) row := by
  obtain ⟨before, source, after, rfl, hgiven, hafter⟩ := h
  refine ⟨before, source, after ++ more, by simp, hgiven, fun later hlater => ?_⟩
  rcases List.mem_append.mp hlater with hlater | hlater
  · exact hafter later hlater
  · exact hmore later hlater

theorem ProjectorCommit.resolvedIn (h : ProjectorCommit projectors db writes) {row : CanonicalRow}
    (hrow : ResolvedIn db row) : ResolvedIn (projectorStore.view db writes) row := by
  intro reference hreference id hid
  obtain ⟨k, hk, hpresent⟩ := hrow reference hreference id hid
  exact ⟨k, hk, h.present hpresent⟩

theorem mem_events_view {event : ProjectionEvent} (hevent : event ∈ db.events) :
    event ∈ (projectorStore.view db writes).events := by
  rw [events_view]
  exact List.mem_append_left _ hevent

theorem recorded_view (hdb : Recorded db) : Recorded (projectorStore.view db writes) := by
  intro id row hrow
  rw [find?_rawParsed] at hrow
  rw [events_view]
  cases hlatest : Table.latest RawParsedRow.id (writes.filterMap ProjectorWrite.parsed?) id with
  | none =>
      rw [hlatest, Option.none_or] at hrow
      exact List.mem_append_left _ (hdb id row hrow)
  | some other =>
      rw [hlatest] at hrow
      cases hrow
      obtain ⟨w, hw, hparsed⟩ := List.mem_filterMap.mp (Table.mem_of_latest hlatest).1
      refine List.mem_append_right _ (List.mem_filterMap.mpr ⟨w, hw, ?_⟩)
      cases w with
      | parsed row =>
          cases hparsed
          rfl
      | canonical row => cases hparsed
      | projected row log => cases hparsed
      | failed version maxAttempts log => cases hparsed
      | replayed log => cases hparsed

/-- A commit that puts no canonical row and is not that of a projection. -/
theorem faithful_of_unwritten (hdb : Faithful projectors db)
    (hcommit : ProjectorCommit projectors db writes) (hwritten : ∀ k, written writes k = none)
    (hprojected : ∀ row, ProjectionEvent.projected row ∉ writes.filterMap ProjectorWrite.event?) :
    Faithful projectors (projectorStore.view db writes) := by
  have hfind : ∀ k, (projectorStore.view db writes).canonical.find? k = db.canonical.find? k := by
    intro k
    rw [find?_canonical, hwritten, Option.none_or]
  refine ⟨recorded_view hdb.recorded, fun k row hrow => ?_, fun k row hrow => ?_,
    fun source k hsource hcontains => ?_⟩
  · rw [hfind] at hrow
    rw [events_view]
    exact (hdb.lastProjected k row hrow).append fun later hlater => absurd hlater (hprojected later)
  · rw [hfind] at hrow
    exact hcommit.resolvedIn (hdb.resolved k row hrow)
  · rw [events_view] at hsource
    rcases List.mem_append.mp hsource with hsource | hsource
    · obtain ⟨id, hpresent⟩ := hdb.contained source k hsource hcontains
      exact ⟨id, hcommit.present hpresent⟩
    · exact absurd hsource (hprojected source)

/-- The commit of a projection: what it puts is last projected by its source, and it contains no
key of a row that it leaves. -/
theorem faithful_of_projected (hdb : Faithful projectors db) {source : RawParsedRow}
    {inputs : List CanonicalUpsert} {puts : List ProjectorWrite} {log : ProjectionLogRow}
    (hcommit : ProjectorCommit projectors db (puts ++ [.projected source log]))
    (projects : inputsOf projectors source = .ok inputs)
    (hputs : Puts projectors inputs inputs source.tenantId db puts) :
    Faithful projectors (projectorStore.view db (puts ++ [.projected source log])) := by
  have hwritten : ∀ k, written (puts ++ [ProjectorWrite.projected source log]) k = written puts k := by
    intro k
    rw [written_append]
    rfl
  have hview : ∀ k,
      (projectorStore.view db (puts ++ [.projected source log])).canonical.find? k =
      (projectorStore.view db puts).canonical.find? k := by
    intro k
    rw [find?_canonical, find?_canonical, hwritten]
  have hevents : (puts ++ [ProjectorWrite.projected source log]).filterMap ProjectorWrite.event? =
      [.projected source] := by
    have hnone : puts.filterMap ProjectorWrite.event? = [] := by
      rw [List.filterMap_eq_nil_iff]
      intro w hw
      obtain ⟨row, rfl⟩ := hputs.canonical w hw
      rfl
    rw [List.filterMap_append, hnone]
    rfl
  refine ⟨recorded_view hdb.recorded, fun k row hrow => ?_, fun k row hrow => ?_,
    fun earlier k hearlier hcontains => ?_⟩
  · rw [find?_canonical, hwritten] at hrow
    rw [events_view, hevents]
    cases hput : written puts k with
    | some put =>
        rw [hput] at hrow
        cases hrow
        obtain rfl := (mem_of_written hput).2
        refine ⟨db.events, source, [], rfl, ⟨inputs, projects, ?_⟩, fun later hlater => ?_⟩
        · cases hlast : lastInput inputs source.tenantId row.key with
          | some input =>
              obtain ⟨other, hother, hgives⟩ := hputs.given _ _ hlast
              obtain rfl := Option.some.inj (hput.symm.trans hother)
              exact .inl ⟨input, rfl, hgives⟩
          | none => exact .inr ⟨rfl, hputs.standing _ _ hlast hput⟩
        · cases hlater
    | none =>
        rw [hput, Option.none_or] at hrow
        refine (hdb.lastProjected k row hrow).append fun later hlater => ?_
        obtain rfl := (Table.find?_eq_some_iff.mp hrow).2
        rintro ⟨inputs', hinputs', hcontains⟩
        cases List.mem_singleton.mp hlater
        rw [projects] at hinputs'
        cases hinputs'
        obtain ⟨input, hinput⟩ := Option.isSome_iff_exists.mp hcontains
        obtain ⟨put, hput', -⟩ := hputs.given _ _ hinput
        rw [hput] at hput'
        cases hput'
  · rw [hview] at hrow
    rw [find?_canonical] at hrow
    have hresolved : ResolvedIn (projectorStore.view db puts) row →
        ResolvedIn (projectorStore.view db (puts ++ [.projected source log])) row := by
      intro h reference hreference id hid
      obtain ⟨target, htarget, other, hother, hsame⟩ := h reference hreference id hid
      exact ⟨target, htarget, other, (hview target).trans hother, hsame⟩
    cases hput : written puts k with
    | some put =>
        rw [hput] at hrow
        cases hrow
        exact hresolved (hputs.resolved k row hput)
    | none =>
        rw [hput, Option.none_or] at hrow
        exact hcommit.resolvedIn (hdb.resolved k row hrow)
  · rw [events_view, hevents] at hearlier
    rcases List.mem_append.mp hearlier with hearlier | hearlier
    · obtain ⟨id, hpresent⟩ := hdb.contained earlier k hearlier hcontains
      exact ⟨id, hcommit.present hpresent⟩
    · obtain rfl := ProjectionEvent.projected.inj (List.mem_singleton.mp hearlier)
      obtain ⟨inputs', hinputs', hlast⟩ := hcontains
      obtain rfl := Except.ok.inj (projects.symm.trans hinputs')
      obtain ⟨input, hinput⟩ := Option.isSome_iff_exists.mp hlast
      obtain ⟨put, hput, -⟩ := hputs.given k input hinput
      refine ⟨put.id, put, ?_, rfl⟩
      rw [find?_canonical, hwritten, hput]
      rfl

theorem Faithful.keeps (hdb : Faithful projectors db)
    (hcommit : ProjectorCommit projectors db writes) :
    Faithful projectors (projectorStore.view db writes) := by
  have hcommit' := hcommit
  cases hcommit with
  | quiet => exact hdb
  | versioned row new =>
      refine faithful_of_unwritten hdb hcommit' (fun k => rfl) fun other hother => ?_
      simp [ProjectorWrite.event?] at hother
  | failed row labels message maxAttempts now polled =>
      refine faithful_of_unwritten hdb hcommit' (fun k => rfl) fun other hother => ?_
      simp [ProjectorWrite.event?] at hother
  | replayed writes released =>
      refine faithful_of_unwritten hdb hcommit' (fun k => ?_) fun other hother => ?_
      · cases hwritten : written writes k with
        | none => rfl
        | some row =>
            obtain ⟨log, -, hlog⟩ := released _ (mem_of_written hwritten).1
            cases hlog
      · obtain ⟨w, hw, hevent⟩ := List.mem_filterMap.mp hother
        obtain ⟨log, -, rfl⟩ := released w hw
        cases hevent
  | projected source labels recordsWritten now inputs puts polled projects hputs =>
      exact faithful_of_projected hdb hcommit' projects hputs

/-- What cycles, replays and other components keep to. -/
def projecting (projectors : Projectors) : Discipline projectorStore where
  invariant := Faithful projectors
  permits := ProjectorCommit projectors
  keeps := fun _ _ => Faithful.keeps

end BrainCore.Canonical
