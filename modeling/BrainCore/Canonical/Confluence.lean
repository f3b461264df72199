import BrainCore.Canonical.Cycles

/-!
# The last projection of a key

However cycles, failures, retries and replays interleave, a canonical row has
what the payload with its key that was projected last gives.  So the final rows
depend on the order of the projections only through the last one of each key,
and that is the newest payload when those of the key commit in their order.
-/

namespace BrainCore.Canonical

open BrainCore.Foundation BrainCore.Raw BrainCore.Audit

variable {projectors : Projectors} {events events' : List ProjectionEvent} {k : CanonicalKey}
  {source source' : RawParsedRow} {row row' : CanonicalRow}

/-- The payload with the key that was projected last. -/
structure LastSource (projectors : Projectors) (events : List ProjectionEvent) (k : CanonicalKey)
    (source : RawParsedRow) : Prop where
  contains : Contains projectors source k
  last : ∃ before after, events = before ++ .projected source :: after ∧
    ∀ later, .projected later ∈ after → ¬Contains projectors later k

/-- The row has what the payload gives for its key. -/
def ProjectionOf (projectors : Projectors) (source : RawParsedRow) (row : CanonicalRow) : Prop :=
  ∃ inputs input, inputsOf projectors source = .ok inputs ∧
    lastInput inputs source.tenantId row.key = some input ∧ input.Gives source.tenantId row

/-- The row stands in for a counterparty that a customer's file refers to, and no payload with its
key was projected since. -/
structure Placeholder (projectors : Projectors) (events : List ProjectionEvent)
    (row : CanonicalRow) : Prop where
  table : row.key.table = .counterparty
  sourceSystem : row.key.sourceSystem = CUSTOMER_ASSERTED_CSV_SOURCE
  since : ∃ before file after inputs, events = before ++ .projected file :: after ∧
    inputsOf projectors file = .ok inputs ∧ StandsIn projectors inputs file.tenantId row ∧
    ∀ later, .projected later ∈ after → ¬Contains projectors later row.key

/-- The payloads with the key were projected in the order of their `extracted_at`. -/
def InOrder (projectors : Projectors) (k : CanonicalKey) (events : List ProjectionEvent) : Prop :=
  events.Pairwise fun first second => ∀ source source', first = .projected source →
    second = .projected source' → Contains projectors source k →
      Contains projectors source' k → source.extractedAt ≤ source'.extractedAt

/-! ## Last sources -/

theorem append_cons_inj_of_not_mem {α : Type} {before before' after after' : List α} {x x' : α}
    (h : before ++ x :: after = before' ++ x' :: after') (hx : x' ∉ after) (hx' : x ∉ after') :
    x = x' := by
  rcases List.append_eq_append_iff.mp h with ⟨more, rfl, hafter⟩ | ⟨more, rfl, hafter⟩
  · cases more with
    | nil => exact (List.cons.inj hafter).1
    | cons y more =>
        obtain ⟨rfl, rfl⟩ := List.cons.inj hafter
        exact absurd (List.mem_append_right _ List.mem_cons_self) hx
  · cases more with
    | nil => exact (List.cons.inj hafter).1.symm
    | cons y more =>
        obtain ⟨rfl, rfl⟩ := List.cons.inj hafter
        exact absurd (List.mem_append_right _ List.mem_cons_self) hx'

theorem LastSource.unique (h : LastSource projectors events k source)
    (h' : LastSource projectors events k source') : source = source' := by
  obtain ⟨before, after, rfl, hafter⟩ := h.last
  obtain ⟨before', after', hsame, hafter'⟩ := h'.last
  exact ProjectionEvent.projected.inj (append_cons_inj_of_not_mem hsame
    (fun hlater => hafter source' hlater h'.contains)
    fun hlater => hafter' source hlater h.contains)

/-- The last payload is the newest where they come in order. -/
theorem LastSource.newest (h : LastSource projectors events k source)
    (horder : InOrder projectors k events) {other : RawParsedRow}
    (hother : .projected other ∈ events) (hcontains : Contains projectors other k) :
    other.extractedAt ≤ source.extractedAt := by
  obtain ⟨before, after, rfl, hafter⟩ := h.last
  rcases List.mem_append.mp hother with hbefore | hrest
  · exact (List.pairwise_append.mp horder).2.2 _ hbefore _ List.mem_cons_self other source rfl rfl
      hcontains h.contains
  · rcases List.mem_cons.mp hrest with hsame | hlater
    · cases hsame
      exact Nat.le_refl _
    · exact absurd hcontains (hafter other hlater)

/-- A row that was projected last has what its last payload gives, or stands in. -/
theorem LastProjected.cases (h : LastProjected projectors events row) :
    (∃ source, LastSource projectors events row.key source ∧
      ProjectionOf projectors source row) ∨ Placeholder projectors events row := by
  obtain ⟨before, source, after, rfl, ⟨inputs, projects, hgiven⟩, hafter⟩ := h
  obtain ⟨input, hlast, hgives⟩ | ⟨-, hstands⟩ := hgiven
  · left
    refine ⟨source, ⟨⟨inputs, projects, ?_⟩, before, after, rfl, hafter⟩, inputs, input, projects,
      hlast, hgives⟩
    rw [hlast]
    rfl
  · right
    obtain ⟨input, -, hcsv, reference, -, sourceKey, -, hgives⟩ := id hstands
    refine ⟨?_, ?_, before, source, after, inputs, rfl, projects, hstands, hafter⟩
    · rw [hgives.key]
      rfl
    · rw [hgives.key]
      exact hcsv

/-- What one payload gives for a key is one content. -/
theorem ProjectionOf.agree (h : ProjectionOf projectors source row)
    (h' : ProjectionOf projectors source row') (hkey : row.key = row'.key) :
    row.columns = row'.columns ∧ row.common = row'.common ∧
      row.references.map ResolvedReference.toCanonicalReference =
        row'.references.map ResolvedReference.toCanonicalReference := by
  obtain ⟨inputs, input, projects, hlast, hgives⟩ := h
  obtain ⟨inputs', input', projects', hlast', hgives'⟩ := h'
  obtain rfl := Except.ok.inj (projects.symm.trans projects')
  rw [← hkey, hlast] at hlast'
  obtain rfl := Option.some.inj hlast'
  exact ⟨hgives.columns.trans hgives'.columns.symm, hgives.common.trans hgives'.common.symm,
    hgives.references.trans hgives'.references.symm⟩

/-! ## Runs -/

/-- Rows of `raw_parsed` of which nothing is projected yet. -/
def unprojected (rows : Table RawParsedRow.id) : ProjectorDb where
  rawParsed := rows
  projectionLog := .empty
  canonical := .empty
  events := rows.rows.map .versioned

theorem faithful_unprojected (rows : Table RawParsedRow.id) :
    Faithful projectors (unprojected rows) := by
  constructor
  · intro id row hrow
    exact List.mem_map_of_mem (Table.mem_of_find? hrow)
  · intro k row hrow
    cases hrow
  · intro k row hrow
    cases hrow
  · intro source k hsource
    obtain ⟨row, -, hrow⟩ := List.mem_map.mp hsource
    cases hrow

/-- The canonical rows are those of the last projections. -/
structure AsProjected (projectors : Projectors) (db : ProjectorDb) : Prop where
  /-- Every key of a payload that was projected has a row. -/
  contained : ∀ source k, .projected source ∈ db.events → Contains projectors source k →
    ∃ row, db.canonical.find? k = some row
  given : ∀ k row, db.canonical.find? k = some row →
    (∃ source, LastSource projectors db.events k source ∧ ProjectionOf projectors source row) ∨
      Placeholder projectors db.events row
  newest : ∀ k source, LastSource projectors db.events k source →
    InOrder projectors k db.events → ∀ other, .projected other ∈ db.events →
      Contains projectors other k → other.extractedAt ≤ source.extractedAt
  /-- An id in a reference is that of the row it is to. -/
  references : ∀ k row, db.canonical.find? k = some row → ResolvedIn db row

theorem Faithful.asProjected {db : ProjectorDb} (h : Faithful projectors db) :
    AsProjected projectors db := by
  constructor
  · intro source k hsource hcontains
    obtain ⟨id, row, hrow, -⟩ := h.contained source k hsource hcontains
    exact ⟨row, hrow⟩
  · intro k row hrow
    obtain rfl := Table.key_of_find? hrow
    exact (h.lastProjected _ row hrow).cases
  · exact fun k source hlast horder other => hlast.newest horder
  · exact h.resolved

/-- A projection that no other commit interrupts leaves no reference open whose row was there when
it began. -/
def ResolvesKnown (projectors : Projectors) (db : ProjectorDb) : Prop :=
  ∀ pass ∈ passes projectors, ∀ source : RawParsedRow, source.parser = pass.parser →
    ∀ env next written,
      (projectTransaction projectors pass source env).runAlone projectorStore db =
        .ok (next, written) →
      ∀ k row, Contains projectors source k → next.canonical.find? k = some row →
        ∀ reference ∈ row.references, ∀ target, row.target reference = some target →
          (∃ known, db.canonical.find? target = some known) → reference.id ≠ none

theorem Faithful.resolvesKnown {db : ProjectorDb} (h : Faithful projectors db) :
    ResolvesKnown projectors db := by
  intro pass hpass source hparser env next count hrun k row hcontains hrow reference hreference
    target htarget hknown
  have htriple : (projecting projectors).Triple
      (fun db' own => (∀ k, (∃ known, db.canonical.find? k = some known) →
        ∃ id, Present db' k id) ∧ own = [])
      (projectTransaction projectors pass source env)
      fun _ db' own => Projection projectors source
        (fun k => ∃ known, db.canonical.find? k = some known) db' own :=
    triple_projectTransaction hpass hparser env
  have hstart : ∀ k, (∃ known, db.canonical.find? k = some known) → ∃ id, Present db k id := by
    rintro k ⟨known, hknown⟩
    exact ⟨known.id, known, hknown, rfl⟩
  obtain ⟨own, rfl, hprojection⟩ := htriple.alone h ⟨hstart, rfl⟩ hrun
  cases hprojection with
  | intro labels recordsWritten now inputs writes projects progress =>
      obtain ⟨inputs', projects', hlast⟩ := hcontains
      obtain rfl := Except.ok.inj (projects.symm.trans projects')
      obtain ⟨input, hinput⟩ := Option.isSome_iff_exists.mp hlast
      obtain ⟨put, hput, -⟩ := progress.given k input hinput
      have hsame : row = put := by
        rw [find?_canonical, written_append, hput] at hrow
        exact (Option.some.inj hrow).symm
      exact progress.complete k row (hsame ▸ hput) reference hreference target htarget hknown

/-- The two databases have one content of the key. -/
def SameContent (db db' : ProjectorDb) (k : CanonicalKey) : Prop :=
  ∀ row row', db.canonical.find? k = some row → db'.canonical.find? k = some row' →
    row.columns = row'.columns ∧ row.common = row'.common ∧
      row.references.map ResolvedReference.toCanonicalReference =
        row'.references.map ResolvedReference.toCanonicalReference

/-- Two states in which one payload was projected last have one content of the key. -/
theorem AsProjected.sameContent {db db' : ProjectorDb} (h : AsProjected projectors db)
    (h' : AsProjected projectors db')
    (hkey : k.table ≠ .counterparty ∨ k.sourceSystem ≠ CUSTOMER_ASSERTED_CSV_SOURCE)
    (hlast : LastSource projectors db.events k source)
    (hlast' : LastSource projectors db'.events k source) : SameContent db db' k := by
  have hgiven : ∀ {db row}, AsProjected projectors db →
      LastSource projectors db.events k source → db.canonical.find? k = some row →
      ProjectionOf projectors source row := by
    intro db row h hlast hrow
    obtain rfl := Table.key_of_find? hrow
    obtain ⟨other, hother, hprojection⟩ | hplaceholder := h.given _ row hrow
    · exact hlast.unique hother ▸ hprojection
    · rcases hkey with hkey | hkey
      · exact absurd hplaceholder.table hkey
      · exact absurd hplaceholder.sourceSystem hkey
  intro row row' hrow hrow'
  have hsame : row.key = row'.key :=
    (Table.key_of_find? hrow).trans (Table.key_of_find? hrow').symm
  exact (hgiven h hlast hrow).agree (hgiven h' hlast' hrow') hsame

/-- In every run the rows are those of the last projections, and two runs that end with the same
last projection of a key agree on its row. -/
theorem last_projection_of_run {rows rows' : Table RawParsedRow.id}
    {labels labels' : List ProjectorLabel} {world world' : ProjectorWorld}
    (hrun : (projectorMachine projectors).run { committed := unprojected rows } labels =
      some world)
    (hrun' : (projectorMachine projectors).run { committed := unprojected rows' } labels' =
      some world') :
    AsProjected projectors world.committed ∧ ResolvesKnown projectors world.committed ∧
      ∀ k source, k.table ≠ .counterparty ∨ k.sourceSystem ≠ CUSTOMER_ASSERTED_CSV_SOURCE →
        LastSource projectors world.committed.events k source →
        LastSource projectors world'.committed.events k source →
        SameContent world.committed world'.committed k := by
  have h := (faithful_of_run (faithful_unprojected rows) hrun).invariant
  have h' := (faithful_of_run (faithful_unprojected rows') hrun').invariant
  exact ⟨h.asProjected, h.resolvesKnown, fun k source hkey hlast hlast' =>
    h.asProjected.sameContent h'.asProjected hkey hlast hlast'⟩

/-! ## An old page after a new one -/

/-- An account of a chart, by its id and name. -/
def chartAccount (object : Json) (sourceSystem : String) (common : ProjectionCommon) :
    Option CanonicalUpsert := do
  let key ← (object.field? "id").bind Json.str?
  let name ← (object.field? "name").bind Json.str?
  some {
    table := .glAccount
    sourceSystem := sourceSystem
    sourceNaturalKey := key
    columns := [("name", .str name), ("classification", .str "unknown"), ("account_number", .null),
      ("currency", .null), ("status", .null), ("extensions", .obj [("merge", object)])]
    common := common }

/-- Pages of other kinds give nothing. -/
def chartProjectors : Projectors where
  glAccount := fun object sourceSystem common => .ok (chartAccount object sourceSystem common)
  journalEntry := fun _ _ _ => .ok none
  contact := fun _ _ _ => .ok none
  invoice := fun _ _ _ => .ok none
  docObligation := fun _ _ _ => .ok []
  plaid := fun _ _ => .ok []
  stripe := fun _ _ => .ok []
  finch := fun _ _ => .ok []
  bankStatementUpload := fun _ _ => .ok []
  documentRecordsUpload := fun _ _ => .ok []
  customerAssertedCsv := fun _ _ => .ok []
  placeholderColumns := fun _ => []

/-- A page with one account under a name. -/
def chartPage (name : String) : Json :=
  .obj [("object_type", .str "gl_account"), ("merge_integration", .str "xero"),
    ("objects", .arr [.obj [("id", .str "acc_1"), ("name", .str name)]])]

theorem distinct_chartPage (name : String) : DistinctJson (chartPage name) := by
  simp [chartPage, DistinctJson, DistinctJsonMembers, DistinctJsonItems]

def chartRow (id name : String) (extractedAt : Nat) : RawParsedRow where
  id := id
  rawArtifactId := id
  tenantId := "tnt_1"
  parser := "merge_accounting_v1"
  parserVersion := "1"
  extracted := ⟨chartPage name, distinct_chartPage name⟩
  confidence := none
  extractedAt := extractedAt

def olderPage : RawParsedRow := chartRow "prs_1" "Bank" 1

def newerPage : RawParsedRow := chartRow "prs_2" "Main bank" 2

def chartPages : Table RawParsedRow.id := (Table.empty.put olderPage).put newerPage

def chartEnvironment : ProjectorEnvironment := ⟨10, fun _ => "gla_1", .ok ()⟩

/-- The database fails the projection of the older page, and the cycle goes on to the newer one. -/
def failedLabels : List ProjectorLabel :=
  .begin (.cycle {}) :: List.replicate 5 (.advance 0 chartEnvironment) ++ [.fail 0 ⟨"timeout"⟩] ++
    List.replicate 10 (.advance 0 chartEnvironment)

/-- The next cycle projects the older page. -/
def retriedLabels : List ProjectorLabel :=
  .begin (.cycle {}) :: List.replicate 8 (.advance 1 chartEnvironment)

def chartKey : CanonicalKey := ⟨.glAccount, "tnt_1", "xero", "acc_1"⟩

def chartWorld : ProjectorWorld :=
  ((projectorMachine chartProjectors).run { committed := unprojected chartPages }
    (failedLabels ++ retriedLabels)).getD { committed := unprojected chartPages }

/-- Each row is as the newest payload with its key gives it. -/
def KeepsNewest (projectors : Projectors) (db : ProjectorDb) : Prop :=
  ∀ k row source, db.canonical.find? k = some row → source ∈ db.rawParsed.rows →
    Contains projectors source k →
    (∀ other ∈ db.rawParsed.rows, Contains projectors other k →
      other.extractedAt ≤ source.extractedAt) →
    ProjectionOf projectors source row

/-- No page is pending, and the account is as the older page has it. -/
theorem older_page_is_last :
    (projectorMachine chartProjectors).run { committed := unprojected chartPages }
        (failedLabels ++ retriedLabels) = some chartWorld ∧
      chartWorld.committed.rawParsed.rows.all (excluded chartWorld.committed) = true ∧
      ¬KeepsNewest chartProjectors chartWorld.committed := by
  refine ⟨rfl, rfl, fun h => ?_⟩
  have hrow : ∃ row, chartWorld.committed.canonical.find? chartKey = some row ∧
      row.key = chartKey ∧ row.columns.head? = some ("name", .str "Bank") := ⟨_, rfl, rfl, rfl⟩
  obtain ⟨row, hfind, hkey, hname⟩ := hrow
  have hcontains : Contains chartProjectors newerPage chartKey := ⟨_, rfl, rfl⟩
  have hrows : chartWorld.committed.rawParsed.rows = [olderPage, newerPage] := rfl
  have hnewest : ∀ other ∈ chartWorld.committed.rawParsed.rows,
      Contains chartProjectors other chartKey → other.extractedAt ≤ newerPage.extractedAt := by
    intro other hother _
    rw [hrows, List.mem_cons, List.mem_singleton] at hother
    rcases hother with rfl | rfl
    · exact Nat.le_succ 1
    · exact Nat.le_refl 2
  have hmem : newerPage ∈ chartWorld.committed.rawParsed.rows := by
    rw [hrows]
    exact List.mem_cons_of_mem _ List.mem_cons_self
  obtain ⟨inputs, input, projects, hlast, hgives⟩ :=
    h chartKey row newerPage hfind hmem hcontains hnewest
  have hinputs : ∃ input, inputsOf chartProjectors newerPage = .ok [input] ∧
      lastInput [input] "tnt_1" chartKey = some input ∧
      input.columns.head? = some ("name", .str "Main bank") := ⟨_, rfl, rfl, rfl⟩
  obtain ⟨only, honly, hlast', hname'⟩ := hinputs
  obtain rfl := Except.ok.inj (honly.symm.trans projects)
  rw [hkey] at hlast
  obtain rfl := Option.some.inj (hlast'.symm.trans hlast)
  rw [← hgives.columns, hname] at hname'
  simp at hname'

/-- What the theorem says of the run. -/
theorem last_projection_of_chart :
    AsProjected chartProjectors chartWorld.committed ∧
      ResolvesKnown chartProjectors chartWorld.committed :=
  have hrun : (projectorMachine chartProjectors).run { committed := unprojected chartPages }
      (failedLabels ++ retriedLabels) = some chartWorld := rfl
  have h := last_projection_of_run hrun hrun
  ⟨h.1, h.2.1⟩

end BrainCore.Canonical
