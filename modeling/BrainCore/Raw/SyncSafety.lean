import BrainCore.Raw.SyncSteps

/-!
# Checkpoint safety of the sync worker

The batches of a partition lie end to end from the first fetch to its committed
checkpoint, and what they brought is stored, as long as an artifact is taken
for a stored one only where the stored one says the same.  The key by which it
is taken names the cursor before a page and not the page, so two fetches of one
cursor can differ under one key.
-/

namespace BrainCore.Raw

open BrainCore.Foundation BrainCore.Policy

variable {provider : Provider} {sha256Hex contentOf : String → String} {db next : SyncDb}
  {who : String → Prop} {own : List SyncWrite}

/-- What an artifact says stands in the blob of a stored row. -/
def Stored (contentOf : String → String) (db : SyncDb) (artifact : FetchedArtifact) : Prop :=
  ∃ id row blob, db.artifacts.find? id = some row ∧ db.blobs.find? row.blobUri = some blob ∧
    contentOf blob.body = contentOf artifact.body

/-- The row that was taken for an artifact says what the artifact says. -/
def ArtifactReuse.Faithful (contentOf : String → String) (db : SyncDb) (reuse : ArtifactReuse) :
    Prop :=
  ∃ row blob, db.artifacts.find? reuse.rowId = some row ∧
    db.blobs.find? row.blobUri = some blob ∧ contentOf blob.body = contentOf reuse.artifact.body

/-- Before any run; partitions are there that were never synced. -/
structure Unsynced (sha256Hex : String → String) (db : SyncDb) : Prop where
  blobs : ∀ path blob, db.blobs.find? path = some blob → path.sha256 = sha256Hex blob.body
  artifacts : ∀ id row, db.artifacts.find? id = some row →
    (∃ blob, db.blobs.find? row.blobUri = some blob) ∧ row.blobUri.sha256 = row.sha256
  partitions : ∀ id row, db.partitions.find? id = some row → row.committedCheckpoint = .null
  claims : db.claims = []
  batches : db.batches = []
  reuses : db.reuses = []

theorem Unsynced.sound (h : Unsynced sha256Hex db) : SyncSound provider sha256Hex db where
  blobs := h.blobs
  artifacts := h.artifacts
  reuses reuse hmem := by
    rw [h.reuses] at hmem
    cases hmem
  chain id row hrow := by
    have hnone : db.batchesOf id = [] := by rw [SyncDb.batchesOf, h.batches, List.filter_nil]
    rw [hnone, h.partitions id row hrow]
    exact ⟨trivial, rfl⟩
  batches batch hmem := by
    rw [h.batches] at hmem
    cases hmem

/-! ## What is stored stays stored -/

theorem CommitOf.stored (hdigest : Function.Injective sha256Hex)
    (hbefore : SyncSound provider sha256Hex db)
    (h : CommitOf provider sha256Hex who db own) {artifact : FetchedArtifact}
    (hstored : Stored contentOf db artifact) :
    Stored contentOf (syncStore.view db own) artifact := by
  obtain ⟨id, row, blob, hrow, hblob, hcontent⟩ := hstored
  obtain ⟨new, hnew, -, huri⟩ := h.artifact_kept hrow
  obtain ⟨other, hother⟩ := h.blob_kept hblob
  have hsame : sha256Hex other.body = sha256Hex blob.body := by
    rw [← (hbefore.commit h).blobs _ other hother, ← hbefore.blobs _ blob hblob]
  refine ⟨id, new, other, hnew, huri ▸ hother, ?_⟩
  rw [hdigest hsame, hcontent]

theorem ArtifactReuse.Faithful.stored {reuse : ArtifactReuse} (h : reuse.Faithful contentOf db) :
    Stored contentOf db reuse.artifact := by
  obtain ⟨row, blob, hrow, hblob, hcontent⟩ := h
  exact ⟨reuse.rowId, row, blob, hrow, hblob, hcontent⟩

theorem Landed.stored (hdigest : Function.Injective sha256Hex) (h : SyncSound provider sha256Hex db)
    (hreuses : ∀ reuse ∈ db.reuses, Stored contentOf db reuse.artifact)
    {artifact : FetchedArtifact} (hlanded : Landed sha256Hex db artifact) :
    Stored contentOf db artifact := by
  obtain ⟨id, row, hrow, hsha⟩ | ⟨reuse, hmem, rfl⟩ := hlanded
  · obtain ⟨⟨blob, hblob⟩, haddressed⟩ := h.artifacts id row hrow
    have hsame : sha256Hex blob.body = sha256Hex artifact.body := by
      rw [← h.blobs _ blob hblob, haddressed, hsha]
    exact ⟨id, row, blob, hrow, hblob, by rw [hdigest hsame]⟩
  · exact hreuses reuse hmem

theorem reuses_view (db : SyncDb) (own : List SyncWrite) :
    (syncStore.view db own).reuses = db.reuses ++ own.filterMap SyncWrite.reuse? := by
  induction own generalizing db with
  | nil => exact (List.append_nil _).symm
  | cons w own ih =>
      change (syncStore.view (w.apply db) own).reuses = _
      rw [ih]
      change db.reuses ++ w.reuse?.toList ++ _ = _
      cases hreuse : w.reuse? with
      | none => simp [hreuse]
      | some reuse => simp [hreuse]

/-! ## One step -/

/-- The commits of a step take an artifact for a stored one only where that one says the same. -/
def Trusts (contentOf : String → String) (db : SyncDb) (writes : List SyncWrite) : Prop :=
  ∀ reuse, .reused reuse ∈ writes → reuse.Faithful contentOf db

theorem Trusts.reuse (h : Trusts contentOf db own) {reuse : ArtifactReuse}
    (hmem : reuse ∈ own.filterMap SyncWrite.reuse?) : reuse.Faithful contentOf db := by
  obtain ⟨w, hw, hreuse⟩ := List.mem_filterMap.mp hmem
  cases w with
  | reused other =>
      cases hreuse
      exact h reuse hw
  | ensured row => cases hreuse
  | claimed row runId => cases hreuse
  | advanced row batch => cases hreuse
  | released row => cases hreuse
  | artifact row => cases hreuse
  | blob row => cases hreuse

theorem reuses_stored (hdigest : Function.Injective sha256Hex)
    (hsound : SyncSound provider sha256Hex db)
    (hcommit : CommitOf provider sha256Hex who db own)
    {writes : List SyncWrite} (hview : syncStore.view db own = syncStore.view db writes)
    (htrusts : Trusts contentOf db writes)
    (hreuses : ∀ reuse ∈ db.reuses, Stored contentOf db reuse.artifact) :
    ∀ reuse ∈ (syncStore.view db own).reuses,
      Stored contentOf (syncStore.view db own) reuse.artifact := by
  intro reuse hmem
  have hold : Stored contentOf db reuse.artifact := by
    rw [hview, reuses_view, List.mem_append] at hmem
    rcases hmem with hmem | hmem
    · exact hreuses reuse hmem
    · exact (htrusts.reuse hmem).stored
  exact hcommit.stored hdigest hsound hold

theorem CommitOf.prefix_batchesOf (h : CommitOf provider sha256Hex who db own) (id : String) :
    db.batchesOf id <+: (syncStore.view db own).batchesOf id := by
  have hone : ∀ w : SyncWrite, db.batchesOf id <+: (w.apply db).batchesOf id := by
    intro w
    rw [batchesOf_apply]
    exact List.prefix_append _ _
  cases h with
  | nothing => exact List.prefix_rfl
  | lease r w => exact hone w
  | «open» w => exact hone w

/-! ## The lease -/

/-- How the row of a partition changes in a step of a run: by the run that holds it, or by a run
that takes a free one, which it does once. -/
inductive MovedBy (claims : List String) (runId : String) (row : SyncPartitionRow) :
    Option SyncPartitionRow → Prop where
  | held {new : Option SyncPartitionRow} (holds : row.pendingRunId = some runId) :
      MovedBy claims runId row new
  | taken (now : Instant) (free : row.Free now) (first : runId ∉ claims) :
      MovedBy claims runId row (some (row.claim runId now))

theorem LeaseChange.moved {w : SyncWrite} {runId : String}
    (h : LeaseChange provider sha256Hex runId db w) {id : String} {row : SyncPartitionRow}
    (hrow : db.partitions.find? id = some row)
    (hchanged : (w.apply db).partitions.find? id ≠ some row) :
    MovedBy db.claims runId row ((w.apply db).partitions.find? id) := by
  rw [find?_partitions, hrow] at hchanged
  have hsame : ∀ other : SyncPartitionRow, db.partitions.find? other.id = some other →
      other.id = id → other = row := by
    rintro other hstored rfl
    exact Option.some.inj (hstored.symm.trans hrow)
  cases h with
  | claim other now hstored hfree hfirst =>
      by_cases hid : other.id = id
      · obtain rfl := hsame other hstored hid
        have hnew : ((SyncWrite.claimed (other.claim runId now) runId).apply db).partitions.find? id =
            some (other.claim runId now) := by
          simp [find?_partitions, SyncWrite.partition?, Option.filter_some, SyncPartitionRow.claim, hid]
        rw [hnew]
        exact .taken now hfree hfirst
      · refine absurd ?_ hchanged
        simp [SyncWrite.partition?, Option.filter_some, SyncPartitionRow.claim, hid]
  | advance other batch release now hstored hheld =>
      by_cases hid : other.id = id
      · obtain rfl := hsame other hstored hid
        exact .held hheld
      · refine absurd ?_ hchanged
        simp [SyncWrite.partition?, Option.filter_some, SyncPartitionRow.advance, hid]
  | release other message now hstored hheld =>
      by_cases hid : other.id = id
      · obtain rfl := hsame other hstored hid
        exact .held hheld
      · refine absurd ?_ hchanged
        simp [SyncWrite.partition?, Option.filter_some, SyncPartitionRow.release, hid]

theorem CommitOf.moved {runId : String} (h : CommitOf provider sha256Hex (· = runId) db own)
    {id : String} {row : SyncPartitionRow} (hrow : db.partitions.find? id = some row)
    (hchanged : (syncStore.view db own).partitions.find? id ≠ some row) :
    MovedBy db.claims runId row ((syncStore.view db own).partitions.find? id) := by
  cases h with
  | nothing => exact absurd hrow hchanged
  | «open» w hchange => exact absurd (hchange.partition_eq hrow) hchanged
  | lease r w hr hchange =>
      subst hr
      exact hchange.moved hrow hchanged

/-- What a step of a run does to the partitions. -/
structure LeaseKept (begun : List SyncCall) (db next : SyncDb)
    (label : CallLabel SyncWrite (SyncEnv provider) SyncError SyncCall) : Prop where
  /-- No batch is taken back. -/
  batches : ∀ id, db.batchesOf id <+: next.batchesOf id
  /-- Only the run that holds or takes a lease changes a row. -/
  rows : ∀ id row, db.partitions.find? id = some row → next.partitions.find? id ≠ some row →
    ∃ i env call, label = .advance i env ∧ begun[i]? = some call ∧
      MovedBy db.claims call.runId row (next.partitions.find? id)

/-- The batches of a partition lie end to end up to its checkpoint, each of them is an answer of the
provider, and what it brought is stored. -/
structure Checkpointed (provider : Provider) (contentOf : String → String) (db : SyncDb) :
    Prop where
  chain : ∀ id row, db.partitions.find? id = some row →
    Chained SyncBatch.next SyncBatch.start (some .null) (db.batchesOf id) ∧
      lastHash SyncBatch.next (some .null) (db.batchesOf id) = some row.committedCheckpoint
  answered : ∀ batch ∈ db.batches, provider batch.state batch.result
  stored : ∀ batch ∈ db.batches, ∀ artifact ∈ batch.result.artifacts, Stored contentOf db artifact

theorem SyncSound.checkpointed (hdigest : Function.Injective sha256Hex)
    (h : SyncSound provider sha256Hex db)
    (hreuses : ∀ reuse ∈ db.reuses, Stored contentOf db reuse.artifact) :
    Checkpointed provider contentOf db where
  chain := h.chain
  answered batch hmem := (h.batches batch hmem).1
  stored batch hmem artifact hartifact :=
    ((h.batches batch hmem).2 artifact hartifact).stored hdigest h hreuses

/-! ## Runs -/

/-- One step of a run, by whom its commit is. -/
theorem commit_of_run (hdb : Unsynced sha256Hex db)
    {labels : List (CallLabel SyncWrite (SyncEnv provider) SyncError SyncCall)}
    {label : CallLabel SyncWrite (SyncEnv provider) SyncError SyncCall}
    {s next : Calls SyncDb SyncWrite (SyncEnv provider) Empty SyncError Unit}
    (hids : ((begunCalls (labels ++ [label])).map SyncCall.runId).Nodup)
    (hrun : (syncMachine provider sha256Hex).run { committed := db } labels = some s)
    (hstep : (syncMachine provider sha256Hex).step s label = some next) :
    SyncSound provider sha256Hex s.committed ∧
      Discipline.Attributed syncStore (syncRoles provider sha256Hex).share (otherRows sha256Hex)
        (begunCalls (labels ++ [label])) s.committed next.committed label := by
  have hfit : (begunCalls (labels ++ [label])).Pairwise (syncRoles provider sha256Hex).Fit :=
    (List.pairwise_map.mp hids).imp syncRoles_fit
  have hallowed : ∀ db writes, SyncSound provider sha256Hex db → otherRows sha256Hex db writes = true →
      SyncSound provider sha256Hex (syncStore.view db writes) ∧
        ∀ call : SyncCall, CommitOf provider sha256Hex (· ≠ call.runId) db writes := by
    intro db writes hsound hothers
    obtain ⟨w, rfl, hchange⟩ := otherRows_open hothers
    exact ⟨hsound.open hchange, fun call => .open w hchange⟩
  have hfirst : ∀ call, .begin call ∈ labels ++ [label] →
      (syncRoles provider sha256Hex).start call db := by
    intro call _
    change call.runId ∉ db.claims
    rw [hdb.claims]
    exact List.not_mem_nil
  obtain ⟨hbefore, -, hattributed⟩ := CallRoles.attributed_of_run SyncWrite.clash_symm hallowed
    hdb.sound hfirst hfit (fun call _ => ⟨_, syncPartition_sound call⟩) hrun hstep
  exact ⟨hbefore, hattributed⟩

section Runs

variable {labels : List (CallLabel SyncWrite (SyncEnv provider) SyncError SyncCall)}
  {label : CallLabel SyncWrite (SyncEnv provider) SyncError SyncCall}
  {s next : Calls SyncDb SyncWrite (SyncEnv provider) Empty SyncError Unit}

/-- What a step commits, and that the invariant holds after it. -/
theorem commitOf_of_attributed {begun : List SyncCall} (hsound : SyncSound provider sha256Hex db)
    {after : SyncDb} (h : Discipline.Attributed syncStore (syncRoles provider sha256Hex).share
      (otherRows sha256Hex) begun db after label) :
    ∃ own, CommitOf provider sha256Hex (fun _ => True) db own ∧ after = syncStore.view db own ∧
      SyncSound provider sha256Hex after := by
  cases h with
  | quiet hsame => exact ⟨[], .nothing, hsame, hsame ▸ hsound⟩
  | own hnumber hmine hview =>
      have hcommit := CommitOf.mono hmine fun _ _ => trivial
      exact ⟨_, hcommit, hview, hview ▸ hsound.commit hcommit⟩
  | outside hallowed hview =>
      obtain ⟨w, rfl, hchange⟩ := otherRows_open hallowed
      exact ⟨_, .open w hchange, hview, hview ▸ hsound.open hchange⟩

/-- Every artifact that was taken for a stored one is stored. -/
theorem reuses_of_run (hdigest : Function.Injective sha256Hex) (hdb : Unsynced sha256Hex db)
    (hids : ((begunCalls labels).map SyncCall.runId).Nodup)
    (hmeets : (syncMachine provider sha256Hex).Meets
      (fun s label => Trusts contentOf s.committed (s.committing label)) { committed := db } labels)
    (hrun : (syncMachine provider sha256Hex).run { committed := db } labels = some s) :
    ∀ reuse ∈ s.committed.reuses, Stored contentOf s.committed reuse.artifact := by
  induction labels using List.reverseRecOn generalizing s with
  | nil =>
      cases hrun
      intro reuse hmem
      change reuse ∈ db.reuses at hmem
      rw [hdb.reuses] at hmem
      cases hmem
  | append_singleton labels label ih =>
      obtain ⟨middle, hbefore, hstep⟩ := Machine.run_concat_some _ hrun
      have hfewer : ((begunCalls labels).map SyncCall.runId).Nodup := by
        rw [begunCalls_append, List.map_append] at hids
        exact (List.nodup_append.mp hids).1
      have hstored := ih hfewer hmeets.of_append hbefore
      obtain ⟨hsound, hattributed⟩ := commit_of_run hdb hids hbefore hstep
      obtain ⟨own, hcommit, hview, -⟩ := commitOf_of_attributed hsound hattributed
      have htrusts := (Machine.Meets.split _ hmeets hbefore).1
      rw [hview]
      refine reuses_stored hdigest hsound hcommit ?_ htrusts hstored
      rw [← hview, committed_of_step hstep]

/-- A step of any run of the workers leaves every partition to the run that holds its lease, and
takes no batch back.  As long as an artifact is taken for a stored one only where the stored one
says the same, the batches of each partition reach its checkpoint and are stored. -/
theorem checkpoint_covers_batches (hdigest : Function.Injective sha256Hex)
    (hdb : Unsynced sha256Hex db)
    (hids : ((begunCalls (labels ++ [label])).map SyncCall.runId).Nodup)
    (hrun : (syncMachine provider sha256Hex).run { committed := db } labels = some s)
    (hstep : (syncMachine provider sha256Hex).step s label = some next) :
    LeaseKept (begunCalls (labels ++ [label])) s.committed next.committed label ∧
      ((syncMachine provider sha256Hex).Meets
        (fun s label => Trusts contentOf s.committed (s.committing label)) { committed := db }
          (labels ++ [label]) → Checkpointed provider contentOf next.committed) := by
  obtain ⟨hsound, hattributed⟩ := commit_of_run hdb hids hrun hstep
  obtain ⟨own, hcommit, hview, hafter⟩ := commitOf_of_attributed hsound hattributed
  refine ⟨⟨fun id => hview ▸ hcommit.prefix_batchesOf id, ?_⟩, fun hmeets => ?_⟩
  · intro id row hrow hchanged
    cases hattributed with
    | quiet hsame => exact absurd (hsame ▸ hrow) hchanged
    | own hnumber hmine hcommitted =>
        rw [hcommitted] at hchanged ⊢
        exact ⟨_, _, _, rfl, hnumber, CommitOf.moved hmine hrow hchanged⟩
    | outside hallowed hcommitted =>
        obtain ⟨w, rfl, hchange⟩ := otherRows_open hallowed
        rw [hcommitted] at hchanged
        exact absurd (hchange.partition_eq hrow) hchanged
  · exact hafter.checkpointed hdigest
      (reuses_of_run hdigest hdb hids hmeets (Machine.run_snoc _ hrun hstep))

end Runs

/-! ## A page that is fetched again -/

namespace RefetchedPage

def partition : SyncPartitionRow where
  id := "part"
  sourceId := "src"
  objectType := "transaction"
  checkpointType := .cursor
  updatedAt := 0

def start : SyncDb := { partitions := Table.empty.put partition }

def page (body cursor : String) : FetchIncrementalResult where
  artifacts := [{ body := body, envelope := { idempotencyKey := some "src:transaction:backfill_start" } }]
  nextCheckpoint := .obj [("cursor", .str cursor)]
  hasMore := false

/-- The answers to a sync from the start, before and after another transaction is booked. -/
def plaid : Provider := fun state result =>
  state.committedCheckpoint = .null → result = page "[a]" "c1" ∨ result = page "[a,b]" "c2"

def call (runId : String) : SyncCall where
  tenantId := "tenant"
  sourceType := "plaid"
  partition := partition
  runId := runId
  actor := "sync"
  maxBatches := 5

def early : SyncEnv plaid where
  now := 0
  artifactId := "raw1"
  credentials := .ok (some .null)
  fetch _ := .ok ⟨page "[a]" "c1", fun _ => .inl rfl⟩

/-- After the lease has gone stale. -/
def late : SyncEnv plaid where
  now := 960000
  artifactId := "raw2"
  credentials := .ok (some .null)
  fetch _ := .ok ⟨page "[a,b]" "c2", fun _ => .inr rfl⟩

/-- After the lease has gone stale, when nothing else has been booked. -/
def lateSame : SyncEnv plaid := { late with fetch := early.fetch }

abbrev Label := CallLabel SyncWrite (SyncEnv plaid) SyncError SyncCall

/-- The first run crashes between its artifacts and its checkpoint; the second goes up to its
checkpoint. -/
def labels (env : SyncEnv plaid) : List Label :=
  .begin (call "run1") :: List.replicate 16 (.advance 0 early) ++
    .crash 0 :: .begin (call "run2") :: List.replicate 18 (.advance 1 env)

theorem unsynced_start : Unsynced id start where
  blobs path blob hblob := by cases hblob
  artifacts id row hrow := by cases hrow
  partitions id row hrow := by
    have hput : start.partitions.find? id = if id = "part" then some partition else none :=
      Table.find?_put Table.empty partition id
    rw [hput] at hrow
    split at hrow
    · cases hrow
      rfl
    · cases hrow
  claims := rfl
  batches := rfl
  reuses := rfl

abbrev World := Calls SyncDb SyncWrite (SyncEnv plaid) Empty SyncError Unit

/-- Before and after the second run commits its checkpoint. -/
def before (env : SyncEnv plaid) : World :=
  ((syncMachine plaid id).run { committed := start } (labels env)).getD { committed := start }

def after (env : SyncEnv plaid) : World :=
  ((syncMachine plaid id).step (before env) (.advance 1 env)).getD { committed := start }

/-- What two fetches of one cursor bring is told apart by nothing in the key: the checkpoint of the
second passes what only the second brought. -/
theorem later_page_is_lost :
    (syncMachine plaid id).run { committed := start } (labels late ++ [.advance 1 late]) =
        some (after late) ∧
      ((begunCalls (labels late ++ [.advance 1 late])).map SyncCall.runId).Nodup ∧
      ¬Checkpointed plaid id (after late).committed := by
  refine ⟨rfl, by decide, fun h => ?_⟩
  have hbatch : (⟨"part", "run2", ⟨"src", "", "transaction", .cursor, .null⟩,
      page "[a,b]" "c2"⟩ : SyncBatch) ∈ (after late).committed.batches := List.mem_singleton.mpr rfl
  obtain ⟨rawId, row, blob, hrow, hblob, hbody⟩ := h.stored _ hbatch _ List.mem_cons_self
  have hfirst : row ∈ [artifactInput (call "run1") "raw1" ⟨"tenant", 0, "[a]"⟩
      { body := "[a]", envelope := { idempotencyKey := some "src:transaction:backfill_start" } }] :=
    Table.mem_of_find? hrow
  obtain rfl := List.mem_singleton.mp hfirst
  cases hblob
  exact absurd hbody (by decide)

/-- Whether the commits of a step take an artifact only for one of the same bytes. -/
def trusts (db : SyncDb) (writes : List SyncWrite) : Bool :=
  (writes.filterMap SyncWrite.reuse?).all fun reuse =>
    (db.artifacts.find? reuse.rowId).any fun row =>
      (db.blobs.find? row.blobUri).any fun blob => blob.body = reuse.artifact.body

theorem trusts_of_check {db : SyncDb} {writes : List SyncWrite} (h : trusts db writes = true) :
    Trusts id db writes := by
  intro reuse hmem
  have hreuse := List.all_eq_true.mp h reuse (List.mem_filterMap.mpr ⟨_, hmem, rfl⟩)
  obtain ⟨row, hrow, hstored⟩ := (Option.any_eq_true _ _).mp hreuse
  obtain ⟨blob, hblob, hbody⟩ := (Option.any_eq_true _ _).mp hstored
  exact ⟨row, blob, hrow, hblob, of_decide_eq_true hbody⟩

def trustsStep (s : World) (label : Label) : Bool := trusts s.committed (s.committing label)

theorem checkpoint_covers_same_page :
    (syncMachine plaid id).run { committed := start } (labels lateSame) = some (before lateSame) ∧
      LeaseKept (begunCalls (labels lateSame ++ [.advance 1 lateSame])) (before lateSame).committed
        (after lateSame).committed (.advance 1 lateSame : Label) ∧
      Checkpointed plaid id (after lateSame).committed := by
  have hrun : (syncMachine plaid id).run { committed := start } (labels lateSame) =
      some (before lateSame) := rfl
  have hstep : (syncMachine plaid id).step (before lateSame) (.advance 1 lateSame) =
      some (after lateSame) := rfl
  have hids : ((begunCalls (labels lateSame ++ [.advance 1 lateSame])).map SyncCall.runId).Nodup := by
    decide
  have hchecked : (syncMachine plaid id).check trustsStep { committed := start }
      (labels lateSame ++ [.advance 1 lateSame]) = true := rfl
  have hmeets : (syncMachine plaid id).Meets
      (fun s label => Trusts id s.committed (s.committing label)) { committed := start }
        (labels lateSame ++ [.advance 1 lateSame]) :=
    Machine.Meets.mono _ (fun s label h => trusts_of_check h) (Machine.meets_of_check _ hchecked)
  obtain ⟨hlease, hcheckpointed⟩ :=
    checkpoint_covers_batches Function.injective_id unsynced_start hids hrun hstep
  exact ⟨hrun, hlease, hcheckpointed hmeets⟩

end RefetchedPage

end BrainCore.Raw
