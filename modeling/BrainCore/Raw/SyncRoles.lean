import BrainCore.Raw.SyncWorker

/-!
# What a run of the sync worker commits

The changes of a partition are those of the run that holds its lease, or that
claims it; everything else that is committed adds to the artifacts.  A run
relies on no other run having its id, and so knows the committed checkpoint for
as long as it holds the lease.
-/

namespace BrainCore.Raw

open BrainCore.Foundation BrainCore.Policy

/-- A row of the artifact's content is stored, or the artifact was taken for a stored one. -/
def Landed (sha256Hex : String → String) (db : SyncDb) (artifact : FetchedArtifact) : Prop :=
  (∃ id row, db.artifacts.find? id = some row ∧ row.sha256 = sha256Hex artifact.body) ∨
    ∃ reuse ∈ db.reuses, reuse.artifact = artifact

/-- What only the run with an id does to a partition. -/
inductive LeaseChange (provider : Provider) (sha256Hex : String → String) (runId : String)
    (db : SyncDb) : SyncWrite → Prop where
  | claim (row : SyncPartitionRow) (now : Instant)
      (stored : db.partitions.find? row.id = some row) (free : row.Free now)
      (first : runId ∉ db.claims) :
      LeaseChange provider sha256Hex runId db (.claimed (row.claim runId now) runId)
  | advance (row : SyncPartitionRow) (batch : SyncBatch) (releaseLease : Bool) (now : Instant)
      (stored : db.partitions.find? row.id = some row) (held : row.pendingRunId = some runId)
      (mine : batch.runId = runId) (same : batch.partitionId = row.id)
      (linked : batch.state.committedCheckpoint = row.committedCheckpoint)
      (answered : provider batch.state batch.result)
      (landed : ∀ artifact ∈ batch.result.artifacts, Landed sha256Hex db artifact) :
      LeaseChange provider sha256Hex runId db
        (.advanced (row.advance batch.result.nextCheckpoint (!batch.result.hasMore) releaseLease now)
          batch)
  | release (row : SyncPartitionRow) (message : Option String) (now : Instant)
      (stored : db.partitions.find? row.id = some row) (held : row.pendingRunId = some runId) :
      LeaseChange provider sha256Hex runId db (.released (row.release message now))

/-- What anybody does. -/
inductive OpenChange (sha256Hex : String → String) (db : SyncDb) : SyncWrite → Prop where
  | ensured (row : SyncPartitionRow) (new : db.partitions.find? row.id = none)
      (checkpoint : row.committedCheckpoint = .null) (free : row.pendingRunId = none)
      (unused : db.batchesOf row.id = []) : OpenChange sha256Hex db (.ensured row)
  | blob (row : BlobRow) (addressed : row.path.sha256 = sha256Hex row.body) :
      OpenChange sha256Hex db (.blob row)
  | artifact (row : RawArtifactRow) (blob : ∃ blob, db.blobs.find? row.blobUri = some blob)
      (addressed : row.blobUri.sha256 = row.sha256)
      (same : ∀ old, db.artifacts.find? row.id = some old →
        old.sha256 = row.sha256 ∧ old.blobUri = row.blobUri) :
      OpenChange sha256Hex db (.artifact row)
  | reused (reuse : ArtifactReuse) (row : RawArtifactRow)
      (stored : db.artifacts.find? reuse.rowId = some row) :
      OpenChange sha256Hex db (.reused reuse)

/-- A commit of at most one change, of a run that `who` says or of anybody. -/
inductive CommitOf (provider : Provider) (sha256Hex : String → String) (who : String → Prop)
    (db : SyncDb) : List SyncWrite → Prop where
  | nothing : CommitOf provider sha256Hex who db []
  | lease (runId : String) (w : SyncWrite) (run : who runId)
      (change : LeaseChange provider sha256Hex runId db w) : CommitOf provider sha256Hex who db [w]
  | «open» (w : SyncWrite) (change : OpenChange sha256Hex db w) :
      CommitOf provider sha256Hex who db [w]

structure SyncSound (provider : Provider) (sha256Hex : String → String) (db : SyncDb) : Prop where
  blobs : ∀ path blob, db.blobs.find? path = some blob → path.sha256 = sha256Hex blob.body
  artifacts : ∀ id row, db.artifacts.find? id = some row →
    (∃ blob, db.blobs.find? row.blobUri = some blob) ∧ row.blobUri.sha256 = row.sha256
  reuses : ∀ reuse ∈ db.reuses, ∃ row, db.artifacts.find? reuse.rowId = some row
  chain : ∀ id row, db.partitions.find? id = some row →
    Chained SyncBatch.next SyncBatch.start (some .null) (db.batchesOf id) ∧
      lastHash SyncBatch.next (some .null) (db.batchesOf id) = some row.committedCheckpoint
  batches : ∀ batch ∈ db.batches, provider batch.state batch.result ∧
    ∀ artifact ∈ batch.result.artifacts, Landed sha256Hex db artifact

variable {provider : Provider} {sha256Hex : String → String} {db : SyncDb} {runId : String}
  {w w' : SyncWrite} {who who' : String → Prop} {theirs own : List SyncWrite}
  {artifact : FetchedArtifact}

theorem CommitOf.mono (h : CommitOf provider sha256Hex who db own) (hwho : ∀ r, who r → who' r) :
    CommitOf provider sha256Hex who' db own := by
  cases h with
  | nothing => exact .nothing
  | lease r w hr hchange => exact .lease r w (hwho r hr) hchange
  | «open» w hchange => exact .open w hchange

/-! ## One write -/

theorem find?_partitions (db : SyncDb) (w : SyncWrite) (id : String) :
    (w.apply db).partitions.find? id =
      (w.partition?.filter fun row => row.id = id).or (db.partitions.find? id) := by
  rw [SyncWrite.apply]
  cases w.partition? with
  | none => rfl
  | some row =>
      rw [Option.elim_some, Table.find?_put, Option.filter_some]
      by_cases hid : id = row.id <;> simp [hid, eq_comm]

theorem find?_artifacts (db : SyncDb) (w : SyncWrite) (id : String) :
    (w.apply db).artifacts.find? id =
      (w.artifact?.filter fun row => row.id = id).or (db.artifacts.find? id) := by
  rw [SyncWrite.apply]
  cases w.artifact? with
  | none => rfl
  | some row =>
      rw [Option.elim_some, Table.find?_put, Option.filter_some]
      by_cases hid : id = row.id <;> simp [hid, eq_comm]

theorem find?_blobs (db : SyncDb) (w : SyncWrite) (path : BlobPath) :
    (w.apply db).blobs.find? path =
      (w.blob?.filter fun row => row.path = path).or (db.blobs.find? path) := by
  rw [SyncWrite.apply]
  cases w.blob? with
  | none => rfl
  | some row =>
      rw [Option.elim_some, Table.find?_put, Option.filter_some]
      by_cases hpath : path = row.path <;> simp [hpath, eq_comm]

theorem batchesOf_apply (db : SyncDb) (w : SyncWrite) (id : String) :
    (w.apply db).batchesOf id =
      db.batchesOf id ++ (w.batch?.filter fun batch => batch.partitionId = id).toList := by
  rw [SyncDb.batchesOf, SyncWrite.apply, List.filter_append, SyncDb.batchesOf]
  congr 1
  cases w.batch? with
  | none => rfl
  | some batch => by_cases hid : batch.partitionId = id <;> simp [hid, Option.filter_some]

/-! ## What every commit keeps -/

theorem OpenChange.partition_eq (h : OpenChange sha256Hex db w) {id : String}
    {row : SyncPartitionRow} (hrow : db.partitions.find? id = some row) :
    (w.apply db).partitions.find? id = some row := by
  rw [find?_partitions, hrow]
  cases h with
  | ensured new hnew =>
      have hne : new.id ≠ id := by
        rintro rfl
        rw [hrow] at hnew
        cases hnew
      simp [SyncWrite.partition?, Option.filter_some, hne]
  | blob => rfl
  | artifact => rfl
  | reused => rfl

theorem CommitOf.artifact_kept (h : CommitOf provider sha256Hex who db own) {id : String}
    {row : RawArtifactRow} (hrow : db.artifacts.find? id = some row) :
    ∃ new, (syncStore.view db own).artifacts.find? id = some new ∧ new.sha256 = row.sha256 ∧
      new.blobUri = row.blobUri := by
  cases h with
  | nothing => exact ⟨row, hrow, rfl, rfl⟩
  | lease r w _ hchange =>
      refine ⟨row, ?_, rfl, rfl⟩
      change (w.apply db).artifacts.find? id = some row
      rw [find?_artifacts, hrow]
      cases hchange <;> rfl
  | «open» w hchange =>
      change ∃ new, (w.apply db).artifacts.find? id = some new ∧ _
      rw [find?_artifacts, hrow]
      cases hchange with
      | ensured => exact ⟨row, rfl, rfl, rfl⟩
      | blob => exact ⟨row, rfl, rfl, rfl⟩
      | reused => exact ⟨row, rfl, rfl, rfl⟩
      | artifact new _ _ hsame =>
          by_cases hid : new.id = id
          · subst hid
            obtain ⟨hsha, huri⟩ := hsame row hrow
            exact ⟨new, by simp [SyncWrite.artifact?, Option.filter_some], hsha.symm, huri.symm⟩
          · exact ⟨row, by simp [SyncWrite.artifact?, Option.filter_some, hid], rfl, rfl⟩

theorem CommitOf.blob_kept (h : CommitOf provider sha256Hex who db own) {path : BlobPath} {row : BlobRow}
    (hrow : db.blobs.find? path = some row) :
    ∃ new, (syncStore.view db own).blobs.find? path = some new := by
  cases h with
  | nothing => exact ⟨row, hrow⟩
  | lease r w _ hchange =>
      refine ⟨row, ?_⟩
      change (w.apply db).blobs.find? path = some row
      rw [find?_blobs, hrow]
      cases hchange <;> rfl
  | «open» w hchange =>
      change ∃ new, (w.apply db).blobs.find? path = some new
      rw [find?_blobs, hrow]
      cases w.blob?.filter fun row => row.path = path with
      | none => exact ⟨row, rfl⟩
      | some new => exact ⟨new, rfl⟩

theorem CommitOf.reuses_kept (h : CommitOf provider sha256Hex who db own) {reuse : ArtifactReuse}
    (hmem : reuse ∈ db.reuses) : reuse ∈ (syncStore.view db own).reuses := by
  cases h with
  | nothing => exact hmem
  | lease => exact List.mem_append_left _ hmem
  | «open» => exact List.mem_append_left _ hmem

theorem CommitOf.landed (h : CommitOf provider sha256Hex who db own)
    (hlanded : Landed sha256Hex db artifact) :
    Landed sha256Hex (syncStore.view db own) artifact := by
  rcases hlanded with ⟨id, row, hrow, hsha⟩ | ⟨reuse, hmem, hartifact⟩
  · obtain ⟨new, hnew, hsame, -⟩ := h.artifact_kept hrow
    exact .inl ⟨id, new, hnew, hsame.trans hsha⟩
  · exact .inr ⟨reuse, h.reuses_kept hmem, hartifact⟩

/-! ## The invariant -/

theorem SyncSound.of_partition (h : SyncSound provider sha256Hex db)
    (hcommit : CommitOf provider sha256Hex who db [w]) (hartifact : w.artifact? = none)
    (hblob : w.blob? = none) (hreuse : w.reuse? = none)
    (hchain : ∀ id row, (w.apply db).partitions.find? id = some row →
      Chained SyncBatch.next SyncBatch.start (some .null) ((w.apply db).batchesOf id) ∧
        lastHash SyncBatch.next (some .null) ((w.apply db).batchesOf id) =
          some row.committedCheckpoint)
    (hbatch : ∀ batch, w.batch? = some batch → provider batch.state batch.result ∧
      ∀ artifact ∈ batch.result.artifacts, Landed sha256Hex db artifact) :
    SyncSound provider sha256Hex (w.apply db) where
  blobs path blob hfound := by
    rw [find?_blobs, hblob] at hfound
    exact h.blobs path blob hfound
  artifacts id row hfound := by
    rw [find?_artifacts, hartifact] at hfound
    obtain ⟨⟨blob, hstored⟩, haddressed⟩ := h.artifacts id row hfound
    exact ⟨hcommit.blob_kept hstored, haddressed⟩
  reuses reuse hmem := by
    rw [SyncWrite.apply, hreuse] at hmem
    obtain ⟨row, hrow⟩ := h.reuses reuse (by simpa using hmem)
    obtain ⟨new, hnew, -⟩ := hcommit.artifact_kept hrow
    exact ⟨new, hnew⟩
  chain := hchain
  batches batch hmem := by
    rw [SyncWrite.apply, List.mem_append] at hmem
    have hall : provider batch.state batch.result ∧
        ∀ artifact ∈ batch.result.artifacts, Landed sha256Hex db artifact := by
      rcases hmem with hold | hnew
      · exact h.batches batch hold
      · exact hbatch batch (by simpa using hnew)
    exact ⟨hall.1, fun artifact hmem => hcommit.landed (hall.2 artifact hmem)⟩

/-- The chain of a partition whose row is replaced without a batch. -/
theorem SyncSound.chain_of_put (h : SyncSound provider sha256Hex db) {new old : SyncPartitionRow}
    (hpartition : w.partition? = some new) (hbatch : w.batch? = none)
    (hold : db.partitions.find? new.id = some old)
    (hsame : new.committedCheckpoint = old.committedCheckpoint) (id : String)
    (row : SyncPartitionRow) (hrow : (w.apply db).partitions.find? id = some row) :
    Chained SyncBatch.next SyncBatch.start (some .null) ((w.apply db).batchesOf id) ∧
      lastHash SyncBatch.next (some .null) ((w.apply db).batchesOf id) =
        some row.committedCheckpoint := by
  rw [batchesOf_apply, hbatch, Option.filter_none, Option.toList_none, List.append_nil]
  rw [find?_partitions, hpartition, Option.filter_some] at hrow
  by_cases hid : new.id = id
  · subst hid
    obtain rfl : new = row := by simpa using hrow
    rw [hsame]
    exact h.chain new.id old hold
  · exact h.chain id row (by simpa [hid] using hrow)

theorem SyncSound.lease (h : SyncSound provider sha256Hex db)
    (hchange : LeaseChange provider sha256Hex runId db w) :
    SyncSound provider sha256Hex (w.apply db) := by
  have hcommit : CommitOf provider sha256Hex (fun _ => True) db [w] :=
    .lease runId w trivial hchange
  cases hchange with
  | claim row now hstored =>
      exact h.of_partition hcommit rfl rfl rfl (h.chain_of_put rfl rfl hstored rfl) nofun
  | release row message now hstored =>
      exact h.of_partition hcommit rfl rfl rfl (h.chain_of_put rfl rfl hstored rfl) nofun
  | advance row batch release now hstored hheld hmine hsame hlinked hanswered hlanded =>
      refine h.of_partition hcommit rfl rfl rfl ?_ ?_
      · intro id new hnew
        rw [batchesOf_apply]
        rw [find?_partitions] at hnew
        by_cases hid : row.id = id
        · subst hid
          obtain ⟨hchained, hlast⟩ := h.chain row.id row hstored
          have hbatch : ((SyncWrite.advanced (row.advance batch.result.nextCheckpoint
              (!batch.result.hasMore) release now) batch).batch?.filter
                fun batch => batch.partitionId = row.id).toList = [batch] := by
            simp [SyncWrite.batch?, Option.filter_some, hsame]
          have hrow : row.advance batch.result.nextCheckpoint (!batch.result.hasMore) release now =
              new := by
            simpa [SyncWrite.partition?, Option.filter_some, SyncPartitionRow.advance] using hnew
          rw [hbatch, lastHash_concat, ← hrow]
          exact ⟨hchained.concat (by rw [hlast, SyncBatch.start, hlinked]), rfl⟩
        · have hbatch : ((SyncWrite.advanced (row.advance batch.result.nextCheckpoint
              (!batch.result.hasMore) release now) batch).batch?.filter
                fun batch => batch.partitionId = id).toList = [] := by
            simp [SyncWrite.batch?, Option.filter_some, hsame, hid]
          rw [hbatch, List.append_nil]
          refine h.chain id new ?_
          simpa [SyncWrite.partition?, Option.filter_some, SyncPartitionRow.advance, hid] using hnew
      · rintro _ ⟨⟩
        exact ⟨hanswered, hlanded⟩

/-- The chains of the partitions when none of them is written. -/
theorem SyncSound.chain_of_none (h : SyncSound provider sha256Hex db)
    (hpartition : w.partition? = none) (hbatch : w.batch? = none) (id : String)
    (row : SyncPartitionRow) (hrow : (w.apply db).partitions.find? id = some row) :
    Chained SyncBatch.next SyncBatch.start (some .null) ((w.apply db).batchesOf id) ∧
      lastHash SyncBatch.next (some .null) ((w.apply db).batchesOf id) =
        some row.committedCheckpoint := by
  rw [batchesOf_apply, hbatch, Option.filter_none, Option.toList_none, List.append_nil]
  rw [find?_partitions, hpartition] at hrow
  exact h.chain id row hrow

theorem SyncSound.batches_of_open (h : SyncSound provider sha256Hex db)
    (hchange : OpenChange sha256Hex db w) (batch : SyncBatch)
    (hmem : batch ∈ (w.apply db).batches) : provider batch.state batch.result ∧
      ∀ artifact ∈ batch.result.artifacts, Landed sha256Hex (w.apply db) artifact := by
  have hcommit : CommitOf provider sha256Hex (fun _ => True) db [w] := .open w hchange
  have hold : batch ∈ db.batches := by
    rw [SyncWrite.apply] at hmem
    cases hchange <;> simpa [SyncWrite.batch?] using hmem
  obtain ⟨hanswered, hlanded⟩ := h.batches batch hold
  exact ⟨hanswered, fun artifact hmem => hcommit.landed (hlanded artifact hmem)⟩

theorem SyncSound.open (h : SyncSound provider sha256Hex db)
    (hchange : OpenChange sha256Hex db w) : SyncSound provider sha256Hex (w.apply db) := by
  have hbatches := h.batches_of_open hchange
  have hcommit : CommitOf provider sha256Hex (fun _ => True) db [w] := .open w hchange
  have hreuses : ∀ reuse ∈ db.reuses, ∃ row, (w.apply db).artifacts.find? reuse.rowId = some row := by
    intro reuse hmem
    obtain ⟨row, hrow⟩ := h.reuses reuse hmem
    obtain ⟨new, hnew, -⟩ := hcommit.artifact_kept hrow
    exact ⟨new, hnew⟩
  cases hchange with
  | ensured row hnew hcheckpoint hfree hunused =>
      refine h.of_partition hcommit rfl rfl rfl ?_ nofun
      intro id other hother
      rw [batchesOf_apply]
      rw [find?_partitions] at hother
      by_cases hid : row.id = id
      · subst hid
        obtain rfl : row = other := by
          simpa [SyncWrite.partition?, Option.filter_some] using hother
        rw [hunused, hcheckpoint]
        exact ⟨trivial, rfl⟩
      · have hstored : db.partitions.find? id = some other := by
          simpa [SyncWrite.partition?, Option.filter_some, hid] using hother
        obtain ⟨hchained, hlast⟩ := h.chain id other hstored
        exact ⟨by simpa [SyncWrite.batch?] using hchained, by simpa [SyncWrite.batch?] using hlast⟩
  | blob row haddressed =>
      refine ⟨?_, ?_, by simpa [SyncWrite.apply, SyncWrite.reuse?] using hreuses,
        h.chain_of_none rfl rfl, hbatches⟩
      · intro path blob hblob
        rw [find?_blobs] at hblob
        by_cases hpath : row.path = path
        · subst hpath
          obtain rfl : row = blob := by simpa [SyncWrite.blob?, Option.filter_some] using hblob
          exact haddressed
        · exact h.blobs path blob (by simpa [SyncWrite.blob?, Option.filter_some, hpath] using hblob)
      · intro id stored hstored
        rw [find?_artifacts] at hstored
        obtain ⟨⟨blob, hblob⟩, haddressed⟩ := h.artifacts id stored hstored
        exact ⟨hcommit.blob_kept hblob, haddressed⟩
  | artifact row hblob haddressed hsame =>
      refine ⟨?_, ?_, by simpa [SyncWrite.apply, SyncWrite.reuse?] using hreuses,
        h.chain_of_none rfl rfl, hbatches⟩
      · intro path blob hfound
        rw [find?_blobs] at hfound
        exact h.blobs path blob hfound
      · intro id stored hstored
        rw [find?_artifacts] at hstored
        by_cases hid : row.id = id
        · subst hid
          obtain rfl : row = stored := by
            simpa [SyncWrite.artifact?, Option.filter_some] using hstored
          exact ⟨hblob, haddressed⟩
        · exact h.artifacts id stored
            (by simpa [SyncWrite.artifact?, Option.filter_some, hid] using hstored)
  | reused reuse row hstored =>
      refine ⟨?_, ?_, ?_, h.chain_of_none rfl rfl, hbatches⟩
      · intro path blob hfound
        rw [find?_blobs] at hfound
        exact h.blobs path blob hfound
      · intro id stored hfound
        rw [find?_artifacts] at hfound
        exact h.artifacts id stored hfound
      · intro other hother
        rw [SyncWrite.apply, List.mem_append] at hother
        rcases hother with hold | hnew
        · exact hreuses other hold
        · obtain rfl : other = reuse := by simpa [SyncWrite.reuse?] using hnew
          obtain ⟨new, hnew, -⟩ := hcommit.artifact_kept hstored
          exact ⟨new, hnew⟩

theorem SyncSound.commit (h : SyncSound provider sha256Hex db)
    (hcommit : CommitOf provider sha256Hex who db own) :
    SyncSound provider sha256Hex (syncStore.view db own) := by
  cases hcommit with
  | nothing => exact h
  | lease r w _ hchange => exact h.lease hchange
  | «open» w hchange => exact h.open hchange

/-! ## The role of a run -/

theorem CommitOf.claims (h : CommitOf provider sha256Hex who db own) (hrun : ¬who runId)
    (hfirst : runId ∉ db.claims) : runId ∉ (syncStore.view db own).claims := by
  cases h with
  | nothing => exact hfirst
  | «open» w hchange =>
      change runId ∉ db.claims ++ w.claim?.toList
      cases hchange <;> simpa [SyncWrite.claim?] using hfirst
  | lease r w hr hchange =>
      change runId ∉ db.claims ++ w.claim?.toList
      have hne : runId ≠ r := fun same => hrun (same ▸ hr)
      cases hchange <;> simpa [SyncWrite.claim?, hne] using hfirst

/-- A run commits what it may, and no other run has its id. -/
def syncRoles (provider : Provider) (sha256Hex : String → String) :
    CallRoles syncStore SyncCall where
  invariant := SyncSound provider sha256Hex
  rely call := CommitOf provider sha256Hex (· ≠ call.runId)
  share call := CommitOf provider sha256Hex (· = call.runId)
  start call db := call.runId ∉ db.claims
  relies _ _ _ h hcommit := h.commit hcommit
  keeps _ _ _ h hcommit := h.commit hcommit
  begins _ _ _ _ hfirst hcommit := hcommit.claims (fun hne => hne rfl) hfirst

theorem syncRoles_fit {call other : SyncCall} (hne : call.runId ≠ other.runId) :
    (syncRoles provider sha256Hex).Fit call other := by
  intro db writes _
  constructor
  · exact fun h => CommitOf.mono h fun r (hr : r = call.runId) => hr ▸ hne
  · exact fun h => CommitOf.mono h fun r (hr : r = other.runId) => hr ▸ hne.symm

theorem otherRows_open (h : otherRows sha256Hex db own = true) :
    ∃ w, own = [w] ∧ OpenChange sha256Hex db w := by
  unfold otherRows at h
  split at h
  · rename_i row
    simp only [Bool.and_eq_true, Option.isNone_iff_eq_none, Json.isNull_iff, List.isEmpty_iff] at h
    exact ⟨_, rfl, .ensured row h.1.1.1 h.1.1.2 h.1.2 h.2⟩
  · rename_i row
    exact ⟨_, rfl, .blob row (of_decide_eq_true h)⟩
  · rename_i row
    simp only [Bool.and_eq_true, decide_eq_true_eq, Option.isSome_iff_exists, Option.all_eq_true]
      at h
    exact ⟨_, rfl, .artifact row h.1.1 h.1.2 h.2⟩
  · cases h

end BrainCore.Raw
