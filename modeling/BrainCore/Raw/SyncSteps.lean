import BrainCore.Raw.SyncRoles

/-!
# The transactions of a run

Between its claim and the end of its lease a run knows the checkpoint that is
committed.  It commits the next one only after each artifact of the batch has
landed, and from the checkpoint the batch was fetched from.
-/

namespace BrainCore.Raw

open BrainCore.Foundation BrainCore.Policy

/-- While the run has the lease of the partition, this is its checkpoint. -/
def Holds (runId partitionId : String) (checkpoint : Json) (db : SyncDb) : Prop :=
  ∀ row, db.partitions.find? partitionId = some row → row.pendingRunId = some runId →
    row.committedCheckpoint = checkpoint

def BlobStored (path : BlobPath) (db : SyncDb) : Prop := ∃ blob, db.blobs.find? path = some blob

variable {provider : Provider} {sha256Hex : String → String} {db : SyncDb} {runId : String}
  {w : SyncWrite} {who : String → Prop} {theirs own : List SyncWrite} {artifact : FetchedArtifact}
  {call : SyncCall} {partitionId : String} {checkpoint : Json}

/-! ## What stays under the commits of others -/

theorem CommitOf.holds (hcommit : CommitOf provider sha256Hex who db own) (hrun : ¬who runId)
    (h : Holds runId partitionId checkpoint db) :
    Holds runId partitionId checkpoint (syncStore.view db own) := by
  intro row hrow hpending
  cases hcommit with
  | nothing => exact h row hrow hpending
  | lease r w hr hchange =>
      have hne : r ≠ runId := fun same => hrun (same ▸ hr)
      change (w.apply db).partitions.find? partitionId = some row at hrow
      rw [find?_partitions] at hrow
      cases hnew : w.partition?.filter fun row => row.id = partitionId with
      | none =>
          rw [hnew, Option.none_or] at hrow
          exact h row hrow hpending
      | some new =>
          rw [hnew, Option.some_or] at hrow
          obtain rfl := Option.some.inj hrow
          have hsome := (Option.filter_eq_some_iff.mp hnew).1
          cases hchange with
          | claim old now =>
              cases hsome
              exact absurd (Option.some.inj hpending) hne
          | release old message now =>
              cases hsome
              cases hpending
          | advance old batch release now _ hheld =>
              cases hsome
              change (if release = true then none else old.pendingRunId) = some runId at hpending
              rw [hheld] at hpending
              split at hpending
              · cases hpending
              · exact absurd (Option.some.inj hpending) hne
  | «open» w hchange =>
      change (w.apply db).partitions.find? partitionId = some row at hrow
      rw [find?_partitions] at hrow
      cases hchange with
      | ensured new hnew hcheckpoint hfree =>
          by_cases hid : new.id = partitionId
          · obtain rfl : new = row := by
              simpa [SyncWrite.partition?, Option.filter_some, hid] using hrow
            rw [hfree] at hpending
            cases hpending
          · exact h row (by simpa [SyncWrite.partition?, Option.filter_some, hid] using hrow) hpending
      | blob => exact h row hrow hpending
      | artifact => exact h row hrow hpending
      | reused => exact h row hrow hpending

theorem holds_lasting (call : SyncCall) (partitionId : String) (checkpoint : Json) :
    ((syncRoles provider sha256Hex).discipline call).Lasting
      (Holds call.runId partitionId checkpoint) :=
  fun _ _ _ h hcommit => CommitOf.holds hcommit (fun hne => hne rfl) h

theorem landed_lasting (call : SyncCall) (artifact : FetchedArtifact) :
    ((syncRoles provider sha256Hex).discipline call).Lasting
      fun db => Landed sha256Hex db artifact :=
  fun _ _ _ h hcommit => CommitOf.landed hcommit h

theorem allLanded_lasting (call : SyncCall) (artifacts : List FetchedArtifact) :
    ((syncRoles provider sha256Hex).discipline call).Lasting
      fun db => ∀ artifact ∈ artifacts, Landed sha256Hex db artifact :=
  fun _ _ _ h hcommit artifact hmem => CommitOf.landed hcommit (h artifact hmem)

theorem blobStored_lasting (call : SyncCall) (path : BlobPath) :
    ((syncRoles provider sha256Hex).discipline call).Lasting (BlobStored path) := by
  rintro _ _ _ ⟨blob, hblob⟩ hcommit
  exact CommitOf.blob_kept hcommit hblob

theorem first_lasting (call : SyncCall) :
    ((syncRoles provider sha256Hex).discipline call).Lasting fun db => call.runId ∉ db.claims :=
  fun _ _ _ h hcommit => CommitOf.claims hcommit (fun hne => hne rfl) h

theorem advanced_lasting (call : SyncCall) (advanced : Bool) (checkpoint : Json) :
    ((syncRoles provider sha256Hex).discipline call).Lasting fun db =>
      advanced = true → Holds call.runId call.partition.id checkpoint db :=
  fun db writes hdb h hcommit htrue => holds_lasting call _ _ db writes hdb (h htrue) hcommit

theorem claimed_lasting (call : SyncCall) (claimed : Option SyncPartitionRow) :
    ((syncRoles provider sha256Hex).discipline call).Lasting fun db =>
      ∀ row, claimed = some row → Holds call.runId call.partition.id row.committedCheckpoint db :=
  fun db writes hdb h hcommit row hrow =>
    holds_lasting call _ _ db writes hdb (h row hrow) hcommit

/-- A partition that one's own write has locked. -/
theorem CommitOf.partition_of_free (hcommit : CommitOf provider sha256Hex who db theirs)
    (hfree : Free syncStore theirs [w]) {new : SyncPartitionRow} (hw : w.partition? = some new) :
    (syncStore.view db theirs).partitions.find? new.id = db.partitions.find? new.id := by
  have hsingle : ∀ w', theirs = [w'] →
      (w'.apply db).partitions.find? new.id = db.partitions.find? new.id := by
    rintro w' rfl
    have hclash : SyncWrite.clash w' w = false := hfree w' List.mem_cons_self w List.mem_cons_self
    rw [find?_partitions]
    cases hrow : w'.partition? with
    | none => rfl
    | some row =>
        rw [SyncWrite.clash, hrow, hw] at hclash
        simp only [Option.any_some, Bool.or_eq_false_iff, decide_eq_false_iff_not] at hclash
        rw [Option.filter_some, if_neg (by simpa using hclash.1.1), Option.none_or]
  cases hcommit with
  | nothing => rfl
  | lease r w' _ _ => exact hsingle w' rfl
  | «open» w' _ => exact hsingle w' rfl

/-- An artifact that one's own write has locked. -/
theorem CommitOf.artifact_of_free (hcommit : CommitOf provider sha256Hex who db theirs)
    (hfree : Free syncStore theirs [w]) {new : RawArtifactRow} (hw : w.artifact? = some new) :
    (syncStore.view db theirs).artifacts.find? new.id = db.artifacts.find? new.id := by
  have hsingle : ∀ w', theirs = [w'] →
      (w'.apply db).artifacts.find? new.id = db.artifacts.find? new.id := by
    rintro w' rfl
    have hclash : SyncWrite.clash w' w = false := hfree w' List.mem_cons_self w List.mem_cons_self
    rw [find?_artifacts]
    cases hrow : w'.artifact? with
    | none => rfl
    | some row =>
        rw [SyncWrite.clash, hrow, hw] at hclash
        simp only [Option.any_some, Bool.or_eq_false_iff, decide_eq_false_iff_not] at hclash
        rw [Option.filter_some, if_neg (by simpa using hclash.1.2.1.1), Option.none_or]
  cases hcommit with
  | nothing => rfl
  | lease r w' _ _ => exact hsingle w' rfl
  | «open» w' _ => exact hsingle w' rfl

/-! ## Partitions -/

/-- Nothing is written, or a change of a partition that its own write has locked. -/
def LeaseWrite (provider : Provider) (sha256Hex : String → String) (runId : String) (db : SyncDb)
    (own : List SyncWrite) : Prop :=
  own = [] ∨ ∃ w, own = [w] ∧ LeaseChange provider sha256Hex runId db w

theorem LeaseWrite.commit (h : LeaseWrite provider sha256Hex runId db own) :
    CommitOf provider sha256Hex (· = runId) db own := by
  rcases h with rfl | ⟨w, rfl, hchange⟩
  · exact .nothing
  · exact .lease runId w rfl hchange

theorem LeaseChange.of_free (h : LeaseChange provider sha256Hex runId db w)
    (hcommit : CommitOf provider sha256Hex (· ≠ runId) db theirs)
    (hfree : Free syncStore theirs [w]) :
    LeaseChange provider sha256Hex runId (syncStore.view db theirs) w := by
  cases h with
  | claim row now hstored hfresh hfirst =>
      exact .claim row now ((hcommit.partition_of_free hfree rfl).trans hstored) hfresh
        (hcommit.claims (fun hne => hne rfl) hfirst)
  | advance row batch release now hstored hheld hmine hsame hlinked hanswered hlanded =>
      exact .advance row batch release now ((hcommit.partition_of_free hfree rfl).trans hstored)
        hheld hmine hsame hlinked hanswered fun artifact hmem => hcommit.landed (hlanded artifact hmem)
  | release row message now hstored hheld =>
      exact .release row message now ((hcommit.partition_of_free hfree rfl).trans hstored) hheld

theorem leaseWrite_stable (call : SyncCall) :
    ((syncRoles provider sha256Hex).discipline call).Stable
      (LeaseWrite provider sha256Hex call.runId) := by
  rintro db own theirs _ (rfl | ⟨w, rfl, hchange⟩) hcommit hfree
  · exact .inl rfl
  · exact .inr ⟨w, rfl, hchange.of_free hcommit hfree⟩

/-- After a claim the run knows the checkpoint of the partition. -/
theorem claimPartition_commits (call : SyncCall) (partitionId : String) (now : Instant) :
    ((syncRoles provider sha256Hex).discipline call).CommitsAs
      (CommitOf provider sha256Hex (· = call.runId)) (fun db => call.runId ∉ db.claims)
      (claimPartition partitionId call.runId now) fun claimed db =>
        ∀ row, claimed = some row → Holds call.runId partitionId row.committedCheckpoint db := by
  refine Discipline.CommitsAs.execute
    (fun claimed db own => LeaseWrite provider sha256Hex call.runId db own ∧
      ∀ row, claimed = some row → row.id = partitionId ∧ own = [.claimed row call.runId])
    (fun claimed => (leaseWrite_stable call).and (Discipline.stable_own _)) ?_ ?_
  · intro db new claimed _ hfirst hrun
    cases hstored : db.partitions.find? partitionId with
    | none =>
        rw [hstored] at hrun
        cases hrun
        exact ⟨.inl rfl, nofun⟩
    | some row =>
        rw [hstored] at hrun
        dsimp only at hrun
        obtain rfl := Table.key_of_find? hstored
        split at hrun
        · rename_i hfree
          cases hrun
          refine ⟨.inr ⟨_, rfl, .claim row now hstored hfree hfirst⟩, ?_⟩
          rintro _ ⟨⟩
          exact ⟨rfl, rfl⟩
        · cases hrun
          exact ⟨.inl rfl, nofun⟩
  · rintro claimed db own - ⟨hwrite, hclaimed⟩
    refine ⟨hwrite.commit, fun row hrow other hother hpending => ?_⟩
    obtain ⟨rfl, rfl⟩ := hclaimed row hrow
    change (SyncWrite.apply db (.claimed row call.runId)).partitions.find? row.id = some other
      at hother
    rw [find?_partitions] at hother
    obtain rfl : row = other := by
      simpa [SyncWrite.partition?, Option.filter_some] using hother
    rfl

theorem releasePartition_commits (call : SyncCall) (know : SyncDb → Prop) (partitionId : String)
    (message : Option String) (now : Instant) :
    ((syncRoles provider sha256Hex).discipline call).CommitsAs
      (CommitOf provider sha256Hex (· = call.runId)) know
      (releasePartition partitionId call.runId message now) fun _ _ => True := by
  refine Discipline.CommitsAs.execute
    (fun _ => LeaseWrite provider sha256Hex call.runId)
    (fun _ => leaseWrite_stable call) ?_ fun _ _ _ _ hwrite => ⟨hwrite.commit, trivial⟩
  intro db new value _ _ hrun
  cases hstored : db.partitions.find? partitionId with
  | none =>
      rw [hstored] at hrun
      cases hrun
      exact .inl rfl
  | some row =>
      rw [hstored] at hrun
      dsimp only at hrun
      obtain rfl := Table.key_of_find? hstored
      split at hrun
      · rename_i hheld
        cases hrun
        exact .inr ⟨_, rfl, .release row message now hstored hheld⟩
      · cases hrun
        exact .inl rfl

/-- The batch was fetched from the checkpoint the run knows, and has landed. -/
theorem commitCheckpoint_commits (call : SyncCall) (partitionId : String)
    (state : SyncPartitionState) (result : FetchIncrementalResult)
    (hanswered : provider state result) (release : Bool) (now : Instant) :
    ((syncRoles provider sha256Hex).discipline call).CommitsAs
      (CommitOf provider sha256Hex (· = call.runId))
      (fun db => Holds call.runId partitionId state.committedCheckpoint db ∧
        ∀ artifact ∈ result.artifacts, Landed sha256Hex db artifact)
      (commitCheckpoint partitionId call.runId state result release now) fun advanced db =>
        advanced = true → Holds call.runId partitionId result.nextCheckpoint db := by
  refine Discipline.CommitsAs.execute
    (fun advanced db own => LeaseWrite provider sha256Hex call.runId db own ∧
      (advanced = true → ∃ row : SyncPartitionRow, row.id = partitionId ∧
        row.committedCheckpoint = result.nextCheckpoint ∧
        own = [.advanced row ⟨partitionId, call.runId, state, result⟩]))
    (fun advanced => (leaseWrite_stable call).and (Discipline.stable_own _)) ?_ ?_
  · rintro db new advanced _ ⟨hholds, hlanded⟩ hrun
    cases hstored : db.partitions.find? partitionId with
    | none =>
        rw [hstored] at hrun
        cases hrun
        exact ⟨.inl rfl, nofun⟩
    | some row =>
        rw [hstored] at hrun
        dsimp only at hrun
        obtain rfl := Table.key_of_find? hstored
        split at hrun
        · rename_i hheld
          cases hrun
          refine ⟨.inr ⟨_, rfl, .advance row ⟨row.id, call.runId, state, result⟩ release now hstored
            hheld rfl rfl (hholds row hstored hheld).symm hanswered hlanded⟩, fun _ => ?_⟩
          exact ⟨row.advance result.nextCheckpoint (!result.hasMore) release now, rfl, rfl, rfl⟩
        · cases hrun
          exact ⟨.inl rfl, nofun⟩
  · rintro advanced db own - ⟨hwrite, hadvanced⟩
    refine ⟨hwrite.commit, fun htrue other hother hpending => ?_⟩
    obtain ⟨row, rfl, hcheckpoint, rfl⟩ := hadvanced htrue
    change (SyncWrite.apply db (.advanced row _)).partitions.find? row.id = some other at hother
    rw [find?_partitions] at hother
    obtain rfl : row = other := by
      simpa [SyncWrite.partition?, Option.filter_some] using hother
    exact hcheckpoint

/-! ## Artifacts -/

/-- Nothing is written, or a change that anybody may make. -/
def OpenWrite (sha256Hex : String → String) (db : SyncDb) (own : List SyncWrite) : Prop :=
  own = [] ∨ ∃ w, own = [w] ∧ w.partition? = none ∧ OpenChange sha256Hex db w

theorem OpenWrite.commit (h : OpenWrite sha256Hex db own) :
    CommitOf provider sha256Hex (fun _ => False) db own := by
  rcases h with rfl | ⟨w, rfl, -, hchange⟩
  · exact .nothing
  · exact .open w hchange

theorem openWrite_stable (call : SyncCall) :
    ((syncRoles provider sha256Hex).discipline call).Stable fun db own =>
      OpenWrite sha256Hex db own := by
  rintro db own theirs _ (rfl | ⟨w, rfl, hpartition, hchange⟩) hcommit hfree
  · exact .inl rfl
  · refine .inr ⟨w, rfl, hpartition, ?_⟩
    cases hchange with
    | ensured row => cases hpartition
    | blob row haddressed => exact .blob row haddressed
    | artifact row hblob haddressed hsame =>
        obtain ⟨blob, hblob⟩ := hblob
        refine .artifact row (CommitOf.blob_kept hcommit hblob) haddressed fun old hold => ?_
        rw [CommitOf.artifact_of_free hcommit hfree (rfl : (SyncWrite.artifact row).artifact? = some row)] at hold
        exact hsame old hold
    | reused reuse row hstored =>
        obtain ⟨new, hnew, -⟩ := CommitOf.artifact_kept hcommit hstored
        exact .reused reuse new hnew

theorem putBlob_commits (call : SyncCall) (path : BlobPath) (body : String)
    (haddressed : path.sha256 = sha256Hex body) :
    ((syncRoles provider sha256Hex).discipline call).CommitsAs
      (CommitOf provider sha256Hex fun _ => False) (fun _ => True) (putBlob path body)
      fun _ => BlobStored path := by
  refine Discipline.CommitsAs.execute
    (fun _ db own => OpenWrite sha256Hex db own ∧ own = [.blob ⟨path, body⟩])
    (fun _ => (openWrite_stable call).and (Discipline.stable_own _)) ?_ ?_
  · rintro db new value _ _ ⟨⟩
    exact ⟨.inr ⟨_, rfl, rfl, .blob ⟨path, body⟩ haddressed⟩, rfl⟩
  · rintro _ db own - ⟨hwrite, rfl⟩
    refine ⟨hwrite.commit, ⟨path, body⟩, ?_⟩
    change (SyncWrite.apply db (.blob ⟨path, body⟩)).blobs.find? path = _
    rw [find?_blobs]
    simp [SyncWrite.blob?, Option.filter_some]

/-- An artifact is inserted, or the row of its content is written again. -/
theorem triple_insertArtifact (call : SyncCall) (row : RawArtifactRow)
    (haddressed : row.blobUri.sha256 = row.sha256) :
    ((syncRoles provider sha256Hex).discipline call).Triple
      (fun db own => BlobStored row.blobUri db ∧ own = []) (insertArtifact row) fun _ db own =>
        OpenWrite sha256Hex db own ∧ ∃ new : RawArtifactRow, new.sha256 = row.sha256 ∧
          own = [.artifact new] := by
  refine Discipline.Triple.execute
    (fun _ => (openWrite_stable call).and (Discipline.stable_own _)) ?_
  rintro db own new value hdb ⟨hblob, rfl⟩ hrun
  rw [Store.view_nil] at hrun
  rw [List.nil_append]
  cases hexisting : db.artifacts.rows.find? fun other => other.sha256 = row.sha256 with
  | some existing =>
      rw [hexisting] at hrun
      cases hrun
      have hstored := Table.find?_key (List.mem_of_find?_eq_some hexisting)
      have hsha : existing.sha256 = row.sha256 := by simpa using List.find?_some hexisting
      obtain ⟨hstoredBlob, hexistingAddressed⟩ := hdb.artifacts _ _ hstored
      refine ⟨.inr ⟨_, rfl, rfl, .artifact (existing.merged row) hstoredBlob hexistingAddressed ?_⟩,
        existing.merged row, hsha, rfl⟩
      intro old hold
      obtain rfl : existing = old := Option.some.inj (hstored.symm.trans hold)
      exact ⟨rfl, rfl⟩
  | none =>
      rw [hexisting] at hrun
      dsimp only at hrun
      split at hrun
      · cases hrun
      · rename_i hnew
        cases hrun
        rw [Bool.or_eq_true, not_or, Option.not_isSome_iff_eq_none] at hnew
        refine ⟨.inr ⟨_, rfl, rfl, .artifact row hblob haddressed fun old hold => ?_⟩, row, rfl, rfl⟩
        rw [hnew.1] at hold
        cases hold

theorem insertOrReuseArtifact_commits (call : SyncCall) (row : RawArtifactRow)
    (artifact : FetchedArtifact) (haddressed : row.blobUri.sha256 = row.sha256)
    (hsha : row.sha256 = sha256Hex artifact.body) :
    ((syncRoles provider sha256Hex).discipline call).CommitsAs
      (CommitOf provider sha256Hex fun _ => False) (BlobStored row.blobUri)
      (insertOrReuseArtifact row artifact) fun _ db => Landed sha256Hex db artifact := by
  refine Discipline.Triple.bind (Discipline.Triple.execute (?_ : ∀ existing,
    ((syncRoles provider sha256Hex).discipline call).Stable fun db own =>
      (existing = none → BlobStored row.blobUri db ∧ own = []) ∧
        ((existing : Option RawArtifactRow) ≠ none → OpenWrite sha256Hex db own ∧
          ∃ id, own = [.reused ⟨id, artifact⟩])) ?_) ?_
  · intro existing db own theirs hdb h hcommit hfree
    refine ⟨fun hnone => ?_, fun hsome => ?_⟩
    · exact ⟨blobStored_lasting call _ db theirs hdb (h.1 hnone).1 hcommit, (h.1 hnone).2⟩
    · exact ⟨openWrite_stable call db own theirs hdb (h.2 hsome).1 hcommit hfree, (h.2 hsome).2⟩
  · rintro db own new existing hdb ⟨hblob, rfl⟩ hrun
    rw [Store.view_nil] at hrun
    rw [List.nil_append]
    cases hfound : row.envelope.idempotencyKey.bind (findArtifactByIdempotencyKey db) with
    | none =>
        rw [hfound] at hrun
        cases hrun
        exact ⟨fun _ => ⟨hblob, rfl⟩, fun h => absurd rfl h⟩
    | some other =>
        rw [hfound] at hrun
        cases hrun
        refine ⟨nofun, fun _ => ⟨.inr ⟨_, rfl, rfl, .reused _ other ?_⟩, other.id, rfl⟩⟩
        obtain ⟨key, -, hkey⟩ := Option.bind_eq_some_iff.mp hfound
        exact Table.find?_key (List.mem_of_find?_eq_some hkey)
  · intro existing
    cases existing with
    | none =>
        refine Discipline.Triple.mono (Discipline.Triple.weaken
          (triple_insertArtifact call row haddressed) fun db own _ h => h.1 rfl) ?_
        rintro _ db own - ⟨hwrite, new, hnew, rfl⟩
        refine ⟨hwrite.commit, .inl ⟨new.id, new, ?_, hnew.trans hsha⟩⟩
        change (SyncWrite.apply db (.artifact new)).artifacts.find? new.id = _
        rw [find?_artifacts]
        simp [SyncWrite.artifact?, Option.filter_some]
    | some other =>
        refine Discipline.Triple.done fun db own _ h => ?_
        obtain ⟨hwrite, id, rfl⟩ := h.2 (Option.some_ne_none _)
        exact ⟨hwrite.commit, .inr ⟨⟨id, artifact⟩, List.mem_append_right _ (by simp [SyncWrite.reuse?]),
          rfl⟩⟩

/-! ## The run -/

section Scripts

variable {know : SyncDb → Prop}

/-- What only adds artifacts is within what the run relies on as well as within its share. -/
theorem within_open (call : SyncCall) :
    ((syncRoles provider sha256Hex).discipline call).Within
      (CommitOf provider sha256Hex fun _ => False) :=
  fun _ _ _ h => CommitOf.mono h fun _ => False.elim

theorem ingestOne_sound (call : SyncCall) (artifact : FetchedArtifact) :
    ((syncRoles provider sha256Hex).discipline call).SoundAs
      (CommitOf provider sha256Hex fun _ => False) (fun _ => True)
      (ingestOne sha256Hex call artifact : SyncScript provider RawArtifactRow)
      fun _ db => Landed sha256Hex db artifact := by
  refine Discipline.Sound.bind (Discipline.Sound.ask _) fun id => ?_
  refine Discipline.Sound.bind (Discipline.Sound.ask _) fun at_ => ?_
  refine Discipline.Sound.bind (Discipline.Sound.transact Discipline.lasting_true
    (fun _ => blobStored_lasting call _) (putBlob_commits call _ _ rfl)) fun _ => ?_
  refine Discipline.Sound.bind (Discipline.Sound.transact (blobStored_lasting call _)
    (fun _ => landed_lasting call artifact)
    (insertOrReuseArtifact_commits call (artifactInput call id _ artifact) artifact rfl rfl))
    fun row => ?_
  refine Discipline.Sound.bind (Discipline.Sound.ask _) fun _ => ?_
  exact Discipline.Sound.pure fun _ _ h => h

theorem ingestMany_sound (call : SyncCall) (artifacts : List FetchedArtifact) :
    ((syncRoles provider sha256Hex).discipline call).SoundAs
      (CommitOf provider sha256Hex fun _ => False) (fun _ => True)
      (ingestMany sha256Hex call artifacts : SyncScript provider (List RawArtifactRow))
      fun _ db => ∀ artifact ∈ artifacts, Landed sha256Hex db artifact := by
  induction artifacts with
  | nil => exact Discipline.Sound.pure fun _ _ _ artifact hmem => absurd hmem List.not_mem_nil
  | cons artifact artifacts ih =>
      refine Discipline.Sound.bind (ingestOne_sound call artifact) fun row => ?_
      have hrest := Discipline.Sound.frameAs (within_open call) (landed_lasting call artifact) ih
      refine Discipline.Sound.bind (Discipline.Sound.weaken hrest fun _ _ h => ⟨h, trivial⟩)
        fun rows => ?_
      refine Discipline.Sound.pure fun db _ h other hother => ?_
      rcases List.mem_cons.mp hother with rfl | hmem
      · exact h.1
      · exact h.2 other hmem

theorem releaseLease_sound (call : SyncCall) (message : String) :
    ((syncRoles provider sha256Hex).discipline call).SoundAs
      (CommitOf provider sha256Hex (· = call.runId)) (fun _ => True)
      (releaseLease call message : SyncScript provider Unit) fun _ _ => True := by
  refine Discipline.Sound.bind (Discipline.Sound.ask _) fun at_ => ?_
  exact Discipline.Sound.transact Discipline.lasting_true (fun _ => Discipline.lasting_true)
    (releasePartition_commits call _ _ _ _)

theorem ingestMany_holds (call : SyncCall) (artifacts : List FetchedArtifact) (checkpoint : Json) :
    ((syncRoles provider sha256Hex).discipline call).SoundAs
      (CommitOf provider sha256Hex (· = call.runId))
      (Holds call.runId call.partition.id checkpoint)
      (ingestMany sha256Hex call artifacts : SyncScript provider (List RawArtifactRow))
      fun _ db => Holds call.runId call.partition.id checkpoint db ∧
        ∀ artifact ∈ artifacts, Landed sha256Hex db artifact := by
  have hframe := Discipline.Sound.frameAs (within_open call)
    (holds_lasting call call.partition.id checkpoint)
    (@ingestMany_sound provider sha256Hex call artifacts)
  refine Discipline.Sound.widen (Discipline.Sound.weaken hframe fun _ _ h => ⟨h, trivial⟩) ?_
  exact fun _ _ _ h => CommitOf.mono h fun _ => False.elim

theorem pullBatches_sound (call : SyncCall) (claimed : SyncPartitionRow) (left : Nat)
    (checkpoint : Json) :
    ((syncRoles provider sha256Hex).discipline call).SoundAs
      (CommitOf provider sha256Hex (· = call.runId))
      (Holds call.runId call.partition.id checkpoint)
      (pullBatches sha256Hex call claimed left checkpoint : SyncScript provider Bool)
      fun _ _ => True := by
  induction left generalizing checkpoint with
  | zero => exact Discipline.Sound.pure fun _ _ _ => trivial
  | succ left ih =>
      refine Discipline.Sound.bind (Discipline.Sound.ask _) fun result => ?_
      refine Discipline.Sound.bind (ingestMany_holds call result.1.artifacts checkpoint) fun _ => ?_
      refine Discipline.Sound.bind (Discipline.Sound.ask _) fun at_ => ?_
      refine Discipline.Sound.bind (Discipline.Sound.transact
        ((holds_lasting call _ checkpoint).and (allLanded_lasting call _))
        (fun advanced => advanced_lasting call advanced result.1.nextCheckpoint)
        (commitCheckpoint_commits call call.partition.id _ result.1 result.2 _ at_)) fun advanced => ?_
      cases advanced with
      | false => exact Discipline.Sound.pure fun _ _ _ => trivial
      | true =>
          refine Discipline.Sound.bind (Discipline.Sound.ask _) fun _ => ?_
          split
          · exact Discipline.Sound.weaken (ih result.1.nextCheckpoint) fun _ _ h => h rfl
          · exact Discipline.Sound.pure fun _ _ _ => trivial

theorem syncClaimed_sound (call : SyncCall) (claimed : SyncPartitionRow) :
    ((syncRoles provider sha256Hex).discipline call).SoundAs
      (CommitOf provider sha256Hex (· = call.runId))
      (Holds call.runId call.partition.id claimed.committedCheckpoint)
      (syncClaimed sha256Hex call claimed : SyncScript provider Unit) fun _ _ => True := by
  refine Discipline.Sound.bind (Discipline.Sound.ask _) fun credentials => ?_
  split
  · exact Discipline.Sound.weaken (releaseLease_sound call _) fun _ _ _ => trivial
  · refine Discipline.Sound.bind (pullBatches_sound call claimed _ _) fun held => ?_
    split
    · exact Discipline.Sound.bind (Discipline.Sound.ask _) fun _ => Discipline.Sound.ask _
    · exact Discipline.Sound.pure fun _ _ _ => trivial

/-- A run of the worker keeps to its role. -/
theorem syncPartition_sound (call : SyncCall) :
    ((syncRoles provider sha256Hex).discipline call).SoundAs
      ((syncRoles provider sha256Hex).share call) ((syncRoles provider sha256Hex).start call)
      (syncPartition sha256Hex call : SyncScript provider Unit) fun _ _ => True := by
  refine Discipline.Sound.bind (Discipline.Sound.ask _) fun at_ => ?_
  refine Discipline.Sound.bind (Discipline.Sound.transact (first_lasting call)
    (claimed_lasting call) (claimPartition_commits call call.partition.id at_)) fun claimed => ?_
  cases claimed with
  | none => exact Discipline.Sound.pure fun _ _ _ => trivial
  | some claimed =>
      refine Discipline.Sound.catchAll
        (Discipline.Sound.weaken (syncClaimed_sound call claimed) fun _ _ h => h claimed rfl) ?_
      intro error
      exact Discipline.Sound.catchAll (releaseLease_sound call _) fun _ =>
        Discipline.Sound.pure fun _ _ _ => trivial

end Scripts

end BrainCore.Raw
