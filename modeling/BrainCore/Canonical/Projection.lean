import BrainCore.Canonical.Commits

/-!
# The transaction of a projection

The upserts of a row, one after the other and with others committing between
any two statements, put of each key what its last upsert gives.  An id in a
reference is that of the row it is to; a row known to be there from the start is
never missed.
-/

namespace BrainCore.Canonical

open BrainCore.Foundation BrainCore.Raw

variable {projectors : Projectors} {inputs done done' : List CanonicalUpsert} {tenantId : String}
  {known : CanonicalKey → Prop} {db : ProjectorDb} {own theirs : List ProjectorWrite}
  {row : CanonicalRow} {input : CanonicalUpsert} {refs : List ResolvedReference}

/-! ## What is put so far -/

theorem present_of_free (hcommit : ProjectorCommit projectors db theirs) {k : CanonicalKey}
    {id : String} (h : Present (projectorStore.view db own) k id) :
    Present (projectorStore.view (projectorStore.view db theirs) own) k id := by
  obtain ⟨row, hrow, hid⟩ := h
  rw [find?_canonical] at hrow
  rw [Present, find?_canonical]
  cases hput : written own k with
  | some put =>
      rw [hput] at hrow
      exact ⟨row, hrow, hid⟩
  | none =>
      rw [hput, Option.none_or] at hrow
      exact hcommit.present ⟨row, hrow, hid⟩

theorem present_of_put {k : CanonicalKey} {id : String}
    (hid : ∀ old, (projectorStore.view db own).canonical.find? row.key = some old →
      row.id = old.id)
    (h : Present (projectorStore.view db own) k id) :
    Present (projectorStore.view db (own ++ [.canonical row])) k id := by
  obtain ⟨old, hold, hsame⟩ := h
  rw [Present, Store.view_append, find?_canonical, written_canonical]
  by_cases hkey : row.key = k
  · rw [if_pos hkey]
    exact ⟨row, rfl, (hid old (hkey ▸ hold)).trans hsame⟩
  · rw [if_neg hkey, Option.none_or]
    exact ⟨old, hold, hsame⟩

/-- The rows of the upserts that are done are put, and no reference to a known row is left open. -/
structure Progress (projectors : Projectors) (inputs : List CanonicalUpsert) (tenantId : String)
    (known : CanonicalKey → Prop) (done : List CanonicalUpsert) (db : ProjectorDb)
    (own : List ProjectorWrite) : Prop extends Puts projectors inputs done tenantId db own where
  present : ∀ k, known k → ∃ id, Present db k id
  complete : ∀ k row, written own k = some row → ∀ reference ∈ row.references, ∀ target,
    row.target reference = some target → known target → reference.id ≠ none

theorem Progress.of_free (h : Progress projectors inputs tenantId known done db own)
    (hcommit : ProjectorCommit projectors db theirs) (hfree : Free projectorStore theirs own) :
    Progress projectors inputs tenantId known done (projectorStore.view db theirs) own where
  canonical := h.canonical
  given := h.given
  standing := h.standing
  ids k row old hrow hold := by
    obtain ⟨hmem, rfl⟩ := mem_of_written hrow
    rw [find?_canonical, written_of_free hfree hmem, Option.none_or] at hold
    exact h.ids row.key row old hrow hold
  resolved k row hrow reference hreference id hid := by
    obtain ⟨target, htarget, hpresent⟩ := h.resolved k row hrow reference hreference id hid
    exact ⟨target, htarget, present_of_free hcommit hpresent⟩
  present k hk := by
    obtain ⟨id, hpresent⟩ := h.present k hk
    exact ⟨id, hcommit.present hpresent⟩
  complete := h.complete

/-- One more row: for its key it is what the upserts that are done by then say, and other keys
are as before. -/
theorem Progress.put (h : Progress projectors inputs tenantId known done db own)
    (hother : ∀ k, k ≠ row.key → lastInput done' tenantId k = lastInput done tenantId k)
    (hgiven : ∀ input, lastInput done' tenantId row.key = some input → input.Gives tenantId row)
    (hstanding : lastInput done' tenantId row.key = none →
      StandsIn projectors inputs tenantId row)
    (hid : ∀ old, (projectorStore.view db own).canonical.find? row.key = some old →
      row.id = old.id)
    (hresolved : ResolvedIn (projectorStore.view db own) row)
    (hcomplete : ∀ reference ∈ row.references, ∀ target, row.target reference = some target →
      known target → reference.id ≠ none) :
    Progress projectors inputs tenantId known done' db (own ++ [.canonical row]) := by
  have hwritten : ∀ k, written (own ++ [.canonical row]) k =
      if row.key = k then some row else written own k := by
    intro k
    rw [written_append, written_canonical]
    by_cases hkey : row.key = k
    · rw [if_pos hkey, if_pos hkey, Option.some_or]
    · rw [if_neg hkey, if_neg hkey, Option.none_or]
  have hcases : ∀ {k other}, written (own ++ [.canonical row]) k = some other →
      k = row.key ∧ other = row ∨ k ≠ row.key ∧ written own k = some other := by
    intro k other h
    rw [hwritten] at h
    split at h
    · rename_i hkey
      exact .inl ⟨hkey.symm, (Option.some.inj h).symm⟩
    · rename_i hkey
      exact .inr ⟨Ne.symm hkey, h⟩
  constructor
  · constructor
    · intro w hw
      rcases List.mem_append.mp hw with hw | hw
      · exact h.canonical w hw
      · exact ⟨row, List.mem_singleton.mp hw⟩
    · intro k input hinput
      by_cases hkey : k = row.key
      · subst hkey
        exact ⟨row, by rw [hwritten, if_pos rfl], hgiven input hinput⟩
      · rw [hother k hkey] at hinput
        rw [hwritten, if_neg (Ne.symm hkey)]
        exact h.given k input hinput
    · intro k other hnone hput
      rcases hcases hput with ⟨rfl, rfl⟩ | ⟨hkey, hput⟩
      · exact hstanding hnone
      · exact h.standing k other (hother k hkey ▸ hnone) hput
    · intro k other old hput hold
      rcases hcases hput with ⟨rfl, rfl⟩ | ⟨-, hput⟩
      · rw [find?_canonical] at hid
        cases hown : written own other.key with
        | none =>
            rw [hown, Option.none_or] at hid
            exact hid old hold
        | some first =>
            rw [hown] at hid
            exact (hid first rfl).trans (h.ids _ first old hown hold)
      · exact h.ids k other old hput hold
    · intro k other hput reference hreference id hreferenced
      rcases hcases hput with ⟨rfl, rfl⟩ | ⟨-, hput⟩
      · obtain ⟨target, htarget, hpresent⟩ := hresolved reference hreference id hreferenced
        exact ⟨target, htarget, present_of_put hid hpresent⟩
      · obtain ⟨target, htarget, hpresent⟩ := h.resolved k other hput reference hreference id
          hreferenced
        exact ⟨target, htarget, present_of_put hid hpresent⟩
  · exact h.present
  · intro k other hput
    rcases hcases hput with ⟨rfl, rfl⟩ | ⟨-, hput⟩
    · exact hcomplete
    · exact h.complete k other hput

theorem lastInput_snoc {last : CanonicalUpsert} {k : CanonicalKey} (hkey : last.key tenantId = k) :
    lastInput (done ++ [last]) tenantId k = some last := by
  rw [lastInput_append, if_pos hkey]

theorem lastInput_snoc_of_ne {last : CanonicalUpsert} {k : CanonicalKey}
    (hkey : last.key tenantId ≠ k) :
    lastInput (done ++ [last]) tenantId k = lastInput done tenantId k := by
  rw [lastInput_append, if_neg hkey]

/-- The row that the last upsert gives; its key may have been put before. -/
theorem Progress.put_given (h : Progress projectors inputs tenantId known done' db own)
    {last : CanonicalUpsert} (hgives : last.Gives tenantId row)
    (hother : ∀ k, k ≠ row.key → lastInput done' tenantId k = lastInput done tenantId k)
    (hid : ∀ old, (projectorStore.view db own).canonical.find? row.key = some old →
      row.id = old.id)
    (hresolved : ResolvedIn (projectorStore.view db own) row)
    (hcomplete : ∀ reference ∈ row.references, ∀ target, row.target reference = some target →
      known target → reference.id ≠ none) :
    Progress projectors inputs tenantId known (done ++ [last]) db (own ++ [.canonical row]) := by
  have hlast : lastInput (done ++ [last]) tenantId row.key = some last :=
    lastInput_snoc hgives.key.symm
  refine h.put (fun k hk => ?_) (fun input hinput => ?_) (fun hnone => ?_) hid hresolved hcomplete
  · rw [lastInput_snoc_of_ne fun hsame => hk (hsame.symm.trans hgives.key.symm), hother k hk]
  · obtain rfl := Option.some.inj (hlast.symm.trans hinput)
    exact hgives
  · rw [hlast] at hnone
    cases hnone

/-! ## References that are looked up -/

theorem CanonicalUpsert.Gives.target (h : input.Gives tenantId row)
    (reference : ResolvedReference) :
    row.target reference = input.target tenantId reference.toCanonicalReference := by
  rw [CanonicalRow.target, CanonicalUpsert.target, h.key]
  rfl

/-- What was found for some references of an upsert. -/
structure Referenced (projectors : Projectors) (inputs : List CanonicalUpsert) (tenantId : String)
    (known : CanonicalKey → Prop) (input : CanonicalUpsert) (refs : List ResolvedReference)
    (done : List CanonicalUpsert) (db : ProjectorDb) (own : List ProjectorWrite) : Prop extends
    Progress projectors inputs tenantId known done db own where
  found : ∀ reference ∈ refs, ∀ id, reference.id = some id →
    ∃ k, input.target tenantId reference.toCanonicalReference = some k ∧
      Present (projectorStore.view db own) k id
  all : ∀ reference ∈ refs, ∀ k,
    input.target tenantId reference.toCanonicalReference = some k → known k → reference.id ≠ none

theorem Progress.referenced (h : Progress projectors inputs tenantId known done db own)
    (input : CanonicalUpsert) : Referenced projectors inputs tenantId known input [] done db own := by
  refine ⟨h, ?_, ?_⟩
  · intro reference hreference
    cases hreference
  · intro reference hreference
    cases hreference

theorem referenced_stable :
    (projecting projectors).Stable fun db own =>
      Referenced projectors inputs tenantId known input refs done db own := by
  intro db own theirs _ h hcommit hfree
  refine ⟨h.toProgress.of_free hcommit hfree, fun reference hreference id hid => ?_, h.all⟩
  obtain ⟨k, hk, hpresent⟩ := h.found reference hreference id hid
  exact ⟨k, hk, present_of_free hcommit hpresent⟩

theorem progress_stable :
    (projecting projectors).Stable fun db own =>
      Progress projectors inputs tenantId known done db own :=
  fun _ _ _ _ h hcommit hfree => h.of_free hcommit hfree

theorem Referenced.snoc (h : Referenced projectors inputs tenantId known input refs done db own)
    (reference : ResolvedReference)
    (hfound : ∀ id, reference.id = some id →
      ∃ k, input.target tenantId reference.toCanonicalReference = some k ∧
        Present (projectorStore.view db own) k id)
    (hall : ∀ k, input.target tenantId reference.toCanonicalReference = some k → known k →
      reference.id ≠ none) :
    Referenced projectors inputs tenantId known input (refs ++ [reference]) done db own := by
  refine ⟨h.toProgress, fun other hother => ?_, fun other hother => ?_⟩
  · rcases List.mem_append.mp hother with hother | hother
    · exact h.found other hother
    · obtain rfl := List.mem_singleton.mp hother
      exact hfound
  · rcases List.mem_append.mp hother with hother | hother
    · exact h.all other hother
    · obtain rfl := List.mem_singleton.mp hother
      exact hall

/-- A lookup finds the row, or there is none and no upsert that is done gave one. -/
theorem triple_findTarget (reference : CanonicalReference) :
    (projecting projectors).Triple
      (fun db own => Referenced projectors inputs tenantId known input refs done db own)
      (findTarget tenantId input reference) fun id db own =>
        (∀ k, input.target tenantId reference = some k → id = none →
          lastInput done tenantId k = none) ∧
        Referenced projectors inputs tenantId known input (refs ++ [⟨reference, id⟩]) done db own := by
  apply Discipline.Triple.select
  · exact fun id => (Discipline.stable_own fun _ => _).and referenced_stable
  · intro db own _ h
    have hmissing : ∀ k, input.target tenantId reference = some k →
        ((input.target tenantId reference).bind fun key =>
          ((projectorStore.view db own).canonical.find? key).map CanonicalRow.id) = none →
        (projectorStore.view db own).canonical.find? k = none := by
      intro k hk hnone
      rw [hk] at hnone
      exact Option.map_eq_none_iff.mp hnone
    refine ⟨fun k hk hnone => ?_, h.snoc _ (fun id hid => ?_) fun k hk hknown hnone => ?_⟩
    · have hview := hmissing k hk hnone
      rw [find?_canonical, Option.or_eq_none_iff] at hview
      cases hlast : lastInput done tenantId k with
      | none => rfl
      | some last =>
          obtain ⟨put, hput, -⟩ := h.given k last hlast
          rw [hview.1] at hput
          cases hput
    · obtain ⟨k, hk, hrow⟩ := Option.bind_eq_some_iff.mp hid
      obtain ⟨target, htarget, hsame⟩ := Option.map_eq_some_iff.mp hrow
      exact ⟨k, hk, target, htarget, hsame⟩
    · have hview := hmissing k hk hnone
      rw [find?_canonical, Option.or_eq_none_iff] at hview
      obtain ⟨id, old, hold, -⟩ := h.present k hknown
      rw [hview.2] at hold
      cases hold

theorem triple_resolveReferences (references : List CanonicalReference) :
    (projecting projectors).Triple
      (fun db own => Referenced projectors inputs tenantId known input refs done db own)
      (resolveReferences tenantId input references) fun more db own =>
        more.map ResolvedReference.toCanonicalReference = references ∧
          Referenced projectors inputs tenantId known input (refs ++ more) done db own := by
  induction references generalizing refs with
  | nil =>
      refine Discipline.Triple.done fun db own _ h => ⟨rfl, ?_⟩
      rw [List.append_nil]
      exact h
  | cons reference rest ih =>
      refine Discipline.Triple.bind (triple_findTarget reference) fun id => ?_
      refine Discipline.Triple.bind (Discipline.Triple.weaken ih fun _ _ _ h => h.2) fun more => ?_
      refine Discipline.Triple.done fun db own _ h => ⟨?_, ?_⟩
      · rw [List.map_cons, h.1]
      · rw [List.append_cons]
        exact h.2

/-! ## Rows that are put -/

theorem putCanonical_ok {newId id : String} {now : Nat} {db : ProjectorDb}
    {new : List ProjectorWrite}
    (h : (match db.canonical.find? (input.key tenantId) with
      | some old => .ok ([.canonical (input.row tenantId old.id refs now)], old.id)
      | none =>
          if db.canonical.rows.any fun other =>
              other.key.table = input.table && other.id = newId then
            .error duplicateKey
          else .ok ([.canonical (input.row tenantId newId refs now)], newId) :
        Except ProjectionError (List ProjectorWrite × String)) = .ok (new, id)) :
    new = [.canonical (input.row tenantId id refs now)] ∧
      ∀ old, db.canonical.find? (input.key tenantId) = some old → id = old.id := by
  split at h
  · rename_i old hold
    cases h
    refine ⟨rfl, fun other hother => ?_⟩
    rw [Option.some.inj (hold.symm.trans hother)]
  · rename_i hnone
    split at h
    · cases h
    · cases h
      refine ⟨rfl, fun other hother => ?_⟩
      rw [hnone] at hother
      cases hother

/-- The row that an upsert with its references puts. -/
theorem gives_row (id : String) (now : Nat) :
    ({ input with
      references := refs.map ResolvedReference.toCanonicalReference } : CanonicalUpsert).Gives
      tenantId (input.row tenantId id refs now) := ⟨rfl, rfl, rfl, rfl⟩

theorem Referenced.resolvedIn
    (h : Referenced projectors inputs tenantId known input refs done db own) (id : String)
    (now : Nat) : ResolvedIn (projectorStore.view db own) (input.row tenantId id refs now) :=
  h.found

/-- The row of the upsert with the references that were resolved is put. -/
theorem triple_putCanonical (newId : String) (now : Nat) :
    (projecting projectors).Triple
      (fun db own => Referenced projectors inputs tenantId known input refs done db own)
      (putCanonical tenantId newId now input refs) fun _ db own =>
        Progress projectors inputs tenantId known (done ++ [{ input with
          references := refs.map ResolvedReference.toCanonicalReference }]) db own := by
  apply Discipline.Triple.execute fun _ => progress_stable
  intro db own new id _ h hrun
  obtain ⟨rfl, hid⟩ := putCanonical_ok hrun
  exact h.toProgress.put_given (gives_row id now) (fun _ _ => rfl) hid (h.resolvedIn id now) h.all

/-- What was resolved are the references of the upsert. -/
theorem triple_putReferenced (newId : String) (now : Nat)
    (hrefs : refs.map ResolvedReference.toCanonicalReference = input.references) :
    (projecting projectors).Triple
      (fun db own => Referenced projectors inputs tenantId known input ([] ++ refs) done db own)
      (putCanonical tenantId newId now input refs) fun _ db own =>
        Progress projectors inputs tenantId known (done ++ [input]) db own := by
  have hput : (projecting projectors).Triple
      (fun db own => Referenced projectors inputs tenantId known input refs done db own)
      (putCanonical tenantId newId now input refs) _ := triple_putCanonical newId now
  rw [hrefs] at hput
  exact hput

theorem triple_upsertResolved (newId : String) (now : Nat) :
    (projecting projectors).Triple
      (fun db own => Progress projectors inputs tenantId known done db own)
      (upsertResolved tenantId newId now input) fun _ db own =>
        Progress projectors inputs tenantId known (done ++ [input]) db own := by
  refine Discipline.Triple.bind (Discipline.Triple.weaken
    (triple_resolveReferences input.references) fun _ _ _ h => h.referenced input) fun refs => ?_
  apply Discipline.Triple.assume
  intro hrefs
  exact triple_putReferenced newId now hrefs

/-! ## The lines of a journal entry -/

/-- A line is put under the row of its entry. -/
theorem triple_insertLine (written : List CanonicalReference) (line : ResolvedReference) :
    (projecting projectors).Triple
      (fun db own => Referenced projectors inputs tenantId known input [line]
        (done ++ [{ input with references := written }]) db own)
      (insertLine (input.key tenantId) line) fun _ db own =>
        Progress projectors inputs tenantId known (done ++ [{ input with
          references := written ++ [line.toCanonicalReference] }]) db own := by
  apply Discipline.Triple.execute fun _ => progress_stable
  intro db own new _ _ h hrun
  have hlast : lastInput (done ++ [{ input with references := written }]) tenantId
      (input.key tenantId) = some { input with references := written } := lastInput_snoc rfl
  obtain ⟨entry, hentry, hgives⟩ := h.given _ _ hlast
  have hview : (projectorStore.view db own).canonical.find? (input.key tenantId) = some entry := by
    rw [find?_canonical, hentry]
    rfl
  rw [hview] at hrun
  cases hrun
  have hkey : entry.key = input.key tenantId := hgives.key
  have htarget : ∀ reference : ResolvedReference,
      entry.target reference = input.target tenantId reference.toCanonicalReference :=
    fun reference => hgives.target reference
  have hline := List.mem_singleton_self line
  have hnew : ({ input with
      references := written ++ [line.toCanonicalReference] } : CanonicalUpsert).Gives tenantId
      { entry with references := entry.references ++ [line] } := by
    refine ⟨hkey, hgives.columns, hgives.common, ?_⟩
    rw [List.map_append, hgives.references]
    rfl
  refine h.toProgress.put_given hnew ?_ ?_ ?_ ?_
  · intro k hk
    exact lastInput_snoc_of_ne fun hsame => hk (hsame.symm.trans hkey.symm)
  · intro old hold
    obtain rfl := Option.some.inj (hview.symm.trans (hkey ▸ hold))
    rfl
  · intro reference hreference id hid
    rcases List.mem_append.mp hreference with hreference | hreference
    · exact h.resolved _ entry hentry reference hreference id hid
    · obtain rfl := List.mem_singleton.mp hreference
      obtain ⟨k, hk, hpresent⟩ := h.found reference hline id hid
      exact ⟨k, (htarget reference).trans hk, hpresent⟩
  · intro reference hreference target hreferenced
    rcases List.mem_append.mp hreference with hreference | hreference
    · exact h.complete _ entry hentry reference hreference target hreferenced
    · obtain rfl := List.mem_singleton.mp hreference
      exact h.all reference hline target ((htarget reference).symm.trans hreferenced)

theorem triple_insertLines (written lines : List CanonicalReference) :
    (projecting projectors).Triple
      (fun db own => Progress projectors inputs tenantId known
        (done ++ [{ input with references := written }]) db own)
      (insertLines tenantId input lines) fun _ db own =>
        Progress projectors inputs tenantId known
          (done ++ [{ input with references := written ++ lines }]) db own := by
  induction lines generalizing written with
  | nil =>
      refine Discipline.Triple.done fun db own _ h => ?_
      rw [List.append_nil]
      exact h
  | cons line rest ih =>
      refine Discipline.Triple.bind (Discipline.Triple.weaken (triple_findTarget line)
        fun _ _ _ h => h.referenced input) fun id => ?_
      refine Discipline.Triple.bind (Discipline.Triple.weaken
        (triple_insertLine written ⟨line, id⟩) fun _ _ _ h => h.2) fun _ => ?_
      have hrest := ih (written ++ [line])
      rw [← List.append_cons] at hrest
      exact hrest

theorem triple_upsertJournalEntry (newId : String) (now : Nat) :
    (projecting projectors).Triple
      (fun db own => Progress projectors inputs tenantId known done db own)
      (upsertJournalEntry tenantId newId now input) fun _ db own =>
        Progress projectors inputs tenantId known (done ++ [input]) db own := by
  refine Discipline.Triple.bind (Discipline.Triple.weaken (triple_putCanonical newId now)
    fun _ _ _ h => h.referenced input) fun id => ?_
  refine Discipline.Triple.bind (triple_insertLines [] input.references) fun _ => ?_
  exact Discipline.Triple.done fun _ _ _ h => h

/-! ## Counterparties of a customer's file -/

/-- A row that stands in for one that no upsert gave so far. -/
theorem triple_standIn (placeholderId : String) (now : Nat) {reference : CanonicalReference}
    {sourceKey : String} (hinput : input ∈ inputs) (hreference : reference ∈ input.references)
    (hcsv : input.sourceSystem = CUSTOMER_ASSERTED_CSV_SOURCE)
    (hkey : reference.sourceKey = some sourceKey)
    (htarget : input.target tenantId reference =
      some ((placeholderOf projectors.placeholderColumns input sourceKey).key tenantId))
    (hnone : lastInput done tenantId
      ((placeholderOf projectors.placeholderColumns input sourceKey).key tenantId) = none) :
    (projecting projectors).Triple
      (fun db own => Referenced projectors inputs tenantId known input refs done db own)
      (upsertCanonicalCounterparty tenantId placeholderId now
        (placeholderOf projectors.placeholderColumns input sourceKey)) fun id db own =>
        Referenced projectors inputs tenantId known input (refs ++ [⟨reference, some id⟩]) done db
          own := by
  have hnothing : (projecting projectors).Triple
      (fun db own => Referenced projectors inputs tenantId known input refs done db own)
      (resolveReferences tenantId (placeholderOf projectors.placeholderColumns input sourceKey) [])
      fun found db own => found = [] ∧
        Referenced projectors inputs tenantId known input refs done db own :=
    Discipline.Triple.done fun db own _ h => ⟨rfl, h⟩
  refine Discipline.Triple.bind hnothing fun found => ?_
  apply Discipline.Triple.assume
  rintro rfl
  apply Discipline.Triple.execute fun _ => referenced_stable
  intro db own new id _ h hrun
  obtain ⟨rfl, hid⟩ := putCanonical_ok hrun
  have hput : Progress projectors inputs tenantId known done db (own ++ [.canonical
      ((placeholderOf projectors.placeholderColumns input sourceKey).row tenantId id [] now)]) := by
    refine h.toProgress.put (fun _ _ => rfl) (fun last hlast => ?_) (fun _ => ?_) hid ?_ ?_
    · cases hnone.symm.trans hlast
    · exact ⟨input, hinput, hcsv, reference, hreference, sourceKey, hkey, rfl, rfl, rfl, rfl⟩
    · intro other hother
      cases hother
    · intro other hother
      cases hother
  have hreferenced : Referenced projectors inputs tenantId known input refs done db (own ++
      [.canonical ((placeholderOf projectors.placeholderColumns input sourceKey).row tenantId id []
        now)]) := by
    refine ⟨hput, fun other hother id' hid' => ?_, h.all⟩
    obtain ⟨k, hk, hpresent⟩ := h.found other hother id' hid'
    exact ⟨k, hk, present_of_put hid hpresent⟩
  refine hreferenced.snoc _ (fun id' hid' => ?_) fun k hk hknown hnone' => ?_
  · cases hid'
    refine ⟨_, htarget,
      (placeholderOf projectors.placeholderColumns input sourceKey).row tenantId id [] now, ?_, rfl⟩
    rw [Store.view_append, find?_canonical, written_canonical]
    exact congrArg (Option.or · _) (if_pos rfl)
  · cases hnone'

theorem Referenced.of_snoc {reference : ResolvedReference}
    (h : Referenced projectors inputs tenantId known input (refs ++ [reference]) done db own) :
    Referenced projectors inputs tenantId known input refs done db own :=
  ⟨h.toProgress, fun other hother => h.found other (List.mem_append_left _ hother),
    fun other hother => h.all other (List.mem_append_left _ hother)⟩

theorem triple_findOrCreate (placeholderId : String) (now : Nat) {reference : CanonicalReference}
    (hinput : input ∈ inputs) (hreference : reference ∈ input.references) :
    (projecting projectors).Triple
      (fun db own => Referenced projectors inputs tenantId known input refs done db own)
      (findOrCreate projectors.placeholderColumns tenantId placeholderId now input reference)
      fun id db own =>
        Referenced projectors inputs tenantId known input (refs ++ [⟨reference, id⟩]) done db
          own := by
  refine Discipline.Triple.bind (triple_findTarget reference) fun id => ?_
  apply Discipline.Triple.assume
  intro hmissing
  cases id with
  | some id => exact Discipline.Triple.done fun _ _ _ h => h
  | none =>
      cases hkey : reference.sourceKey with
      | none => exact Discipline.Triple.done fun _ _ _ h => h
      | some sourceKey =>
          change (projecting projectors).Triple _ (if _ then _ else _) _
          split
          · rename_i hcsv
            have htarget : input.target tenantId reference =
                some ((placeholderOf projectors.placeholderColumns input sourceKey).key
                  tenantId) := by
              rw [CanonicalUpsert.target, hkey, hcsv.1]
              rfl
            refine Discipline.Triple.bind (Discipline.Triple.weaken
              (triple_standIn placeholderId now hinput hreference hcsv.2 hkey htarget
                (hmissing _ htarget rfl)) fun _ _ _ h => h.of_snoc) fun created => ?_
            exact Discipline.Triple.done fun _ _ _ h => h
          · exact Discipline.Triple.done fun _ _ _ h => h

theorem triple_resolveCounterparties (placeholderId : String) (now : Nat) (hinput : input ∈ inputs)
    {references : List CanonicalReference}
    (hreferences : ∀ reference ∈ references, reference ∈ input.references) :
    (projecting projectors).Triple
      (fun db own => Referenced projectors inputs tenantId known input refs done db own)
      (resolveCounterparties projectors.placeholderColumns tenantId placeholderId now input
        references)
      fun more db own =>
        more.map ResolvedReference.toCanonicalReference = references ∧
          Referenced projectors inputs tenantId known input (refs ++ more) done db own := by
  induction references generalizing refs with
  | nil =>
      refine Discipline.Triple.done fun db own _ h => ⟨rfl, ?_⟩
      rw [List.append_nil]
      exact h
  | cons reference rest ih =>
      refine Discipline.Triple.bind (triple_findOrCreate placeholderId now hinput
        (hreferences reference List.mem_cons_self)) fun id => ?_
      refine Discipline.Triple.bind (ih fun other hother =>
        hreferences other (List.mem_cons_of_mem _ hother)) fun more => ?_
      refine Discipline.Triple.done fun db own _ h => ⟨?_, ?_⟩
      · rw [List.map_cons, h.1]
      · rw [List.append_cons]
        exact h.2

theorem triple_upsertCanonicalObligation (newId placeholderId : String) (now : Nat)
    (hinput : input ∈ inputs) :
    (projecting projectors).Triple
      (fun db own => Progress projectors inputs tenantId known done db own)
      (upsertCanonicalObligation projectors.placeholderColumns tenantId newId placeholderId now
        input) fun _ db own =>
        Progress projectors inputs tenantId known (done ++ [input]) db own := by
  refine Discipline.Triple.bind (Discipline.Triple.weaken
    (triple_resolveCounterparties placeholderId now hinput fun _ h => h)
    fun _ _ _ h => h.referenced input) fun refs => ?_
  apply Discipline.Triple.assume
  intro hrefs
  exact triple_putReferenced newId now hrefs

/-! ## The records of a row -/

theorem triple_persistUpsert (newId placeholderId : String) (now : Nat) (hinput : input ∈ inputs) :
    (projecting projectors).Triple
      (fun db own => Progress projectors inputs tenantId known done db own)
      (persistUpsert projectors tenantId newId placeholderId now input) fun _ db own =>
        Progress projectors inputs tenantId known (done ++ [input]) db own := by
  rw [persistUpsert]
  cases input.table with
  | glAccount => exact triple_upsertResolved newId now
  | journalEntry => exact triple_upsertJournalEntry newId now
  | account => exact triple_upsertResolved newId now
  | transaction => exact triple_upsertResolved newId now
  | counterparty => exact triple_upsertResolved newId now
  | obligation => exact triple_upsertCanonicalObligation newId placeholderId now hinput

theorem triple_persistAll (env : ProjectorEnvironment) (next : Nat) {rest : List CanonicalUpsert}
    (hrest : ∀ input ∈ rest, input ∈ inputs) :
    (projecting projectors).Triple
      (fun db own => Progress projectors inputs tenantId known done db own)
      (persistAll projectors tenantId env next rest) fun _ db own =>
        Progress projectors inputs tenantId known (done ++ rest) db own := by
  induction rest generalizing done next with
  | nil =>
      refine Discipline.Triple.done fun db own _ h => ?_
      rw [List.append_nil]
      exact h
  | cons input rest ih =>
      refine Discipline.Triple.bind (triple_persistUpsert _ _ _
        (hrest input List.mem_cons_self)) fun _ => ?_
      have hmore : (projecting projectors).Triple
          (fun db own => Progress projectors inputs tenantId known (done ++ [input]) db own) _ _ :=
        ih (next + 2) fun other hother => hrest other (List.mem_cons_of_mem _ hother)
      rw [← List.append_cons] at hmore
      exact hmore

/-! ## The transaction -/

/-- The rows of the upserts of a row are put, and its version is logged. -/
inductive Projection (projectors : Projectors) (row : RawParsedRow) (known : CanonicalKey → Prop)
    (db : ProjectorDb) : List ProjectorWrite → Prop where
  | intro (labels : LogLabels) (recordsWritten now : Nat) (inputs : List CanonicalUpsert)
      (writes : List ProjectorWrite) (projects : inputsOf projectors row = .ok inputs)
      (progress : Progress projectors inputs row.tenantId known inputs db writes) :
      Projection projectors row known db (writes ++ [.projected row
        (projectedLog labels row recordsWritten now (db.projectionLog.find? row.id))])

theorem Projection.commit {row : RawParsedRow} {writes : List ProjectorWrite}
    (h : Projection projectors row known db writes) (polled : .versioned row ∈ db.events) :
    ProjectorCommit projectors db writes := by
  cases h with
  | intro labels recordsWritten now inputs writes projects progress =>
      exact .projected row labels recordsWritten now inputs writes polled projects progress.toPuts

theorem projection_stable (row : RawParsedRow) :
    (projecting projectors).Stable fun db own => Projection projectors row known db own := by
  intro db own theirs _ h hcommit hfree
  cases h with
  | intro labels recordsWritten now inputs writes projects progress =>
      have hlog : (projectorStore.view db theirs).projectionLog.find? row.id =
          db.projectionLog.find? row.id :=
        find?_log_of_free db hfree (List.mem_append_right _ (List.mem_singleton_self _)) rfl
      rw [← hlog]
      exact .intro labels recordsWritten now inputs writes projects
        (progress.of_free hcommit fun w hw w' hw' => hfree w hw w' (List.mem_append_left _ hw'))

theorem triple_logProjection (labels : LogLabels) (row : RawParsedRow) (recordsWritten now : Nat)
    (projects : inputsOf projectors row = .ok inputs) :
    (projecting projectors).Triple
      (fun db own => Progress projectors inputs row.tenantId known inputs db own)
      (logProjection labels row recordsWritten now) fun _ db own =>
        Projection projectors row known db own := by
  apply Discipline.Triple.execute fun _ => projection_stable row
  intro db own new _ _ h hrun
  cases hrun
  have hlogs : own.filterMap ProjectorWrite.log? = [] := by
    rw [List.filterMap_eq_nil_iff]
    intro w hw
    obtain ⟨row, rfl⟩ := h.canonical w hw
    rfl
  have hlog : (projectorStore.view db own).projectionLog.find? row.id =
      db.projectionLog.find? row.id := by
    rw [find?_projectionLog, hlogs]
    rfl
  rw [hlog]
  exact .intro labels recordsWritten now inputs own projects h

/-- A row is projected by the pass of its parser. -/
theorem triple_projectTransaction {pass : Pass} (hpass : pass ∈ passes projectors)
    {row : RawParsedRow} (hparser : row.parser = pass.parser) (env : ProjectorEnvironment) :
    (projecting projectors).Triple
      (fun db own => (∀ k, known k → ∃ id, Present db k id) ∧ own = [])
      (projectTransaction projectors pass row env) fun _ db own =>
        Projection projectors row known db own := by
  have hproject : (projecting projectors).Triple
      (fun db own => (∀ k, known k → ∃ id, Present db k id) ∧ own = [])
      (Program.ofExcept (pass.project row)) fun inputs db own =>
        inputsOf projectors row = .ok inputs ∧
          Progress projectors inputs row.tenantId known [] db own := by
    apply Discipline.Triple.ofExcept
    rintro inputs hinputs db own - ⟨hknown, rfl⟩
    refine ⟨(inputsOf_eq hpass hparser).trans hinputs, ⟨?_, ?_, ?_, ?_, ?_⟩, hknown, ?_⟩
    · intro w hw
      cases hw
    · intro k input hlast
      cases hlast
    · intro k row _ hput
      cases hput
    · intro k row old hput
      cases hput
    · intro k row hput
      cases hput
    · intro k row hput
      cases hput
  refine Discipline.Triple.bind hproject fun inputs => ?_
  apply Discipline.Triple.assume
  intro projects
  refine Discipline.Triple.bind (triple_persistAll env 0 fun input hinput => hinput) fun _ => ?_
  refine Discipline.Triple.bind
    (triple_logProjection (pass.labels row) row (pass.records inputs) env.now projects) fun _ => ?_
  exact Discipline.Triple.done fun _ _ _ h => h

end BrainCore.Canonical
