import BrainCore.Raw.Parsed

/-!
# Evidence is immutable

However the calls interleave, a call without `allowRepair` changes no row that
is there, and one with it rewrites at most one row, of its artifact, tenant and
parser version.  No two rows share an artifact, a parser and its version.
-/

namespace BrainCore.Raw

open BrainCore.Foundation BrainCore.Audit

/-! ## The unique index -/

/-- At most one row for an artifact, a parser and its version. -/
def UniqueParsed (db : RawStore) : Prop :=
  ∀ id id' row row', db.parsed.find? id = some row → db.parsed.find? id' = some row' →
    row.uniqueKey = row'.uniqueKey → id = id'

theorem violatesUnique_eq_false {db : RawStore} {row : RawParsedRow} :
    violatesUnique db row = false ↔
      ∀ id other, db.parsed.find? id = some other → other.uniqueKey = row.uniqueKey →
        id = row.id := by
  rw [violatesUnique, List.any_eq_false]
  constructor
  · intro h id other hother hkey
    obtain ⟨hmem, rfl⟩ := Table.find?_eq_some_iff.mp hother
    have hnot := h other hmem
    rw [Bool.and_eq_true, not_and] at hnot
    by_contra hne
    exact hnot (decide_eq_true hne) (decide_eq_true hkey)
  · intro h other hmem hboth
    rw [Bool.and_eq_true] at hboth
    exact of_decide_eq_true hboth.1
      (h other.id other (Table.find?_key hmem) (of_decide_eq_true hboth.2))

theorem isFresh_iff {db : RawStore} {row : RawParsedRow} :
    isFresh db row = true ↔ db.parsed.find? row.id = none ∧ violatesUnique db row = false := by
  rw [isFresh, Bool.and_eq_true, Option.isNone_iff_eq_none, Bool.not_eq_true']
  refine and_congr_right fun hnone => ?_
  rw [violatesUnique, List.any_eq_false, List.any_eq_false]
  refine forall₂_congr fun other hmem => ?_
  have hne : other.id ≠ row.id := by
    intro hid
    rw [← hid, Table.find?_key hmem] at hnone
    cases hnone
  simp [hne]

/-! ## What a commit may do -/

/-- The row is put where no other has its key, and in the place of a row of its artifact, tenant
and parser version, if any. -/
structure Places (db : RawStore) (row : RawParsedRow) : Prop where
  unique : violatesUnique db row = false
  filed : ∀ old, db.parsed.find? row.id = some old → old.rawArtifactId = row.rawArtifactId ∧
    old.tenantId = row.tenantId ∧ old.parserVersion = row.parserVersion

/-- A commit logs projections or puts one row. -/
def MayCommit (db : RawStore) (writes : List RawWrite) : Prop :=
  (∀ w ∈ writes, w.isProjectionLog = true) ∨ ∃ row, writes = [.parsed row] ∧ Places db row

theorem parsed_of_logs {writes : List RawWrite} (db : RawStore)
    (h : ∀ w ∈ writes, w.isProjectionLog = true) :
    (rawStore.view db writes).parsed = db.parsed := by
  induction writes generalizing db with
  | nil => rfl
  | cons w rest ih =>
      have hrest := ih (rawStore.write db w) fun w' hw' => h w' (List.mem_cons_of_mem _ hw')
      cases w with
      | projectionLog row => exact hrest
      | parsed row => cases h _ List.mem_cons_self

theorem find?_put (db : RawStore) (row : RawParsedRow) (id : String) :
    (rawStore.view db [.parsed row]).parsed.find? id =
      if id = row.id then some row else db.parsed.find? id :=
  Table.find?_put db.parsed row id

theorem find?_rewrite (db : RawStore) (input : InsertParsedInput) (old : RawParsedRow)
    (extracted : JsonbValue) (now : Nat) (id : String) :
    (rawStore.view db [.parsed (input.rewrite old extracted now)]).parsed.find? id =
      if id = old.id then some (input.rewrite old extracted now) else db.parsed.find? id :=
  find?_put db _ id

theorem Places.keeps {db : RawStore} {row : RawParsedRow} (h : Places db row)
    (hdb : UniqueParsed db) : UniqueParsed (rawStore.view db [.parsed row]) := by
  have hfree := violatesUnique_eq_false.mp h.unique
  intro id id' first second hfirst hsecond hkey
  rw [find?_put] at hfirst hsecond
  split at hfirst
  · cases hfirst
    split at hsecond
    · rename_i hid hid'
      rw [hid, hid']
    · rename_i hid hid'
      rw [hid, hfree id' second hsecond hkey.symm]
  · split at hsecond
    · cases hsecond
      rename_i hid hid'
      rw [hid', hfree id first hfirst hkey]
    · exact hdb id id' first second hfirst hsecond hkey

/-- What calls and other components keep to. -/
def evidence : Discipline rawStore where
  invariant := UniqueParsed
  permits := MayCommit
  keeps := by
    rintro db writes hdb (hlogs | ⟨row, rfl, hplaces⟩)
    · intro id id' first second
      rw [parsed_of_logs db hlogs]
      exact hdb id id' first second
    · exact hplaces.keeps hdb

theorem RawWrite.clash_symm (first second : RawWrite) :
    first.clash second = second.clash first := by
  cases first with
  | parsed first =>
      cases second with
      | parsed second => simp only [clash, @eq_comm _ first.id, @eq_comm _ first.uniqueKey]
      | projectionLog second => rfl
  | projectionLog first =>
      cases second with
      | parsed second => rfl
      | projectionLog second => simp only [clash, @eq_comm _ first.rawParsedId]

theorem mayCommit_of_othersMay {db : RawStore} {writes : List RawWrite}
    (h : othersMay db writes = true) : MayCommit db writes := by
  unfold othersMay at h
  split at h
  · rename_i row
    obtain ⟨hnone, hunique⟩ := isFresh_iff.mp h
    refine .inr ⟨row, rfl, hunique, fun old hold => ?_⟩
    rw [hnone] at hold
    cases hold
  · exact .inl (List.all_eq_true.mp h)

/-! ## What a call may do -/

/-- What the transaction of a call may commit. -/
inductive ParsedChange (input : InsertParsedInput) (db : RawStore) : List RawWrite → Prop where
  | quiet : ParsedChange input db []
  | insert (extracted : JsonbValue) (now : Nat)
      (fresh : isFresh db (input.row extracted now) = true) :
      ParsedChange input db [.parsed (input.row extracted now)]
  | repair (old : RawParsedRow) (extracted : JsonbValue) (now : Nat)
      (allowed : input.allowRepair = some true) (stored : db.parsed.find? old.id = some old)
      (artifact : old.rawArtifactId = input.rawArtifactId) (tenant : old.tenantId = input.tenantId)
      (version : old.parserVersion = input.parserVersion)
      (unique : violatesUnique db (input.rewrite old extracted now) = false) :
      ParsedChange input db [.parsed (input.rewrite old extracted now)]

theorem ParsedChange.mayCommit {input : InsertParsedInput} {db : RawStore}
    {writes : List RawWrite} (h : ParsedChange input db writes) : MayCommit db writes := by
  cases h with
  | quiet =>
      left
      intro w hw
      cases hw
  | insert extracted now fresh =>
      obtain ⟨hnone, hunique⟩ := isFresh_iff.mp fresh
      refine .inr ⟨_, rfl, hunique, fun old hold => ?_⟩
      rw [hnone] at hold
      cases hold
  | repair old extracted now allowed stored artifact tenant version unique =>
      refine .inr ⟨_, rfl, unique, fun other hother => ?_⟩
      obtain rfl := Option.some.inj (stored.symm.trans hother)
      exact ⟨rfl, rfl, version⟩

/-! ## What other commits leave alone -/

/-- Another commit leaves the place of a written row as it is. -/
theorem find?_of_free {db : RawStore} {row : RawParsedRow} {theirs : List RawWrite}
    (hpermits : MayCommit db theirs) (hfree : Free rawStore theirs [.parsed row]) :
    (rawStore.view db theirs).parsed.find? row.id = db.parsed.find? row.id := by
  obtain hlogs | ⟨other, rfl, -⟩ := hpermits
  · rw [parsed_of_logs db hlogs]
  · have hclash := hfree _ List.mem_cons_self _ List.mem_cons_self
    have hne : row.id ≠ other.id := by
      intro hid
      simp [rawStore, RawWrite.clash, hid] at hclash
    rw [find?_put, if_neg hne]

theorem violatesUnique_of_free {db : RawStore} {row : RawParsedRow} {theirs : List RawWrite}
    (hpermits : MayCommit db theirs) (hfree : Free rawStore theirs [.parsed row])
    (h : violatesUnique db row = false) :
    violatesUnique (rawStore.view db theirs) row = false := by
  rw [violatesUnique_eq_false] at h ⊢
  obtain hlogs | ⟨other, rfl, -⟩ := hpermits
  · rw [parsed_of_logs db hlogs]
    exact h
  · have hclash := hfree _ List.mem_cons_self _ List.mem_cons_self
    intro id found hfound hkey
    rw [find?_put] at hfound
    split at hfound
    · cases hfound
      simp [rawStore, RawWrite.clash, hkey] at hclash
    · exact h id found hfound hkey

/-- The change stays one that the call may make while others commit. -/
theorem parsedChange_stable (input : InsertParsedInput) :
    evidence.Stable fun db own => ParsedChange input db own := by
  intro db own theirs _ h hpermits hfree
  cases h with
  | quiet => exact .quiet
  | insert extracted now fresh =>
      obtain ⟨hnone, hunique⟩ := isFresh_iff.mp fresh
      refine .insert extracted now (isFresh_iff.mpr ⟨?_, ?_⟩)
      · rw [find?_of_free hpermits hfree, hnone]
      · exact violatesUnique_of_free hpermits hfree hunique
  | repair old extracted now allowed stored artifact tenant version unique =>
      refine .repair old extracted now allowed ?_ artifact tenant version ?_
      · exact (find?_of_free hpermits hfree).trans stored
      · exact violatesUnique_of_free hpermits hfree unique

/-- A row of the artifact, tenant and parser version of a call is there, and stays. -/
def Filed (input : InsertParsedInput) (id : String) (db : RawStore) : Prop :=
  ∃ row, db.parsed.find? id = some row ∧ row.rawArtifactId = input.rawArtifactId ∧
    row.tenantId = input.tenantId ∧ row.parserVersion = input.parserVersion

theorem filed_lasting (input : InsertParsedInput) (id : String) :
    evidence.Lasting (Filed input id) := by
  rintro db writes - ⟨row, hrow, hartifact, htenant, hversion⟩ (hlogs | ⟨other, rfl, hplaces⟩)
  · rw [Filed, parsed_of_logs db hlogs]
    exact ⟨row, hrow, hartifact, htenant, hversion⟩
  · rw [Filed, find?_put]
    split
    · rename_i hid
      subst hid
      obtain ⟨hartifact', htenant', hversion'⟩ := hplaces.filed row hrow
      exact ⟨other, rfl, hartifact' ▸ hartifact, htenant' ▸ htenant, hversion' ▸ hversion⟩
    · exact ⟨row, hrow, hartifact, htenant, hversion⟩

/-! ## The transaction of a call -/

section Transaction

variable {input : InsertParsedInput}

/-- Nothing is written yet. -/
def Unwritten (_ : RawStore) (own : List RawWrite) : Prop := own = []

theorem unwritten_stable : evidence.Stable Unwritten := Discipline.stable_own fun own => own = []

theorem Unwritten.quiet {db : RawStore} {own : List RawWrite} (h : Unwritten db own) :
    ParsedChange input db own := by
  cases h
  exact .quiet

/-- A row that was read, with nothing written. -/
def Read (input : InsertParsedInput) (existing : RawParsedRow) (db : RawStore)
    (own : List RawWrite) : Prop := Filed input existing.id db ∧ Unwritten db own

theorem read_stable (existing : RawParsedRow) : evidence.Stable (Read input existing) :=
  (filed_lasting input existing.id).stable.and unwritten_stable

theorem filed_of_exact {db : RawStore} {row : RawParsedRow}
    (h : db.parsed.rows.find? input.isExact = some row) : Filed input row.id db := by
  have hexact := List.find?_some h
  simp only [InsertParsedInput.isExact, Bool.and_eq_true, decide_eq_true_eq] at hexact
  obtain ⟨htenant, hkey⟩ := hexact
  simp only [RawParsedRow.uniqueKey, InsertParsedInput.uniqueKey, Prod.mk.injEq] at hkey
  exact ⟨row, Table.find?_key (List.mem_of_find?_eq_some h), hkey.1, htenant, hkey.2.2⟩

theorem filed_of_stale {db : RawStore} {row : RawParsedRow}
    (h : row ∈ db.parsed.rows.filter input.isStale) : Filed input row.id db := by
  obtain ⟨hmem, hstale⟩ := List.mem_filter.mp h
  simp only [InsertParsedInput.isStale, Bool.and_eq_true, decide_eq_true_eq] at hstale
  obtain ⟨⟨⟨htenant, hartifact⟩, hversion⟩, -⟩ := hstale
  exact ⟨row, Table.find?_key hmem, hartifact, htenant, hversion⟩

theorem canRepair_iff : input.canRepair = true ↔ input.allowRepair = some true :=
  decide_eq_true_iff

theorem triple_updateParsed (existing : RawParsedRow) (now : Nat) (hcan : input.canRepair = true) :
    evidence.Triple (Read input existing) (updateParsed existing input now)
      fun _ => ParsedChange input := by
  apply Discipline.Triple.execute fun _ => parsedChange_stable input
  rintro db own new value hdb ⟨⟨old, hold, hartifact, htenant, hversion⟩, hown⟩ hrun
  cases hown
  rw [Store.view_nil] at hrun
  obtain ⟨serialized, -, hrun⟩ := bind_ok.mp hrun
  have hsame : (decide (old.rawArtifactId = input.rawArtifactId) &&
      decide (old.tenantId = input.tenantId)) = true := by
    rw [hartifact, htenant]
    simp
  rw [hold, Option.filter_some, if_pos hsame] at hrun
  obtain ⟨extracted, -, hrun⟩ := bind_ok.mp hrun
  split at hrun
  · cases hrun
  · rename_i hunique
    cases hrun
    have hstored : db.parsed.find? old.id = some old :=
      Table.find?_key (Table.mem_of_find? hold)
    exact .repair old extracted now (canRepair_iff.mp hcan) hstored hartifact htenant hversion
      (Bool.eq_false_iff.mpr hunique)

theorem triple_repair (existing : RawParsedRow) (now : Nat) (hcan : input.canRepair = true) :
    evidence.Triple (Read input existing) (repairParsedOutput existing input now)
      fun _ => ParsedChange input := by
  apply Discipline.Triple.bind (triple_updateParsed existing now hcan)
  rintro (_ | row)
  · exact Discipline.Triple.throw _
  · exact Discipline.Triple.done fun _ _ _ h => h

theorem triple_insertRow (now : Nat) :
    evidence.Triple Unwritten (insertRow input now) fun result db own =>
      ParsedChange input db own ∧ (result = none → Unwritten db own) := by
  apply Discipline.Triple.execute
  · intro result
    exact (parsedChange_stable input).and
      (Discipline.stable_own fun own => result = none → own = [])
  · intro db own new result hdb hown hrun
    cases hown
    rw [Store.view_nil] at hrun
    obtain ⟨serialized, -, hrun⟩ := bind_ok.mp hrun
    obtain ⟨extracted, -, hrun⟩ := bind_ok.mp hrun
    split at hrun
    · cases hrun
      exact ⟨.quiet, fun _ => rfl⟩
    · rename_i hkey
      split at hrun
      · cases hrun
      · rename_i hid
        cases hrun
        refine ⟨.insert extracted now ?_, fun hnone => (by cases hnone)⟩
        rw [isFresh, Bool.and_eq_true, Bool.not_eq_true']
        refine ⟨?_, Bool.eq_false_iff.mpr hkey⟩
        exact Option.isNone_iff_eq_none.mpr (Option.not_isSome_iff_eq_none.mp hid)

theorem triple_find :
    evidence.Triple Unwritten (findParsedByArtifactParserVersion input) fun found db own =>
      Unwritten db own ∧ ∀ row, found = some row → Filed input row.id db := by
  apply Discipline.Triple.select
  · intro found
    refine unwritten_stable.and (Discipline.Lasting.stable ?_)
    intro db writes hdb hfound hpermits row hrow
    exact filed_lasting input row.id db writes hdb (hfound row hrow) hpermits
  · intro db own hdb hown
    cases hown
    exact ⟨rfl, fun row hrow => filed_of_exact hrow⟩

/-- A read after which the row that was found is still there. -/
theorem triple_read (existing : RawParsedRow) {α : Type} (read : RawStore → α) :
    evidence.Triple (ε := ParsedError) (Read input existing) (.select read)
      fun _ => Read input existing :=
  Discipline.Triple.select (fun _ => read_stable existing) fun _ _ _ h => h

/-- A row is repaired or returned as it is. -/
theorem triple_repairIf (existing : RawParsedRow) (now : Nat) (needed : Bool)
    (hcan : needed = true → input.canRepair = true) :
    evidence.Triple (Read input existing)
      (if needed then do
          pure (InsertParsedResult.mk (← repairParsedOutput existing input now) false)
        else pure ⟨existing, false⟩ : ParsedTransact InsertParsedResult)
      fun _ => ParsedChange input := by
  cases needed with
  | false => exact Discipline.Triple.done fun _ _ _ h => h.2.quiet
  | true =>
      exact Discipline.Triple.bind (triple_repair existing now (hcan rfl))
        fun _ => Discipline.Triple.done fun _ _ _ h => h

theorem triple_afterConflict (now : Nat) :
    evidence.Triple Unwritten (afterConflict input now) fun _ => ParsedChange input := by
  apply Discipline.Triple.bind triple_find
  rintro (_ | row)
  · exact Discipline.Triple.throw _
  · have hread : ∀ db own, evidence.invariant db → (Unwritten db own ∧
        ∀ other, some row = some other → Filed input other.id db) → Read input row db own :=
      fun db own _ h => ⟨h.2 row rfl, h.1⟩
    refine Discipline.Triple.weaken ?_ hread
    change evidence.Triple _ (if _ then _ else _) _
    split
    · exact Discipline.Triple.done fun _ _ _ h => h.2.quiet
    · rename_i hcan
      rw [Bool.not_eq_true', Bool.not_eq_false] at hcan
      exact Discipline.Triple.bind (triple_read row _) fun needed =>
        triple_repairIf row now needed fun _ => hcan

theorem triple_insertFresh (now : Nat) :
    evidence.Triple Unwritten (insertFresh input now) fun _ => ParsedChange input := by
  apply Discipline.Triple.bind (triple_insertRow now)
  rintro (_ | row)
  · exact (triple_afterConflict now).weaken fun _ _ _ h => h.2 rfl
  · exact Discipline.Triple.done fun _ _ _ h => h.1

theorem triple_insertOrTakeOver (now : Nat) :
    evidence.Triple Unwritten (insertOrTakeOver input now) fun _ => ParsedChange input := by
  unfold insertOrTakeOver
  split
  · exact triple_insertFresh now
  · rename_i hcan
    rw [Bool.not_eq_true', Bool.not_eq_false] at hcan
    have hstale : evidence.Triple Unwritten (staleParsed input) fun rows db own =>
        Unwritten db own ∧ ∀ row ∈ rows, Filed input row.id db := by
      apply Discipline.Triple.select
      · intro rows
        refine unwritten_stable.and (Discipline.Lasting.stable ?_)
        intro db writes hdb hfound hpermits row hrow
        exact filed_lasting input row.id db writes hdb (hfound row hrow) hpermits
      · intro db own hdb hown
        cases hown
        exact ⟨rfl, fun row hrow => filed_of_stale (List.mem_of_mem_take hrow)⟩
    apply Discipline.Triple.bind hstale
    rintro (_ | ⟨row, _ | ⟨second, rest⟩⟩)
    · exact (triple_insertFresh now).weaken fun _ _ _ h => h.1
    · refine Discipline.Triple.bind (Discipline.Triple.weaken (triple_repair row now hcan) ?_)
        fun _ => Discipline.Triple.done fun _ _ _ h => h
      exact fun db own _ h => ⟨h.2 row List.mem_cons_self, h.1⟩
    · exact (triple_insertFresh now).weaken fun _ _ _ h => h.1

theorem triple_needsRepair (exact : RawParsedRow) :
    evidence.Triple (Read input exact) (needsRepair exact input) fun needed db own =>
      (needed = true → input.canRepair = true) ∧ Read input exact db own := by
  unfold needsRepair
  split
  · refine Discipline.Triple.done fun _ _ _ h => ⟨fun hneeded => ?_, h⟩
    cases hneeded
  · rename_i hcan
    rw [Bool.not_eq_true', Bool.not_eq_false] at hcan
    have hrepairs : evidence.Triple (Read input exact)
        (.ofExcept (shouldRepairParsedOutput exact input)) fun _ => Read input exact :=
      Discipline.Triple.ofExcept fun _ _ _ _ _ h => h
    apply Discipline.Triple.bind hrepairs
    intro needed
    cases needed with
    | true => exact Discipline.Triple.done fun _ _ _ h => ⟨fun _ => hcan, h⟩
    | false =>
        exact Discipline.Triple.mono (triple_read exact _) fun _ _ _ _ h => ⟨fun _ => hcan, h⟩

theorem triple_insertParsed (now : Nat) :
    evidence.Triple Unwritten (insertParsed input now) fun _ => ParsedChange input := by
  apply Discipline.Triple.bind triple_find
  rintro (_ | exact)
  · exact (triple_insertOrTakeOver now).weaken fun _ _ _ h => h.1
  · refine Discipline.Triple.weaken ?_ fun db own _ h =>
      (show Read input exact db own from ⟨h.2 exact rfl, h.1⟩)
    refine Discipline.Triple.bind (triple_needsRepair exact) fun needed => ?_
    exact Discipline.Triple.assume (triple_repairIf exact now needed)

theorem sound_insertParsedCall (input : InsertParsedInput) :
    evidence.SoundAs (ParsedChange input) (fun _ => True) (insertParsedCall input)
      fun _ _ => True := by
  refine Discipline.Sound.bind (Discipline.Sound.ask _) fun now => ?_
  apply Discipline.Sound.transact Discipline.lasting_true fun _ => Discipline.lasting_true
  refine Discipline.Triple.mono (Discipline.Triple.weaken (triple_insertParsed now) ?_) ?_
  · exact fun _ _ _ h => h.2
  · exact fun _ _ _ _ h => ⟨h, trivial⟩

end Transaction

/-! ## A call alone -/

/-- A call rewrites at most its parser's own row; when its parser has none, the only row that
other parsers have of the artifact and version. -/
def RewritesOwn (input : InsertParsedInput) (before after : RawStore) : Prop :=
  ∀ id old, before.parsed.find? id = some old → after.parsed.find? id = some old ∨
    input.allowRepair = some true ∧
      (∃ extracted now, after.parsed.find? id = some (input.rewrite old extracted now)) ∧
      (input.isExact old = true ∨
        (∀ row ∈ before.parsed.rows, input.isExact row = false) ∧
          ∀ row ∈ before.parsed.rows, input.isStale row = true ↔ row = old)

theorem eq_singleton_of_take {α : Type} {items : List α} {only : α}
    (h : items.take 2 = [only]) : items = [only] := by
  match items, h with
  | [_], h => exact h

section Alone

variable {input : InsertParsedInput} {db after : RawStore} {now : Nat}

theorem RewritesOwn.refl (input : InsertParsedInput) (db : RawStore) : RewritesOwn input db db :=
  fun _ _ hold => .inl hold

theorem repair_alone {existing row : RawParsedRow} (hstored : existing ∈ db.parsed.rows)
    (h : (repairParsedOutput existing input now).runAlone rawStore db = .ok (after, row)) :
    ∃ extracted, after = rawStore.view db [.parsed (input.rewrite existing extracted now)] := by
  obtain ⟨middle, updated, hupdate, hrest⟩ := Program.runAlone_bind.mp h
  obtain ⟨new, hrun, rfl⟩ := Program.runAlone_execute.mp hupdate
  obtain ⟨serialized, -, hrun⟩ := bind_ok.mp hrun
  rw [Table.find?_key hstored, Option.filter_some] at hrun
  split at hrun
  · rename_i hnone
    cases hrun
    exact absurd hrest Program.not_runAlone_throw
  · rename_i old hold
    split at hold
    · cases hold
      obtain ⟨extracted, -, hrun⟩ := bind_ok.mp hrun
      split at hrun
      · cases hrun
      · cases hrun
        obtain ⟨rfl, -⟩ := Program.runAlone_pure.mp hrest
        exact ⟨extracted, rfl⟩
    · cases hold

/-- The repair rewrites the row it was given and no other. -/
theorem rewritesOwn_of_repair {existing row : RawParsedRow} (hstored : existing ∈ db.parsed.rows)
    (hallowed : input.canRepair = true)
    (hreason : input.isExact existing = true ∨
      (∀ row ∈ db.parsed.rows, input.isExact row = false) ∧
        ∀ row ∈ db.parsed.rows, input.isStale row = true ↔ row = existing)
    (h : (repairParsedOutput existing input now).runAlone rawStore db = .ok (after, row)) :
    RewritesOwn input db after := by
  obtain ⟨extracted, rfl⟩ := repair_alone hstored h
  intro id old hold
  rw [find?_rewrite]
  split
  · rename_i hid
    subst hid
    rw [Table.find?_key hstored] at hold
    cases hold
    exact .inr ⟨canRepair_iff.mp hallowed, ⟨extracted, now, rfl⟩, hreason⟩
  · exact .inl hold

theorem needsRepair_alone {exact : RawParsedRow} {needed : Bool}
    (h : (needsRepair exact input).runAlone rawStore db = .ok (after, needed)) :
    after = db ∧ (needed = true → input.canRepair = true) := by
  unfold needsRepair at h
  split at h
  · obtain ⟨rfl, rfl⟩ := Program.runAlone_pure.mp h
    refine ⟨rfl, fun hneeded => ?_⟩
    cases hneeded
  · rename_i hcan
    rw [Bool.not_eq_true', Bool.not_eq_false] at hcan
    obtain ⟨middle, repairs, hrepairs, hrest⟩ := Program.runAlone_bind.mp h
    obtain ⟨rfl, -⟩ := Program.runAlone_ofExcept.mp hrepairs
    split at hrest
    · exact ⟨(Program.runAlone_pure.mp hrest).1, fun _ => hcan⟩
    · exact ⟨(Program.runAlone_select.mp hrest).1, fun _ => hcan⟩

/-- Where there is no exact row a conflict ends in an error, and an insert leaves all rows. -/
theorem rewritesOwn_of_insertFresh {result : InsertParsedResult}
    (hnone : db.parsed.rows.find? input.isExact = none)
    (h : (insertFresh input now).runAlone rawStore db = .ok (after, result)) :
    RewritesOwn input db after := by
  obtain ⟨middle, inserted, hinsert, hrest⟩ := Program.runAlone_bind.mp h
  obtain ⟨new, hrun, rfl⟩ := Program.runAlone_execute.mp hinsert
  obtain ⟨serialized, -, hrun⟩ := bind_ok.mp hrun
  obtain ⟨extracted, -, hrun⟩ := bind_ok.mp hrun
  split at hrun
  · cases hrun
    obtain ⟨middle, found, hfind, hrest⟩ := Program.runAlone_bind.mp hrest
    obtain ⟨rfl, rfl⟩ := Program.runAlone_select.mp hfind
    rw [Store.view_nil, hnone] at hrest
    exact absurd hrest Program.not_runAlone_throw
  · split at hrun
    · cases hrun
    · rename_i hfree
      cases hrun
      obtain ⟨rfl, -⟩ := Program.runAlone_pure.mp hrest
      intro id old hold
      have hne : id ≠ (input.row extracted now).id := by
        rintro rfl
        exact hfree (Option.isSome_iff_exists.mpr ⟨old, hold⟩)
      rw [find?_put, if_neg hne]
      exact .inl hold

theorem rewritesOwn_of_insertOrTakeOver {result : InsertParsedResult}
    (hnone : db.parsed.rows.find? input.isExact = none)
    (h : (insertOrTakeOver input now).runAlone rawStore db = .ok (after, result)) :
    RewritesOwn input db after := by
  unfold insertOrTakeOver at h
  split at h
  · exact rewritesOwn_of_insertFresh hnone h
  · rename_i hcan
    rw [Bool.not_eq_true', Bool.not_eq_false] at hcan
    obtain ⟨middle, stale, hstale, hrest⟩ := Program.runAlone_bind.mp h
    obtain ⟨rfl, hrows⟩ := Program.runAlone_select.mp hstale
    split at hrest
    · rename_i only
      obtain ⟨last, row, hrepair, hpure⟩ := Program.runAlone_bind.mp hrest
      obtain ⟨rfl, -⟩ := Program.runAlone_pure.mp hpure
      have honly : middle.parsed.rows.filter input.isStale = [only] :=
        eq_singleton_of_take hrows.symm
      have hmem : ∀ row ∈ middle.parsed.rows, input.isStale row = true ↔ row = only := by
        intro row hrow
        rw [← @List.mem_singleton _ row only, ← honly, List.mem_filter, and_iff_right hrow]
      have hstored : only ∈ middle.parsed.rows :=
        List.mem_of_mem_filter (honly ▸ List.mem_singleton_self only)
      refine rewritesOwn_of_repair hstored hcan (.inr ⟨fun row hrow => ?_, hmem⟩) hrepair
      exact Bool.eq_false_iff.mpr (List.find?_eq_none.mp hnone row hrow)
    · exact rewritesOwn_of_insertFresh hnone hrest

theorem rewritesOwn_of_insertParsed {result : InsertParsedResult}
    (h : (insertParsed input now).runAlone rawStore db = .ok (after, result)) :
    RewritesOwn input db after := by
  obtain ⟨middle, found, hfind, hrest⟩ := Program.runAlone_bind.mp h
  obtain ⟨rfl, hfound⟩ := Program.runAlone_select.mp hfind
  split at hrest
  · rename_i exact
    obtain ⟨last, needed, hneeded, hchosen⟩ := Program.runAlone_bind.mp hrest
    obtain ⟨rfl, hcan⟩ := needsRepair_alone hneeded
    split at hchosen
    · rename_i hrepair
      obtain ⟨done, row, hrepaired, hpure⟩ := Program.runAlone_bind.mp hchosen
      obtain ⟨rfl, -⟩ := Program.runAlone_pure.mp hpure
      exact rewritesOwn_of_repair (List.mem_of_find?_eq_some hfound.symm) (hcan hrepair)
        (.inl (List.find?_some hfound.symm)) hrepaired
    · obtain ⟨rfl, -⟩ := Program.runAlone_pure.mp hchosen
      exact .refl input after
  · exact rewritesOwn_of_insertOrTakeOver hfound.symm hrest

end Alone

/-! ## Runs -/

/-- A row as a call may leave it. -/
structure MayRewrite (input : InsertParsedInput) (old new : RawParsedRow) : Prop where
  allowed : input.allowRepair = some true
  artifact : old.rawArtifactId = input.rawArtifactId
  tenant : old.tenantId = input.tenantId
  version : old.parserVersion = input.parserVersion
  columns : ∃ extracted now, new = input.rewrite old extracted now

/-- A commit that changes a row is that of a call which may rewrite it, and changes no other. -/
theorem kept_or_rewritten {begun : List InsertParsedInput} {before after : RawStore}
    {label : RawLabel}
    (h : Discipline.Attributed rawStore ParsedChange othersMay begun before after label)
    {id : String} {old : RawParsedRow} (hold : before.parsed.find? id = some old) :
    after.parsed.find? id = some old ∨ ∃ i now input new, label = .advance i now ∧
      begun[i]? = some input ∧ MayRewrite input old new ∧ after.parsed.find? id = some new ∧
        ∀ other, other ≠ id → after.parsed.find? other = before.parsed.find? other := by
  cases h with
  | quiet same => exact .inl (same ▸ hold)
  | outside allowed commit =>
      subst commit
      obtain hlogs | ⟨row, rfl, -⟩ := mayCommit_of_othersMay allowed
      · rw [parsed_of_logs before hlogs]
        exact .inl hold
      · obtain ⟨hnone, -⟩ := isFresh_iff.mp allowed
        have hne : id ≠ row.id := by
          rintro rfl
          rw [hnone] at hold
          cases hold
        rw [find?_put, if_neg hne]
        exact .inl hold
  | @own i now input writes number mine commit =>
      subst commit
      cases mine with
      | quiet => exact .inl hold
      | insert extracted time fresh =>
          obtain ⟨hnone, -⟩ := isFresh_iff.mp fresh
          have hne : id ≠ (input.row extracted time).id := by
            rintro rfl
            rw [hnone] at hold
            cases hold
          rw [find?_put, if_neg hne]
          exact .inl hold
      | repair row extracted time allowed stored artifact tenant version unique =>
          by_cases hid : id = row.id
          · subst hid
            obtain rfl := Option.some.inj (stored.symm.trans hold)
            refine .inr ⟨i, now, input, input.rewrite row extracted time, rfl, number,
              ⟨allowed, artifact, tenant, version, extracted, time, rfl⟩, ?_, fun other hother => ?_⟩
            · rw [find?_rewrite, if_pos rfl]
            · rw [find?_rewrite, if_neg hother]
          · rw [find?_rewrite, if_neg hid]
            exact .inl hold

/-- What one step may do to the evidence.  A row changes only by the commit of a call with
`allowRepair`, which rewrites that row alone, of its artifact, tenant and version. -/
structure Immutable (begun : List InsertParsedInput) (before after : RawStore)
    (label : RawLabel) : Prop where
  unique : UniqueParsed after
  kept : ∀ id old, before.parsed.find? id = some old → after.parsed.find? id = some old ∨
    ∃ i now input new, label = .advance i now ∧ begun[i]? = some input ∧
      MayRewrite input old new ∧ after.parsed.find? id = some new ∧
      ∀ other, other ≠ id → after.parsed.find? other = before.parsed.find? other
  /-- A call that runs alone on the rows before the step. -/
  own : ∀ input now last result,
    (insertParsed input now).runAlone rawStore before = .ok (last, result) →
      RewritesOwn input before last

def emptyStore : RawStore := ⟨.empty, .empty⟩

theorem uniqueParsed_empty : UniqueParsed emptyStore := by
  intro id id' row row' hrow
  cases hrow

theorem distinct_statement : (JsValue.obj [("object_type", .str "bank_statement")]).Distinct := by
  simp [JsValue.Distinct, JsValue.DistinctMembers]

def statement : JsData := ⟨_, distinct_statement⟩

/-- A parse that is posted to the route. -/
def postedParse : InsertParsedInput where
  id := "prs_1"
  rawArtifactId := "raw_1"
  tenantId := "tnt_1"
  parser := "bank_csv_v1"
  parserVersion := "1"
  extracted := statement
  confidence := none

/-- The extraction that the worker derives from the bytes. -/
def derivedParse : InsertParsedInput :=
  { postedParse with
    id := "prs_2"
    parser := "bank_statement_upload_v1"
    allowRepair := some true }

/-- The posted parse is inserted. -/
def postedLabels : List RawLabel := .begin postedParse :: List.replicate 5 (.advance 0 1)

/-- The worker's extraction is about to be committed. -/
def derivedLabels : List RawLabel := .begin derivedParse :: List.replicate 5 (.advance 1 2)

/-- The row of the artifact under the key of the posted parse. -/
def parserOf (world : Option RawWorld) : Option String :=
  (world.bind fun s => s.committed.parsed.find? "prs_1").map RawParsedRow.parser

def beforeTakeOver : RawWorld :=
  (rawMachine.run { committed := emptyStore } (postedLabels ++ derivedLabels)).getD
    { committed := emptyStore }

def afterTakeOver : RawWorld :=
  (rawMachine.step beforeTakeOver (.advance 1 2)).getD { committed := emptyStore }

end BrainCore.Raw
