import BrainCore.Ledger.Counterparties
import Mathlib.Tactic.Linarith
import Mathlib.Tactic.NormNum

/-!
# Names that become one counterparty

Two names are merged when the first two hundred characters of their normal forms
agree, and matched when their stored normal forms or their scoring forms do.  The
normal forms themselves may then be empty, or different.
-/

namespace BrainCore.Ledger

open BrainCore.Foundation

variable {unicode : Unicode} {a b : String}

/-! ## Normal forms -/

/-- The character that stands for what was replaced. -/
theorem mem_replaceRuns {sep c : Char} {replaced : Bool} {s : List Char}
    (h : c ∈ replaceRuns sep replaced s) : c ∈ s ∧ isAlnum c = true ∨ c = sep := by
  induction s generalizing replaced with
  | nil => cases h
  | cons d s ih =>
      rw [replaceRuns] at h
      split at h
      · rename_i halnum
        rcases List.mem_cons.mp h with rfl | h
        · exact .inl ⟨List.mem_cons_self, halnum⟩
        · exact (ih h).imp_left fun h => ⟨List.mem_cons_of_mem _ h.1, h.2⟩
      · split at h
        · exact (ih h).imp_left fun h => ⟨List.mem_cons_of_mem _ h.1, h.2⟩
        · rcases List.mem_cons.mp h with rfl | h
          · exact .inr rfl
          · exact (ih h).imp_left fun h => ⟨List.mem_cons_of_mem _ h.1, h.2⟩

/-- Letters and digits stay. -/
theorem mem_replaceRuns_of_alnum {sep c : Char} {replaced : Bool} {s : List Char} (hmem : c ∈ s)
    (halnum : isAlnum c = true) : c ∈ replaceRuns sep replaced s := by
  induction s generalizing replaced with
  | nil => cases hmem
  | cons d s ih =>
      rw [replaceRuns]
      rcases List.mem_cons.mp hmem with rfl | hmem
      · rw [if_pos halnum]
        exact List.mem_cons_self
      · split
        · exact List.mem_cons_of_mem _ (ih hmem)
        · split
          · exact ih hmem
          · exact List.mem_cons_of_mem _ (ih hmem)

theorem dropWhile_eq_nil_iff_all {p : Char → Bool} {s : List Char} :
    s.dropWhile p = [] ↔ ∀ c ∈ s, p c = true := List.dropWhile_eq_nil_iff

/-- A text is stripped away when it is all underscores. -/
theorem stripUnderscores_eq_nil_iff {s : List Char} :
    stripUnderscores s = [] ↔ ∀ c ∈ s, c = '_' := by
  rw [stripUnderscores, List.reverse_eq_nil_iff, dropWhile_eq_nil_iff_all]
  constructor
  · intro h
    have hfront : s.dropWhile (· == '_') = [] := by
      by_contra hne
      have hhead := List.head_dropWhile_not (· == '_') hne
      have hmem : (s.dropWhile (· == '_')).head hne ∈ (s.dropWhile (· == '_')).reverse :=
        List.mem_reverse.mpr (List.head_mem hne)
      rw [h _ hmem] at hhead
      cases hhead
    intro c hc
    simpa using dropWhile_eq_nil_iff_all.mp hfront c hc
  · intro h c hc
    simpa using h c (List.dropWhile_subset _ (List.mem_reverse.mp hc))

/-- No letter or digit of the name is left. -/
def Nameless (unicode : Unicode) (name : String) : Prop :=
  ∀ c ∈ withoutReferences unicode name, isAlnum c = false

theorem normalizeName_eq_nil_iff {name : String} :
    normalizeName unicode name = [] ↔ Nameless unicode name := by
  rw [normalizeName, stripUnderscores_eq_nil_iff]
  constructor
  · intro h c hc
    by_contra halnum
    have halnum : isAlnum c = true := by simpa using halnum
    have hunderscore := h c (mem_replaceRuns_of_alnum hc halnum)
    rw [hunderscore] at halnum
    cases halnum
  · intro h c hc
    rcases mem_replaceRuns hc with ⟨hmem, halnum⟩ | rfl
    · rw [h c hmem] at halnum
      cases halnum
    · rfl

/-! ## Upserts -/

/-- An upsert merges into a row of its key, or inserts a new one. -/
theorem upsert_cases {tenantId id : String} {args : UpsertCounterpartyArgs} {db : Counterparties}
    {result : UpsertedCounterparty}
    (h : upsertCounterpartyRow unicode tenantId id args db = .ok result) :
    (∃ existing ∈ db.rows, existing.normalizedName = some (counterpartyKey unicode args) ∧
      result = ⟨mergeCounterparty args existing, false, db.put (mergeCounterparty args existing)⟩) ∨
    ∃ confidence next, db.insert? (newCounterparty unicode tenantId id args confidence) = some next ∧
      result = ⟨newCounterparty unicode tenantId id args confidence, true, next⟩ := by
  obtain ⟨confidence, -, h⟩ := bind_ok.mp h
  dsimp only at h
  split at h
  · rename_i existing hexisting
    have hfound := List.find?_some (show List.find? _ _ = some existing from hexisting)
    obtain ⟨-, hname, -⟩ := of_decide_eq_true hfound
    exact .inl ⟨existing, List.mem_of_find?_eq_some hexisting, hname, (pure_ok.mp h).symm⟩
  · split at h
    · rename_i next hnext
      exact .inr ⟨confidence, next, hnext, (pure_ok.mp h).symm⟩
    · cases h

theorem mem_put (db : Counterparties) (row : CounterpartyRow) : row ∈ (db.put row).rows :=
  Table.mem_of_find? (by rw [Table.find?_put, if_pos rfl])

/-- An upsert returns the row it has written, under the key of its arguments. -/
theorem upsert_row {tenantId id : String} {args : UpsertCounterpartyArgs} {db : Counterparties}
    {result : UpsertedCounterparty}
    (h : upsertCounterpartyRow unicode tenantId id args db = .ok result) :
    result.row ∈ result.db.rows ∧
      result.row.normalizedName = some (counterpartyKey unicode args) := by
  obtain ⟨existing, -, hname, rfl⟩ | ⟨confidence, next, hnext, rfl⟩ := upsert_cases h
  · exact ⟨mem_put _ _, hname⟩
  · refine ⟨?_, rfl⟩
    rw [Table.insert?_rows hnext]
    exact List.mem_append_right _ List.mem_cons_self

/-- A row that conflicts is kept and takes up what the upsert brings. -/
theorem upsert_of_conflict {tenantId id : String} {args : UpsertCounterpartyArgs}
    {db : Counterparties} {confidence : Rat} {existing : CounterpartyRow}
    (hcapped : cappedConfidence args.provenance args.confidence = .ok confidence)
    (hconflict : conflictingCounterparty db (newCounterparty unicode tenantId id args confidence) =
      some existing) :
    upsertCounterpartyRow unicode tenantId id args db =
      .ok ⟨mergeCounterparty args existing, false, db.put (mergeCounterparty args existing)⟩ := by
  refine bind_ok.mpr ⟨confidence, hcapped, ?_⟩
  simp only [hconflict]
  rfl

/-- An upsert that lands in an existing row has found it under its own key. -/
theorem upsert_lands {tenantId id : String} {args : UpsertCounterpartyArgs} {db : Counterparties}
    {result : UpsertedCounterparty}
    (h : upsertCounterpartyRow unicode tenantId id args db = .ok result) {row : CounterpartyRow}
    (hmem : row ∈ db.rows) (hid : result.row.id = row.id) :
    row.normalizedName = some (counterpartyKey unicode args) := by
  have hfound := Table.find?_key hmem
  rw [← hid] at hfound
  obtain ⟨existing, hexisting, hname, rfl⟩ | ⟨confidence, next, hnext, rfl⟩ := upsert_cases h
  · have hkey : db.find? existing.id = some existing := Table.find?_key hexisting
    rw [Option.some.inj (hfound.symm.trans hkey)]
    exact hname
  · exact absurd (hfound.symm.trans (Table.insert?_fresh hnext)) (by simp)

/-- Rows keep their normalized names. -/
theorem upsert_keeps {tenantId id : String} {args : UpsertCounterpartyArgs} {db : Counterparties}
    {result : UpsertedCounterparty}
    (h : upsertCounterpartyRow unicode tenantId id args db = .ok result) {row : CounterpartyRow}
    (hmem : row ∈ db.rows) :
    ∃ kept ∈ result.db.rows, kept.id = row.id ∧ kept.normalizedName = row.normalizedName := by
  obtain ⟨existing, hexisting, -, rfl⟩ | ⟨confidence, next, hnext, rfl⟩ := upsert_cases h
  · have hfound := Table.find?_key hmem
    by_cases hid : row.id = (mergeCounterparty args existing).id
    · have hsame : row = existing := by
        rw [hid] at hfound
        exact Option.some.inj (hfound.symm.trans (Table.find?_key hexisting))
      exact ⟨_, mem_put _ _, hid.symm, by rw [hsame]; rfl⟩
    · refine ⟨row, ?_, rfl, rfl⟩
      exact Table.mem_of_find? (by rw [Table.find?_put, if_neg hid, hfound])
  · refine ⟨row, ?_, rfl, rfl⟩
    rw [Table.insert?_rows hnext]
    exact List.mem_append_left _ hmem

structure UpsertCall where
  tenantId : String
  id : String
  args : UpsertCounterpartyArgs

/-- Upserts one after the other. -/
def runUpserts (unicode : Unicode) : List UpsertCall → Counterparties → Except String Counterparties
  | [], db => .ok db
  | call :: calls, db => do
      let result ← upsertCounterpartyRow unicode call.tenantId call.id call.args db
      runUpserts unicode calls result.db

theorem runUpserts_keeps {calls : List UpsertCall} {db final : Counterparties}
    (h : runUpserts unicode calls db = .ok final) {row : CounterpartyRow} (hmem : row ∈ db.rows) :
    ∃ kept ∈ final.rows, kept.id = row.id ∧ kept.normalizedName = row.normalizedName := by
  induction calls generalizing db row with
  | nil =>
      cases h
      exact ⟨row, hmem, rfl, rfl⟩
  | cons call calls ih =>
      obtain ⟨result, hresult, h⟩ := bind_ok.mp h
      obtain ⟨kept, hkept, hid, hname⟩ := upsert_keeps hresult hmem
      obtain ⟨last, hlast, hlastId, hlastName⟩ := ih h hkept
      exact ⟨last, hlast, hlastId.trans hid, hlastName.trans hname⟩

/-! ## Merging and matching -/

/-- The names have one normal form, and it says something. -/
def SameName (unicode : Unicode) (a b : String) : Prop :=
  normalizeName unicode a = normalizeName unicode b ∧ normalizeName unicode a ≠ []

/-- Some upsert of the second name lands in the row that an earlier one returned for the first. -/
def Merges (unicode : Unicode) (a b : String) : Prop :=
  ∃ (first second : UpsertCall) (between : List UpsertCall) (start later : Counterparties)
    (firstResult secondResult : UpsertedCounterparty),
    first.args.name = a ∧ first.args.normalizedName = none ∧ second.args.name = b ∧
      second.args.normalizedName = none ∧
      upsertCounterpartyRow unicode first.tenantId first.id first.args start = .ok firstResult ∧
      runUpserts unicode between firstResult.db = .ok later ∧
      upsertCounterpartyRow unicode second.tenantId second.id second.args later =
        .ok secondResult ∧
      secondResult.row.id = firstResult.row.id

/-- The normalized names that are written for a name: by `upsertCounterpartyRow` and by an edit of
the name, and by the projection of canonical counterparties. -/
def writtenNames (unicode : Unicode) (name : String) : List (Option (List Char)) :=
  [some ((normalizeName unicode name).take 200),
    if normalizeName unicode name = [] then none else some (normalizeName unicode name)]

structure RowOf (unicode : Unicode) (name : String) (row : CounterpartyRow) : Prop where
  named : row.name = name
  written : row.normalizedName ∈ writtenNames unicode name

/-- Rows of the two names are scored as matched, without the bonus for an email. -/
def Matches (unicode : Unicode) (a b : String) : Prop :=
  ∃ row peer, RowOf unicode a row ∧ RowOf unicode b peer ∧
    (emailOf unicode row = none ∨ emailOf unicode row ≠ emailOf unicode peer) ∧
      ScoresMatched unicode row peer

/-- The condition on a pair of names: one of them has a letter or digit left, different normal forms
differ within two hundred characters, and so do the scoring forms of rows that are compared. -/
structure NamesApart (unicode : Unicode) (a b : String) : Prop where
  named : ¬(Nameless unicode a ∧ Nameless unicode b)
  short : normalizeName unicode a ≠ normalizeName unicode b →
    (normalizeName unicode a).take 200 ≠ (normalizeName unicode b).take 200
  scored : normalizeName unicode a ≠ normalizeName unicode b → a ≠ "" → b ≠ "" →
    scoringForm unicode a = scoringForm unicode b →
      ∀ x ∈ writtenNames unicode a, ∀ y ∈ writtenNames unicode b, loadsPeer x y = false

/-- Two names are merged exactly when the stored parts of their normal forms agree. -/
theorem merges_iff : Merges unicode a b ↔
    (normalizeName unicode a).take 200 = (normalizeName unicode b).take 200 := by
  constructor
  · rintro ⟨first, second, between, start, later, firstResult, secondResult, rfl, hfirstName, rfl,
      hsecondName, hfirst, hbetween, hsecond, hid⟩
    obtain ⟨hmem, hname⟩ := upsert_row hfirst
    obtain ⟨kept, hkept, hkeptId, hkeptName⟩ := runUpserts_keeps hbetween hmem
    have hlands := upsert_lands hsecond hkept (hid.trans hkeptId.symm)
    rw [hkeptName, hname, counterpartyKey, counterpartyKey, hfirstName, hsecondName] at hlands
    exact Option.some.inj hlands
  · intro hkeys
    let args (name : String) : UpsertCounterpartyArgs :=
      { name, type := .vendor, provenance := .extracted, confidence := 1 }
    have hcapped (name : String) :
        cappedConfidence (args name).provenance (args name).confidence = .ok 1 := by
      simp [args, cappedConfidence]
    let row := newCounterparty unicode "t" "cp_1" (args a) 1
    let db : Counterparties := ⟨[row], List.nodup_singleton _⟩
    have hfirst : upsertCounterpartyRow unicode "t" "cp_1" (args a) Table.empty =
        .ok ⟨row, true, db⟩ := by
      rw [upsertCounterpartyRow, hcapped]
      rfl
    have hconflict : conflictingCounterparty db (newCounterparty unicode "t" "cp_2" (args b) 1) =
        some row := by
      refine List.find?_cons_of_pos ?_
      simp [row, newCounterparty, args, counterpartyKey, hkeys]
    refine ⟨⟨"t", "cp_1", args a⟩, ⟨"t", "cp_2", args b⟩, [], Table.empty, db, _,
      ⟨mergeCounterparty (args b) row, false, db.put (mergeCounterparty (args b) row)⟩, rfl, rfl, rfl,
      rfl, hfirst, rfl, upsert_of_conflict (hcapped b) hconflict, rfl⟩

/-- Without the bonus for an email, the best score of names is the confident one. -/
theorem pairScore_of_apart {row peer : CounterpartyRow}
    (apart : emailOf unicode row = none ∨ emailOf unicode row ≠ emailOf unicode peer) :
    pairScore unicode row peer =
      min (if row.normalizedName ≠ none ∧ row.normalizedName = peer.normalizedName then 85 / 100
        else nameScore unicode row.name peer.name * (8 / 10)) (95 / 100) := by
  have hbonus : ¬(emailOf unicode row ≠ none ∧ emailOf unicode row = emailOf unicode peer) := by
    rintro ⟨hsome, hsame⟩
    exact apart.elim hsome fun hne => hne hsame
  simp only [pairScore, if_neg hbonus, add_zero, EXACT_NAME_SCORE]

/-- Names score one when their scoring forms are equal, and at most `7 / 10` otherwise. -/
theorem nameScore_cases (unicode : Unicode) (a b : String) :
    (a ≠ "" ∧ b ≠ "" ∧ scoringForm unicode a = scoringForm unicode b ∧
      nameScore unicode a b = 1) ∨
    (¬(a ≠ "" ∧ b ≠ "" ∧ scoringForm unicode a = scoringForm unicode b) ∧
      nameScore unicode a b ≤ 7 / 10) := by
  unfold nameScore
  by_cases hempty : a = "" ∨ b = ""
  · rw [if_pos hempty]
    refine .inr ⟨fun h => hempty.elim h.1 h.2.1, by norm_num⟩
  · rw [if_neg hempty]
    rw [not_or] at hempty
    dsimp only
    by_cases hsame : scoringForm unicode a = scoringForm unicode b
    · exact .inl ⟨hempty.1, hempty.2, hsame, if_pos hsame⟩
    · rw [if_neg hsame]
      refine .inr ⟨fun h => hsame h.2.2, ?_⟩
      split
      · exact le_refl _
      · split <;> norm_num

/-- A pair is matched on its names when the stored normal forms are equal, or the scoring forms. -/
theorem matched_iff {row peer : CounterpartyRow}
    (apart : emailOf unicode row = none ∨ emailOf unicode row ≠ emailOf unicode peer) :
    pairStatus unicode row peer = some .matched ↔
      (row.normalizedName ≠ none ∧ row.normalizedName = peer.normalizedName) ∨
      (row.name ≠ "" ∧ peer.name ≠ "" ∧
        scoringForm unicode row.name = scoringForm unicode peer.name) := by
  have hstatus : pairStatus unicode row peer = some .matched ↔
      (8 / 10 : Rat) ≤ pairScore unicode row peer := by
    unfold pairStatus CANDIDATE_THRESHOLD CONFIDENT_THRESHOLD
    dsimp only
    split
    · rename_i hbelow
      have hlt : ¬(8 / 10 : Rat) ≤ pairScore unicode row peer := by
        have : (55 / 100 : Rat) < 8 / 10 := by norm_num
        exact not_le.mpr (lt_trans hbelow this)
      simp [hlt]
    · by_cases hconfident : (8 / 10 : Rat) ≤ pairScore unicode row peer <;> simp [hconfident]
  rw [hstatus, pairScore_of_apart apart, le_min_iff]
  by_cases hexact : row.normalizedName ≠ none ∧ row.normalizedName = peer.normalizedName
  · rw [if_pos hexact]
    exact iff_of_true (by norm_num) (.inl hexact)
  · rw [if_neg hexact]
    rcases nameScore_cases unicode row.name peer.name with
      ⟨hrow, hpeer, hsame, hscore⟩ | ⟨hdifferent, hscore⟩
    · rw [hscore]
      exact iff_of_true (by norm_num) (.inr ⟨hrow, hpeer, hsame⟩)
    · refine iff_of_false (fun h => ?_) (fun h => h.elim hexact hdifferent)
      linarith [h.1]

/-- A row of a name, with the normalized name that one of the writers gave it. -/
def rowOf (id name : String) (normalizedName : Option (List Char)) : CounterpartyRow :=
  { id, ownerId := "t", name, normalizedName, type := .vendor, provenance := .extracted
    confidence := 1 }

/-- Any two written names of a pair are compared and scored somewhere. -/
theorem matches_of_written {x y : Option (List Char)} (hx : x ∈ writtenNames unicode a)
    (hy : y ∈ writtenNames unicode b) (hloads : loadsPeer x y = true)
    (hscored : (x ≠ none ∧ x = y) ∨
      (a ≠ "" ∧ b ≠ "" ∧ scoringForm unicode a = scoringForm unicode b)) :
    Matches unicode a b := by
  have hemail : emailOf unicode (rowOf "cp_1" a x) = none := rfl
  exact ⟨rowOf "cp_1" a x, rowOf "cp_2" b y, ⟨rfl, hx⟩, ⟨rfl, hy⟩, .inl hemail,
    show "cp_1" ≠ "cp_2" by decide, hloads, (matched_iff (.inl hemail)).mpr hscored⟩

/-- What is written for a name is its normal form, or the first two hundred characters of it. -/
theorem mem_writtenNames {name : String} {x : List Char} (h : some x ∈ writtenNames unicode name) :
    x = (normalizeName unicode name).take 200 ∨ x = normalizeName unicode name := by
  simp only [writtenNames, List.mem_cons, List.not_mem_nil, or_false] at h
  rcases h with h | h
  · exact .inl (Option.some.inj h)
  · split at h
    · cases h
    · exact .inr (Option.some.inj h)

/-- Equal stored names come from normal forms that agree as far as they are stored. -/
theorem take_eq_of_written {x : List Char} (hx : some x ∈ writtenNames unicode a)
    (hy : some x ∈ writtenNames unicode b) :
    (normalizeName unicode a).take 200 = (normalizeName unicode b).take 200 := by
  rcases mem_writtenNames hx with h | h <;> rcases mem_writtenNames hy with h' | h'
  · exact h.symm.trans h'
  · rw [← h', h, List.take_take, min_self]
  · rw [← h, h', List.take_take, min_self]
  · rw [← h, ← h']

/-- Names are merged or matched only into one normal form that is not empty, exactly when they are
apart. -/
theorem names_sound_iff :
    (Merges unicode a b ∨ Matches unicode a b → SameName unicode a b) ↔ NamesApart unicode a b := by
  constructor
  · intro hsound
    have hkeys : (normalizeName unicode a).take 200 = (normalizeName unicode b).take 200 →
        SameName unicode a b := fun h => hsound (.inl (merges_iff.mpr h))
    refine ⟨?_, ?_, ?_⟩
    · rintro ⟨ha, hb⟩
      have ha := normalizeName_eq_nil_iff.mpr ha
      have hb := normalizeName_eq_nil_iff.mpr hb
      exact (hkeys (by rw [ha, hb])).2 ha
    · intro hne hsame
      exact hne (hkeys hsame).1
    · intro hne ha hb hscoring x hx y hy
      by_contra hloads
      have hloads : loadsPeer x y = true := by simpa using hloads
      exact hne (hsound (.inr (matches_of_written hx hy hloads (.inr ⟨ha, hb, hscoring⟩)))).1
  · intro happart
    have hnonempty (h : normalizeName unicode a = normalizeName unicode b) :
        SameName unicode a b := by
      refine ⟨h, fun hnil => happart.named ?_⟩
      exact ⟨normalizeName_eq_nil_iff.mp hnil, normalizeName_eq_nil_iff.mp (h ▸ hnil)⟩
    rintro (hmerges | ⟨row, peer, hrow, hpeer, hemail, -, hloads, hmatched⟩)
    · by_contra hdifferent
      exact happart.short (fun h => hdifferent (hnonempty h)) (merges_iff.mp hmerges)
    · by_contra hdifferent
      have hne : normalizeName unicode a ≠ normalizeName unicode b := fun h =>
        hdifferent (hnonempty h)
      rcases (matched_iff hemail).mp hmatched with ⟨hsome, hsame⟩ | ⟨hrowName, hpeerName, hscoring⟩
      · obtain ⟨x, hx⟩ := Option.ne_none_iff_exists'.mp hsome
        have hwritten := hrow.written
        have hpeerWritten := hpeer.written
        rw [← hsame] at hpeerWritten
        rw [hx] at hwritten hpeerWritten
        exact happart.short hne (take_eq_of_written hwritten hpeerWritten)
      · rw [hrow.named] at hrowName hscoring
        rw [hpeer.named] at hpeerName hscoring
        have hunloaded := happart.scored hne hrowName hpeerName hscoring _ hrow.written _
          hpeer.written
        rw [hloads] at hunloaded
        cases hunloaded

/-- The tables on ASCII letters and on characters without a decomposition or a lower case. -/
def plainUnicode : Unicode := ⟨id, fun s => s.map Char.toLower⟩

/-- Two names in another script are merged, and nothing of them is left in their normal forms. -/
theorem other_scripts_merge : (Merges plainUnicode "株式会社" "有限公司" ∨
    Matches plainUnicode "株式会社" "有限公司") ∧
    ¬SameName plainUnicode "株式会社" "有限公司" := by
  have hfirst : normalizeName plainUnicode "株式会社" = [] := by decide +kernel
  have hsecond : normalizeName plainUnicode "有限公司" = [] := by decide +kernel
  refine ⟨.inl (merges_iff.mpr ?_), fun h => h.2 hfirst⟩
  rw [hfirst, hsecond]

end BrainCore.Ledger
