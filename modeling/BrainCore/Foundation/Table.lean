import Mathlib.Data.List.Basic
import Mathlib.Data.List.Nodup
import Mathlib.Algebra.BigOperators.Group.List.Basic

/-!
# Keyed tables

A table is a list of rows whose keys are distinct; the primary key is a field of
the type, so a table with two rows of one key cannot be built.  The operations
are the statements a repository sends: look a row up by key, update the rows a
predicate selects, insert a row or refuse a key that is taken, and sum a weight
over the rows.
-/

namespace BrainCore.Foundation

universe u v w

/-- Rows with distinct keys, in insertion order. -/
structure Table {ρ : Type u} {κ : Type v} (key : ρ → κ) where
  rows : List ρ
  nodup : (rows.map key).Nodup

namespace Table

variable {ρ : Type u} {κ : Type v} {key : ρ → κ}

@[ext]
theorem ext {first second : Table key} (same : first.rows = second.rows) : first = second := by
  cases first
  cases second
  cases same
  rfl

/-- The table without rows. -/
def empty : Table key := ⟨[], List.nodup_nil⟩

/-- `UPDATE … SET … WHERE p`, for an assignment that leaves the key alone. -/
def updateWhere (table : Table key) (p : ρ → Bool) (assign : ρ → ρ)
    (keeps : ∀ row, key (assign row) = key row) : Table key where
  rows := table.rows.map fun row => if p row then assign row else row
  nodup := by
    have same : (table.rows.map fun row => if p row then assign row else row).map key =
        table.rows.map key := by
      rw [List.map_map]
      refine List.map_congr_left fun row _ => ?_
      by_cases hp : p row = true <;> simp [hp, keeps]
    rw [same]
    exact table.nodup

theorem updateWhere_congr {table : Table key} {p q : ρ → Bool} {assign : ρ → ρ}
    {keeps : ∀ row, key (assign row) = key row} (same : ∀ row ∈ table.rows, p row = q row) :
    table.updateWhere p assign keeps = table.updateWhere q assign keeps := by
  refine ext (List.map_congr_left fun row hrow => ?_)
  rw [same row hrow]

/-- An update that selects no row. -/
theorem updateWhere_of_none {table : Table key} {p : ρ → Bool} {assign : ρ → ρ}
    {keeps : ∀ row, key (assign row) = key row} (none : ∀ row ∈ table.rows, p row = false) :
    table.updateWhere p assign keeps = table := by
  refine ext ?_
  conv_rhs => rw [← List.map_id table.rows]
  refine List.map_congr_left fun row hrow => ?_
  rw [none row hrow]
  rfl

section Lookup

variable [DecidableEq κ]

/-- The row of a key. -/
def find? (table : Table key) (k : κ) : Option ρ :=
  table.rows.find? fun row => key row = k

/-- `UPDATE … SET … WHERE key = k`. -/
def update (table : Table key) (k : κ) (assign : ρ → ρ)
    (keeps : ∀ row, key (assign row) = key row) : Table key :=
  table.updateWhere (fun row => key row = k) assign keeps

/-- `INSERT`, refused when the key is taken. -/
def insert? (table : Table key) (row : ρ) : Option (Table key) :=
  if fresh : key row ∈ table.rows.map key then none
  else some ⟨table.rows ++ [row], by
    rw [List.map_append]
    exact List.nodup_append.mpr ⟨table.nodup, List.nodup_singleton _, by
      intro a ha b hb hab
      rw [List.map_singleton, List.mem_singleton] at hb
      exact fresh (hb ▸ hab ▸ ha)⟩⟩

theorem find?_eq_some_iff {table : Table key} {k : κ} {row : ρ} :
    table.find? k = some row ↔ row ∈ table.rows ∧ key row = k := by
  constructor
  · intro found
    exact ⟨List.mem_of_find?_eq_some found, by simpa using List.find?_some found⟩
  · rintro ⟨hmem, rfl⟩
    obtain ⟨other, hother⟩ : ∃ other, table.find? (key row) = some other := by
      rw [← Option.isSome_iff_exists, find?, List.find?_isSome]
      exact ⟨row, hmem, by simp⟩
    have otherMem := List.mem_of_find?_eq_some hother
    have otherKey : key other = key row := by simpa using List.find?_some hother
    rw [hother, List.inj_on_of_nodup_map table.nodup otherMem hmem otherKey]

theorem mem_of_find? {table : Table key} {k : κ} {row : ρ} (found : table.find? k = some row) :
    row ∈ table.rows := (find?_eq_some_iff.mp found).1

theorem key_of_find? {table : Table key} {k : κ} {row : ρ} (found : table.find? k = some row) :
    key row = k := (find?_eq_some_iff.mp found).2

theorem find?_key {table : Table key} {row : ρ} (hmem : row ∈ table.rows) :
    table.find? (key row) = some row := find?_eq_some_iff.mpr ⟨hmem, rfl⟩

@[simp]
theorem find?_empty (k : κ) : (empty : Table key).find? k = none := rfl

/-- An update changes what a lookup returns by the assignment, and nothing else. -/
theorem find?_updateWhere (table : Table key) (p : ρ → Bool) (assign : ρ → ρ)
    (keeps : ∀ row, key (assign row) = key row) (k : κ) :
    (table.updateWhere p assign keeps).find? k =
      (table.find? k).map fun row => if p row then assign row else row := by
  unfold find? updateWhere
  rw [List.find?_map]
  congr 2
  funext row
  by_cases hp : p row = true <;> simp [hp, keeps]

theorem find?_update (table : Table key) (k other : κ) (assign : ρ → ρ)
    (keeps : ∀ row, key (assign row) = key row) :
    (table.update k assign keeps).find? other =
      if other = k then (table.find? k).map assign else table.find? other := by
  rw [update, find?_updateWhere]
  by_cases same : other = k
  · subst same
    rw [if_pos rfl]
    cases found : table.find? other with
    | none => rfl
    | some row => simp [key_of_find? found]
  · rw [if_neg same]
    cases found : table.find? other with
    | none => rfl
    | some row => simp [key_of_find? found, same]

theorem find?_update_self {table : Table key} {k : κ} {row : ρ} {assign : ρ → ρ}
    {keeps : ∀ row, key (assign row) = key row} (found : table.find? k = some row) :
    (table.update k assign keeps).find? k = some (assign row) := by
  rw [find?_update, if_pos rfl, found, Option.map_some]

theorem find?_update_of_ne {table : Table key} {k other : κ} {assign : ρ → ρ}
    {keeps : ∀ row, key (assign row) = key row} (different : other ≠ k) :
    (table.update k assign keeps).find? other = table.find? other := by
  rw [find?_update, if_neg different]

theorem insert?_fresh {table next : Table key} {row : ρ} (inserted : table.insert? row = some next) :
    table.find? (key row) = none := by
  unfold insert? at inserted
  split at inserted
  · cases inserted
  · rename_i fresh
    rw [find?, List.find?_eq_none]
    intro other hother
    simp only [decide_eq_true_eq]
    exact fun same => fresh (List.mem_map.mpr ⟨other, hother, same⟩)

/-- A row of a new key is accepted. -/
theorem exists_insert {table : Table key} {row : ρ} (missing : table.find? (key row) = none) :
    ∃ next, table.insert? row = some next := by
  have fresh : key row ∉ table.rows.map key := by
    intro hmem
    obtain ⟨other, hother, same⟩ := List.mem_map.mp hmem
    rw [← same, find?_key hother] at missing
    cases missing
  exact ⟨_, dif_neg fresh⟩

theorem insert?_rows {table next : Table key} {row : ρ} (inserted : table.insert? row = some next) :
    next.rows = table.rows ++ [row] := by
  unfold insert? at inserted
  split at inserted <;> cases inserted
  rfl

theorem find?_insert {table next : Table key} {row : ρ} (inserted : table.insert? row = some next)
    (k : κ) : next.find? k = if k = key row then some row else table.find? k := by
  have fresh := insert?_fresh inserted
  rw [find?, insert?_rows inserted, List.find?_append]
  by_cases same : k = key row
  · subst same
    rw [if_pos rfl]
    rw [find?] at fresh
    rw [fresh]
    simp
  · rw [if_neg same]
    have last : List.find? (fun other => decide (key other = k)) [row] = none := by
      simpa using fun h => same h.symm
    rw [last, Option.or_none]
    rfl

/-- The row in place of the one of its key, or after the others. -/
def put (table : Table key) (row : ρ) : Table key :=
  if stored : key row ∈ table.rows.map key then
    ⟨table.rows.map fun old => if key old = key row then row else old, by
      have same : (table.rows.map fun old => if key old = key row then row else old).map key =
          table.rows.map key := by
        rw [List.map_map]
        refine List.map_congr_left fun old _ => ?_
        by_cases hkey : key old = key row <;> simp [hkey]
      rw [same]
      exact table.nodup⟩
  else
    ⟨table.rows ++ [row], by
      rw [List.map_append, List.map_singleton]
      exact List.nodup_append.mpr ⟨table.nodup, List.nodup_singleton _, by
        intro a ha b hb hab
        rw [List.mem_singleton] at hb
        exact stored (hb ▸ hab ▸ ha)⟩⟩

theorem mem_keys_iff {table : Table key} {k : κ} :
    k ∈ table.rows.map key ↔ ∃ row, table.find? k = some row := by
  constructor
  · intro hmem
    obtain ⟨row, hrow, rfl⟩ := List.mem_map.mp hmem
    exact ⟨row, find?_key hrow⟩
  · rintro ⟨row, found⟩
    exact List.mem_map.mpr ⟨row, mem_of_find? found, key_of_find? found⟩

theorem find?_put (table : Table key) (row : ρ) (k : κ) :
    (table.put row).find? k = if k = key row then some row else table.find? k := by
  unfold put
  split
  · rename_i stored
    unfold find?
    rw [List.find?_map]
    by_cases same : k = key row
    · subst same
      rw [if_pos rfl]
      obtain ⟨old, found⟩ := mem_keys_iff.mp stored
      have hold := key_of_find? found
      have hpred : ((fun other => decide (key other = key row)) ∘
          fun old => if key old = key row then row else old) =
            fun old => decide (key old = key row) := by
        funext other
        by_cases h : key other = key row <;> simp [h]
      rw [hpred]
      rw [find?] at found
      rw [found, Option.map_some, if_pos hold]
    · rw [if_neg same]
      have hpred : ((fun other => decide (key other = k)) ∘
          fun old => if key old = key row then row else old) = fun old => decide (key old = k) := by
        funext other
        by_cases h : key other = key row
        · simp [h, Ne.symm same]
        · simp [h]
      rw [hpred]
      cases found : table.rows.find? fun old => decide (key old = k) with
      | none => rfl
      | some old =>
          have hold : key old = k := by simpa using List.find?_some found
          rw [Option.map_some, if_neg (hold ▸ same)]
  · rename_i fresh
    have inserted : table.insert? row = some ⟨table.rows ++ [row], _⟩ := dif_neg fresh
    exact find?_insert inserted k

theorem put_rows_of_mem {table : Table key} {row : ρ} (stored : key row ∈ table.rows.map key) :
    (table.put row).rows = table.rows.map fun old => if key old = key row then row else old := by
  rw [put, dif_pos stored]

theorem put_rows_of_not_mem {table : Table key} {row : ρ} (fresh : key row ∉ table.rows.map key) :
    (table.put row).rows = table.rows ++ [row] := by
  rw [put, dif_neg fresh]

theorem mem_of_mem_put {table : Table key} {row other : ρ} (h : other ∈ (table.put row).rows) :
    other ∈ table.rows ∨ other = row := by
  have hfound := find?_key h
  rw [find?_put] at hfound
  split at hfound
  · exact .inr (Option.some.inj hfound).symm
  · exact .inl (mem_of_find? hfound)

theorem mem_put_of_fresh {table : Table key} {row other : ρ}
    (fresh : ∀ old ∈ table.rows, key old ≠ key row) :
    other ∈ (table.put row).rows ↔ other ∈ table.rows ∨ other = row := by
  have hmem : key row ∉ table.rows.map key := by
    intro hmem
    obtain ⟨old, hold, same⟩ := List.mem_map.mp hmem
    exact fresh old hold same
  rw [put_rows_of_not_mem hmem, List.mem_append, List.mem_singleton]

/-- Two stored rows of different keys can be put in either order. -/
theorem put_comm (table : Table key) {first second : ρ} (different : key first ≠ key second)
    (hfirst : key first ∈ table.rows.map key) (hsecond : key second ∈ table.rows.map key) :
    (table.put first).put second = (table.put second).put first := by
  have kept : ∀ {row : ρ} {k : κ}, k ∈ table.rows.map key → k ∈ (table.put row).rows.map key := by
    intro row k hk
    obtain ⟨old, hold⟩ := mem_keys_iff.mp hk
    by_cases same : k = key row
    · exact mem_keys_iff.mpr ⟨row, by rw [find?_put, if_pos same]⟩
    · exact mem_keys_iff.mpr ⟨old, by rw [find?_put, if_neg same, hold]⟩
  refine ext ?_
  rw [put_rows_of_mem (kept hsecond), put_rows_of_mem (kept hfirst), put_rows_of_mem hfirst,
    put_rows_of_mem hsecond, List.map_map, List.map_map]
  refine List.map_congr_left fun old _ => ?_
  by_cases hold : key old = key first
  · simp [hold, different]
  · by_cases hother : key old = key second <;> simp [hold, hother, different.symm]

/-- The last of some rows with a key. -/
def latest (key : ρ → κ) (rows : List ρ) (k : κ) : Option ρ := rows.reverse.find? fun row => key row = k

theorem latest_append (first second : List ρ) (k : κ) :
    latest key (first ++ second) k =
      (latest key second k).or (latest key first k) := by
  rw [latest, List.reverse_append, List.find?_append]
  rfl

theorem mem_of_latest {rows : List ρ} {k : κ} {row : ρ}
    (h : latest key rows k = some row) : row ∈ rows ∧ key row = k :=
  ⟨List.mem_reverse.mp (List.mem_of_find?_eq_some h), by simpa using List.find?_some h⟩

theorem latest_none_iff {rows : List ρ} {k : κ} :
    latest key rows k = none ↔ ∀ row ∈ rows, key row ≠ k := by
  simp [latest]

/-- After some rows were put one after the other, a key has the last of its rows, or the row it
had. -/
theorem find?_foldl_put (table : Table key) (rows : List ρ) (k : κ) :
    (rows.foldl put table).find? k = (latest key rows k).or (table.find? k) := by
  induction rows generalizing table with
  | nil => rfl
  | cons row rest ih =>
      rw [List.foldl_cons, ih, find?_put, ← List.singleton_append, latest_append, Option.or_assoc]
      congr 1
      by_cases hk : k = key row
      · subst hk
        simp [latest]
      · simp [latest, hk, Ne.symm hk]

/-- Putting the assigned row is updating it. -/
theorem put_eq_update {table : Table key} {k : κ} {row : ρ} {assign : ρ → ρ}
    {keeps : ∀ row, key (assign row) = key row} (found : table.find? k = some row) :
    table.put (assign row) = table.update k assign keeps := by
  obtain ⟨hmem, rfl⟩ := find?_eq_some_iff.mp found
  have stored : key (assign row) ∈ table.rows.map key := by
    rw [keeps]
    exact List.mem_map_of_mem hmem
  refine ext ?_
  rw [put, dif_pos stored]
  refine List.map_congr_left fun old hold => ?_
  rw [keeps]
  by_cases same : key old = key row
  · rw [List.inj_on_of_nodup_map table.nodup hold hmem same]
    simp
  · simp [same]

end Lookup

theorem mem_updateWhere {table : Table key} {p : ρ → Bool} {assign : ρ → ρ}
    {keeps : ∀ row, key (assign row) = key row} {row : ρ} :
    row ∈ (table.updateWhere p assign keeps).rows ↔
      ∃ old ∈ table.rows, (if p old then assign old else old) = row := by
  simp [updateWhere, List.mem_map]

/-- A row after an update is one that was not selected, or an assigned one. -/
theorem mem_updateWhere_cases {table : Table key} {p : ρ → Bool} {assign : ρ → ρ}
    {keeps : ∀ row, key (assign row) = key row} {row : ρ} :
    row ∈ (table.updateWhere p assign keeps).rows ↔
      row ∈ table.rows ∧ p row = false ∨ ∃ old ∈ table.rows, p old = true ∧ row = assign old := by
  rw [mem_updateWhere]
  constructor
  · rintro ⟨old, hold, rfl⟩
    cases hp : p old with
    | false => exact .inl ⟨hold, hp⟩
    | true => exact .inr ⟨old, hold, hp, rfl⟩
  · rintro (⟨hrow, hp⟩ | ⟨old, hold, hp, rfl⟩)
    · exact ⟨row, hrow, by rw [hp]; rfl⟩
    · exact ⟨old, hold, by rw [hp]; rfl⟩

section Delete

/-- `DELETE FROM … WHERE p`. -/
def deleteWhere (table : Table key) (p : ρ → Bool) : Table key where
  rows := table.rows.filter fun row => !p row
  nodup := table.nodup.sublist (List.filter_sublist.map key)

theorem mem_deleteWhere {table : Table key} {p : ρ → Bool} {row : ρ} :
    row ∈ (table.deleteWhere p).rows ↔ row ∈ table.rows ∧ p row = false := by
  rw [deleteWhere, List.mem_filter, Bool.not_eq_true']

end Delete

section Total

variable {M : Type w} [AddCommMonoid M]

/-- The sum of a weight over the rows. -/
def total (table : Table key) (weight : ρ → M) : M :=
  (table.rows.map weight).sum

@[simp]
theorem total_empty (weight : ρ → M) : (empty : Table key).total weight = 0 := rfl

theorem total_congr {table : Table key} {first second : ρ → M}
    (same : ∀ row ∈ table.rows, first row = second row) :
    table.total first = table.total second := by
  rw [total, total, List.map_congr_left same]

theorem total_updateWhere (table : Table key) (p : ρ → Bool) (assign : ρ → ρ)
    (keeps : ∀ row, key (assign row) = key row) (weight : ρ → M) :
    (table.updateWhere p assign keeps).total weight =
      table.total fun row => weight (if p row then assign row else row) := by
  rw [total, total, updateWhere, List.map_map]
  rfl

theorem total_insert [DecidableEq κ] {table next : Table key} {row : ρ}
    (inserted : table.insert? row = some next) (weight : ρ → M) :
    next.total weight = table.total weight + weight row := by
  rw [total, insert?_rows inserted, List.map_append, List.sum_append]
  simp [total]

/-- Updating one row moves the sum by the change of that row's weight. -/
theorem total_update [DecidableEq κ] {table : Table key} {k : κ} {row : ρ} {assign : ρ → ρ}
    {keeps : ∀ row, key (assign row) = key row} (found : table.find? k = some row)
    (weight : ρ → M) :
    (table.update k assign keeps).total weight + weight row =
      table.total weight + weight (assign row) := by
  obtain ⟨hmem, hkey⟩ := find?_eq_some_iff.mp found
  obtain ⟨before, after, hsplit⟩ := List.append_of_mem hmem
  have hnodup := table.nodup
  rw [hsplit, List.map_append, List.map_cons, List.nodup_append, List.nodup_cons] at hnodup
  have keepsBefore : ∀ other ∈ before, weight (if key other = k then assign other else other) =
      weight other := by
    intro other hother
    have different : key other ≠ k := fun same =>
      hnodup.2.2 (key other) (List.mem_map_of_mem hother) (key row) List.mem_cons_self
        (same.trans hkey.symm)
    rw [if_neg different]
  have keepsAfter : ∀ other ∈ after, weight (if key other = k then assign other else other) =
      weight other := by
    intro other hother
    have different : key other ≠ k := fun same =>
      hnodup.2.1.1 (hkey ▸ same ▸ List.mem_map_of_mem hother)
    rw [if_neg different]
  rw [update, total_updateWhere, total, total, hsplit]
  simp only [List.map_append, List.map_cons, List.sum_append, List.sum_cons, hkey,
    if_true, decide_eq_true_eq]
  rw [List.map_congr_left keepsBefore, List.map_congr_left keepsAfter]
  simp only [add_comm, add_left_comm]

end Total

end Table

end BrainCore.Foundation
