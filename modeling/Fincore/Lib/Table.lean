import Mathlib.Data.List.Nodup

/-
  Tables with a primary key.

  A table is a list of rows in insertion order, no two of which have the same key; the order only
  matters to scans.

  Key definitions include:
    * `Table`
    * `Table.lookup`
    * `Table.insert`, `Table.modify` and `Table.filter`

  Main results:
    * `Table.lookup_eq_some_iff`
    * `Table.mem_insert`
    * `Table.mem_modify` and `Table.lookup_modify`
    * `Table.filter_modify` and `Table.filter_insert`
-/

----
-- Tables
----

/- Rows of which no two have the same key. -/
structure Table {Row Key : Type} (key : Row → Key) where
  rows : List Row
  unique : (rows.map key).Nodup

namespace Table

variable {Row Key : Type} {key : Row → Key}

def empty (key : Row → Key) : Table key := ⟨[], List.nodup_nil⟩

/- Change the rows that the key selects. -/
def modify [DecidableEq Key] (t : Table key) (k : Key) (f : Row → Row)
    (hKey : ∀ r, key (f r) = key r) : Table key where
  rows := t.rows.map (fun r => if key r = k then f r else r)
  unique := by
    have hKeys : (t.rows.map (fun r => if key r = k then f r else r)).map key = t.rows.map key := by
      rw [List.map_map]
      refine List.map_congr_left ?_
      intro r _
      show key (if key r = k then f r else r) = key r
      split
      · exact hKey r
      · rfl
    rw [hKeys]
    exact t.unique

/- Keep the rows that pass a test. -/
def filter (t : Table key) (p : Row → Bool) : Table key where
  rows := t.rows.filter p
  unique := List.Nodup.sublist (List.Sublist.map key List.filter_sublist) t.unique

variable [DecidableEq Key]

/- The row with a key. -/
def lookup (t : Table key) (k : Key) : Option Row := t.rows.find? (fun r => decide (key r = k))

/- Add a row, unless its key is taken. -/
def insert (t : Table key) (r : Row) : Table key :=
  if hTaken : key r ∈ t.rows.map key then t
  else
    { rows := t.rows ++ [r]
      unique := by
        rw [List.map_append, List.map_singleton]
        refine t.unique.append (List.nodup_singleton _) ?_
        rw [List.disjoint_singleton]
        exact hTaken }

----
-- Rows Of A Table
----

variable {Row Key : Type} {key : Row → Key} {t : Table key} {r r' : Row} {k : Key}

theorem eq_of_key (hRow : r ∈ t.rows) (hRow' : r' ∈ t.rows) (hKey : key r = key r') : r = r' :=
  List.inj_on_of_nodup_map t.unique hRow hRow' hKey

theorem eq_of_rows {t t' : Table key} (hRows : t.rows = t'.rows) : t = t' := by
  cases t
  cases t'
  cases hRows
  rfl

variable {p : Row → Bool}

@[simp] theorem mem_filter : r ∈ (t.filter p).rows ↔ r ∈ t.rows ∧ p r = true := List.mem_filter

variable [DecidableEq Key]

theorem lookup_eq_some_iff : t.lookup k = some r ↔ r ∈ t.rows ∧ key r = k := by
  unfold lookup
  constructor
  · intro hFound
    exact ⟨List.mem_of_find?_eq_some hFound, by
      simpa using List.find?_some hFound⟩
  · rintro ⟨hRow, rfl⟩
    cases hFound : t.rows.find? (fun s => decide (key s = key r)) with
    | none =>
      have hNone := List.find?_eq_none.mp hFound r hRow
      simp at hNone
    | some s =>
      have hKey : key s = key r := by
        simpa using List.find?_some hFound
      rw [eq_of_key (List.mem_of_find?_eq_some hFound) hRow hKey]

theorem lookup_eq_none_iff : t.lookup k = none ↔ ∀ r ∈ t.rows, key r ≠ k := by
  unfold lookup
  simp [List.find?_eq_none]

theorem rows_insert (hFree : t.lookup (key r) = none) : (t.insert r).rows = t.rows ++ [r] := by
  have hNew : key r ∉ t.rows.map key := by
    rw [List.mem_map]
    rintro ⟨s, hRow, hKey⟩
    exact lookup_eq_none_iff.mp hFree s hRow hKey
  unfold insert
  rw [dif_neg hNew]

theorem mem_insert (hFree : t.lookup (key r) = none) :
    r' ∈ (t.insert r).rows ↔ r' ∈ t.rows ∨ r' = r := by
  rw [rows_insert hFree, List.mem_append, List.mem_singleton]

theorem mem_insert_of_mem (hRow : r' ∈ t.rows) (r : Row) : r' ∈ (t.insert r).rows := by
  unfold insert
  split
  · exact hRow
  · exact List.mem_append_left _ hRow

theorem mem_of_mem_insert (hRow : r' ∈ (t.insert r).rows) : r' ∈ t.rows ∨ r' = r := by
  unfold insert at hRow
  split at hRow
  · exact Or.inl hRow
  · rcases List.mem_append.mp hRow with hOld | hNew
    · exact Or.inl hOld
    · exact Or.inr (List.mem_singleton.mp hNew)

variable {f : Row → Row}

theorem mem_modify {hKey : ∀ r, key (f r) = key r} : r' ∈ (t.modify k f hKey).rows ↔
      ∃ r ∈ t.rows, r' = if key r = k then f r else r := by
  unfold modify
  simp only [List.mem_map, eq_comm]

/- A change of a row is found under the row's key. -/
theorem lookup_modify (hKey : ∀ r, key (f r) = key r)
    {k' : Key} : (t.modify k f hKey).lookup k' = (t.lookup k').map
        (fun r => if key r = k then f r else r) := by
  have hSame :
      (fun r => decide (key (if key r = k then f r else r) =
        k')) = (fun r => decide (key r = k')) := by
    funext r
    by_cases hAt : key r = k
    · rw [if_pos hAt, hKey]
    · rw [if_neg hAt]
  unfold lookup modify
  rw [List.find?_map]
  exact congrArg (fun p => (t.rows.find? p).map _) hSame

theorem modify_eq_self (hKey : ∀ r, key (f r) = key r)
    (hSame : ∀ r ∈ t.rows, key r = k → f r = r) : t.modify k f hKey = t := by
  have hRows : t.rows.map (fun r => if key r = k then f r else r) =
      t.rows := by
    refine (List.map_congr_left ?_).trans (List.map_id _)
    intro r hRow
    by_cases hAt : key r = k
    · rw [if_pos hAt, hSame r hRow hAt, id]
    · rw [if_neg hAt, id]
  rcases t with ⟨rows, unique⟩
  unfold modify
  simp only [hRows]

/- A row is found among those that are kept. -/
theorem lookup_filter : (t.filter p).lookup k = some r ↔ t.lookup k = some r ∧ p r = true := by
  rw [lookup_eq_some_iff, lookup_eq_some_iff, mem_filter, and_right_comm]

/- Rows that a change does not concern are as they were. -/
theorem filter_modify (hKey : ∀ r, key (f r) = key r)
    (hOther : ∀ r ∈ t.rows, key r = k → p r = false ∧ p (f r) = false) :
    (t.modify k f hKey).rows.filter p = t.rows.filter p := by
  unfold modify
  dsimp only
  generalize t.rows = rows at hOther
  induction rows with
  | nil => rfl
  | cons r rows ih =>
    have hRest := ih (fun r' hMem =>
      hOther r' (List.mem_cons_of_mem _ hMem))
    rw [List.map_cons, List.filter_cons, List.filter_cons, hRest]
    by_cases hOwn : key r = k
    · rcases hOther r List.mem_cons_self hOwn with ⟨hOld, hNew⟩
      simp [hOwn, hOld, hNew]
    · rw [if_neg hOwn]

theorem filter_insert (hOther : p r = false) : (t.insert r).rows.filter p = t.rows.filter p := by
  unfold insert
  split
  · rfl
  · simp [hOther]

end Table
