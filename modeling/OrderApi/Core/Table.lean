import Mathlib.Data.List.Nodup

/-
  Finite tables whose rows carry a unique key.

  The uniqueness of keys is a field of `Table`, so every
  operation that builds a table proves that it keeps it.

  Key definitions include:
    * `Keyed`
    * `Table`
    * `Table.find?`
    * `Table.insert?`
    * `Table.update`
    * `Table.delete`

  Key theorems include:
    * `Table.find?_eq_some_iff`
    * `Table.find?_insert?`
    * `Table.find?_update`
    * `Table.update_eq_self_iff`
    * `Table.find?_delete`
-/

------------------------------------------------------------
-- Tables
------------------------------------------------------------

namespace OrderApi

/- Row types with a primary key. -/
class Keyed (ρ : Type) (κ : outParam Type) where
  key : ρ → κ

/- A list of rows, no two of which share their key. -/
structure Table (ρ : Type) {κ : Type} [Keyed ρ κ] where
  rows : List ρ
  nodup : (rows.map Keyed.key).Nodup

namespace Table

variable {ρ κ : Type} [Keyed ρ κ] [DecidableEq κ]

/- The table without rows. -/
def empty : Table ρ :=
  ⟨[], List.nodup_nil⟩

/- The row with a given key. -/
def find? (table : Table ρ) (key : κ) : Option ρ :=
  table.rows.find? fun row => Keyed.key row = key

/- Add a row, unless its key is in use. -/
def insert? (table : Table ρ) (row : ρ) :
    Option (Table ρ) :=
  if hUsed : Keyed.key row ∈ table.rows.map Keyed.key then
    none
  else
    some
      { rows := table.rows ++ [row]
        nodup := by
          rw [List.map_append, List.map_singleton]
          exact
            table.nodup.append (List.nodup_singleton _)
              (by simpa using hUsed) }

/- Change the row with a given key, but not its key. -/
def update
    (table : Table ρ)
    (key : κ)
    (change : ρ → ρ)
    (hKey : ∀ row, Keyed.key (change row) = Keyed.key row) :
    Table ρ where
  rows :=
    table.rows.map fun row =>
      if Keyed.key row = key then change row else row
  nodup := by
    have hKeys :
        (table.rows.map fun row =>
            if Keyed.key row = key then change row
            else row).map Keyed.key =
          table.rows.map Keyed.key := by
      rw [List.map_map]
      apply List.map_congr_left
      intro row _
      by_cases hRow : Keyed.key row = key
      · simp [hRow, hKey]
      · simp [hRow]
    rw [hKeys]
    exact table.nodup

/- Remove the row with a given key. -/
def delete (table : Table ρ) (key : κ) : Table ρ where
  rows := table.rows.filter fun row => Keyed.key row ≠ key
  nodup :=
    (List.filter_sublist.map Keyed.key).nodup table.nodup

end Table

end OrderApi

------------------------------------------------------------
-- Lookup Lemmas
------------------------------------------------------------

namespace OrderApi

namespace Table

variable {ρ κ : Type} [Keyed ρ κ] [DecidableEq κ]

@[simp] theorem find?_empty (key : κ) :
    (empty : Table ρ).find? key = none :=
  rfl

/- Rows with the same key are the same row. -/
omit [DecidableEq κ] in
theorem eq_of_key_eq
    (table : Table ρ)
    {row row' : ρ}
    (hRow : row ∈ table.rows)
    (hRow' : row' ∈ table.rows)
    (hKey : (Keyed.key row : κ) = Keyed.key row') :
    row = row' :=
  List.inj_on_of_nodup_map table.nodup hRow hRow' hKey

/- Lookup finds exactly the row with the key. -/
theorem find?_eq_some_iff
    (table : Table ρ)
    {key : κ}
    {row : ρ} :
    table.find? key = some row ↔
      row ∈ table.rows ∧ Keyed.key row = key := by
  constructor
  · intro hFind
    have hMem := List.mem_of_find?_eq_some hFind
    have hKey := List.find?_some hFind
    exact ⟨hMem, by simpa using hKey⟩
  · rintro ⟨hMem, hKey⟩
    cases hFind : table.find? key with
    | none =>
        have hAbsent :=
          List.find?_eq_none.mp hFind row hMem
        simp [hKey] at hAbsent
    | some found =>
        have hFound := List.mem_of_find?_eq_some hFind
        have hFoundKey : Keyed.key found = key := by
          simpa using List.find?_some hFind
        rw [table.eq_of_key_eq hFound hMem
          (hFoundKey.trans hKey.symm)]

/- Lookup fails exactly on keys that no row has. -/
theorem find?_eq_none_iff
    (table : Table ρ)
    {key : κ} :
    table.find? key = none ↔
      ∀ row ∈ table.rows, Keyed.key row ≠ key := by
  simp [find?, List.find?_eq_none]

/- A row that is found has the key it was sought by. -/
theorem key_of_find?
    (table : Table ρ)
    {key : κ}
    {row : ρ}
    (hFind : table.find? key = some row) :
    Keyed.key row = key :=
  (table.find?_eq_some_iff.mp hFind).2

/- What an insertion that succeeds does. -/
theorem insert?_eq_some_iff
    (table : Table ρ)
    {row : ρ}
    {table' : Table ρ} :
    table.insert? row = some table' ↔
      table.find? (Keyed.key row) = none ∧
        table'.rows = table.rows ++ [row] := by
  have hAbsent :
      table.find? (Keyed.key row) = none ↔
        (Keyed.key row : κ) ∉ table.rows.map Keyed.key := by
    rw [find?_eq_none_iff, List.mem_map]
    constructor
    · rintro hRows ⟨other, hMem, hKey⟩
      exact hRows other hMem hKey
    · intro hKeys other hMem hKey
      exact hKeys ⟨other, hMem, hKey⟩
  rw [hAbsent]
  by_cases hUsed :
      (Keyed.key row : κ) ∈ table.rows.map Keyed.key
  · simp [insert?, hUsed]
  · rcases table' with ⟨rows, nodup⟩
    simp only [insert?, hUsed, dite_false,
      Option.some.injEq, mk.injEq, not_false_eq_true,
      true_and]
    exact eq_comm

/- An insertion succeeds exactly under an unused key. -/
theorem insert?_cases
    (table : Table ρ)
    (row : ρ) :
    (table.find? (Keyed.key row) = none ∧
      ∃ table', table.insert? row = some table') ∨
    (table.find? (Keyed.key row) ≠ none ∧
      table.insert? row = none) := by
  by_cases hUsed :
      (Keyed.key row : κ) ∈ table.rows.map Keyed.key
  · apply Or.inr
    constructor
    · intro hAbsent
      rcases List.mem_map.mp hUsed with ⟨other, hMem, hKey⟩
      exact
        table.find?_eq_none_iff.mp hAbsent other hMem hKey
    · rw [insert?, dif_pos hUsed]
  · apply Or.inl
    constructor
    · rw [find?_eq_none_iff]
      intro other hMem hKey
      exact hUsed (List.mem_map.mpr ⟨other, hMem, hKey⟩)
    · rw [insert?, dif_neg hUsed]
      exact ⟨_, rfl⟩

/- Lookup after an insertion. -/
theorem find?_insert?
    {table table' : Table ρ}
    {row : ρ}
    (hInsert : table.insert? row = some table')
    (key : κ) :
    table'.find? key =
      if Keyed.key row = key then some row
      else table.find? key := by
  rcases table.insert?_eq_some_iff.mp hInsert with
    ⟨hFresh, hRows⟩
  unfold find? at hFresh ⊢
  rw [hRows, List.find?_append]
  by_cases hKey : Keyed.key row = key
  · subst hKey
    simp [hFresh]
  · simp [hKey]

/- Lookup after an update. -/
theorem find?_update
    (table : Table ρ)
    (key key' : κ)
    (change : ρ → ρ)
    (hKey : ∀ row, Keyed.key (change row) = Keyed.key row) :
    (table.update key change hKey).find? key' =
      if key' = key then (table.find? key).map change
      else table.find? key' := by
  have hPredicate :
      ((fun row => decide (Keyed.key row = key')) ∘
          fun row =>
            if Keyed.key row = key then change row
            else row) =
        fun row => decide (Keyed.key row = key') := by
    funext row
    by_cases hRow : Keyed.key row = key
    · simp [hRow, hKey]
    · simp [hRow]
  unfold find? update
  rw [List.find?_map, hPredicate]
  by_cases hSame : key' = key
  · subst hSame
    rw [if_pos rfl]
    cases hFind :
        table.rows.find? fun row =>
          decide (Keyed.key row = key') with
    | none => rfl
    | some row =>
        have hRow : Keyed.key row = key' := by
          simpa using List.find?_some hFind
        simp [hRow]
  · rw [if_neg hSame]
    cases hFind :
        table.rows.find? fun row =>
          decide (Keyed.key row = key') with
    | none => rfl
    | some row =>
        have hRow : Keyed.key row = key' := by
          simpa using List.find?_some hFind
        have hOther : ¬ Keyed.key row = key := by
          rw [hRow]
          exact hSame
        simp [hOther]

/- Lookup after a deletion. -/
theorem find?_delete
    (table : Table ρ)
    (key key' : κ) :
    (table.delete key).find? key' =
      if key' = key then none else table.find? key' := by
  by_cases hSame : key' = key
  · subst hSame
    rw [if_pos rfl, find?_eq_none_iff]
    intro row hRow
    have hKept := (List.mem_filter.mp hRow).2
    simpa using hKept
  · rw [if_neg hSame]
    cases hFind : table.find? key' with
    | none =>
        rw [find?_eq_none_iff] at hFind ⊢
        intro row hRow
        exact hFind row (List.mem_filter.mp hRow).1
    | some row =>
        rw [find?_eq_some_iff] at hFind ⊢
        refine ⟨List.mem_filter.mpr ⟨hFind.1, ?_⟩, hFind.2⟩
        simp [hFind.2, hSame]

/- An update is in vain if it leaves the row as it was. -/
theorem update_eq_self_iff
    {table : Table ρ}
    {key : κ}
    {row : ρ}
    (hFind : table.find? key = some row)
    {change : ρ → ρ}
    (hKey : ∀ row, Keyed.key (change row) = Keyed.key row) :
    table.update key change hKey = table ↔
      change row = row := by
  constructor
  · intro hSame
    have hFound := table.find?_update key key change hKey
    rw [hSame, if_pos rfl, hFind, Option.map_some] at hFound
    exact (Option.some.inj hFound).symm
  · intro hRow
    rcases table.find?_eq_some_iff.mp hFind with
      ⟨hMem, hRowKey⟩
    have hRows :
        (table.rows.map fun other =>
          if Keyed.key other = key then change other
          else other) = table.rows := by
      conv_rhs => rw [← List.map_id table.rows]
      apply List.map_congr_left
      intro other hOther
      by_cases hOtherKey : Keyed.key other = key
      · have hSame :=
          table.eq_of_key_eq hOther hMem
            (hOtherKey.trans hRowKey.symm)
        rw [if_pos hOtherKey, hSame, hRow, id]
      · rw [if_neg hOtherKey, id]
    cases table
    simpa only [update, mk.injEq] using hRows

/- Keys survive an update, in their order. -/
theorem keys_update
    (table : Table ρ)
    (key : κ)
    (change : ρ → ρ)
    (hKey : ∀ row, Keyed.key (change row) = Keyed.key row) :
    (table.update key change hKey).rows.map Keyed.key =
      (table.rows.map Keyed.key : List κ) := by
  simp only [update, List.map_map]
  apply List.map_congr_left
  intro row _
  by_cases hRow : Keyed.key row = key
  · simp [hRow, hKey]
  · simp [hRow]

end Table

end OrderApi
