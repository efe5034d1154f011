import Mathlib.Data.List.Nodup

/-!
# Tables as lists of rows

A table is a list of rows with a key. `setRow` overwrites the row with the key of the new one,
`getUnique` answers a query that must not match twice.
-/

namespace Table

variable {ρ K : Type} [DecidableEq K]

/-- The table with the row of the same key replaced. -/
def setRow (key : ρ → K) (row : ρ) (rows : List ρ) : List ρ :=
  rows.map fun r => if key r = key row then row else r

/-- The rows that match, if at most one does; otherwise `none`. -/
def getUnique (p : ρ → Bool) (rows : List ρ) : Option (Option ρ) :=
  match rows.filter p with
  | [] => some none
  | [row] => some (some row)
  | _ => none

theorem getUnique_some {p : ρ → Bool} {rows : List ρ} {row : ρ}
    (h : getUnique p rows = some (some row)) : row ∈ rows ∧ p row = true := by
  unfold getUnique at h
  split at h
  · simp at h
  · next r hr =>
    simp only [Option.some.injEq] at h
    subst h
    have hmem : r ∈ rows.filter p := by rw [hr]; exact List.mem_singleton_self r
    exact List.mem_filter.mp hmem
  · cases h

theorem getUnique_none {p : ρ → Bool} {rows : List ρ} (h : getUnique p rows = some none) :
    ∀ row ∈ rows, p row = false := by
  unfold getUnique at h
  split at h
  · next hr =>
    intro row hrow
    by_contra hp
    have hmem : row ∈ rows.filter p := List.mem_filter.mpr ⟨hrow, by simpa using hp⟩
    rw [hr] at hmem
    cases hmem
  · simp at h
  · cases h

/-- When the matched column is a key of the table, the query is a search. -/
theorem getUnique_key {key : ρ → K} {rows : List ρ} (hkey : (rows.map key).Nodup) (k : K) :
    getUnique (fun r => decide (key r = k)) rows = some (rows.find? fun r => decide (key r = k)) := by
  induction rows with
  | nil => rfl
  | cons r rs ih =>
    rw [List.map_cons, List.nodup_cons] at hkey
    have ih := ih hkey.2
    unfold getUnique at ih ⊢
    by_cases hr : key r = k
    · have hnil : rs.filter (fun r => decide (key r = k)) = [] := by
        rw [List.filter_eq_nil_iff]
        intro r' hr' hk
        simp only [decide_eq_true_eq] at hk
        exact hkey.1 (List.mem_map.mpr ⟨r', hr', hk.trans hr.symm⟩)
      simp [hr, hnil]
    · simpa [List.filter_cons, List.find?_cons, hr] using ih

/-- A query that only matches rows of a part of the table is a query of that part. -/
theorem getUnique_filter {p q : ρ → Bool} {rows : List ρ} (h : ∀ r ∈ rows, p r = true → q r = true) :
    getUnique p (rows.filter q) = getUnique p rows := by
  have hsame : (rows.filter q).filter p = rows.filter p := by
    rw [List.filter_filter]
    refine List.filter_congr fun r hr => ?_
    cases hp : p r with
    | false => rfl
    | true => rw [h r hr hp, Bool.true_and]
  unfold getUnique
  rw [hsame]

theorem find?_filter_of_imp {p q : ρ → Bool} {rows : List ρ}
    (h : ∀ r ∈ rows, p r = true → q r = true) : (rows.filter q).find? p = rows.find? p := by
  induction rows with
  | nil => rfl
  | cons r rs ih =>
    have ih := ih fun r' hr' => h r' (List.mem_cons_of_mem _ hr')
    cases hp : p r with
    | true => rw [List.filter_cons, if_pos (h r List.mem_cons_self hp), List.find?_cons, hp,
        List.find?_cons, hp]
    | false =>
      rw [List.find?_cons, hp, List.filter_cons]
      split_ifs
      · rw [List.find?_cons, hp]
        exact ih
      · exact ih

omit [DecidableEq K] in
/-- A search for what only one row is. -/
theorem find?_unique {p : ρ → Bool} {rows : List ρ} {row : ρ} (hmem : row ∈ rows) (hp : p row = true)
    (h : ∀ r ∈ rows, p r = true → r = row) : rows.find? p = some row := by
  cases hfind : rows.find? p with
  | none => exact absurd hp (List.find?_eq_none.mp hfind row hmem)
  | some r => rw [h r (List.mem_of_find?_eq_some hfind) (List.find?_some hfind)]

section SetRow

variable {key : ρ → K} {row : ρ} {rows : List ρ}

theorem mem_setRow {r : ρ} : r ∈ setRow key row rows ↔
    (r = row ∧ ∃ r' ∈ rows, key r' = key row) ∨ (r ∈ rows ∧ key r ≠ key row) := by
  simp only [setRow, List.mem_map]
  constructor
  · rintro ⟨r', hr', rfl⟩
    split_ifs with hk
    · exact .inl ⟨rfl, r', hr', hk⟩
    · exact .inr ⟨hr', hk⟩
  · rintro (⟨rfl, r', hr', hk⟩ | ⟨hr, hk⟩)
    · exact ⟨r', hr', if_pos hk⟩
    · exact ⟨r, hr, if_neg hk⟩

/-- A column on which the new row agrees with the one it replaces is unchanged. -/
theorem map_setRow {β : Type} {f : ρ → β} (h : ∀ r ∈ rows, key r = key row → f row = f r) :
    (setRow key row rows).map f = rows.map f := by
  rw [setRow, List.map_map]
  refine List.map_congr_left fun r hr => ?_
  simp only [Function.comp]
  split_ifs with hk
  · exact h r hr hk
  · rfl

theorem map_key_setRow : (setRow key row rows).map key = rows.map key :=
  map_setRow fun _ _ hk => hk.symm

theorem find?_setRow_self (key : ρ → K) (row : ρ) (h : ∃ r ∈ rows, key r = key row) :
    (setRow key row rows).find? (fun r => decide (key r = key row)) = some row := by
  induction rows with
  | nil => obtain ⟨r, hr, -⟩ := h; cases hr
  | cons r rs ih =>
    by_cases hk : key r = key row
    · simp [setRow, hk]
    · obtain ⟨r', hr', hk'⟩ := h
      have hrs : r' ∈ rs := by
        rcases List.mem_cons.mp hr' with rfl | hmem
        · exact absurd hk' hk
        · exact hmem
      simpa [setRow, hk] using ih ⟨r', hrs, hk'⟩

theorem find?_setRow_ne (key : ρ → K) (row : ρ) (rows : List ρ) {k : K} (h : k ≠ key row) :
    (setRow key row rows).find? (fun r => decide (key r = k)) =
      rows.find? fun r => decide (key r = k) := by
  induction rows with
  | nil => rfl
  | cons r rs ih =>
    by_cases hk : key r = key row
    · have h1 : key row ≠ k := fun he => h he.symm
      have h2 : key r ≠ k := fun he => h (he.symm.trans hk)
      simpa [setRow, hk, h1, h2] using ih
    · have hcons : setRow key row (r :: rs) = r :: setRow key row rs := by simp [setRow, hk]
      rw [hcons, List.find?_cons, List.find?_cons, ih]

end SetRow

/-- A part of the table that neither the old rows of the key nor the new one belong to. -/
theorem filter_setRow {key : ρ → K} {row : ρ} {rows : List ρ} {q : ρ → Bool} (hrow : q row = false)
    (h : ∀ r ∈ rows, key r = key row → q r = false) :
    (setRow key row rows).filter q = rows.filter q := by
  induction rows with
  | nil => rfl
  | cons r rs ih =>
    have ih := ih fun r' hr' => h r' (List.mem_cons_of_mem _ hr')
    by_cases hk : key r = key row
    · have hcons : setRow key row (r :: rs) = row :: setRow key row rs := by simp [setRow, hk]
      rw [hcons, List.filter_cons_of_neg (by simp [hrow]),
        List.filter_cons_of_neg (by simp [h r List.mem_cons_self hk]), ih]
    · have hcons : setRow key row (r :: rs) = r :: setRow key row rs := by simp [setRow, hk]
      rw [hcons, List.filter_cons, List.filter_cons, ih]

omit [DecidableEq K] in
/-- A part of the table that a new row does not belong to. -/
theorem filter_append_out {row : ρ} {rows : List ρ} {q : ρ → Bool} (hrow : q row = false) :
    (rows ++ [row]).filter q = rows.filter q := by
  have hnone : [row].filter q = [] := by simp [hrow]
  rw [List.filter_append, hnone, List.append_nil]

/-- In a table with unique keys, a search by key finds the row that is there. -/
theorem find?_of_mem {key : ρ → K} {rows : List ρ} (hkey : (rows.map key).Nodup) {row : ρ}
    (h : row ∈ rows) : rows.find? (fun r => decide (key r = key row)) = some row := by
  induction rows with
  | nil => cases h
  | cons r rs ih =>
    rw [List.map_cons, List.nodup_cons] at hkey
    rcases List.mem_cons.mp h with rfl | hmem
    · simp
    · have hne : key r ≠ key row := fun he => hkey.1 (List.mem_map.mpr ⟨row, hmem, he.symm⟩)
      simpa [hne] using ih hkey.2 hmem

/-- In a table with unique keys, two rows of one key are the same row. -/
theorem eq_of_key {key : ρ → K} {rows : List ρ} (hkey : (rows.map key).Nodup) {r r' : ρ}
    (hr : r ∈ rows) (hr' : r' ∈ rows) (h : key r = key r') : r = r' := by
  have h1 := find?_of_mem hkey hr
  have h2 := find?_of_mem hkey hr'
  rw [h, h2] at h1
  exact (Option.some.inj h1).symm

omit [DecidableEq K] in
/-- A condition that fixes the key of a table matches at most one row. -/
theorem length_filter_key {key : ρ → K} {rows : List ρ} {p : ρ → Bool} {k : K} (hkey : (rows.map key).Nodup)
    (h : ∀ r, p r = true → key r = k) : (rows.filter p).length ≤ 1 := by
  have hnodup : ((rows.filter p).map key).Nodup := hkey.sublist (List.filter_sublist.map key)
  match hf : rows.filter p with
  | [] | [_] => simp
  | r :: r' :: rest =>
    have hmatch : ∀ s ∈ r :: r' :: rest, key s = k := fun s hs => h s (List.mem_filter.mp (hf ▸ hs)).2
    rw [hf, List.map_cons, List.nodup_cons] at hnodup
    refine absurd ?_ hnodup.1
    rw [hmatch r (by simp), ← hmatch r' (by simp)]
    exact List.mem_map.mpr ⟨r', by simp, rfl⟩

end Table
