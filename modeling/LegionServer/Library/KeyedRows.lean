import Mathlib.Data.List.Perm.Basic
import Mathlib.Data.List.Nodup

/-!
# Rows with keys

A list of rows read by their keys, and what is read after rows are removed, added or changed.
-/
namespace LegionServer.Library.KeyedRows
open List

variable {α κ : Type*} [DecidableEq κ] {key : α → κ} {rows rows' : List α} {row : α} {k target : κ}
  {f : α → α}

def rowOf (key : α → κ) (rows : List α) (k : κ) : Option α := rows.find? (key · = k)

theorem key_rowOf (h : rowOf key rows k = some row) : key row = k := by
  have hfound := find?_some h
  simpa using hfound

theorem mem_rowOf (h : rowOf key rows k = some row) : row ∈ rows := mem_of_find?_eq_some h

theorem rowOf_eq_none : rowOf key rows k = none ↔ k ∉ rows.map key := by
  rw [rowOf, find?_eq_none, mem_map]
  simp

/-- Where keys are not repeated, every row is the one of its key. -/
theorem rowOf_of_mem (hnodup : (rows.map key).Nodup) (h : row ∈ rows) :
    rowOf key rows (key row) = some row := by
  cases hrow : rowOf key rows (key row) with
  | none => exact absurd (mem_map_of_mem h) (rowOf_eq_none.mp hrow)
  | some other =>
    rw [inj_on_of_nodup_map hnodup (mem_rowOf hrow) h (key_rowOf hrow)]

theorem rowOf_perm (hnodup : (rows.map key).Nodup) (h : rows.Perm rows') (k : κ) :
    rowOf key rows k = rowOf key rows' k := by
  cases hrow : rowOf key rows' k with
  | none =>
    rw [rowOf_eq_none] at hrow ⊢
    exact fun hmem => hrow ((h.map key).mem_iff.mp hmem)
  | some row => rw [← key_rowOf hrow, rowOf_of_mem hnodup (h.mem_iff.mpr (mem_rowOf hrow))]

/-- Rows without those of some keys. -/
theorem rowOf_filter {p : κ → Prop} [DecidablePred p] (k : κ) :
    rowOf key (rows.filter fun row => ¬p (key row)) k =
      if p k then none else rowOf key rows k := by
  rw [rowOf, find?_filter]
  split
  · rename_i hremoved
    rw [find?_eq_none]
    intro row _
    simp only [decide_eq_true_eq]
    rintro ⟨hkept, rfl⟩
    exact hkept hremoved
  · rename_i hkept
    congr 1
    funext row
    by_cases hrow : key row = k
    · simp [hrow, hkept]
    · simp [hrow]

theorem rowOf_append_one (k : κ) : rowOf key (rows ++ [row]) k =
    (rowOf key rows k).or (if key row = k then some row else none) := by
  rw [rowOf, find?_append, rowOf]
  congr 1
  by_cases hrow : key row = k <;> simp [hrow]

/-- Removing the keys of some of the rows removes these rows. -/
theorem filter_keys_notMem {p : α → Bool} (hnodup : (rows.map key).Nodup) :
    rows.filter (fun row => key row ∉ (rows.filter p).map key) = rows.filter fun row => !p row := by
  apply filter_congr
  intro row hrow
  have hmem : key row ∈ (rows.filter p).map key ↔ p row = true := by
    rw [mem_map]
    constructor
    · rintro ⟨other, hother, hkey⟩
      obtain ⟨hmem, hp⟩ := List.mem_filter.mp hother
      rwa [← inj_on_of_nodup_map hnodup hmem hrow hkey]
    · exact fun hp => ⟨row, List.mem_filter.mpr ⟨hrow, hp⟩, rfl⟩
  cases hp : p row <;> simp only [hmem, hp] <;> rfl

/-- Rows changed in something else than their keys. -/
theorem rowOf_map (hkey : ∀ row, key (f row) = key row) (k : κ) :
    rowOf key (rows.map f) k = (rowOf key rows k).map f := by
  rw [rowOf, find?_map, rowOf]
  congr 2
  funext row
  simp [hkey]

/-- Where keys are not repeated, a replacement at the key of a row replaces this row alone. -/
theorem exists_replace (hnodup : (rows.map key).Nodup) (hmem : row ∈ rows) (row' : α) :
    ∃ before after, rows = before ++ row :: after ∧
      rows.map (fun old => if key old = key row then row' else old) = before ++ row' :: after := by
  obtain ⟨before, after, rfl⟩ := append_of_mem hmem
  refine ⟨before, after, rfl, ?_⟩
  rw [map_append, map_cons, nodup_middle, nodup_cons, mem_append, not_or] at hnodup
  have hother : ∀ l : List α, key row ∉ l.map key →
      l.map (fun old => if key old = key row then row' else old) = l := by
    intro l hl
    conv_rhs => rw [← map_id l]
    apply map_congr_left
    intro old hold
    exact if_neg fun (heq : key old = key row) => hl (heq ▸ mem_map_of_mem hold)
  rw [map_append, map_cons, if_pos rfl, hother before hnodup.1.1, hother after hnodup.1.2]

/-- The row of one key gets another key, which no row has. -/
theorem rowOf_rekey {source : κ} (hne : target ≠ source) (htarget : target ∉ rows.map key)
    (hsource : ∀ row, key row = source → key (f row) = target)
    (hother : ∀ row, key row ≠ source → f row = row) (k : κ) :
    rowOf key (rows.map f) k =
      if k = target then (rowOf key rows source).map f
      else if k = source then none else rowOf key rows k := by
  induction rows with
  | nil => split <;> [rfl; split <;> rfl]
  | cons row rows ih =>
    rw [map_cons, mem_cons, not_or] at htarget
    have hrest := ih htarget.2
    simp only [rowOf, map_cons, find?_cons] at hrest ⊢
    by_cases hrow : key row = source
    · rw [hsource row hrow, hrest, hrow]
      by_cases hk : k = target
      · simp [hk]
      · by_cases hks : k = source
        · simp [hks, hne, hne.symm]
        · simp [hk, hks, Ne.symm hk, Ne.symm hks]
    · rw [hother row hrow, hrest]
      by_cases hk : k = target
      · simp [hk, hrow, Ne.symm htarget.1]
      · by_cases hks : k = source <;> simp [hk, hks, hrow]

end LegionServer.Library.KeyedRows
