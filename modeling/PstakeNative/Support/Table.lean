import Mathlib

/-! # Keyed tables

The keeper persists each record kind under its own store prefix, one value per key. A `Table`
holds those values in iteration order together with the fact that no key occurs twice, and
`get?`, `set` and `erase` are the store's `Get`, `Set` and `Delete` for one record kind.
Everything about a table is said through `get?`, so that a proof never depends on where `set`
puts a row.
-/

namespace PstakeNative

/-- The rows of one store prefix, in iteration order, at most one per key. -/
structure Table {α κ : Type} [DecidableEq κ] (key : α → κ) where
  rows : List α
  nodup : (rows.map key).Nodup

/-- Replace the row under `key r` by `r`, or add `r` after the other rows. -/
def setRow {α κ : Type} [DecidableEq κ] (key : α → κ) (r : α) : List α → List α
  | [] => [r]
  | x :: xs => if key x = key r then r :: xs else x :: setRow key r xs

namespace Table

variable {α κ : Type} [DecidableEq κ] {key : α → κ}

theorem map_key_setRow (r : α) (l : List α) :
    (setRow key r l).map key = if key r ∈ l.map key then l.map key else l.map key ++ [key r] := by
  induction l with
  | nil => simp [setRow]
  | cons x xs ih =>
    by_cases hx : key x = key r
    · simp [setRow, hx]
    · by_cases hmem : key r ∈ xs.map key
      · simp only [setRow, hx, if_false, List.map_cons, ih, hmem, if_true, List.mem_cons, or_true]
      · simp only [setRow, hx, if_false, List.map_cons, ih, hmem, List.mem_cons, Ne.symm hx,
          or_self, List.cons_append]

def empty : Table key := ⟨[], List.nodup_nil⟩

/-- The store's `Get`. -/
def get? (t : Table key) (k : κ) : Option α := t.rows.find? (fun r => key r = k)

/-- The store's `Set`. -/
def set (t : Table key) (r : α) : Table key where
  rows := setRow key r t.rows
  nodup := by
    rw [map_key_setRow]
    split
    · exact t.nodup
    · next h => exact List.nodup_append.mpr ⟨t.nodup, List.nodup_singleton _,
        fun a ha hb => h (List.mem_singleton.mp hb ▸ ha)⟩

/-- The store's `Delete`. -/
def erase (t : Table key) (k : κ) : Table key where
  rows := t.rows.filter (fun r => key r ≠ k)
  nodup := t.nodup.sublist ((List.filter_sublist _).map key)

theorem find?_eq_some_iff {l : List α} (hl : (l.map key).Nodup) {k : κ} {r : α} :
    l.find? (fun x => key x = k) = some r ↔ r ∈ l ∧ key r = k := by
  induction l with
  | nil => simp
  | cons x xs ih =>
    rw [List.map_cons, List.nodup_cons] at hl
    by_cases hx : key x = k
    · simp only [List.find?_cons, hx, eq_self_iff_true, decide_True, Option.some.injEq, List.mem_cons]
      constructor
      · rintro rfl; exact ⟨Or.inl rfl, hx⟩
      · rintro ⟨rfl | hr, hk⟩
        · rfl
        · exact absurd (hx.trans hk.symm ▸ List.mem_map_of_mem key hr) hl.1
    · simp only [List.find?_cons, hx, decide_False, ih hl.2, List.mem_cons]
      constructor
      · exact fun h => ⟨Or.inr h.1, h.2⟩
      · rintro ⟨rfl | hr, hk⟩
        · exact absurd hk hx
        · exact ⟨hr, hk⟩

theorem get?_eq_some_iff (t : Table key) {k : κ} {r : α} :
    t.get? k = some r ↔ r ∈ t.rows ∧ key r = k :=
  find?_eq_some_iff t.nodup

theorem get?_key_of_mem {t : Table key} {r : α} (h : r ∈ t.rows) : t.get? (key r) = some r :=
  (get?_eq_some_iff t).mpr ⟨h, rfl⟩

theorem find?_setRow (r : α) (l : List α) (k : κ) :
    (setRow key r l).find? (fun x => key x = k) =
      if key r = k then some r else l.find? (fun x => key x = k) := by
  induction l with
  | nil => by_cases h : key r = k <;> simp [setRow, h]
  | cons x xs ih =>
    by_cases hx : key x = key r
    · by_cases h : key r = k
      · simp [setRow, hx, h]
      · simp [setRow, hx, h, show key x ≠ k from hx ▸ h]
    · simp only [setRow, hx, if_false, List.find?_cons, ih]
      by_cases h : key r = k
      · simp [h, show key x ≠ k from h ▸ hx]
      · simp [h]

@[simp] theorem get?_set (t : Table key) (r : α) (k : κ) :
    (t.set r).get? k = if key r = k then some r else t.get? k :=
  find?_setRow r t.rows k

@[simp] theorem get?_erase (t : Table key) (k' k : κ) :
    (t.erase k').get? k = if k' = k then none else t.get? k := by
  simp only [get?, erase, List.find?_filter]
  by_cases h : k' = k
  · subst h
    simp only [if_true]
    induction t.rows with
    | nil => rfl
    | cons x xs ih => by_cases hx : key x = k' <;> simp [List.find?_cons, hx, ih]
  · simp only [h, if_false]
    congr 1
    funext x
    by_cases hx : key x = k <;> simp [hx, h, Ne.symm h]

@[simp] theorem get?_empty (k : κ) : (empty : Table key).get? k = none := rfl

theorem mem_rows_iff (t : Table key) {r : α} : r ∈ t.rows ↔ t.get? (key r) = some r :=
  ⟨get?_key_of_mem, fun h => ((get?_eq_some_iff t).mp h).1⟩

theorem nodup_filter (t : Table key) (p : α → Bool) : ((t.rows.filter p).map key).Nodup :=
  t.nodup.sublist ((List.filter_sublist _).map key)

/-- After a pass that rewrote every row `p` selects by `g`, keeping its key, and left every other
key alone, each key holds its old row, rewritten when `p` selects it. -/
theorem get?_of_rewrite {t t' : Table key} {p : α → Bool} {g : α → α}
    (hset : ∀ r ∈ t.rows.filter p, t'.get? (key r) = some (g r))
    (hframe : ∀ k, k ∉ (t.rows.filter p).map key → t'.get? k = t.get? k) (k : κ) :
    t'.get? k = (t.get? k).map fun r => if p r then g r else r := by
  rcases ht : t.get? k with _ | r
  · refine (hframe k fun hk => ?_).trans ht
    obtain ⟨r, hr, rfl⟩ := List.mem_map.mp hk
    rw [get?_key_of_mem (List.mem_filter.mp hr).1] at ht
    contradiction
  obtain ⟨hr, rfl⟩ := (get?_eq_some_iff t).mp ht
  by_cases hp : p r
  · simpa [hp] using hset r (List.mem_filter.mpr ⟨hr, hp⟩)
  · refine (hframe _ fun hk => ?_).trans (by simp [ht, hp])
    obtain ⟨r', hr', hkey⟩ := List.mem_map.mp hk
    obtain ⟨hr', hp'⟩ := List.mem_filter.mp hr'
    have : r' = r := Option.some.inj ((get?_key_of_mem hr').symm.trans (hkey ▸ ht))
    exact hp (this ▸ hp')

theorem mem_set (t : Table key) {r r' : α} :
    r' ∈ (t.set r).rows ↔ r' = r ∨ r' ∈ t.rows ∧ key r' ≠ key r := by
  rw [mem_rows_iff, get?_set, mem_rows_iff]
  by_cases h : key r = key r'
  · simp only [h, if_true, Option.some.injEq, ne_eq, not_true_eq_false, and_false, or_false]
    exact eq_comm
  · simp only [h, if_false, Ne.symm h, ne_eq, not_false_eq_true, and_true]
    exact ⟨Or.inr, fun h' => h'.elim (fun he => absurd (he ▸ rfl) h) id⟩

theorem mem_erase (t : Table key) {k : κ} {r : α} : r ∈ (t.erase k).rows ↔ r ∈ t.rows ∧ key r ≠ k := by
  simp [erase]

/-! ## Column sums

A `set` or an `erase` changes the sum of a column over the rows by what the old row and the
new row put in. -/

theorem sum_setRow (f : α → Int) (r : α) (l : List α) :
    ((setRow key r l).map f).sum + ((l.find? (fun x => key x = key r)).map f).getD 0 =
      (l.map f).sum + f r := by
  induction l with
  | nil => simp [setRow]
  | cons x xs ih =>
    by_cases hx : key x = key r
    · simp only [setRow, hx, if_true, List.map_cons, List.sum_cons, List.find?_cons,
        eq_self_iff_true, decide_True, Option.map_some', Option.getD_some]
      omega
    · simp only [setRow, hx, if_false, List.map_cons, List.sum_cons, List.find?_cons,
        decide_False]
      omega

theorem sum_set (t : Table key) (f : α → Int) (r : α) :
    ((t.set r).rows.map f).sum + ((t.get? (key r)).map f).getD 0 = (t.rows.map f).sum + f r :=
  sum_setRow f r t.rows

theorem sum_erase (t : Table key) (f : α → Int) (k : κ) :
    ((t.erase k).rows.map f).sum + ((t.get? k).map f).getD 0 = (t.rows.map f).sum := by
  obtain ⟨rows, hnodup⟩ := t
  simp only [erase, get?]
  induction rows with
  | nil => simp
  | cons x xs ih =>
    rw [List.map_cons, List.nodup_cons] at hnodup
    by_cases hx : key x = k
    · have hrest : xs.filter (fun r => key r ≠ k) = xs := List.filter_eq_self.mpr fun y hy => by
        simpa using fun h : key y = k => hnodup.1 (hx ▸ h ▸ List.mem_map_of_mem key hy)
      rw [List.filter_cons_of_neg (by simpa using hx), hrest,
        List.find?_cons_of_pos _ (by simpa using hx)]
      simp only [Option.map_some', Option.getD_some, List.map_cons, List.sum_cons]
      omega
    · rw [List.filter_cons_of_pos (by simpa using hx), List.find?_cons_of_neg _ (by simpa using hx)]
      have := ih hnodup.2
      simp only [List.map_cons, List.sum_cons]
      omega

/-- A column sum is determined by what each key puts into it: two tables whose rows under every
key put the same amount into the column have the same sum. -/
theorem sum_congr {t t' : Table key} {f : α → Int}
    (h : ∀ k, ((t.get? k).map f).getD 0 = ((t'.get? k).map f).getD 0) :
    (t.rows.map f).sum = (t'.rows.map f).sum := by
  induction' hn : t.rows.length using Nat.strong_induction_on with n ih generalizing t t'
  rcases hrows : t.rows with _ | ⟨r, rs⟩
  · refine (List.sum_eq_zero fun x hx => ?_).symm
    obtain ⟨r', hr', rfl⟩ := List.mem_map.mp hx
    have ht : t.get? (key r') = none := by simp [get?, hrows]
    simpa [ht, get?_key_of_mem hr'] using (h (key r')).symm
  have hr : t.get? (key r) = some r := get?_key_of_mem (hrows ▸ List.mem_cons_self r rs)
  have hlen : (t.erase (key r)).rows.length < n := by
    show (t.rows.filter _).length < n
    rw [← hn, hrows, List.filter_cons_of_neg (by simp)]
    exact Nat.lt_succ_of_le (List.length_filter_le _ _)
  have hrest : ((t.erase (key r)).rows.map f).sum = ((t'.erase (key r)).rows.map f).sum :=
    ih _ hlen (fun k => by simp only [get?_erase]; split_ifs; exacts [rfl, h k]) rfl
  have h₁ := sum_erase t f (key r)
  have h₂ := sum_erase t' f (key r)
  rw [← h (key r), hr, Option.map_some', Option.getD_some] at h₂
  rw [hr, Option.map_some', Option.getD_some] at h₁
  rw [← hrows]
  omega

end Table

end PstakeNative
