import Mathlib.Data.List.Nodup
import Mathlib.Data.List.Basic
import Mathlib.Data.List.Pairwise

/-!
# Tables with a primary key

A table is a list of rows, in the order they were inserted, whose keys are distinct. The field
`nodup` carries the primary key, so a statement about "the row with this key" needs no side
condition. Each operation has one lemma, which says what `get` finds afterwards.
-/

structure Table {ρ κ : Type} (key : ρ → κ) where
  rows : List ρ
  nodup : (rows.map key).Nodup

namespace Table

variable {ρ κ : Type} [DecidableEq κ] {key : ρ → κ}

def empty : Table key := ⟨[], List.nodup_nil⟩

def get (t : Table key) (k : κ) : Option ρ := t.rows.find? fun r => key r = k

/-- `UPDATE ... WHERE key = k`, by a function that keeps the key. -/
def modify (t : Table key) (k : κ) (f : ρ → ρ) (hf : ∀ r, key (f r) = key r) : Table key where
  rows := t.rows.map fun r => if key r = k then f r else r
  nodup := by
    have hmap : (t.rows.map fun r => if key r = k then f r else r).map key = t.rows.map key := by
      rw [List.map_map]
      refine List.map_congr_left fun r _ => ?_
      simp only [Function.comp_apply]
      split
      · exact hf r
      · rfl
    rw [hmap]
    exact t.nodup

/-- `UPDATE` of every row, by a function that keeps the key. -/
def mapRows (t : Table key) (f : ρ → ρ) (hf : ∀ r, key (f r) = key r) : Table key where
  rows := t.rows.map f
  nodup := by
    have hkeys : (t.rows.map f).map key = t.rows.map key := by
      rw [List.map_map]
      exact List.map_congr_left fun r _ => hf r
    rw [hkeys]
    exact t.nodup

/-- `INSERT` of rows whose keys are distinct and not taken. -/
def extend (t : Table key) (rs : List ρ) (hrs : (rs.map key).Nodup)
    (hnew : ∀ r ∈ rs, key r ∉ t.rows.map key) : Table key where
  rows := t.rows ++ rs
  nodup := by
    rw [List.map_append]
    refine t.nodup.append hrs ?_
    intro k hk hk'
    obtain ⟨r, hr, rfl⟩ := List.mem_map.mp hk'
    exact hnew r hr hk

/-- `DELETE ... WHERE p`. -/
def deleteWhere (t : Table key) (p : ρ → Bool) : Table key where
  rows := t.rows.filter fun r => !p r
  nodup := t.nodup.sublist (List.filter_sublist.map key)

/-- `INSERT`, refused when the key is taken. -/
def insert (t : Table key) (r : ρ) : Option (Table key) :=
  if h : key r ∈ t.rows.map key then none
  else some
    { rows := t.rows ++ [r]
      nodup := by
        rw [List.map_append, List.map_singleton, ← List.concat_eq_append]
        exact t.nodup.concat h }

/-- Insert the rows one after another. -/
def insertAll (t : Table key) : List ρ → Option (Table key)
  | [] => some t
  | r :: rs => (t.insert r).bind fun t => t.insertAll rs

omit [DecidableEq κ] in
theorem eq_of_rows {t t' : Table key} (h : t.rows = t'.rows) : t = t' := by
  obtain ⟨rows, hnodup⟩ := t
  obtain rfl : rows = t'.rows := h
  rfl

theorem key_of_get {t : Table key} {k : κ} {r : ρ} (h : t.get k = some r) : key r = k := by
  simpa using List.find?_some h

theorem mem_of_get {t : Table key} {k : κ} {r : ρ} (h : t.get k = some r) : r ∈ t.rows :=
  List.mem_of_find?_eq_some h

/-- A row of the table is the one its key finds. -/
theorem get_of_mem {t : Table key} {r : ρ} (h : r ∈ t.rows) : t.get (key r) = some r := by
  obtain ⟨rows, hnodup⟩ := t
  unfold get
  induction rows with
  | nil => simp at h
  | cons a rows ih =>
    rw [List.map_cons, List.nodup_cons] at hnodup
    rcases List.mem_cons.mp h with rfl | hmem
    · simp
    · have hne : key a ≠ key r := fun heq => hnodup.1 (heq ▸ List.mem_map_of_mem hmem)
      simpa [hne] using ih hnodup.2 hmem

theorem get_iff_mem {t : Table key} {k : κ} {r : ρ} :
    t.get k = some r ↔ r ∈ t.rows ∧ key r = k := by
  constructor
  · intro h
    exact ⟨mem_of_get h, key_of_get h⟩
  · rintro ⟨hmem, rfl⟩
    exact get_of_mem hmem

theorem get_modify (t : Table key) (k k' : κ) (f : ρ → ρ) (hf : ∀ r, key (f r) = key r) :
    (t.modify k f hf).get k' = if k' = k then (t.get k').map f else t.get k' := by
  unfold get modify
  simp only [List.find?_map]
  have hcomp : ((fun r => decide (key r = k')) ∘ fun r => if key r = k then f r else r) =
      fun r => decide (key r = k') := by
    funext r
    simp only [Function.comp_apply]
    split
    · rw [hf]
    · rfl
  rw [hcomp]
  cases hr : t.rows.find? fun r => decide (key r = k') with
  | none => simp
  | some r =>
    have hkey : key r = k' := by simpa using List.find?_some hr
    subst hkey
    by_cases hk : key r = k
    · simp [hk]
    · simp [hk]

/-- A unique constraint over columns that may be null: `column` is `none` where one is. -/
theorem nodup_filterMap_iff {ν : Type} {column : ρ → Option ν} {t : Table key} :
    (t.rows.filterMap column).Nodup ↔ ∀ r ∈ t.rows, ∀ r' ∈ t.rows, key r ≠ key r' →
      ∀ v, column r = some v → column r' ≠ some v := by
  rw [List.Nodup, List.pairwise_filterMap]
  constructor
  · intro h r hr r' hr' hkey v hv hv'
    have hsymm : Std.Symm fun a b => ∀ v, column a = some v → ∀ w, column b = some w → v ≠ w :=
      ⟨fun a b hab v hv w hw => (hab w hw v hv).symm⟩
    have hne : r ≠ r' := fun heq => hkey (congrArg key heq)
    exact h.forall hr hr' hne v hv v hv' rfl
  · intro h
    refine (t.nodup.of_map _).pairwise_of_forall_ne fun r hr r' hr' hne v hv w hw => ?_
    rintro rfl
    refine h r hr r' hr' (fun hkey => hne ?_) v hv hw
    exact Option.some.inj ((get_of_mem hr).symm.trans (hkey ▸ get_of_mem hr'))

/-- A unique constraint is kept by an update of one row to a value that no other row has. -/
theorem nodup_filterMap_modify {ν : Type} {column : ρ → Option ν} {t : Table key} {k : κ}
    {f : ρ → ρ} (hf : ∀ r, key (f r) = key r) (h : (t.rows.filterMap column).Nodup)
    (hfree : ∀ r ∈ t.rows, key r = k → ∀ v, column (f r) = some v →
      ∀ r' ∈ t.rows, key r' ≠ k → column r' ≠ some v) :
    ((t.modify k f hf).rows.filterMap column).Nodup := by
  have hkeys : t.rows.Pairwise fun a b => key a ≠ key b := List.pairwise_map.mp t.nodup
  rw [List.Nodup, List.pairwise_filterMap] at h ⊢
  refine List.pairwise_map.mpr ((h.and hkeys).imp_of_mem ?_)
  intro a b ha hb hab v hv w hw hvw
  obtain ⟨hdistinct, hne⟩ := hab
  subst hvw
  by_cases hak : key a = k
  · have hbk : key b ≠ k := fun hbk => hne (hak.trans hbk.symm)
    rw [if_pos hak] at hv
    rw [if_neg hbk] at hw
    exact hfree a ha hak v hv b hb hbk hw
  · rw [if_neg hak] at hv
    by_cases hbk : key b = k
    · rw [if_pos hbk] at hw
      exact hfree b hb hbk v hw a ha hak hv
    · rw [if_neg hbk] at hw
      exact hdistinct v hv v hw rfl

theorem get_mapRows (t : Table key) (f : ρ → ρ) (hf : ∀ r, key (f r) = key r) (k : κ) :
    (t.mapRows f hf).get k = (t.get k).map f := by
  unfold get mapRows
  rw [List.find?_map]
  have hcomp : (fun r => decide (key r = k)) ∘ f = fun r => decide (key r = k) := by
    funext r
    simp only [Function.comp_apply, hf]
  rw [hcomp]

theorem mem_keys_iff {t : Table key} {k : κ} : k ∈ t.rows.map key ↔ ∃ r, t.get k = some r := by
  rw [List.mem_map]
  constructor
  · rintro ⟨r, hr, rfl⟩
    exact ⟨r, get_of_mem hr⟩
  · rintro ⟨r, hr⟩
    exact ⟨r, mem_of_get hr, key_of_get hr⟩

theorem get_extend (t : Table key) {rs : List ρ} (hrs : (rs.map key).Nodup)
    (hnew : ∀ r ∈ rs, key r ∉ t.rows.map key) {k : κ} {r : ρ} :
    (t.extend rs hrs hnew).get k = some r ↔ t.get k = some r ∨ (r ∈ rs ∧ key r = k) := by
  rw [get_iff_mem, get_iff_mem]
  simp only [extend, List.mem_append]
  tauto

theorem get_deleteWhere (t : Table key) (p : ρ → Bool) (k : κ) :
    (t.deleteWhere p).get k = (t.get k).filter fun r => !p r := by
  ext r
  rw [get_iff_mem, Option.filter_eq_some_iff, get_iff_mem]
  simp only [deleteWhere, List.mem_filter]
  tauto

omit [DecidableEq κ] in
/-- Nothing is deleted where no row meets the condition. -/
theorem deleteWhere_eq_self {t : Table key} {p : ρ → Bool} (h : ∀ r ∈ t.rows, p r = false) :
    t.deleteWhere p = t := by
  obtain ⟨rows, hnodup⟩ := t
  unfold deleteWhere
  congr 1
  exact List.filter_eq_self.mpr fun r hr => by rw [h r hr, Bool.not_false]

/-- A row that is deleted by its key is not there. -/
theorem get_delete (t : Table key) (k : κ) : (t.deleteWhere fun r => key r = k).get k = none := by
  rw [get_deleteWhere, Option.filter_eq_none_iff]
  intro r hr
  simpa using key_of_get hr

theorem rows_insert {t t' : Table key} {r : ρ} (h : t.insert r = some t') :
    t'.rows = t.rows ++ [r] := by
  unfold insert at h
  split at h
  · cases h
  · obtain rfl := Option.some.inj h
    rfl

theorem get_insert {t t' : Table key} {r : ρ} (h : t.insert r = some t') (k : κ) :
    t'.get k = if k = key r then some r else t.get k := by
  unfold insert at h
  split at h
  · cases h
  next hnew =>
    obtain rfl := Option.some.inj h
    by_cases hk : k = key r
    · subst hk
      rw [if_pos rfl, get_iff_mem]
      exact ⟨List.mem_append_right _ List.mem_cons_self, rfl⟩
    · rw [if_neg hk]
      unfold get
      rw [List.find?_append]
      simp [Ne.symm hk]

/-- What is inserted was not there. -/
theorem get_of_insert {t t' : Table key} {r : ρ} (h : t.insert r = some t') :
    t.get (key r) = none := by
  cases hget : t.get (key r) with
  | none => rfl
  | some stored =>
    rw [insert, dif_pos (mem_keys_iff.mpr ⟨stored, hget⟩)] at h
    cases h

theorem insert_isSome {t : Table key} {r : ρ} (h : t.get (key r) = none) :
    ∃ t', t.insert r = some t' := by
  have hnew : key r ∉ t.rows.map key := fun hmem => by
    obtain ⟨r', hr'⟩ := mem_keys_iff.mp hmem
    rw [h] at hr'
    cases hr'
  exact ⟨_, dif_neg hnew⟩

theorem rows_insertAll {t t' : Table key} {rs : List ρ} (h : t.insertAll rs = some t') :
    t'.rows = t.rows ++ rs := by
  induction rs generalizing t with
  | nil =>
    obtain rfl := Option.some.inj h
    simp
  | cons r rs ih =>
    obtain ⟨u, hu, ht⟩ := Option.bind_eq_some_iff.mp h
    rw [ih ht, rows_insert hu]
    simp

/-- Rows with distinct keys are inserted when none of their keys is taken. -/
theorem insertAll_isSome_iff {t : Table key} {rs : List ρ} (hrs : (rs.map key).Nodup) :
    (t.insertAll rs).isSome = true ↔ ∀ r ∈ rs, key r ∉ t.rows.map key := by
  induction rs generalizing t with
  | nil => exact iff_of_true rfl fun _ h => absurd h List.not_mem_nil
  | cons r rs ih =>
    rw [List.map_cons, List.nodup_cons] at hrs
    rw [List.forall_mem_cons, insertAll]
    cases hinsert : t.insert r with
    | none =>
      refine iff_of_false nofun fun hnew => ?_
      rw [insert, dif_neg hnew.1] at hinsert
      cases hinsert
    | some u =>
      have hrow : key r ∉ t.rows.map key := by
        intro hmem
        rw [insert, dif_pos hmem] at hinsert
        cases hinsert
      rw [Option.bind_some, ih hrs.2, rows_insert hinsert]
      constructor
      · intro hall
        refine ⟨hrow, fun r' hr' hmem => hall r' hr' ?_⟩
        rw [List.map_append]
        exact List.mem_append_left _ hmem
      · rintro ⟨-, hall⟩ r' hr' hmem
        rw [List.map_append, List.map_singleton, List.mem_append, List.mem_singleton] at hmem
        rcases hmem with hmem | heq
        · exact hall r' hr' hmem
        · exact hrs.1 (heq ▸ List.mem_map_of_mem hr')

end Table
