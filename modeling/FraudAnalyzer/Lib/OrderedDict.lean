import Mathlib.Data.List.Nodup
import Mathlib.Data.List.Basic

/-!
# Insertion-ordered dictionaries

`collections.OrderedDict`: the entries in order, oldest first, with distinct keys. Each operation
has one lemma that says what `get` finds afterwards, which is all that a user of the dictionary
needs; the order matters only to `popOldest`.
-/

structure OrderedDict (κ ν : Type) where
  entries : List (κ × ν)
  nodup : (entries.map Prod.fst).Nodup

namespace OrderedDict

variable {κ ν : Type} [DecidableEq κ]

def empty : OrderedDict κ ν := ⟨[], List.nodup_nil⟩

/-- `d.get(k)` -/
def get (d : OrderedDict κ ν) (k : κ) : Option ν :=
  (d.entries.find? fun e => e.1 = k).map Prod.snd

/-- `len(d)` -/
def size (d : OrderedDict κ ν) : Nat := d.entries.length

/-- The entries whose key meets the condition, in their order. -/
def filterKeys (d : OrderedDict κ ν) (p : κ → Bool) : OrderedDict κ ν :=
  ⟨d.entries.filter fun e => p e.1, d.nodup.sublist (List.filter_sublist.map _)⟩

/-- The entries whose value meets the condition, in their order. -/
def filterValues (d : OrderedDict κ ν) (p : ν → Bool) : OrderedDict κ ν :=
  ⟨d.entries.filter fun e => p e.2, d.nodup.sublist (List.filter_sublist.map _)⟩

/-- `d.pop(k, None)`, for the dictionary that is left. -/
def erase (d : OrderedDict κ ν) (k : κ) : OrderedDict κ ν := d.filterKeys fun k' => k' ≠ k

theorem not_mem_keys_erase (d : OrderedDict κ ν) (k : κ) :
    k ∉ (d.erase k).entries.map Prod.fst := by
  simp [erase, filterKeys]

/-- A key that the dictionary does not have, at the end. -/
def push (d : OrderedDict κ ν) (k : κ) (v : ν) (h : k ∉ d.entries.map Prod.fst) :
    OrderedDict κ ν where
  entries := d.entries ++ [(k, v)]
  nodup := by
    rw [List.map_append, List.map_singleton, ← List.concat_eq_append]
    exact d.nodup.concat h

/-- `d[k] = v`, then `d.move_to_end(k)`. -/
def setLast (d : OrderedDict κ ν) (k : κ) (v : ν) : OrderedDict κ ν :=
  (d.erase k).push k v (d.not_mem_keys_erase k)

/-- `d.move_to_end(k)` -/
def moveToEnd (d : OrderedDict κ ν) (k : κ) : OrderedDict κ ν :=
  match d.get k with
  | none => d
  | some v => d.setLast k v

/-- `d[k] = v` for a key that is there: the entry keeps its place. -/
def replace (d : OrderedDict κ ν) (k : κ) (v : ν) : OrderedDict κ ν where
  entries := d.entries.map fun e => if e.1 = k then (k, v) else e
  nodup := by
    have hkeys : (d.entries.map fun e => if e.1 = k then (k, v) else e).map Prod.fst =
        d.entries.map Prod.fst := by
      rw [List.map_map]
      refine List.map_congr_left fun e _ => ?_
      simp only [Function.comp_apply]
      split
      next h => exact h.symm
      · rfl
    rw [hkeys]
    exact d.nodup

/-- `d[k] = v` -/
def assign (d : OrderedDict κ ν) (k : κ) (v : ν) : OrderedDict κ ν :=
  if h : k ∈ d.entries.map Prod.fst then d.replace k v else d.push k v h

/-- `d.popitem(last=False)`, for the dictionary that is left. -/
def popOldest (d : OrderedDict κ ν) : OrderedDict κ ν :=
  ⟨d.entries.tail, d.nodup.sublist ((List.tail_sublist _).map _)⟩

/-- `while len(d) > bound: d.popitem(last=False)`. Each round removes an entry, so the length is
enough rounds. -/
def evictOver (d : OrderedDict κ ν) (bound : Nat) : Nat → OrderedDict κ ν
  | 0 => d
  | rounds + 1 => if bound < d.size then d.popOldest.evictOver bound rounds else d

/-! ## What `get` finds -/

theorem get_iff_mem {d : OrderedDict κ ν} {k : κ} {v : ν} :
    d.get k = some v ↔ (k, v) ∈ d.entries := by
  obtain ⟨entries, hnodup⟩ := d
  unfold get
  induction entries with
  | nil => simp
  | cons e entries ih =>
    rw [List.map_cons, List.nodup_cons] at hnodup
    obtain ⟨k', v'⟩ := e
    by_cases hk : k' = k
    · subst hk
      have hrest : (k', v) ∉ entries := fun h => hnodup.1 (List.mem_map.mpr ⟨(k', v), h, rfl⟩)
      simp [hrest, eq_comm]
    · simpa [hk, Ne.symm hk] using ih hnodup.2

@[simp] theorem get_empty (k : κ) : (empty : OrderedDict κ ν).get k = none := rfl

theorem get_filterKeys (d : OrderedDict κ ν) (p : κ → Bool) (k : κ) :
    (d.filterKeys p).get k = if p k then d.get k else none := by
  ext v
  rw [get_iff_mem]
  simp only [filterKeys, List.mem_filter]
  split
  next h => simp [h, get_iff_mem]
  next h => simp [h]

theorem get_filterValues (d : OrderedDict κ ν) (p : ν → Bool) (k : κ) :
    (d.filterValues p).get k = (d.get k).filter p := by
  ext v
  rw [get_iff_mem, Option.filter_eq_some_iff, get_iff_mem]
  simp only [filterValues, List.mem_filter]

@[simp] theorem get_erase (d : OrderedDict κ ν) (k k' : κ) :
    (d.erase k).get k' = if k' = k then none else d.get k' := by
  unfold erase
  rw [get_filterKeys]
  by_cases h : k' = k
  · simp [h]
  · simp [h]

theorem entries_erase (d : OrderedDict κ ν) (k : κ) :
    (d.erase k).entries = d.entries.filter fun e => e.1 ≠ k := rfl

/-- A key that is not there takes nothing with it. -/
theorem entries_erase_of_none {d : OrderedDict κ ν} {k : κ} (h : d.get k = none) :
    (d.erase k).entries = d.entries := by
  rw [entries_erase, List.filter_eq_self]
  intro e he
  have hne : e.1 ≠ k := by
    rintro rfl
    -- in parentheses: a dotted name is looked up below the theorem, and waits for its proof
    have hsome : d.get e.1 = some e.2 := (get_iff_mem).mpr he
    exact absurd (h.symm.trans hsome) nofun
  simpa using hne

@[simp] theorem get_push (d : OrderedDict κ ν) (k : κ) (v : ν) (h : k ∉ d.entries.map Prod.fst)
    (k' : κ) : (d.push k v h).get k' = if k' = k then some v else d.get k' := by
  by_cases hk : k' = k
  · rw [if_pos hk, get_iff_mem, hk]
    simp [push]
  · rw [if_neg hk]
    ext w
    rw [get_iff_mem, get_iff_mem]
    simp [push, hk]

@[simp] theorem get_setLast (d : OrderedDict κ ν) (k : κ) (v : ν) (k' : κ) :
    (d.setLast k v).get k' = if k' = k then some v else d.get k' := by
  unfold setLast
  rw [get_push, get_erase]
  split
  · rfl
  · rfl

@[simp] theorem get_moveToEnd (d : OrderedDict κ ν) (k k' : κ) :
    (d.moveToEnd k).get k' = d.get k' := by
  unfold moveToEnd
  split
  · rfl
  next h =>
    rw [get_setLast]
    split
    next hk => rw [hk, h]
    · rfl

theorem entries_setLast (d : OrderedDict κ ν) (k : κ) (v : ν) :
    (d.setLast k v).entries = (d.erase k).entries ++ [(k, v)] := rfl

theorem entries_replace (d : OrderedDict κ ν) (k : κ) (v : ν) :
    (d.replace k v).entries = d.entries.map fun e => if e.1 = k then (k, v) else e := rfl

theorem get_replace (d : OrderedDict κ ν) (k : κ) (v : ν) (k' : κ) :
    (d.replace k v).get k' = if k' = k then (d.get k).map fun _ => v else d.get k' := by
  ext w
  rw [get_iff_mem]
  simp only [replace, List.mem_map]
  constructor
  · intro ⟨⟨k₀, v₀⟩, hmem, heq⟩
    split at heq
    next hk =>
      obtain rfl : k₀ = k := hk
      obtain ⟨rfl, rfl⟩ := Prod.mk.inj heq
      rw [if_pos rfl, (get_iff_mem).mpr hmem]
      rfl
    next hk =>
      obtain ⟨rfl, rfl⟩ := Prod.mk.inj heq
      rw [if_neg hk]
      exact (get_iff_mem).mpr hmem
  · intro h
    split at h
    next hk =>
      obtain ⟨v₀, hget, rfl⟩ := Option.map_eq_some_iff.mp h
      exact ⟨(k, v₀), (get_iff_mem).mp hget, by simp [hk]⟩
    next hk => exact ⟨(k', w), (get_iff_mem).mp h, by simp [hk]⟩

theorem get_isSome_iff {d : OrderedDict κ ν} {k : κ} :
    (d.get k).isSome = true ↔ k ∈ d.entries.map Prod.fst := by
  rw [Option.isSome_iff_exists, List.mem_map]
  constructor
  · rintro ⟨v, hv⟩
    exact ⟨(k, v), (get_iff_mem).mp hv, rfl⟩
  · rintro ⟨⟨k', v⟩, hmem, rfl⟩
    exact ⟨v, (get_iff_mem).mpr hmem⟩

@[simp] theorem get_assign (d : OrderedDict κ ν) (k : κ) (v : ν) (k' : κ) :
    (d.assign k v).get k' = if k' = k then some v else d.get k' := by
  unfold assign
  split
  next h =>
    obtain ⟨old, hold⟩ := Option.isSome_iff_exists.mp ((get_isSome_iff).mpr h)
    rw [get_replace, hold]
    rfl
  next h => exact get_push d k v h k'

theorem size_assign (d : OrderedDict κ ν) (k : κ) (v : ν) :
    (d.assign k v).size = d.size + if (d.get k).isSome then 0 else 1 := by
  unfold assign
  split
  next h =>
    rw [if_pos ((get_isSome_iff).mpr h)]
    exact List.length_map _
  next h =>
    rw [if_neg (mt (get_isSome_iff).mp h)]
    exact List.length_append

/-- What is left after the oldest entry is gone was there. -/
theorem get_of_popOldest {d : OrderedDict κ ν} {k : κ} {v : ν} (h : d.popOldest.get k = some v) :
    d.get k = some v :=
  (get_iff_mem).mpr (List.mem_of_mem_tail ((get_iff_mem).mp h))

theorem size_erase_le (d : OrderedDict κ ν) (k : κ) : (d.erase k).size ≤ d.size :=
  List.length_filter_le _ _

theorem size_moveToEnd (d : OrderedDict κ ν) (k : κ) : (d.moveToEnd k).size = d.size := by
  unfold moveToEnd
  split
  · rfl
  next v h =>
    have hmem : k ∈ d.entries.map Prod.fst := List.mem_map_of_mem ((get_iff_mem).mp h)
    have hkeys : (d.erase k).entries.map Prod.fst = (d.entries.map Prod.fst).erase k := by
      rw [d.nodup.erase_eq_filter, List.filter_map]
      simp [erase, filterKeys, Function.comp_def, bne, beq_eq_decide]
    have hlen := congrArg List.length hkeys
    rw [List.length_map, List.length_erase_of_mem hmem, List.length_map] at hlen
    have hpos := List.length_pos_of_mem ((get_iff_mem).mp h)
    simp only [size, setLast, push, List.length_append, List.length_singleton, hlen]
    omega

theorem get_of_evictOver {bound rounds : Nat} {d : OrderedDict κ ν} {k : κ} {v : ν}
    (h : (d.evictOver bound rounds).get k = some v) : d.get k = some v := by
  induction rounds generalizing d with
  | zero => exact h
  | succ rounds ih =>
    unfold evictOver at h
    split at h
    · exact get_of_popOldest (ih h)
    · exact h

omit [DecidableEq κ] in
theorem size_evictOver {bound rounds : Nat} {d : OrderedDict κ ν} (h : d.size ≤ rounds) :
    (d.evictOver bound rounds).size ≤ bound := by
  induction rounds generalizing d with
  | zero => exact Nat.le_trans h (Nat.zero_le _)
  | succ rounds ih =>
    unfold evictOver
    split
    · apply ih
      have hsize : d.popOldest.size = d.size - 1 := List.length_tail
      omega
    next hle => exact Nat.le_of_not_lt hle

end OrderedDict
