import FraudAnalyzer.Lib.OrderedDict
import Mathlib.Algebra.GroupWithZero.Nat

/-!
# Least-recently-used caches with a byte budget

An ordered dictionary and a running total of the sizes of its values. `put` replaces the entry of a
key and then evicts from the front until both bounds hold; a value over the whole budget is not
stored at all.
-/

structure BudgetCache (κ ν : Type) where
  entries : OrderedDict κ ν
  totalBytes : Int

namespace BudgetCache

variable {κ ν : Type} [DecidableEq κ]

def empty : BudgetCache κ ν := ⟨.empty, 0⟩

def get (c : BudgetCache κ ν) (k : κ) : Option ν := c.entries.get k

/-- A key that was used. -/
def touch (c : BudgetCache κ ν) (k : κ) : BudgetCache κ ν :=
  { c with entries := c.entries.moveToEnd k }

/-- Remove an entry and give back its bytes. -/
def drop (size : ν → Nat) (c : BudgetCache κ ν) (k : κ) : BudgetCache κ ν :=
  match c.get k with
  | none => c
  | some v => ⟨c.entries.erase k, c.totalBytes - size v⟩

/-- The eviction loop after `key` was stored, for at most the given number of rounds. -/
def evict (size : ν → Nat) (budget : Int) (maxEntries : Nat) (key : κ) :
    Nat → BudgetCache κ ν → BudgetCache κ ν
  | 0, c => c
  | rounds + 1, c =>
    match c.entries.entries with
    | [] => c
    | (oldest, v) :: _ =>
      if budget < c.totalBytes ∨ maxEntries < c.entries.size then
        if oldest = key then ⟨c.entries.popOldest, c.totalBytes - size v⟩
        else evict size budget maxEntries key rounds ⟨c.entries.popOldest, c.totalBytes - size v⟩
      else c

/-- Store a value as the most recently used. Every round of the loop removes an entry, so as many
rounds as there are entries are enough. -/
def put (size : ν → Nat) (budget : Int) (maxEntries : Nat) (c : BudgetCache κ ν) (k : κ) (v : ν) :
    BudgetCache κ ν :=
  let c := c.drop size k
  if budget < size v then c
  else
    let c : BudgetCache κ ν := ⟨c.entries.setLast k v, c.totalBytes + size v⟩
    c.evict size budget maxEntries k c.entries.size

section Get

variable {size : ν → Nat} {budget : Int} {maxEntries : Nat} {c : BudgetCache κ ν} {k k' : κ}
  {v w : ν}

@[simp] theorem get_touch (c : BudgetCache κ ν) (k k' : κ) : (c.touch k).get k' = c.get k' :=
  OrderedDict.get_moveToEnd _ _ _

@[simp] theorem get_drop (size : ν → Nat) (c : BudgetCache κ ν) (k k' : κ) :
    (c.drop size k).get k' = if k' = k then none else c.get k' := by
  unfold drop
  split
  next h =>
    split
    next hk => rw [hk, h]
    · rfl
  · exact OrderedDict.get_erase _ _ _

theorem get_of_evict {key : κ} {rounds : Nat}
    (h : (evict size budget maxEntries key rounds c).get k = some w) : c.get k = some w := by
  induction rounds generalizing c with
  | zero => exact h
  | succ rounds ih =>
    unfold evict at h
    split at h
    · exact h
    · split at h
      · split at h
        · exact OrderedDict.get_of_popOldest h
        · exact OrderedDict.get_of_popOldest (ih h)
      · exact h

/-- What is held after a store is the new value or was held before. -/
theorem get_of_put (h : (put size budget maxEntries c k v).get k' = some w) :
    (k' = k ∧ w = v) ∨ (k' ≠ k ∧ c.get k' = some w) := by
  unfold put at h
  simp only at h
  split at h
  · rw [get_drop] at h
    split at h
    · cases h
    next hk => exact .inr ⟨hk, h⟩
  · have hset := get_of_evict h
    unfold get at hset
    rw [OrderedDict.get_setLast] at hset
    split at hset
    next hk => exact .inl ⟨hk, (Option.some.inj hset).symm⟩
    next hk =>
      have hdrop : (c.drop size k).get k' = some w := hset
      rw [get_drop, if_neg hk] at hdrop
      exact .inr ⟨hk, hdrop⟩

end Get

/-! ## Accounting -/

/-- The bytes of some entries. -/
def bytesOf (size : ν → Nat) (entries : List (κ × ν)) : Nat := (entries.map fun e => size e.2).sum

/-- The entries meet both bounds. -/
def Fits (size : ν → Nat) (budget : Int) (maxEntries : Nat) (entries : List (κ × ν)) : Prop :=
  (bytesOf size entries : Int) ≤ budget ∧ entries.length ≤ maxEntries

/-- The running total is that of the entries. -/
def Accounted (size : ν → Nat) (c : BudgetCache κ ν) : Prop :=
  c.totalBytes = (bytesOf size c.entries.entries : Int)

section Accounting

variable {size : ν → Nat} {budget : Int} {maxEntries : Nat} {c : BudgetCache κ ν} {k : κ} {v : ν}

omit [DecidableEq κ] in
@[simp] theorem bytesOf_nil : bytesOf size ([] : List (κ × ν)) = 0 := rfl

omit [DecidableEq κ] in
@[simp] theorem bytesOf_cons (e : κ × ν) (entries : List (κ × ν)) :
    bytesOf size (e :: entries) = size e.2 + bytesOf size entries := by
  simp [bytesOf]

omit [DecidableEq κ] in
@[simp] theorem bytesOf_append (front back : List (κ × ν)) :
    bytesOf size (front ++ back) = bytesOf size front + bytesOf size back := by
  simp [bytesOf]

/-- The bytes of an entry and of the rest. -/
theorem bytesOf_erase (size : ν → Nat) {d : OrderedDict κ ν} (h : d.get k = some v) :
    bytesOf size (d.erase k).entries + size v = bytesOf size d.entries := by
  have hmem : (k, v) ∈ d.entries := OrderedDict.get_iff_mem.mp h
  have hnodup := d.nodup
  rw [OrderedDict.entries_erase]
  clear h
  revert hmem hnodup
  generalize d.entries = entries
  intro hmem hnodup
  induction entries with
  | nil => cases hmem
  | cons e entries ih =>
    rw [List.map_cons, List.nodup_cons] at hnodup
    rcases List.mem_cons.mp hmem with rfl | hrest
    · have hothers : entries.filter (fun e => decide (e.1 ≠ k)) = entries := by
        rw [List.filter_eq_self]
        intro e he
        have hin : e.1 ∈ entries.map Prod.fst := List.mem_map_of_mem he
        have hne : e.1 ≠ k := fun heq => hnodup.1 (heq ▸ hin)
        simpa using hne
      rw [List.filter_cons_of_neg (by simp), hothers, bytesOf_cons, Nat.add_comm]
    · have hin : k ∈ entries.map Prod.fst := List.mem_map_of_mem hrest
      have hne : e.1 ≠ k := fun heq => hnodup.1 (heq ▸ hin)
      rw [List.filter_cons_of_pos (by simpa using hne), bytesOf_cons, bytesOf_cons, Nat.add_assoc,
        ih hrest hnodup.2]

omit [DecidableEq κ] in
theorem Accounted.empty : Accounted size (empty : BudgetCache κ ν) := rfl

theorem Accounted.touch (h : Accounted size c) (k : κ) : Accounted size (c.touch k) := by
  unfold Accounted BudgetCache.touch OrderedDict.moveToEnd
  simp only
  split
  · exact h
  next hget =>
    have hbytes := bytesOf_erase size hget
    rw [OrderedDict.entries_setLast, bytesOf_append, bytesOf_cons, bytesOf_nil, Nat.add_zero,
      hbytes]
    exact h

theorem Accounted.drop (h : Accounted size c) (k : κ) : Accounted size (c.drop size k) := by
  unfold BudgetCache.drop
  split
  · exact h
  next hget =>
    have hbytes := bytesOf_erase size hget
    unfold Accounted at h ⊢
    simp only [h]
    omega

/-- An entry gets another value in its place. -/
theorem bytesOf_replace (size : ν → Nat) {d : OrderedDict κ ν} (h : d.get k = some v) (w : ν) :
    bytesOf size (d.replace k w).entries + size v = bytesOf size d.entries + size w := by
  have hmem : (k, v) ∈ d.entries := OrderedDict.get_iff_mem.mp h
  have hnodup := d.nodup
  rw [OrderedDict.entries_replace]
  clear h
  revert hmem hnodup
  generalize d.entries = entries
  intro hmem hnodup
  induction entries with
  | nil => cases hmem
  | cons e entries ih =>
    rw [List.map_cons, List.nodup_cons] at hnodup
    simp only [List.map_cons, bytesOf_cons] at ih ⊢
    rcases List.mem_cons.mp hmem with rfl | hrest
    · have hsame : (entries.map fun e => if e.1 = k then (k, w) else e) = entries := by
        refine (List.map_congr_left fun e he => ?_).trans (List.map_id entries)
        have hin : e.1 ∈ entries.map Prod.fst := List.mem_map_of_mem he
        have hne : e.1 ≠ k := fun heq => hnodup.1 (heq ▸ hin)
        rw [if_neg hne, id]
      rw [hsame, if_pos rfl]
      simp only
      omega
    · have hin : k ∈ entries.map Prod.fst := List.mem_map_of_mem hrest
      have hne : e.1 ≠ k := fun heq => hnodup.1 (heq ▸ hin)
      have hrec := ih hrest hnodup.2
      rw [if_neg hne]
      omega

/-- A value changed in place, with the total brought up to date. -/
theorem Accounted.replace (h : Accounted size c) (hget : c.get k = some v) (w : ν) :
    Accounted size ⟨c.entries.replace k w, c.totalBytes + size w - size v⟩ := by
  have hbytes := bytesOf_replace size hget w
  unfold Accounted at h ⊢
  simp only [h]
  omega

/-- Nothing but the entry goes. -/
theorem entries_drop (size : ν → Nat) (c : BudgetCache κ ν) (k : κ) :
    (c.drop size k).entries.entries = c.entries.entries.filter fun e => e.1 ≠ k := by
  unfold BudgetCache.drop
  split
  next hget => exact (OrderedDict.entries_erase_of_none hget).symm
  · rfl

theorem totalBytes_drop_le (size : ν → Nat) (c : BudgetCache κ ν) (k : κ) :
    (c.drop size k).totalBytes ≤ c.totalBytes := by
  unfold BudgetCache.drop
  split
  · exact Int.le_refl _
  · simp only
    omega

theorem size_drop_le (size : ν → Nat) (c : BudgetCache κ ν) (k : κ) :
    (c.drop size k).entries.size ≤ c.entries.size := by
  unfold OrderedDict.size
  rw [entries_drop]
  exact List.length_filter_le _ _

/-- The entry of a key that is not yet there, at the end. -/
theorem Accounted.setLast (h : Accounted size c) (k : κ) (v : ν) (hk : c.get k = none) :
    Accounted size ⟨c.entries.setLast k v, c.totalBytes + size v⟩ := by
  unfold Accounted at h ⊢
  rw [OrderedDict.entries_setLast, OrderedDict.entries_erase_of_none hk, bytesOf_append,
    bytesOf_cons, bytesOf_nil, h, Nat.add_zero, Int.natCast_add]

/-- **The eviction loop** after an entry that fits was stored at the end: of what was in front of
it the oldest entries go, no more of them than it takes for both bounds. -/
theorem evict_spec (hbudget : (size v : Int) ≤ budget) (hmax : 1 ≤ maxEntries) {rounds : Nat}
    {front : List (κ × ν)} (hacc : Accounted size c)
    (hentries : c.entries.entries = front ++ [(k, v)]) (hrounds : front.length < rounds) :
    Accounted size (evict size budget maxEntries k rounds c) ∧
      ∃ n ≤ front.length,
        (evict size budget maxEntries k rounds c).entries.entries = front.drop n ++ [(k, v)] ∧
          Fits size budget maxEntries (front.drop n ++ [(k, v)]) ∧
            ∀ m < n, ¬ Fits size budget maxEntries (front.drop m ++ [(k, v)]) := by
  induction rounds generalizing c front with
  | zero => exact absurd hrounds (Nat.not_lt_zero _)
  | succ rounds ih =>
    have hover : (budget < c.totalBytes ∨ maxEntries < c.entries.size) ↔
        ¬ Fits size budget maxEntries (front ++ [(k, v)]) := by
      unfold Fits
      rw [hacc, OrderedDict.size, hentries]
      omega
    unfold evict
    cases front with
    | nil =>
      have hfits : Fits size budget maxEntries [(k, v)] := ⟨by simpa using hbudget, hmax⟩
      rw [hentries]
      simp only [List.nil_append]
      rw [if_neg (fun h => hover.mp h hfits)]
      exact ⟨hacc, 0, Nat.le_refl _, hentries, hfits, fun m hm => absurd hm (Nat.not_lt_zero _)⟩
    | cons oldest front =>
      obtain ⟨k₀, v₀⟩ := oldest
      rw [hentries]
      simp only [List.cons_append]
      split
      next hlong =>
        have hne : k₀ ≠ k := by
          have hnodup := c.entries.nodup
          rw [hentries] at hnodup
          intro heq
          simp [heq] at hnodup
        rw [if_neg hne]
        have hpop : Accounted size ⟨c.entries.popOldest, c.totalBytes - size v₀⟩ := by
          unfold Accounted at hacc ⊢
          simp only [OrderedDict.popOldest, hacc, hentries, List.cons_append, List.tail_cons,
            bytesOf_cons]
          omega
        have hrest : (⟨c.entries.popOldest, c.totalBytes - size v₀⟩ :
            BudgetCache κ ν).entries.entries = front ++ [(k, v)] := by
          simp only [OrderedDict.popOldest, hentries, List.cons_append, List.tail_cons]
        obtain ⟨hend, n, hn, hleft, hfits, hneeded⟩ :=
          ih hpop hrest (Nat.lt_of_succ_lt_succ hrounds)
        refine ⟨hend, n + 1, Nat.succ_le_succ hn, hleft, hfits, ?_⟩
        intro m hm
        cases m with
        | zero => exact hover.mp hlong
        | succ m => exact hneeded m (Nat.lt_of_succ_lt_succ hm)
      next hshort =>
        have hfits := not_not.mp (fun h => hshort (hover.mpr h))
        exact ⟨hacc, 0, Nat.zero_le _, hentries, hfits, fun m hm => absurd hm (Nat.not_lt_zero _)⟩

/-- **`put`** of a value within the budget. -/
theorem put_spec (hacc : Accounted size c) (hbudget : (size v : Int) ≤ budget)
    (hmax : 1 ≤ maxEntries) :
    Accounted size (c.put size budget maxEntries k v) ∧
      ∃ n ≤ (c.drop size k).entries.size,
        (c.put size budget maxEntries k v).entries.entries =
            (c.drop size k).entries.entries.drop n ++ [(k, v)] ∧
          Fits size budget maxEntries ((c.drop size k).entries.entries.drop n ++ [(k, v)]) ∧
            ∀ m < n,
              ¬ Fits size budget maxEntries
                ((c.drop size k).entries.entries.drop m ++ [(k, v)]) := by
  have hgone : (c.drop size k).get k = none := by rw [get_drop, if_pos rfl]
  have hset := (hacc.drop k).setLast k v hgone
  have hentries : ((c.drop size k).entries.setLast k v).entries =
      (c.drop size k).entries.entries ++ [(k, v)] := by
    rw [OrderedDict.entries_setLast, OrderedDict.entries_erase_of_none hgone]
  have hlong : (c.drop size k).entries.entries.length <
      ((c.drop size k).entries.setLast k v).size := by
    rw [OrderedDict.size, hentries]
    simp
  unfold put
  simp only
  rw [if_neg (Int.not_lt.mpr hbudget)]
  exact evict_spec hbudget hmax hset hentries hlong

/-- A value over the budget is not stored. -/
theorem put_over (hbudget : budget < (size v : Int)) :
    c.put size budget maxEntries k v = c.drop size k := by
  unfold put
  simp only
  rw [if_pos hbudget]

theorem Accounted.put (h : Accounted size c) (hmax : 1 ≤ maxEntries) (k : κ) (v : ν) :
    Accounted size (c.put size budget maxEntries k v) := by
  by_cases hbudget : (size v : Int) ≤ budget
  · exact (put_spec h hbudget hmax).1
  · rw [put_over (Int.not_le.mp hbudget)]
    exact h.drop k

/-- A value within the budget is held after it was stored. -/
theorem get_put_self (h : Accounted size c) (hbudget : (size v : Int) ≤ budget)
    (hmax : 1 ≤ maxEntries) : (c.put size budget maxEntries k v).get k = some v := by
  obtain ⟨-, n, -, hentries, -, -⟩ := put_spec (k := k) h hbudget hmax
  unfold get
  rw [OrderedDict.get_iff_mem, hentries]
  exact List.mem_append_right _ (List.mem_singleton_self _)

/-- The bounds after a store, if they held before. -/
theorem size_put_le (h : Accounted size c) (hmax : 1 ≤ maxEntries)
    (hsize : c.entries.size ≤ maxEntries) (k : κ) (v : ν) :
    (c.put size budget maxEntries k v).entries.size ≤ maxEntries := by
  by_cases hbudget : (size v : Int) ≤ budget
  · obtain ⟨-, n, -, hentries, hfits, -⟩ := put_spec (k := k) h hbudget hmax
    rw [OrderedDict.size, hentries]
    exact hfits.2
  · rw [put_over (Int.not_le.mp hbudget)]
    exact Nat.le_trans (size_drop_le _ _ _) hsize

theorem totalBytes_put_le (h : Accounted size c) (hmax : 1 ≤ maxEntries)
    (htotal : c.totalBytes ≤ budget) (k : κ) (v : ν) :
    (c.put size budget maxEntries k v).totalBytes ≤ budget := by
  by_cases hbudget : (size v : Int) ≤ budget
  · obtain ⟨hacc, n, -, hentries, hfits, -⟩ := put_spec (k := k) h hbudget hmax
    rw [hacc, hentries]
    exact hfits.1
  · rw [put_over (Int.not_le.mp hbudget)]
    exact Int.le_trans (totalBytes_drop_le _ _ _) htotal

end Accounting

end BudgetCache
