import FraudAnalyzer.Lib.OrderedDict

/-!
# The latest of a history

A history with the latest first, without its repetitions: `latest`. A dictionary that moves each key
it stores to the end and evicts from the front holds the first keys of it, as many as its bound
(`keys_store`).
-/

namespace Recency

section Histories

variable {α : Type} [DecidableEq α]

/-- The distinct members of a history, the latest first. -/
def latest : List α → List α
  | [] => []
  | a :: history => a :: (latest history).filter (· ≠ a)

theorem nodup_latest (history : List α) : (latest history).Nodup := by
  induction history with
  | nil => exact List.nodup_nil
  | cons a history ih => exact List.nodup_cons.mpr ⟨by simp, ih.filter _⟩

/-- Among the first `n + 1` members there are `n` others than one of them. -/
theorem take_filter_take {l : List α} (hl : l.Nodup) (a : α) (n : Nat) :
    ((l.take (n + 1)).filter (· ≠ a)).take n = (l.filter (· ≠ a)).take n := by
  induction l generalizing n with
  | nil => rfl
  | cons b l ih =>
    obtain ⟨hb, hl⟩ := List.nodup_cons.mp hl
    by_cases hba : b = a
    · subst hba
      have hothers : l.filter (· ≠ b) = l :=
        List.filter_eq_self.mpr fun c hc => by simpa using fun hcb : c = b => hb (hcb ▸ hc)
      have hfirst : (l.take n).filter (· ≠ b) = l.take n :=
        List.filter_eq_self.mpr fun c hc => by
          simpa using fun hcb : c = b => hb (hcb ▸ List.mem_of_mem_take hc)
      rw [List.take_succ_cons, List.filter_cons_of_neg (by simp),
        List.filter_cons_of_neg (by simp), hfirst, hothers, List.take_take, Nat.min_self]
    · rw [List.take_succ_cons, List.filter_cons_of_pos (by simpa using hba),
        List.filter_cons_of_pos (by simpa using hba)]
      cases n with
      | zero => rfl
      | succ n => rw [List.take_succ_cons, List.take_succ_cons, ih hl n]

/-- What was cut off before is cut off again. -/
theorem take_latest_cons (a : α) (history : List α) (n : Nat) :
    (a :: ((latest history).take n).filter (· ≠ a)).take n = (latest (a :: history)).take n := by
  cases n with
  | zero => rfl
  | succ n =>
    rw [latest, List.take_succ_cons, List.take_succ_cons,
      take_filter_take (nodup_latest history) a n]

end Histories

section Dictionaries

variable {κ ν : Type} [DecidableEq κ]

/-- The keys of a dictionary, the latest first. -/
def keys (d : OrderedDict κ ν) : List κ := (d.entries.map Prod.fst).reverse

omit [DecidableEq κ] in
theorem length_keys (d : OrderedDict κ ν) : (keys d).length = d.size := by
  rw [keys, List.length_reverse, List.length_map]
  rfl

/-- `d[k] = v`, `d.move_to_end(k)`, `while len(d) > bound: d.popitem(last=False)` -/
def store (d : OrderedDict κ ν) (bound : Nat) (k : κ) (v : ν) : OrderedDict κ ν :=
  let d := d.setLast k v
  d.evictOver bound d.size

theorem keys_setLast (d : OrderedDict κ ν) (k : κ) (v : ν) :
    keys (d.setLast k v) = k :: (keys d).filter (· ≠ k) := by
  rw [keys, OrderedDict.entries_setLast, OrderedDict.entries_erase, List.map_append,
    List.map_singleton, List.reverse_append, List.reverse_singleton, List.singleton_append, keys,
    List.filter_reverse, List.filter_map]
  rfl

omit [DecidableEq κ] in
theorem keys_evictOver (bound rounds : Nat) (d : OrderedDict κ ν) (h : d.size ≤ rounds) :
    keys (d.evictOver bound rounds) = (keys d).take bound := by
  induction rounds generalizing d with
  | zero =>
    have hempty : (keys d).length = 0 := by
      rw [length_keys]
      omega
    rw [OrderedDict.evictOver, List.length_eq_zero_iff.mp hempty, List.take_nil]
  | succ rounds ih =>
    unfold OrderedDict.evictOver
    split
    next hover =>
      have hsize : d.popOldest.size = d.size - 1 := List.length_tail
      rw [ih _ (by omega)]
      -- the oldest key is beyond the bound
      have hkeys : keys d.popOldest = (keys d).dropLast := by
        rw [keys, OrderedDict.popOldest, List.map_tail, ← List.dropLast_reverse]
        rfl
      rw [hkeys, List.dropLast_eq_take, List.take_take, length_keys, Nat.min_eq_left (by omega)]
    next hle =>
      refine (List.take_of_length_le ?_).symm
      rw [length_keys]
      exact Nat.le_of_not_lt hle

/-- **A bounded dictionary keeps the latest keys.** -/
theorem keys_store {d : OrderedDict κ ν} {bound : Nat} {history : List κ}
    (h : keys d = (latest history).take bound) (k : κ) (v : ν) :
    keys (store d bound k v) = (latest (k :: history)).take bound := by
  rw [store, keys_evictOver bound _ _ (Nat.le_refl _), keys_setLast, h, take_latest_cons]

theorem get_of_store {d : OrderedDict κ ν} {bound : Nat} {k k' : κ} {v w : ν}
    (h : (store d bound k v).get k' = some w) : (k' = k ∧ w = v) ∨ d.get k' = some w := by
  have hget := OrderedDict.get_of_evictOver h
  rw [OrderedDict.get_setLast] at hget
  split at hget
  next hk => exact .inl ⟨hk, (Option.some.inj hget).symm⟩
  · exact .inr hget

end Dictionaries

end Recency
