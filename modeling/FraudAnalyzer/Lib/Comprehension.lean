import FraudAnalyzer.Lib.OrderedDict

/-!
# Dictionaries from pairs

A dictionary that is filled pair by pair. A key keeps the place of its first pair and the value of
its last one (`get_ofPairs`); pairs with distinct keys are its entries (`entries_ofPairs`).
-/

namespace OrderedDict

variable {κ ν : Type} [DecidableEq κ]

/-- The pairs assigned one after another. -/
def fill (d : OrderedDict κ ν) (pairs : List (κ × ν)) : OrderedDict κ ν :=
  pairs.foldl (fun d p => d.assign p.1 p.2) d

/-- `{k: v for k, v in pairs}` -/
def ofPairs (pairs : List (κ × ν)) : OrderedDict κ ν := fill .empty pairs

/-- The value of the last pair with the key. -/
def lastOf : List (κ × ν) → κ → Option ν
  | [], _ => none
  | p :: pairs, k => (lastOf pairs k).or (if k = p.1 then some p.2 else none)

/-- A condition on the pairs whose key does not come again. -/
def allLast (p : κ × ν → Bool) : List (κ × ν) → Bool
  | [] => true
  | a :: pairs => (pairs.any (fun b => b.1 = a.1) || p a) && allLast p pairs

section Lemmas

variable {pairs : List (κ × ν)} {k : κ}

theorem get_fill (d : OrderedDict κ ν) (pairs : List (κ × ν)) (k : κ) :
    (d.fill pairs).get k = (lastOf pairs k).or (d.get k) := by
  induction pairs generalizing d with
  | nil => rfl
  | cons p pairs ih =>
    rw [fill, List.foldl_cons, ← fill, ih, lastOf, Option.or_assoc, get_assign]
    split
    · rfl
    · rw [Option.none_or]

theorem get_ofPairs (pairs : List (κ × ν)) (k : κ) : (ofPairs pairs).get k = lastOf pairs k := by
  rw [ofPairs, get_fill, get_empty, Option.or_none]

theorem lastOf_isSome : (lastOf pairs k).isSome = true ↔ k ∈ pairs.map Prod.fst := by
  induction pairs with
  | nil => exact iff_of_false nofun List.not_mem_nil
  | cons p pairs ih =>
    rw [lastOf, Option.isSome_or, Bool.or_eq_true, ih, List.map_cons, List.mem_cons]
    by_cases hk : k = p.1
    · simp [hk]
    · simp [hk]

theorem mem_of_lastOf {v : ν} (h : lastOf pairs k = some v) : (k, v) ∈ pairs := by
  induction pairs with
  | nil => cases h
  | cons p pairs ih =>
    rw [lastOf, Option.or_eq_some_iff] at h
    rcases h with hlater | ⟨-, hhere⟩
    · exact List.mem_cons_of_mem _ (ih hlater)
    · split at hhere
      next heq =>
        cases hhere
        subst heq
        exact List.mem_cons_self
      next => cases hhere

/-- The entries are among the pairs. -/
theorem mem_of_mem_ofPairs {e : κ × ν} (h : e ∈ (ofPairs pairs).entries) : e ∈ pairs :=
  mem_of_lastOf (by rw [← get_ofPairs]; exact get_iff_mem.mpr h)

/-- The entries are the last pairs of their keys. -/
theorem allLast_iff (p : κ × ν → Bool) (pairs : List (κ × ν)) :
    allLast p pairs = true ↔ ∀ k v, lastOf pairs k = some v → p (k, v) = true := by
  induction pairs with
  | nil => exact iff_of_true rfl fun _ _ h => nomatch h
  | cons a pairs ih =>
    rw [allLast, Bool.and_eq_true, Bool.or_eq_true, ih, List.any_eq_true]
    have hagain : (∃ b ∈ pairs, decide (b.1 = a.1) = true) ↔ (lastOf pairs a.1).isSome = true := by
      rw [lastOf_isSome, List.mem_map]
      simp only [decide_eq_true_iff]
    rw [hagain]
    constructor
    · rintro ⟨hhead, htail⟩ k v hlast
      rw [lastOf] at hlast
      cases hk : lastOf pairs k with
      | some w =>
        rw [hk] at hlast
        cases hlast
        exact htail k _ hk
      | none =>
        rw [hk, Option.none_or] at hlast
        split at hlast
        next heq =>
          subst heq
          cases hlast
          rw [hk] at hhead
          exact hhead.resolve_left nofun
        next => cases hlast
    · intro hall
      refine ⟨?_, fun k v hlast => hall k v (by rw [lastOf, hlast, Option.some_or])⟩
      cases hk : lastOf pairs a.1 with
      | some w => exact .inl rfl
      | none => exact .inr (hall a.1 a.2 (by rw [lastOf, hk, Option.none_or, if_pos rfl]))

/-- A condition on the entries. -/
theorem all_entries_ofPairs (p : κ × ν → Bool) (pairs : List (κ × ν)) :
    (ofPairs pairs).entries.all p = allLast p pairs := by
  rw [Bool.eq_iff_iff, List.all_eq_true, allLast_iff]
  constructor
  · intro hall k v hlast
    exact hall (k, v) (get_iff_mem.mp (by rw [get_ofPairs, hlast]))
  · intro hall e he
    exact hall e.1 e.2 (by rw [← get_ofPairs]; exact get_iff_mem.mpr he)

theorem entries_fill (d : OrderedDict κ ν) (hpairs : (pairs.map Prod.fst).Nodup)
    (hnew : ∀ k ∈ pairs.map Prod.fst, k ∉ d.entries.map Prod.fst) :
    (d.fill pairs).entries = d.entries ++ pairs := by
  induction pairs generalizing d with
  | nil => exact (List.append_nil _).symm
  | cons p pairs ih =>
    rw [List.map_cons, List.nodup_cons] at hpairs
    rw [List.map_cons, List.forall_mem_cons] at hnew
    have hpush : (d.assign p.1 p.2).entries = d.entries ++ [p] := by
      rw [assign, dif_neg hnew.1]
      rfl
    rw [fill, List.foldl_cons, ← fill, ih _ hpairs.2, hpush, List.append_assoc]
    · rfl
    · intro k hk hmem
      rw [hpush, List.map_append, List.mem_append, List.map_singleton, List.mem_singleton] at hmem
      rcases hmem with hold | rfl
      · exact hnew.2 k hk hold
      · exact hpairs.1 hk

/-- Pairs with distinct keys are the entries. -/
theorem entries_ofPairs (hpairs : (pairs.map Prod.fst).Nodup) : (ofPairs pairs).entries = pairs :=
  entries_fill .empty hpairs fun _ _ => List.not_mem_nil

end Lemmas

end OrderedDict
