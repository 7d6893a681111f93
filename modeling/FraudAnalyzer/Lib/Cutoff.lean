import Mathlib.Data.List.Sort

/-!
# Cutting a sorted list at a key

A list that is sorted downwards by a key is cut at the key of the item in position `k`: what has a
larger key stays. At most `k` items do, and all of the first `k` do exactly when the key drops
between position `k - 1` and position `k`.
-/

namespace Cutoff

variable {α κ : Type} [LinearOrder κ] {key : α → κ} {l : List α} {k : Nat} {c : α}

/-- The keys never rise along the list. -/
abbrev Falling (key : α → κ) (l : List α) : Prop := l.Pairwise fun a b => key b ≤ key a

/-- The key at the cut is smaller than the one before it. -/
def Drops (key : α → κ) (k : Nat) (l : List α) : Prop :=
  ∀ a b, l[k - 1]? = some a → l[k]? = some b → key b < key a

theorem Falling.le_of_lt (hl : Falling key l) {i j : Nat} {a b : α} (ha : l[i]? = some a)
    (hb : l[j]? = some b) (hij : i < j) : key b ≤ key a := by
  obtain ⟨hi, rfl⟩ := List.getElem?_eq_some_iff.mp ha
  obtain ⟨hj, rfl⟩ := List.getElem?_eq_some_iff.mp hb
  exact List.pairwise_iff_getElem.mp hl i j hi hj hij

/-- Nothing from the cut on has a larger key. -/
theorem filter_above (hl : Falling key l) (hc : l[k]? = some c) :
    l.filter (fun a => key c < key a) = (l.take k).filter fun a => key c < key a := by
  have hdrop : (l.drop k).filter (fun a => key c < key a) = [] := by
    rw [List.filter_eq_nil_iff]
    intro a ha
    obtain ⟨i, hi⟩ := List.mem_iff_getElem?.mp ha
    rw [List.getElem?_drop] at hi
    rw [decide_eq_true_iff, not_lt]
    rcases Nat.eq_zero_or_pos i with rfl | hpos
    · rw [Nat.add_zero, hc] at hi
      cases hi
      exact le_refl _
    · exact hl.le_of_lt hc hi (by omega)
  calc l.filter (fun a => key c < key a)
      = (l.take k ++ l.drop k).filter (fun a => key c < key a) := by rw [List.take_append_drop]
    _ = (l.take k).filter (fun a => key c < key a) := by
      rw [List.filter_append, hdrop, List.append_nil]

theorem length_filter_above_le (hl : Falling key l) (hc : l[k]? = some c) :
    (l.filter fun a => key c < key a).length ≤ k := by
  rw [filter_above hl hc]
  exact (List.length_filter_le _ _).trans (List.length_take_le k l)

/-- All of the first `k` items stay exactly when the key drops at the cut. -/
theorem length_filter_above_iff (hl : Falling key l) (hc : l[k]? = some c) (hk : 0 < k) :
    (l.filter fun a => key c < key a).length = k ↔ Drops key k l := by
  obtain ⟨hlt, -⟩ := List.getElem?_eq_some_iff.mp hc
  have htake : (l.take k).length = k := by rw [List.length_take]; omega
  rw [filter_above hl hc]
  constructor
  · intro hlength a b ha hb
    rw [hc] at hb
    cases hb
    have hall := List.length_filter_eq_length_iff.mp (hlength.trans htake.symm)
    refine decide_eq_true_iff.mp (hall a (List.mem_of_getElem? (i := k - 1) ?_))
    rw [List.getElem?_take, if_pos (by omega), ha]
  · intro hdrops
    have hall : ∀ a ∈ l.take k, decide (key c < key a) = true := by
      intro a ha
      obtain ⟨i, hi⟩ := List.mem_iff_getElem?.mp ha
      rw [List.getElem?_take] at hi
      split at hi
      next hik =>
        have hlast : l[k - 1]? = some l[k - 1] := List.getElem?_eq_getElem (by omega)
        have hcut : key c < key l[k - 1] := hdrops _ _ hlast hc
        rw [decide_eq_true_iff]
        rcases Nat.lt_or_ge i (k - 1) with hbefore | hat
        · exact hcut.trans_le (hl.le_of_lt hi hlast hbefore)
        · obtain rfl : i = k - 1 := by omega
          rw [hlast] at hi
          cases hi
          exact hcut
      next => cases hi
    rw [List.length_filter_eq_length_iff.mpr hall, htake]

end Cutoff
