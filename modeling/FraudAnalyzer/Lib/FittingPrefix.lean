import Mathlib.Algebra.BigOperators.Group.List.Basic
import Mathlib.Algebra.GroupWithZero.Nat
import Mathlib.Data.List.Basic

/-!
# The longest prefix within a budget

Items are taken in order while their sizes add up to no more than a budget. `fitting` counts them;
`le_fitting_iff` says that it is the greatest such number, and `fitting_take` that a shorter list
does not change which of its items fit.
-/

namespace FittingPrefix

variable {α : Type*} {size : α → Nat} {budget : Int} {xs : List α} {used n k : Nat}

/-- How many items fit beside what is used. -/
def fitting (size : α → Nat) (budget : Int) : List α → Nat → Nat
  | [], _ => 0
  | x :: xs, used =>
    if budget < (used + size x : Nat) then 0 else fitting size budget xs (used + size x) + 1

theorem fitting_le_length (size : α → Nat) (budget : Int) (xs : List α) (used : Nat) :
    fitting size budget xs used ≤ xs.length := by
  induction xs generalizing used with
  | nil => exact Nat.le_refl 0
  | cons x xs ih =>
    rw [fitting]
    split
    · exact Nat.zero_le _
    · exact Nat.succ_le_succ (ih _)

/-- **The longest one.** -/
theorem le_fitting_iff (hused : (used : Int) ≤ budget) :
    n ≤ fitting size budget xs used ↔
      n ≤ xs.length ∧ ((used + ((xs.take n).map size).sum : Nat) : Int) ≤ budget := by
  induction xs generalizing used n with
  | nil =>
    rw [fitting, List.length_nil, List.take_nil, List.map_nil, List.sum_nil]
    exact ⟨fun h => ⟨h, hused⟩, fun h => h.1⟩
  | cons x xs ih =>
    cases n with
    | zero => simpa using hused
    | succ n =>
      rw [fitting, List.take_succ_cons, List.map_cons, List.sum_cons, List.length_cons]
      split
      next hover => omega
      next hfits =>
        rw [Nat.succ_le_succ_iff, ih (Int.not_lt.mp hfits), Nat.succ_le_succ_iff, Nat.add_assoc]

theorem fitting_take (size : α → Nat) (budget : Int) (xs : List α) (used k : Nat) :
    fitting size budget (xs.take k) used = min k (fitting size budget xs used) := by
  induction xs generalizing used k with
  | nil => simp [fitting]
  | cons x xs ih =>
    cases k with
    | zero => simp [fitting]
    | succ k =>
      rw [List.take_succ_cons, fitting, fitting]
      split
      · simp
      · rw [ih]
        omega

end FittingPrefix
