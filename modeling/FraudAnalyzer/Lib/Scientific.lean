import Mathlib.Algebra.Order.Field.Power
import Mathlib.Data.Rat.Cast.Order
import Mathlib.Order.Compare
import Mathlib.Tactic.Ring
import Mathlib.Tactic.NormNum

/-!
# Numbers in scientific notation

An integer times a power of the base. One number has many notations, which differ by factors of the
base: notations with one exponent compare as their integers, and there is one notation at most whose
integer the base does not divide.
-/

namespace Scientific

/-- `m` times the base to the power `e` -/
def value (b : ℕ) (m e : ℤ) : ℚ := m * (b : ℚ) ^ e

variable {b : ℕ} {m n e f : ℤ}

theorem pow_pos (hb : 1 < b) (e : ℤ) : (0 : ℚ) < (b : ℚ) ^ e := by
  have hpos : (0 : ℚ) < b := by exact_mod_cast Nat.lt_of_succ_lt hb
  exact zpow_pos hpos e

/-- Factors of the base move into the exponent. -/
theorem value_mul_pow (hb : 1 < b) (m e : ℤ) (k : ℕ) :
    value b (m * (b : ℤ) ^ k) e = value b m (e + k) := by
  have hne : (b : ℚ) ≠ 0 := by exact_mod_cast Nat.ne_of_gt (Nat.lt_of_succ_lt hb)
  unfold value
  rw [zpow_add₀ hne]
  push_cast
  rw [zpow_natCast]
  ring

@[simp] theorem value_zero (b : ℕ) (e : ℤ) : value b 0 e = 0 := by
  simp [value]

theorem value_eq_zero_iff (hb : 1 < b) : value b m e = 0 ↔ m = 0 := by
  have hne := (pow_pos hb e).ne'
  simp [value, hne]

theorem value_lt_value (hb : 1 < b) (e : ℤ) (h : m < n) : value b m e < value b n e := by
  have hcast : (m : ℚ) < n := by exact_mod_cast h
  exact mul_lt_mul_of_pos_right hcast (pow_pos hb e)

/-- Notations with one exponent. -/
theorem compare_value (hb : 1 < b) (m n e : ℤ) :
    compare (value b m e) (value b n e) = compare m n := by
  have hmono : StrictMono fun m => value b m e := fun _ _ h => value_lt_value hb e h
  rw [← cmp_eq_compare, ← cmp_eq_compare]
  exact hmono.cmp_map_eq m n

theorem value_inj (hb : 1 < b) : value b m e = value b n e ↔ m = n := by
  constructor
  · intro h
    by_contra hne
    rcases lt_or_gt_of_ne hne with hlt | hgt
    · exact (value_lt_value hb e hlt).ne h
    · exact (value_lt_value hb e hgt).ne' h
  · rintro rfl
    rfl

/-- Of two notations that the base does not divide, neither has the smaller exponent. -/
theorem exp_le_of_value_eq (hb : 1 < b) (hm : ¬ (b : ℤ) ∣ m) (h : value b m e = value b n f) :
    f ≤ e := by
  by_contra hlt
  obtain ⟨k, hk⟩ : ∃ k : ℕ, f = e + (k + 1 : ℕ) := ⟨(f - e - 1).toNat, by omega⟩
  rw [hk, ← value_mul_pow hb, value_inj hb] at h
  exact hm (h ▸ Dvd.dvd.mul_left (dvd_pow_self _ (Nat.succ_ne_zero k)) n)

/-- **The notation that the base does not divide** is determined by the number. -/
theorem eq_of_value_eq (hb : 1 < b) (hm : ¬ (b : ℤ) ∣ m) (hn : ¬ (b : ℤ) ∣ n)
    (h : value b m e = value b n f) : m = n ∧ e = f := by
  have hexp : e = f :=
    Int.le_antisymm (exp_le_of_value_eq hb hn h.symm) (exp_le_of_value_eq hb hm h)
  subst hexp
  exact ⟨(value_inj hb).mp h, rfl⟩

end Scientific
