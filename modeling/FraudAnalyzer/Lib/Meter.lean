import Mathlib.Data.List.Basic

/-!
# A meter that may be restarted

A budget of `limit` is spent one unit at a time, and what was spent is counted by a meter that may
be set to zero again. A spending is granted while the meter is within the limit. No more than the
budget is granted exactly when no more is asked for, or when the meter is not restarted between two
spendings (`count_grants_le_iff`); and then which ones are granted depends on their number only
(`grants_eq_plain`).
-/

namespace Meter

inductive Event where
  | spend
  | restart
  | idle
  deriving DecidableEq

/-- What the meter shows afterwards. -/
def reading (held : Nat) : List Event → Nat
  | [] => held
  | .spend :: es => reading (held + 1) es
  | .restart :: es => reading 0 es
  | .idle :: es => reading held es

/-- Which spendings are granted, in order. -/
def grants (limit held : Nat) : List Event → List Bool
  | [] => []
  | .spend :: es => decide (held + 1 ≤ limit) :: grants limit (held + 1) es
  | .restart :: es => grants limit 0 es
  | .idle :: es => grants limit held es

/-- The number of spendings. -/
def spends (es : List Event) : Nat := es.count .spend

/-- The meter is restarted between two spendings. -/
def Cut (es : List Event) : Prop :=
  ∃ before after, es = before ++ .restart :: after ∧ .spend ∈ before ∧ .spend ∈ after

/-- The grants of spendings that are counted without a restart. -/
def plain (limit held : Nat) : Nat → List Bool
  | 0 => []
  | n + 1 => decide (held + 1 ≤ limit) :: plain limit (held + 1) n

section Meter

variable {limit held n : Nat} {es before after : List Event} {e : Event}

@[simp] theorem spends_nil : spends [] = 0 := rfl

@[simp] theorem spends_spend : spends (.spend :: es) = spends es + 1 := by simp [spends]

@[simp] theorem spends_restart : spends (.restart :: es) = spends es := by simp [spends]

@[simp] theorem spends_idle : spends (.idle :: es) = spends es := by simp [spends]

theorem spends_append : spends (before ++ after) = spends before + spends after :=
  List.count_append

theorem spends_pos : 0 < spends es ↔ .spend ∈ es := List.count_pos_iff

theorem grants_append (limit held : Nat) (before after : List Event) :
    grants limit held (before ++ after) =
      grants limit held before ++ grants limit (reading held before) after := by
  induction before generalizing held with
  | nil => rfl
  | cons e before ih =>
    cases e with
    | spend => exact congrArg _ (ih (held + 1))
    | restart => exact ih 0
    | idle => exact ih held

theorem length_grants (limit held : Nat) (es : List Event) :
    (grants limit held es).length = spends es := by
  induction es generalizing held with
  | nil => rfl
  | cons e es ih =>
    cases e with
    | spend => simp [grants, ih]
    | restart => simp [grants, ih]
    | idle => simp [grants, ih]

/-- What is left of the budget is granted at least. -/
theorem le_count_grants (limit held : Nat) (es : List Event) :
    min (spends es) (limit - held) ≤ (grants limit held es).count true := by
  induction es generalizing held with
  | nil => simp
  | cons e es ih =>
    cases e with
    | spend =>
      have hrest := ih (held + 1)
      rw [grants, spends_spend, List.count_cons]
      by_cases hfree : held + 1 ≤ limit
      · simp only [hfree, decide_true, beq_self_eq_true, if_true]
        omega
      · omega
    | restart =>
      have hrest := ih 0
      rw [grants, spends_restart]
      omega
    | idle =>
      rw [grants, spends_idle]
      exact ih held

/-! ## Without a restart -/

theorem plain_succ (limit held n : Nat) :
    plain limit held (n + 1) = decide (held + 1 ≤ limit) :: plain limit (held + 1) n := rfl

theorem count_plain (limit held n : Nat) :
    (plain limit held n).count true = min n (limit - held) := by
  induction n generalizing held with
  | zero => simp [plain]
  | succ n ih =>
    rw [plain_succ, List.count_cons, ih]
    by_cases hfree : held + 1 ≤ limit
    · simp only [hfree, decide_true, beq_self_eq_true, if_true]
      omega
    · simp only [hfree, decide_false]
      simp
      omega

/-- No spending follows a restart. -/
theorem grants_of_no_later (h : ∀ before after, es = before ++ .restart :: after → .spend ∉ after) :
    grants limit held es = plain limit held (spends es) := by
  induction es generalizing held with
  | nil => rfl
  | cons e es ih =>
    have hrest : ∀ before after, es = before ++ .restart :: after → .spend ∉ after :=
      fun before after heq => h (e :: before) after (congrArg (e :: ·) heq)
    cases e with
    | spend =>
      rw [grants, spends_spend, plain_succ, ih hrest]
    | restart =>
      -- nothing is spent any more
      have hnone : spends es = 0 := by
        have hnot : .spend ∉ es := h [] es rfl
        rw [← spends_pos] at hnot
        omega
      have hnil : grants limit 0 es = [] := by
        rw [← List.length_eq_zero_iff, length_grants, hnone]
      rw [grants, spends_restart, hnil, hnone, plain]
    | idle => rw [grants, spends_idle, ih hrest]

theorem Cut.cons (h : Cut es) : Cut (e :: es) := by
  obtain ⟨before, after, rfl, hbefore, hafter⟩ := h
  exact ⟨e :: before, after, rfl, List.mem_cons_of_mem _ hbefore, hafter⟩

theorem grants_of_not_cut (h : ¬Cut es) : grants limit 0 es = plain limit 0 (spends es) := by
  induction es with
  | nil => rfl
  | cons e es ih =>
    have hrest := ih (mt Cut.cons h)
    cases e with
    | spend =>
      rw [grants, spends_spend, plain_succ, grants_of_no_later]
      rintro before after rfl hafter
      exact h ⟨.spend :: before, after, rfl, List.mem_cons_self, hafter⟩
    | restart => rw [grants, spends_restart, hrest]
    | idle => rw [grants, spends_idle, hrest]

/-- Within the budget all is granted. -/
theorem grants_of_le (h : held + spends es ≤ limit) :
    grants limit held es = List.replicate (spends es) true := by
  induction es generalizing held with
  | nil => rfl
  | cons e es ih =>
    cases e with
    | spend =>
      rw [spends_spend] at h
      have hfree : held + 1 ≤ limit := by omega
      rw [grants, spends_spend, List.replicate_succ, decide_eq_true hfree, ih (by omega)]
    | restart =>
      rw [spends_restart] at h
      rw [grants, spends_restart, ih (by omega)]
    | idle => rw [grants, spends_idle, ih h]

theorem plain_of_le (h : held + n ≤ limit) : plain limit held n = List.replicate n true := by
  induction n generalizing held with
  | zero => rfl
  | succ n ih =>
    have hfree : held + 1 ≤ limit := by omega
    rw [plain_succ, List.replicate_succ, decide_eq_true hfree, ih (by omega)]

/-- **Which spendings are granted** depends on their number only. -/
theorem grants_eq_plain (h : limit < spends es → ¬Cut es) :
    grants limit 0 es = plain limit 0 (spends es) := by
  by_cases hover : limit < spends es
  · exact grants_of_not_cut (h hover)
  · have hwithin : 0 + spends es ≤ limit := by omega
    rw [grants_of_le hwithin, plain_of_le hwithin]

/-! ## With one -/

/-- A restart grants more than the budget. -/
theorem lt_count_grants (hlimit : 0 < limit) (hover : limit < spends es) (hcut : Cut es) :
    limit < (grants limit 0 es).count true := by
  obtain ⟨before, after, rfl, hbefore, hafter⟩ := hcut
  have hfirst := le_count_grants limit 0 before
  have hsecond := le_count_grants limit 0 after
  rw [spends_append, spends_restart] at hover
  rw [← spends_pos] at hbefore hafter
  rw [grants_append, grants, List.count_append]
  omega

/-- **No more than the budget is granted** exactly when no more is asked for or the meter is not
restarted in between. -/
theorem count_grants_le_iff (hlimit : 0 < limit) :
    (grants limit 0 es).count true ≤ limit ↔ (limit < spends es → ¬Cut es) := by
  constructor
  · intro hle hover hcut
    have hlt := lt_count_grants hlimit hover hcut
    omega
  · intro h
    rw [grants_eq_plain h, count_plain]
    omega

end Meter

end Meter
