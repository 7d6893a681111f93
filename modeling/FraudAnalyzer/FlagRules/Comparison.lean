import FraudAnalyzer.FlagRules.Engine
import FraudAnalyzer.Lists.Keys

/-!
# The comparison operators

Ordering and equality are two functions, and `between` is a third. The laws that connect them: one
operator is the negation of another, equality is the two weak orders together, and between numbers
each operator is exact, whatever their spelling.

A boolean cell is on no scale. `between` keeps to that for numbers only: texts it compares with the
word the boolean is written as.
-/

namespace FraudAnalyzer.FlagRules

open Python FraudAnalyzer.Lists Policy

/-- The condition with another operator and value. -/
def holds (u : Unicode) (c : ConditionSpec) (operator : FlagOperator) (value : Option String)
    (cell : Cell) : Bool :=
  evaluateCondition u { c with operator := operator, value := value } cell

/-- The condition that the cell is between two bounds. -/
def between (u : Unicode) (c : ConditionSpec) (value value2 : Option String) (cell : Cell) : Bool :=
  evaluateCondition u { c with operator := .between, value := value, value2 := value2 } cell

/-- The cell is there, and no boolean. -/
def OnScale (cell : Cell) : Prop := cell ≠ .none ∧ ∀ b, cell ≠ .bool b

/-! ## Ordering and equality -/

section Operators

variable {u : Unicode} {c : ConditionSpec} {cell : Cell} {value : Option String}
  {operator : FlagOperator}

theorem compareText_eq_lt {a b : String} : compareText a b = .lt ↔ a < b :=
  compareOfLessAndEq_eq_lt

theorem compareText_eq_eq {a b : String} : compareText a b = .eq ↔ a = b :=
  compareOfLessAndEq_eq_eq String.le_refl String.not_le

theorem compareText_eq_gt {a b : String} : compareText a b = .gt ↔ b < a :=
  compareOfLessAndEq_eq_gt String.le_antisymm String.le_total String.not_le a b

/-- The comparison of a cell with a value. -/
def comparison (u : Unicode) (cell : Cell) (value : Option String) : Ordering :=
  match asNumber u cell, asNumber u (.ofOption value) with
  | some left, some right => left.compareTo right
  | _, _ => compareText (asText u cell) (asText u (.ofOption value))

theorem compareOrdered_eq (hcell : OnScale cell) :
    compareOrdered u cell value operator = ordered operator (comparison u cell value) := by
  cases cell with
  | bool b => exact absurd rfl (hcell.2 b)
  | _ => rfl

theorem holds_ordered (hcell : OnScale cell)
    (hop : operator = .gt ∨ operator = .gte ∨ operator = .lt ∨ operator = .lte) :
    holds u c operator value cell = ordered operator (comparison u cell value) := by
  rw [← compareOrdered_eq hcell]
  unfold holds evaluateCondition
  rcases hop with rfl | rfl | rfl | rfl
  all_goals
    cases cell with
    | none => exact absurd rfl hcell.1
    | _ => rfl

/-- A cell or a value that is no number is compared as a text. -/
theorem comparison_texts
    (h : ¬ ((asNumber u cell).isSome = true ∧ (asNumber u (.ofOption value)).isSome = true)) :
    comparison u cell value = compareText (asText u cell) (asText u (.ofOption value)) := by
  unfold comparison
  split
  next left right hleft hright =>
    exact absurd ⟨Option.isSome_of_eq_some hleft, Option.isSome_of_eq_some hright⟩ h
  · rfl

theorem comparison_eq_iff_text {s : String}
    (h : ¬ ((asNumber u cell).isSome = true ∧ (asNumber u (.str s)).isSome = true)) :
    comparison u cell (some s) = .eq ↔ asText u cell = s := by
  have hvalue : ¬ ((asNumber u cell).isSome = true ∧
      (asNumber u (.ofOption (some s))).isSome = true) := h
  rw [comparison_texts hvalue, compareText_eq_eq]
  rfl

/-- Equality, unless cell and value are both boolean words. -/
theorem equals_eq_comparison (hcell : OnScale cell)
    (hwords : (isBoolWord u cell && isBoolWord u (.ofOption value)) = false) :
    equals u cell value = (comparison u cell value == .eq) := by
  have hnotBool : equals u cell value =
      match asNumber u cell, asNumber u (.ofOption value) with
      | some left, some right => left.compareTo right == .eq
      | _, _ => asText u cell == asText u (.ofOption value) := by
    unfold equals
    cases cell with
    | bool b => exact absurd rfl (hcell.2 b)
    | _ => exact if_neg (Bool.eq_false_iff.mp hwords)
  rw [hnotBool, comparison]
  split
  · rfl
  · rw [Bool.eq_iff_iff, beq_iff_eq, beq_iff_eq, compareText_eq_eq]

theorem holds_eq (hcell : OnScale cell)
    (hwords : (isBoolWord u cell && isBoolWord u (.ofOption value)) = false) :
    holds u c .eq value cell = (comparison u cell value == .eq) := by
  obtain ⟨hnone, hbool⟩ := hcell
  rw [← equals_eq_comparison ⟨hnone, hbool⟩ hwords]
  unfold holds evaluateCondition
  cases cell with
  | none => exact absurd rfl hnone
  | _ => rfl

theorem holds_neq (hcell : OnScale cell) :
    holds u c .neq value cell = !holds u c .eq value cell := by
  obtain ⟨hnone, -⟩ := hcell
  unfold holds evaluateCondition
  cases cell with
  | none => exact absurd rfl hnone
  | _ => rfl

theorem ordered_gt (o : Ordering) : ordered .gt o = !ordered .lte o := by
  cases o <;> rfl

theorem ordered_lt (o : Ordering) : ordered .lt o = !ordered .gte o := by
  cases o <;> rfl

theorem ordered_and (o : Ordering) : (o == .eq) = (ordered .gte o && ordered .lte o) := by
  cases o <;> rfl

/-- A number is on the scale. -/
theorem onScale_of_isNumber {q : ℚ} (h : IsNumber u cell q) : OnScale cell := by
  obtain ⟨d, hd, -⟩ := h
  constructor
  · rintro rfl
    cases hd
  · rintro b rfl
    cases hd

theorem comparison_of_isNumber {q r : ℚ} (hcell : IsNumber u cell q)
    (hvalue : IsNumber u (.ofOption value) r) : comparison u cell value = compare q r := by
  obtain ⟨d, hd, rfl⟩ := hcell
  obtain ⟨e, he, rfl⟩ := hvalue
  rw [comparison, hd, he]
  exact d.compareTo_eq e

end Operators

/-! ## The laws -/

/-- Exact comparison by an operator. -/
def Compares (operator : FlagOperator) (q r : ℚ) : Prop :=
  match operator with
  | .gt => r < q
  | .gte => r ≤ q
  | .lt => q < r
  | .lte => q ≤ r
  | .eq => q = r
  | .neq => q ≠ r
  | _ => False

/-- The six operators. -/
def comparisons : List FlagOperator := [.gt, .gte, .lt, .lte, .eq, .neq]

/-- **The laws of the comparison operators**, for one cell. -/
structure Laws (u : Unicode) (c : ConditionSpec) (cell : Cell) : Prop where
  gt : ∀ value, holds u c .gt value cell = !holds u c .lte value cell
  lt : ∀ value, holds u c .lt value cell = !holds u c .gte value cell
  neq : ∀ value, holds u c .neq value cell = !holds u c .eq value cell
  eq : ∀ value, (isBoolWord u cell && isBoolWord u (.ofOption value)) = false →
    holds u c .eq value cell = (holds u c .gte value cell && holds u c .lte value cell)
  exact : ∀ value q r, IsNumber u cell q → IsNumber u (.ofOption value) r →
    ∀ operator ∈ comparisons, holds u c operator value cell = true ↔ Compares operator q r
  respelled : ∀ value q r, IsNumber u cell q → IsNumber u (.ofOption value) r →
    ∀ cell' value', IsNumber u cell' q → IsNumber u (.ofOption value') r →
      ∀ operator ∈ comparisons, holds u c operator value' cell' = holds u c operator value cell

theorem holds_iff_compares {u : Unicode} (hu : u.Lawful) {c : ConditionSpec} {cell : Cell}
    {value : Option String} {q r : ℚ} (hcell : IsNumber u cell q)
    (hvalue : IsNumber u (.ofOption value) r) {operator : FlagOperator}
    (hop : operator ∈ comparisons) :
    holds u c operator value cell = true ↔ Compares operator q r := by
  have hscale := onScale_of_isNumber hcell
  have hcomparison := comparison_of_isNumber hcell hvalue
  have hwords : (isBoolWord u cell && isBoolWord u (.ofOption value)) = false := by
    obtain ⟨d, hd, -⟩ := hcell
    rw [isBoolWord_of_asNumber hu hd]
    rfl
  simp only [comparisons, List.mem_cons, List.not_mem_nil, or_false] at hop
  rcases hop with rfl | rfl | rfl | rfl | rfl | rfl
  · rw [holds_ordered hscale (.inl rfl), hcomparison]
    simp [ordered, Compares, compare_gt_iff_gt]
  · rw [holds_ordered hscale (.inr (.inl rfl)), hcomparison]
    simp [ordered, Compares, compare_lt_iff_lt]
  · rw [holds_ordered hscale (.inr (.inr (.inl rfl))), hcomparison]
    simp [ordered, Compares, compare_lt_iff_lt]
  · rw [holds_ordered hscale (.inr (.inr (.inr rfl))), hcomparison]
    simp [ordered, Compares, compare_gt_iff_gt]
  · rw [holds_eq hscale hwords, hcomparison]
    simp [Compares]
  · rw [holds_neq hscale, holds_eq hscale hwords, hcomparison]
    simp [Compares]

/-- **The laws hold** for every cell that is there and no boolean. -/
theorem laws_of_onScale {u : Unicode} (hu : u.Lawful) (c : ConditionSpec) {cell : Cell}
    (hcell : OnScale cell) : Laws u c cell where
  gt value := by
    rw [holds_ordered hcell (.inl rfl), holds_ordered hcell (.inr (.inr (.inr rfl))), ordered_gt]
  lt value := by
    rw [holds_ordered hcell (.inr (.inr (.inl rfl))), holds_ordered hcell (.inr (.inl rfl)),
      ordered_lt]
  neq value := holds_neq hcell
  eq value hwords := by
    rw [holds_eq hcell hwords, holds_ordered hcell (.inr (.inl rfl)),
      holds_ordered hcell (.inr (.inr (.inr rfl))), ordered_and]
  exact value q r hq hr operator hop := holds_iff_compares hu hq hr hop
  respelled value q r hq hr cell' value' hq' hr' operator hop := by
    rw [Bool.eq_iff_iff, holds_iff_compares hu hq hr hop, holds_iff_compares hu hq' hr' hop]

namespace Sample

/-- A condition, whatever it asks. -/
def any : ConditionSpec := ⟨"amount", .eq, none, none, none⟩

end Sample

theorem laws_of_onScale_number :
    holds .ascii Sample.any .eq (some "500") (.str " 5.00e2") = true ∧
      Laws .ascii Sample.any (.str " 5.00e2") :=
  ⟨by decide, laws_of_onScale lawful_ascii Sample.any ⟨nofun, fun _ => nofun⟩⟩

/-! ## Between two bounds -/

/-- A bound is a number. -/
def IsNumeric (u : Unicode) (value : Option String) : Prop :=
  (asNumber u (.ofOption value)).isSome = true

/-- The bounds are both numbers, and the cell is a number or a boolean; or neither bound is one. -/
def Comparable (u : Unicode) (cell : Cell) (value value2 : Option String) : Prop :=
  (IsNumeric u value ∧ IsNumeric u value2 ∧
      ((asNumber u cell).isSome = true ∨ ∃ b, cell = .bool b)) ∨
    (¬ IsNumeric u value ∧ ¬ IsNumeric u value2)

/-- The order of two bounds, both of which are numbers, or neither. -/
def BoundLE (u : Unicode) (low high : Option String) : Prop :=
  match asNumber u (.ofOption low), asNumber u (.ofOption high) with
  | some a, some b => a.value ≤ b.value
  | _, _ => asText u (.ofOption low) ≤ asText u (.ofOption high)

/-- **`between` agrees with the ordering operators**, for one cell and two bounds. -/
structure BetweenAgrees (u : Unicode) (c : ConditionSpec) (cell : Cell)
    (value value2 : Option String) : Prop where
  swap : Comparable u cell value value2 →
    between u c value value2 cell = between u c value2 value cell
  ordered : Comparable u cell value value2 → BoundLE u value value2 →
    between u c value value2 cell = (holds u c .gte value cell && holds u c .lte value2 cell)
  ordered' : Comparable u cell value value2 → BoundLE u value2 value →
    between u c value value2 cell = (holds u c .gte value2 cell && holds u c .lte value cell)
  boolean : (∃ b, cell = .bool b) → between u c value value2 cell = false ∧
    ∀ operator, operator = .gt ∨ operator = .gte ∨ operator = .lt ∨ operator = .lte →
      ∀ bound, holds u c operator bound cell = false

/-- The text is between two others, in either order. -/
def TextBetween (text bound bound2 : String) : Prop :=
  min bound bound2 ≤ text ∧ text ≤ max bound bound2

section Between

variable {u : Unicode} {c : ConditionSpec} {cell : Cell} {value value2 : Option String}

theorem between_eq (hcell : cell ≠ .none) :
    between u c value value2 cell = isBetween u cell value value2 := by
  unfold between evaluateCondition
  cases cell with
  | none => exact absurd rfl hcell
  | _ => rfl

/-- Between two numbers. -/
theorem isBetween_numbers {a b : Decimal} (ha : asNumber u (.ofOption value) = some a)
    (hb : asNumber u (.ofOption value2) = some b) :
    isBetween u cell value value2 = true ↔ ∃ n, asNumber u cell = some n ∧
      min a.value b.value ≤ n.value ∧ n.value ≤ max a.value b.value := by
  have hsmaller : (if b.compareTo a == .lt then b else a).value = min a.value b.value := by
    rw [Decimal.compareTo_eq, apply_ite Decimal.value, min_comm, min_def_lt]
    simp only [beq_iff_eq, compare_lt_iff_lt]
  have hlarger : (if b.compareTo a == .gt then b else a).value = max a.value b.value := by
    rw [Decimal.compareTo_eq, apply_ite Decimal.value, max_def_lt]
    simp only [beq_iff_eq, compare_gt_iff_gt]
  unfold isBetween
  rw [ha, hb]
  cases hcell : asNumber u cell with
  | none => simp
  | some n =>
    simp only [Decimal.compareTo_eq n, hsmaller, hlarger, Bool.and_eq_true, bne_iff_ne, ne_eq,
      compare_lt_iff_lt, compare_gt_iff_gt, not_lt, Option.some.injEq, exists_eq_left']

/-- Between two texts. -/
theorem isBetween_texts (h : ¬ (IsNumeric u value ∧ IsNumeric u value2)) :
    isBetween u cell value value2 = true ↔
      TextBetween (asText u cell) (asText u (.ofOption value)) (asText u (.ofOption value2)) := by
  have hsmaller : ∀ low high : String,
      (if compareText high low == .lt then high else low) = min low high := by
    intro low high
    rw [min_comm, min_def_lt]
    simp only [beq_iff_eq, compareText_eq_lt]
  have hlarger : ∀ low high : String,
      (if compareText high low == .lt then low else high) = max low high := by
    intro low high
    rw [max_comm, max_def_lt]
    simp only [beq_iff_eq, compareText_eq_lt]
  unfold isBetween TextBetween
  split
  next a b ha hb => exact absurd ⟨Option.isSome_of_eq_some ha, Option.isSome_of_eq_some hb⟩ h
  · simp only [hsmaller, hlarger, Bool.and_eq_true, bne_iff_ne, ne_eq, compareText_eq_lt,
      compareText_eq_gt, not_lt]

theorem textBetween_comm {text bound bound2 : String} :
    TextBetween text bound bound2 ↔ TextBetween text bound2 bound := by
  unfold TextBetween
  rw [min_comm, max_comm]

theorem isBetween_swap (h : IsNumeric u value ∧ IsNumeric u value2 ∨
      ¬ IsNumeric u value ∧ ¬ IsNumeric u value2) :
    isBetween u cell value value2 = isBetween u cell value2 value := by
  rw [Bool.eq_iff_iff]
  rcases h with ⟨hvalue, hvalue2⟩ | ⟨hvalue, hvalue2⟩
  · obtain ⟨a, ha⟩ := Option.isSome_iff_exists.mp hvalue
    obtain ⟨b, hb⟩ := Option.isSome_iff_exists.mp hvalue2
    rw [isBetween_numbers ha hb, isBetween_numbers hb ha, min_comm, max_comm]
  · rw [isBetween_texts fun h => hvalue h.1, isBetween_texts fun h => hvalue2 h.1,
      textBetween_comm]

/-- The cell satisfies `gte` against the smaller bound, and `lte` against the larger one. -/
theorem isBetween_ordered (hcell : OnScale cell) (hcomparable : Comparable u cell value value2)
    (hle : BoundLE u value value2) :
    isBetween u cell value value2 = (holds u c .gte value cell && holds u c .lte value2 cell) := by
  rw [holds_ordered hcell (.inr (.inl rfl)), holds_ordered hcell (.inr (.inr (.inr rfl))),
    Bool.eq_iff_iff, Bool.and_eq_true]
  rcases hcomparable with ⟨hvalue, hvalue2, hnumber⟩ | ⟨hvalue, hvalue2⟩
  · obtain ⟨a, ha⟩ := Option.isSome_iff_exists.mp hvalue
    obtain ⟨b, hb⟩ := Option.isSome_iff_exists.mp hvalue2
    rcases hnumber with hnumber | ⟨x, hx⟩
    · obtain ⟨n, hn⟩ := Option.isSome_iff_exists.mp hnumber
      have hab : a.value ≤ b.value := by
        unfold BoundLE at hle
        rwa [ha, hb] at hle
      have hgte : ordered .gte (comparison u cell value) = true ↔ a.value ≤ n.value := by
        rw [comparison_of_isNumber ⟨n, hn, rfl⟩ ⟨a, ha, rfl⟩]
        simp [ordered, compare_lt_iff_lt]
      have hlte : ordered .lte (comparison u cell value2) = true ↔ n.value ≤ b.value := by
        rw [comparison_of_isNumber ⟨n, hn, rfl⟩ ⟨b, hb, rfl⟩]
        simp [ordered, compare_gt_iff_gt]
      rw [isBetween_numbers ha hb, hgte, hlte, min_eq_left hab, max_eq_right hab, hn]
      simp
    · exact absurd hx (hcell.2 x)
  · -- a bound that is no number is compared as a text, whatever the cell
    have hnone : asNumber u (.ofOption value) = none := by simpa [IsNumeric] using hvalue
    have hle' : asText u (.ofOption value) ≤ asText u (.ofOption value2) := by
      unfold BoundLE at hle
      rwa [hnone] at hle
    rw [isBetween_texts fun h => hvalue h.1, comparison_texts fun h => hvalue h.2,
      comparison_texts fun h => hvalue2 h.2, TextBetween, min_eq_left hle', max_eq_right hle']
    simp only [ordered, bne_iff_ne, ne_eq, compareText_eq_lt, compareText_eq_gt, not_lt]

theorem holds_bool {b : Bool} {operator : FlagOperator}
    (hop : operator = .gt ∨ operator = .gte ∨ operator = .lt ∨ operator = .lte) :
    holds u c operator value (.bool b) = false := by
  rcases hop with rfl | rfl | rfl | rfl
  all_goals rfl

/-- A boolean is between two texts when its word is. -/
theorem isBetween_bool {b : Bool} : isBetween u (.bool b) value value2 = true ↔
    ¬ (IsNumeric u value ∧ IsNumeric u value2) ∧
      TextBetween (asText u (.bool b)) (asText u (.ofOption value))
        (asText u (.ofOption value2)) := by
  by_cases h : IsNumeric u value ∧ IsNumeric u value2
  · obtain ⟨a, ha⟩ := Option.isSome_iff_exists.mp h.1
    obtain ⟨d, hd⟩ := Option.isSome_iff_exists.mp h.2
    rw [isBetween_numbers ha hd]
    simp [h, asNumber]
  · rw [isBetween_texts h]
    simp [h]

/-- **`between` agrees with the ordering operators** exactly when the cell is no boolean, or both
bounds are numbers, or the word of the boolean is not between the bounds. -/
theorem betweenAgrees_iff (c : ConditionSpec) (hcell : cell ≠ .none)
    (value value2 : Option String) : BetweenAgrees u c cell value value2 ↔
      ∀ b, cell = .bool b → (IsNumeric u value ∧ IsNumeric u value2) ∨
        ¬ TextBetween (asText u cell) (asText u (.ofOption value))
          (asText u (.ofOption value2)) := by
  constructor
  · rintro h b rfl
    have hfalse := (h.boolean ⟨b, rfl⟩).1
    rw [between_eq hcell, ← Bool.not_eq_true, isBetween_bool, not_and_or, not_not] at hfalse
    exact hfalse
  · intro h
    have hswap : Comparable u cell value value2 →
        isBetween u cell value value2 = isBetween u cell value2 value := by
      rintro (⟨hvalue, hvalue2, -⟩ | hneither)
      · exact isBetween_swap (.inl ⟨hvalue, hvalue2⟩)
      · exact isBetween_swap (.inr hneither)
    have hboolean : ∀ b, cell = .bool b → isBetween u cell value value2 = false := by
      rintro b rfl
      rw [← Bool.not_eq_true, isBetween_bool, not_and_or, not_not]
      exact h b rfl
    have hordered : ∀ low high, Comparable u cell low high → BoundLE u low high →
        (∀ b, cell = .bool b → isBetween u cell low high = false) →
          isBetween u cell low high = (holds u c .gte low cell && holds u c .lte high cell) := by
      intro low high hcomparable hle hfalse
      by_cases hbool : ∃ b, cell = .bool b
      · obtain ⟨b, rfl⟩ := hbool
        rw [hfalse b rfl, holds_bool (.inr (.inl rfl)), Bool.false_and]
      · exact isBetween_ordered ⟨hcell, not_exists.mp hbool⟩ hcomparable hle
    constructor
    case swap =>
      intro hcomparable
      rw [between_eq hcell, between_eq hcell, hswap hcomparable]
    case ordered =>
      intro hcomparable hle
      rw [between_eq hcell, hordered value value2 hcomparable hle hboolean]
    case ordered' =>
      intro hcomparable hle
      rw [between_eq hcell, hswap hcomparable]
      refine hordered value2 value ?_ hle fun b hb => ?_
      · rcases hcomparable with ⟨hvalue, hvalue2, hnumber⟩ | ⟨hvalue, hvalue2⟩
        · exact .inl ⟨hvalue2, hvalue, hnumber⟩
        · exact .inr ⟨hvalue2, hvalue⟩
      · rw [← hswap hcomparable, hboolean b hb]
    case boolean =>
      rintro ⟨b, rfl⟩
      refine ⟨(between_eq hcell).trans (hboolean b rfl), ?_⟩
      intro operator hop bound
      exact holds_bool hop

end Between

/-- A true cell is between two texts that enclose the word. -/
theorem true_between_texts :
    ¬ BetweenAgrees .ascii Sample.any (.bool true) (some "a") (some "z") := by
  intro h
  exact absurd (h.boolean ⟨true, rfl⟩).1 (by decide)

theorem betweenAgrees_iff_text :
    BetweenAgrees .ascii Sample.any (.str "m") (some "z") (some "a") := by
  have hcell : Cell.str "m" ≠ .none := nofun
  exact (betweenAgrees_iff Sample.any hcell (some "z") (some "a")).mpr fun b => nofun

end FraudAnalyzer.FlagRules
