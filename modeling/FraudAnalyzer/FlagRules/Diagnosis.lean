import FraudAnalyzer.FlagRules.Comparison
import FraudAnalyzer.FlagRules.Evaluation

/-!
# Whether a comparison can never match

A rule that matched nothing is told of a condition that compares with true or false, on a column
which holds neither. The value may be a digit, though, and a number of the column can be equal to
it; and what is no boolean differs from the value, as `neq` asks. Where the rule has failed on
another condition, the diagnosis can be wrong.
-/

namespace FraudAnalyzer.FlagRules

open Python FraudAnalyzer.Lists Policy

/-- The cell and the value are one number. -/
def SameNumber (u : Unicode) (cell : Cell) (value : Option String) : Prop :=
  ∃ q, IsNumber u cell q ∧ IsNumber u (.ofOption value) q

/-- The warning that comparing the column of a condition with its value can never match. -/
def canNeverMatch (u : Unicode) (rule : RuleSpec) (condition : ConditionSpec) : String :=
  "Rule " ++ repr u rule.name ++ " matched no rows." ++
    (" Column " ++ repr u condition.columnName ++ " holds no true/false values, so comparing " ++
      "it to " ++ (Cell.ofOption condition.value).repr u ++ " can never match. Did you mean a " ++
      "different column?")

/-- A rule that matched no row is told so of a condition. -/
structure Diagnosed (u : Unicode) (rules : List RuleSpec) (columns : List String)
    (rows : List (Row columns)) (rule : RuleSpec) (condition : ConditionSpec)
    (position : Fin columns.length) : Prop where
  found : ∃ resolved, (rule, resolved) ∈ usable u columns rules ∧
    resolved.find? (fun c => neverBoolean u rows c.1 c.2) = some (condition, position)
  unmatched : (scanRows u (usable u columns rules) rows 0 fun _ => 0).2 rule.id = 0

/-- **The diagnosis is sound**: no row satisfies a condition that it names. -/
def DiagnosisSound (u : Unicode) (rules : List RuleSpec) (columns : List String)
    (rows : List (Row columns)) : Prop :=
  ∀ rule condition position, Diagnosed u rules columns rows rule condition position →
    ∀ row ∈ rows, evaluateCondition u condition (row.cell position) = false

/-- What makes it sound: no cell is a number equal to the value of an `eq`, and every cell, but for
the empty ones, is a number equal to the value of a `neq`. -/
def NumbersKeptApart (u : Unicode) (rules : List RuleSpec) (columns : List String)
    (rows : List (Row columns)) : Prop :=
  ∀ rule condition position, Diagnosed u rules columns rows rule condition position →
    (condition.operator = .eq → ∀ row ∈ rows, ¬ SameNumber u (row.cell position) condition.value) ∧
    (condition.operator = .neq → ∀ row ∈ rows, row.cell position ≠ .none →
      SameNumber u (row.cell position) condition.value)

section Diagnosis

variable {u : Unicode} {rules : List RuleSpec} {columns : List String} {rows : List (Row columns)}
  {rule : RuleSpec} {condition : ConditionSpec} {position : Fin columns.length} {cell : Cell}
  {value : Option String} {s : String}

/-- What a condition is told is among the warnings. -/
theorem Diagnosed.mem_warnings (h : Diagnosed u rules columns rows rule condition position) :
    canNeverMatch u rule condition ∈ (evaluate u rules columns rows).warnings := by
  obtain ⟨resolved, hmem, hfind⟩ := h.found
  refine List.mem_append_right _ (List.mem_map.mpr ⟨(rule, resolved), ?_, ?_⟩)
  · exact List.mem_filter.mpr ⟨hmem, decide_eq_true h.unmatched⟩
  · simp only [whyNothingMatched, hfind]
    rfl

/-! ## Texts that look boolean -/

/-- A text that is read as a boolean is a word, or one of two digits. -/
theorem word_or_digit (hu : u.Lawful) (h : asBool u (.str s) ≠ none) :
    isBoolWord u (.str s) = true ∨ strip u s = "1" ∨ strip u s = "0" := by
  have hdigit : ∀ digit : String, (∀ c ∈ digit.toList, c.isDigit = true) →
      u.lower (strip u s) = digit → strip u s = digit := by
    intro digit hall hlower
    rw [← hlower]
    exact (hu.lower_digits _ (hlower ▸ hall)).symm
  rw [isBoolWord_str]
  simp only [asBool] at h
  split at h
  next htrue =>
    rcases htrue with hword | hone
    · exact .inl (List.mem_append_left _ hword)
    · exact .inr (.inl (hdigit "1" (List.forall_mem_singleton.mpr rfl) hone))
  · split at h
    next hfalse =>
      rcases hfalse with hword | hzero
      · exact .inl (List.mem_append_right _ hword)
      · exact .inr (.inr (hdigit "0" (List.forall_mem_singleton.mpr rfl) hzero))
    · exact absurd rfl h

theorem asNumber_digit (h : strip u s = "1" ∨ strip u s = "0") :
    (asNumber u (.str s)).isSome = true := by
  rcases h with hone | hzero
  · have hchars : "1".toList = ['1'] := rfl
    simp only [asNumber, hone]
    rw [if_neg (by decide), Decimal.parse_eq_bind, hchars,
      Decimal.asciiText_ascii (List.forall_mem_singleton.mpr rfl)]
    decide
  · have hchars : "0".toList = ['0'] := rfl
    simp only [asNumber, hzero]
    rw [if_neg (by decide), Decimal.parse_eq_bind, hchars,
      Decimal.asciiText_ascii (List.forall_mem_singleton.mpr rfl)]
    decide

/-- A text with a bracket does not look boolean. -/
theorem asBool_bracket (hu : u.Lawful) {c : Char} (hbracket : c = '[' ∨ c = '\x7b')
    (hc : c ∈ s.toList) : asBool u (.str s) = none := by
  by_contra h
  have hstrip : c ∈ (strip u s).toList := by
    refine mem_strip hc ?_
    rw [hu.isSpace_ascii c (isAscii_bracket hbracket)]
    rcases hbracket with rfl | rfl
    · rfl
    · rfl
  rcases word_or_digit hu h with hword | hone | hzero
  · rw [isBoolWord_bracket hu hbracket hstrip] at hword
    cases hword
  · rw [hone] at hstrip
    rcases hbracket with rfl | rfl
    · exact absurd hstrip (by decide)
    · exact absurd hstrip (by decide)
  · rw [hzero] at hstrip
    rcases hbracket with rfl | rfl
    · exact absurd hstrip (by decide)
    · exact absurd hstrip (by decide)

/-- A text of number characters that looks boolean is one of the two digits. -/
theorem digit_of_number (hu : u.Lawful) (hs : ∀ c ∈ s.toList, isNumberChar c = true)
    (h : asBool u (.str s) ≠ none) : strip u s = "1" ∨ strip u s = "0" := by
  rcases word_or_digit hu h with hword | hdigit
  · rw [isBoolWord_number hu hs] at hword
    cases hword
  · exact hdigit

/-- A cell that is no boolean and no word, and whose text looks boolean, is a number, and so is its
text. -/
theorem asNumber_of_looksBoolean (hu : u.Lawful) (hcell : OnScale cell)
    (hword : isBoolWord u cell = false) (h : asBool u (.str (asText u cell)) ≠ none) :
    (asNumber u cell).isSome = true ∧ (asNumber u (.str (asText u cell))).isSome = true := by
  cases cell with
  | none => exact absurd rfl hcell.1
  | bool b => exact absurd rfl (hcell.2 b)
  | int n =>
    have hdigit := digit_of_number hu (fun c hc => isNumberChar_toString hc) h
    exact ⟨rfl, asNumber_digit hdigit⟩
  | float x =>
    have hchars : ∀ c ∈ (asText u (.float x)).toList, isNumberChar c = true := by
      intro c hc
      rw [show asText u (.float x) = String.ofList x.repr.chars from rfl,
        String.toList_ofList] at hc
      exact x.repr.all_number c hc
    have hnumber := asNumber_digit (digit_of_number hu hchars h)
    exact ⟨asNumber_float hu x ▸ hnumber, hnumber⟩
  | str t =>
    rcases word_or_digit hu h with hlooks | hdigit
    · exact absurd (hword.symm.trans hlooks) Bool.false_ne_true
    · have hnumber : (asNumber u (.str t)).isSome = true := asNumber_digit hdigit
      exact ⟨hnumber, hnumber⟩
  | list items =>
    have hmem : '[' ∈ ((Cell.list items).toStr u).toList := by
      rw [toList_toStr_list]
      exact List.mem_cons_self
    exact absurd (asBool_bracket hu (.inl rfl) hmem) h
  | dict entries =>
    have hmem : '\x7b' ∈ ((Cell.dict entries).toStr u).toList := by
      rw [toList_toStr_dict]
      exact List.mem_cons_self
    exact absurd (asBool_bracket hu (.inr rfl) hmem) h

/-- A cell that is neither a boolean nor a word equals a value that looks boolean when they are one
number. -/
theorem equals_iff_sameNumber (hu : u.Lawful) (hcell : OnScale cell)
    (hword : isBoolWord u cell = false) (hvalue : asBool u (.ofOption value) ≠ none) :
    equals u cell value = true ↔ SameNumber u cell value := by
  obtain ⟨s, rfl⟩ : ∃ s, value = some s := by
    cases value with
    | none => exact absurd rfl hvalue
    | some s => exact ⟨s, rfl⟩
  have hwords : (isBoolWord u cell && isBoolWord u (.ofOption (some s))) = false := by
    rw [hword, Bool.false_and]
  rw [equals_eq_comparison hcell hwords, beq_iff_eq]
  by_cases hboth : (asNumber u cell).isSome = true ∧ (asNumber u (.str s)).isSome = true
  · obtain ⟨a, ha⟩ := Option.isSome_iff_exists.mp hboth.1
    obtain ⟨b, hb⟩ := Option.isSome_iff_exists.mp hboth.2
    have hvalue' : IsNumber u (.ofOption (some s)) b.value := ⟨b, hb, rfl⟩
    rw [comparison_of_isNumber ⟨a, ha, rfl⟩ hvalue', compare_eq_iff_eq]
    constructor
    · intro hsame
      exact ⟨a.value, ⟨a, ha, rfl⟩, b, hb, hsame.symm⟩
    · rintro ⟨q, ⟨a', ha', rfl⟩, b', hb', hq⟩
      obtain rfl := Option.some.inj (ha.symm.trans ha')
      obtain rfl := Option.some.inj (hb.symm.trans hb')
      exact hq.symm
  · rw [comparison_eq_iff_text hboth]
    refine iff_of_false (fun hs => ?_) ?_
    · -- the text of the cell looks boolean, so it is a number
      subst hs
      exact hboth (asNumber_of_looksBoolean hu hcell hword hvalue)
    · rintro ⟨q, ⟨a, ha, -⟩, b, hb, -⟩
      exact hboth ⟨Option.isSome_of_eq_some ha, Option.isSome_of_eq_some hb⟩

/-! ## The conditions that are diagnosed -/

/-- What the diagnosis has looked at. -/
theorem of_neverBoolean (h : neverBoolean u rows condition position = true) :
    (condition.operator = .eq ∨ condition.operator = .neq) ∧
      asBool u (.ofOption condition.value) ≠ none ∧
      ∀ row ∈ rows, row.cell position ≠ .none →
        OnScale (row.cell position) ∧ isBoolWord u (row.cell position) = false := by
  unfold neverBoolean at h
  split at h
  · cases h
  next hoperator =>
    split at h
    · cases h
    next hvalue =>
      refine ⟨by tauto, hvalue, fun row hrow hcell => ?_⟩
      simp only [Bool.and_eq_true, Bool.not_eq_true', List.any_eq_false] at h
      have hnot := h.2 (row.cell position) (List.mem_filter.mpr ⟨List.mem_map_of_mem hrow, by
        cases hkind : row.cell position with
        | none => exact absurd hkind hcell
        | _ => rfl⟩)
      cases hkind : row.cell position with
      | none => exact absurd hkind hcell
      | bool b =>
        rw [hkind] at hnot
        exact absurd rfl hnot
      | _ =>
        rw [hkind] at hnot
        exact ⟨⟨nofun, fun _ => nofun⟩, Bool.not_eq_true _ ▸ hnot⟩

theorem evaluateCondition_eq (hop : condition.operator = .eq) (hcell : cell ≠ .none) :
    evaluateCondition u condition cell = equals u cell condition.value := by
  unfold evaluateCondition
  rw [hop]
  cases cell with
  | none => exact absurd rfl hcell
  | _ => rfl

theorem evaluateCondition_neq (hop : condition.operator = .neq) (hcell : cell ≠ .none) :
    evaluateCondition u condition cell = !equals u cell condition.value := by
  unfold evaluateCondition
  rw [hop]
  cases cell with
  | none => exact absurd rfl hcell
  | _ => rfl

/-- The condition of a diagnosis, for one row. -/
theorem evaluateCondition_iff (hu : u.Lawful)
    (h : neverBoolean u rows condition position = true) {row : Row columns} (hrow : row ∈ rows) :
    evaluateCondition u condition (row.cell position) = false ↔
      (condition.operator = .eq → ¬ SameNumber u (row.cell position) condition.value) ∧
      (condition.operator = .neq → row.cell position ≠ .none →
        SameNumber u (row.cell position) condition.value) := by
  obtain ⟨hoperator, hvalue, hcells⟩ := of_neverBoolean h
  by_cases hcell : row.cell position = .none
  · have hnumber : ¬ SameNumber u .none condition.value := fun ⟨q, ⟨d, hd, _⟩, _⟩ => nomatch hd
    rcases hoperator with hop | hop
    · simp [evaluateCondition, hop, hcell, hnumber]
    · simp [evaluateCondition, hop, hcell]
  · obtain ⟨hscale, hword⟩ := hcells row hrow hcell
    have hequals := equals_iff_sameNumber hu hscale hword hvalue
    rcases hoperator with hop | hop
    · rw [evaluateCondition_eq hop hcell, ← Bool.not_eq_true, hequals]
      simp [hop]
    · rw [evaluateCondition_neq hop hcell, Bool.not_eq_false', hequals]
      simp [hop, hcell]

/-- **The diagnosis is sound** if and only if it names no comparison with a digit that a number
satisfies, and no `neq` but where each cell is the digit. -/
theorem diagnosisSound_iff (hu : u.Lawful) (rules : List RuleSpec) (columns : List String)
    (rows : List (Row columns)) :
    DiagnosisSound u rules columns rows ↔ NumbersKeptApart u rules columns rows := by
  have hnever : ∀ {rule condition position},
      Diagnosed u rules columns rows rule condition position →
        neverBoolean u rows condition position = true := by
    rintro rule condition position ⟨⟨resolved, -, hfind⟩, -⟩
    have hfound := List.find?_some hfind
    exact hfound
  constructor
  · intro h rule condition position hdiagnosed
    have hrow : ∀ row ∈ rows, _ := fun row hrow =>
      (evaluateCondition_iff hu (hnever hdiagnosed) hrow).mp
        (h rule condition position hdiagnosed row hrow)
    exact ⟨fun hop row hmem => (hrow row hmem).1 hop, fun hop row hmem => (hrow row hmem).2 hop⟩
  · intro h rule condition position hdiagnosed row hmem
    obtain ⟨heq, hneq⟩ := h rule condition position hdiagnosed
    exact (evaluateCondition_iff hu (hnever hdiagnosed) hmem).mpr
      ⟨fun hop => heq hop row hmem, fun hop => hneq hop row hmem⟩

end Diagnosis

/-! ## A digit that is matched -/

namespace Sample

/-- Ones, in a country that no row is of. -/
def ones : RuleSpec :=
  ⟨"r", "Ones", .low, [condition "flag" .eq "1", condition "country" .eq "ZZ"], true⟩

def flagColumns : List String := ["flag", "country"]

def flagRows : List (Row flagColumns) := [⟨[.int 1, .str "US"], rfl⟩]

end Sample

theorem Sample.diagnosed_ones :
    Diagnosed .ascii [ones] flagColumns flagRows ones (condition "flag" .eq "1")
      ⟨0, by decide⟩ where
  found := ⟨resolve flagColumns ones.conditions, List.mem_singleton_self _, rfl⟩
  unmatched := rfl

/-- The row has failed the other condition, and the warning is of the one it satisfies. -/
theorem satisfied_condition_diagnosed :
    canNeverMatch .ascii Sample.ones (Sample.condition "flag" .eq "1") ∈
        (evaluate .ascii [Sample.ones] Sample.flagColumns Sample.flagRows).warnings ∧
      ¬ DiagnosisSound .ascii [Sample.ones] Sample.flagColumns Sample.flagRows := by
  refine ⟨Sample.diagnosed_ones.mem_warnings, fun h => ?_⟩
  have hfalse := h _ _ _ Sample.diagnosed_ones _ List.mem_cons_self
  exact absurd hfalse (by decide)

theorem diagnosisSound_iff_ones :
    DiagnosisSound .ascii [Sample.ones] Sample.flagColumns Sample.flagRows ↔
      NumbersKeptApart .ascii [Sample.ones] Sample.flagColumns Sample.flagRows :=
  diagnosisSound_iff lawful_ascii [Sample.ones] Sample.flagColumns Sample.flagRows

end FraudAnalyzer.FlagRules
