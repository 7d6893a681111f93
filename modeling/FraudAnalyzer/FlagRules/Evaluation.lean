import FraudAnalyzer.FlagRules.Engine
import Mathlib.Data.List.Perm.Basic

/-!
# What the evaluation decides

The loops of `evaluate`, against the definition of what they are to find: the rows that a rule
marks. A disabled rule, one without conditions and one with a missing column mark none. The rules do
not affect each other, as long as their ids are distinct.
-/

namespace FraudAnalyzer.FlagRules

open Python FraudAnalyzer.Lists Policy

/-- The last of the columns with a name. -/
structure IsLastColumn (columns : List String) (name : String) (i : Fin columns.length) : Prop where
  named : columns.get i = name
  last : ∀ j, columns.get j = name → j ≤ i

/-- A rule marks a row: the rule is enabled and has conditions, the columns of all of them exist,
and the row satisfies each. -/
structure Marks (u : Unicode) {columns : List String} (rule : RuleSpec) (row : Row columns) :
    Prop where
  enabled : rule.enabled = true
  conditions : rule.conditions ≠ []
  satisfied : ∀ c ∈ rule.conditions, ∃ i, IsLastColumn columns c.columnName i ∧
    evaluateCondition u c (row.cell i) = true

instance (columns : List String) (name : String) (i : Fin columns.length) :
    Decidable (IsLastColumn columns name i) :=
  decidable_of_iff (columns.get i = name ∧ ∀ j, columns.get j = name → j ≤ i)
    ⟨fun h => ⟨h.1, h.2⟩, fun h => ⟨h.named, h.last⟩⟩

instance (u : Unicode) {columns : List String} (rule : RuleSpec) (row : Row columns) :
    Decidable (Marks u rule row) :=
  decidable_of_iff (rule.enabled = true ∧ rule.conditions ≠ [] ∧
      ∀ c ∈ rule.conditions, ∃ i, IsLastColumn columns c.columnName i ∧
        evaluateCondition u c (row.cell i) = true)
    ⟨fun h => ⟨h.1, h.2.1, h.2.2⟩, fun h => ⟨h.enabled, h.conditions, h.satisfied⟩⟩

/-- The indices of the rows that cite a rule. -/
def FlagOutcome.citing (outcome : FlagOutcome) (id : String) : List Nat :=
  (outcome.rows.filter fun flag => id ∈ flag.ruleIds).map RowFlag.index

/-- The entries of a rule in the tally. -/
def FlagOutcome.tallyOf (outcome : FlagOutcome) (id : String) : List RuleHit :=
  outcome.rules.filter fun entry => entry.id = id

/-! ## Columns -/

section Columns

variable {columns : List String} {name : String} {i : Fin columns.length}

theorem IsLastColumn.unique {j : Fin columns.length} (hi : IsLastColumn columns name i)
    (hj : IsLastColumn columns name j) : i = j :=
  Fin.le_antisymm (hj.last i hi.named) (hi.last j hj.named)

/-- The search from the last column on finds the last one with the name. -/
theorem isLastColumn_of_indexByColumn (h : indexByColumn columns name = some i) :
    IsLastColumn columns name i := by
  obtain ⟨hname, before, after, hsplit, hbefore⟩ := List.find?_eq_some_iff_append.mp h
  have hsorted : (before ++ i :: after).Pairwise (· > ·) := by
    rw [← hsplit, List.pairwise_reverse]
    exact List.pairwise_lt_finRange _
  refine ⟨by simpa using hname, fun j hj => ?_⟩
  have hmem : j ∈ before ++ i :: after := by
    rw [← hsplit, List.mem_reverse]
    exact List.mem_finRange j
  rcases List.mem_append.mp hmem with hin | hin
  · exact absurd hj (by simpa using hbefore j hin)
  · rcases List.mem_cons.mp hin with rfl | hlater
    · exact Fin.le_refl _
    · have hgt := (List.pairwise_cons.mp (List.pairwise_append.mp hsorted).2.1).1 j hlater
      exact Fin.le_of_lt hgt

theorem indexByColumn_eq_some_iff :
    indexByColumn columns name = some i ↔ IsLastColumn columns name i := by
  constructor
  · exact isLastColumn_of_indexByColumn
  · intro h
    cases hfound : indexByColumn columns name with
    | none =>
      have hnone := List.find?_eq_none.mp hfound i (List.mem_reverse.mpr (List.mem_finRange i))
      exact absurd h.named (by simpa using hnone)
    | some j => rw [(isLastColumn_of_indexByColumn hfound).unique h]

end Columns

/-! ## One rule -/

/-- The rule with its columns found, if it can be used. -/
def judge (u : Unicode) (columns : List String) (rule : RuleSpec) :
    Option (RuleSpec × Resolved columns) :=
  if rule.enabled then (classify u columns rule).getRight? else none

/-- The rules that the second loop goes through. -/
def usable (u : Unicode) (columns : List String) (rules : List RuleSpec) :
    List (RuleSpec × Resolved columns) :=
  ((rules.filter RuleSpec.enabled).map (classify u columns)).filterMap Sum.getRight?

section OneRule

variable {u : Unicode} {columns : List String} {rule : RuleSpec} {row : Row columns}

theorem rule_of_classify {r : RuleSpec × Resolved columns}
    (h : classify u columns rule = .inr r) : r.1 = rule := by
  unfold classify at h
  split at h
  · cases h
  dsimp only at h
  split at h
  · cases h
  · obtain rfl := Sum.inr.inj h
    rfl

theorem hit_of_classify {refused : RuleHit × String}
    (h : classify u columns rule = .inl refused) : refused.1 = hit rule 0 := by
  unfold classify at h
  split at h
  · obtain rfl := Sum.inl.inj h
    rfl
  dsimp only at h
  split at h
  · obtain rfl := Sum.inl.inj h
    rfl
  · cases h

theorem rule_of_judge {r : RuleSpec × Resolved columns} (h : judge u columns rule = some r) :
    r.1 = rule := by
  unfold judge at h
  split at h
  · exact rule_of_classify (Sum.getRight?_eq_some_iff.mp h)
  · cases h

theorem usable_eq_filterMap (rules : List RuleSpec) :
    usable u columns rules = rules.filterMap (judge u columns) := by
  unfold usable judge
  rw [List.filterMap_map, List.filterMap_filter]
  rfl

/-- The conditions of a rule without missing columns. -/
theorem all_resolve_iff {conditions : List ConditionSpec}
    (hmissing : missingColumns columns conditions = []) :
    ((resolve columns conditions).all fun c => evaluateCondition u c.1 (row.cell c.2)) = true ↔
      ∀ c ∈ conditions, ∃ i, IsLastColumn columns c.columnName i ∧
        evaluateCondition u c (row.cell i) = true := by
  have hfound : ∀ c ∈ conditions, ∃ i, indexByColumn columns c.columnName = some i := by
    intro c hc
    rw [missingColumns, List.map_eq_nil_iff, List.filter_eq_nil_iff] at hmissing
    have hsome := hmissing c hc
    rw [Option.isNone_iff_eq_none] at hsome
    exact Option.ne_none_iff_exists'.mp hsome
  simp only [resolve, List.all_eq_true, List.mem_filterMap]
  constructor
  · intro h c hc
    obtain ⟨i, hi⟩ := hfound c hc
    exact ⟨i, indexByColumn_eq_some_iff.mp hi, h (c, i) ⟨c, hc, by rw [hi]; rfl⟩⟩
  · rintro h ⟨c, i⟩ ⟨c', hc', hmap⟩
    obtain ⟨i', hi', hpair⟩ := Option.map_eq_some_iff.mp hmap
    obtain ⟨rfl, rfl⟩ := Prod.mk.inj hpair
    obtain ⟨j, hj, hsat⟩ := h c' hc'
    rwa [(indexByColumn_eq_some_iff.mp hi').unique hj]

/-- A rule marks the rows that satisfy the conditions it is used with. -/
theorem marks_iff :
    Marks u rule row ↔ ∃ r, judge u columns rule = some r ∧
      (r.2.all fun c => evaluateCondition u c.1 (row.cell c.2)) = true := by
  have hsplit : Marks u rule row ↔ rule.enabled = true ∧ rule.conditions ≠ [] ∧
      ∀ c ∈ rule.conditions, ∃ i, IsLastColumn columns c.columnName i ∧
        evaluateCondition u c (row.cell i) = true :=
    ⟨fun h => ⟨h.enabled, h.conditions, h.satisfied⟩, fun h => ⟨h.1, h.2.1, h.2.2⟩⟩
  rw [hsplit]
  unfold judge classify
  by_cases henabled : rule.enabled = true
  · by_cases hconditions : rule.conditions = []
    · simp [henabled, hconditions]
    · by_cases hmissing : missingColumns columns rule.conditions = []
      · rw [← all_resolve_iff hmissing]
        simp [henabled, hconditions, hmissing]
      · -- a column is missing, and no row satisfies the condition on it
        have hnone : ¬ ∀ c ∈ rule.conditions, ∃ i, IsLastColumn columns c.columnName i ∧
            evaluateCondition u c (row.cell i) = true := by
          intro h
          rw [missingColumns, List.map_eq_nil_iff, List.filter_eq_nil_iff] at hmissing
          refine hmissing fun c hc => ?_
          obtain ⟨i, hi, -⟩ := h c hc
          rw [indexByColumn_eq_some_iff.mpr hi]
          simp
        simp [henabled, hconditions, hmissing, hnone]
  · simp [henabled]

end OneRule

/-! ## The rows -/

section Rows

variable {u : Unicode} {columns : List String} {rules : List RuleSpec}

theorem mem_hitIds {usable : List (RuleSpec × Resolved columns)} {row : Row columns} {id : String}
    (h : id ∈ hitIds u usable row) : id ∈ usable.map fun r => r.1.id := by
  unfold hitIds at h
  obtain ⟨r, hr, rfl⟩ := List.mem_map.mp h
  exact List.mem_map.mpr ⟨r, (List.mem_filter.mp hr).1, rfl⟩

/-- The second loop flags the rows that a usable rule matches. -/
theorem mem_scanRows {usable : List (RuleSpec × Resolved columns)} {rows : List (Row columns)}
    {index : Nat} {counts : String → Nat} {flagged : RowFlag} :
    flagged ∈ (scanRows u usable rows index counts).1 ↔
      ∃ i row, rows[i]? = some row ∧ flagged.index = index + i ∧
        flagged.ruleIds = hitIds u usable row ∧ flagged.ruleIds ≠ [] := by
  induction rows generalizing index counts with
  | nil => simp [scanRows]
  | cons row rows ih =>
    have hsplit : flagged ∈ (scanRows u usable (row :: rows) index counts).1 ↔
        flagged = ⟨index, hitIds u usable row⟩ ∧ hitIds u usable row ≠ [] ∨
          flagged ∈ (scanRows u usable rows (index + 1)
            ((hitIds u usable row).foldl bump counts)).1 := by
      simp only [scanRows]
      split
      next hnone => simp [hnone]
      next hsome => simp [hsome]
    rw [hsplit, ih]
    constructor
    · rintro (⟨rfl, hne⟩ | ⟨i, row', hrow', hindex, hids, hne⟩)
      · exact ⟨0, row, rfl, rfl, rfl, hne⟩
      · exact ⟨i + 1, row', hrow', by omega, hids, hne⟩
    · rintro ⟨i, row', hrow', hindex, hids, hne⟩
      cases i with
      | zero =>
        obtain rfl : row = row' := Option.some.inj hrow'
        refine .inl ⟨?_, hids ▸ hne⟩
        cases flagged with
        | mk index' ids =>
          obtain rfl : index' = index := hindex
          obtain rfl : ids = hitIds u usable row := hids
          rfl
      | succ i => exact .inr ⟨i, row', hrow', by omega, hids, hne⟩

/-- The ids of a row are those of the rules that mark it, in rule order. -/
theorem hitIds_usable (rules : List RuleSpec) (row : Row columns) :
    hitIds u (usable u columns rules) row =
      (rules.filter fun rule => Marks u rule row).map RuleSpec.id := by
  rw [usable_eq_filterMap]
  induction rules with
  | nil => rfl
  | cons rule rules ih =>
    rw [List.filterMap_cons, List.filter_cons]
    cases hjudge : judge u columns rule with
    | none =>
      have hmarks : ¬ Marks u rule row := fun h => by
        obtain ⟨r, hr, -⟩ := marks_iff.mp h
        rw [hjudge] at hr
        cases hr
      rw [decide_eq_false hmarks, if_neg Bool.false_ne_true]
      exact ih
    | some r =>
      have hmarks : Marks u rule row ↔
          (r.2.all fun c => evaluateCondition u c.1 (row.cell c.2)) = true := by
        rw [marks_iff, hjudge]
        simp
      have hid : r.1.id = rule.id := by rw [rule_of_judge hjudge]
      unfold hitIds at ih ⊢
      rw [List.filter_cons]
      by_cases hall : (r.2.all fun c => evaluateCondition u c.1 (row.cell c.2)) = true
      · rw [if_pos hall, decide_eq_true (hmarks.mpr hall), if_pos rfl, List.map_cons, List.map_cons,
          hid, ih]
      · rw [if_neg hall, decide_eq_false (mt hmarks.mp hall), if_neg Bool.false_ne_true, ih]

/-- The flag of one row. -/
def flagOf (u : Unicode) (usable : List (RuleSpec × Resolved columns)) (row : Row columns × Nat) :
    Option RowFlag :=
  if hitIds u usable row.1 = [] then none else some ⟨row.2, hitIds u usable row.1⟩

theorem scanRows_rows (usable : List (RuleSpec × Resolved columns)) (rows : List (Row columns))
    (index : Nat) (counts : String → Nat) :
    (scanRows u usable rows index counts).1 = (rows.zipIdx index).filterMap (flagOf u usable) := by
  induction rows generalizing index counts with
  | nil => rfl
  | cons row rows ih =>
    rw [List.zipIdx_cons, List.filterMap_cons, flagOf]
    simp only [scanRows, ih]
    split
    · rfl
    · rfl

theorem foldl_bump (ids : List String) (counts : String → Nat) (id : String) :
    ids.foldl bump counts id = counts id + ids.count id := by
  induction ids generalizing counts with
  | nil => rfl
  | cons a ids ih =>
    rw [List.foldl_cons, ih, bump, Function.update_apply, List.count_cons]
    by_cases ha : id = a
    · subst ha
      simp only [if_true, beq_self_eq_true]
      omega
    · rw [if_neg ha]
      simp [Ne.symm ha]

/-- The count of a rule is that of the rows that cite it. -/
theorem scanRows_counts {usable : List (RuleSpec × Resolved columns)}
    (hids : ∀ row, (hitIds u usable row).Nodup) (rows : List (Row columns)) (index : Nat)
    (counts : String → Nat) (id : String) :
    (scanRows u usable rows index counts).2 id =
      counts id + ((scanRows u usable rows index counts).1.filter fun flag =>
        id ∈ flag.ruleIds).length := by
  induction rows generalizing index counts with
  | nil => rfl
  | cons row rows ih =>
    simp only [scanRows]
    rw [ih, foldl_bump, (hids row).count]
    by_cases hnone : hitIds u usable row = []
    · simp [hnone]
    · rw [if_neg hnone, List.filter_cons]
      by_cases hid : id ∈ hitIds u usable row
      · simp only [hid, if_true, decide_true, List.length_cons]
        omega
      · simp [hid]

end Rows

/-! ## The outcome -/

/-- What `evaluate` has to find. -/
structure Correct (u : Unicode) (rules : List RuleSpec) (columns : List String)
    (rows : List (Row columns)) : Prop where
  flagged : ∀ i row, rows[i]? = some row →
    ((∃ flag ∈ (evaluate u rules columns rows).rows, flag.index = i) ↔
      ∃ rule ∈ rules, Marks u rule row)
  ruleIds : ∀ flag ∈ (evaluate u rules columns rows).rows, ∃ row, rows[flag.index]? = some row ∧
    flag.ruleIds = (rules.filter fun rule => Marks u rule row).map RuleSpec.id
  increasing : ((evaluate u rules columns rows).rows.map RowFlag.index).Pairwise (· < ·)
  enabled : ∀ entry ∈ (evaluate u rules columns rows).rules,
    ∃ rule ∈ rules, rule.enabled = true ∧ rule.id = entry.id
  tally : ∀ rule ∈ rules, rule.enabled = true →
    (evaluate u rules columns rows).tallyOf rule.id =
      [hit rule ((evaluate u rules columns rows).citing rule.id).length]
  alone : ∀ rule ∈ rules,
    (evaluate u rules columns rows).citing rule.id =
        (evaluate u [rule] columns rows).citing rule.id ∧
      (evaluate u rules columns rows).tallyOf rule.id =
        (evaluate u [rule] columns rows).tallyOf rule.id

section Outcome

variable {u : Unicode} {columns : List String} {rules : List RuleSpec} {rule : RuleSpec}

theorem evaluate_rows (rules : List RuleSpec) (rows : List (Row columns)) :
    (evaluate u rules columns rows).rows =
      rows.zipIdx.filterMap (flagOf u (usable u columns rules)) :=
  scanRows_rows _ rows 0 _

/-- A rule of the list is cited for the rows that it marks. -/
theorem mem_hitIds_usable_iff (hids : (rules.map RuleSpec.id).Nodup) (hrule : rule ∈ rules)
    {row : Row columns} : rule.id ∈ hitIds u (usable u columns rules) row ↔ Marks u rule row := by
  rw [hitIds_usable, List.mem_map]
  constructor
  · rintro ⟨other, hother, hid⟩
    obtain ⟨hmem, hmarks⟩ := List.mem_filter.mp hother
    rw [← List.inj_on_of_nodup_map hids hmem hrule hid]
    simpa using hmarks
  · intro hmarks
    exact ⟨rule, List.mem_filter.mpr ⟨hrule, decide_eq_true hmarks⟩, rfl⟩

theorem citing_evaluate (hids : (rules.map RuleSpec.id).Nodup) (hrule : rule ∈ rules)
    (rows : List (Row columns)) :
    (evaluate u rules columns rows).citing rule.id =
      (rows.zipIdx.filter fun p => Marks u rule p.1).map Prod.snd := by
  rw [FlagOutcome.citing, evaluate_rows, List.filter_filterMap, List.map_filterMap,
    ← List.filterMap_eq_map, List.filterMap_filter]
  refine List.filterMap_congr fun p _ => ?_
  rw [flagOf]
  by_cases hmarks : Marks u rule p.1
  · have hid := (mem_hitIds_usable_iff hids hrule).mpr hmarks
    have hne : hitIds u (usable u columns rules) p.1 ≠ [] := List.ne_nil_of_mem hid
    simp [hmarks, hid, hne]
  · have hid := mt (mem_hitIds_usable_iff hids hrule).mp hmarks
    split
    · simp [hmarks]
    · simp [hmarks, hid]

theorem nodup_hitIds (hids : (rules.map RuleSpec.id).Nodup) (row : Row columns) :
    (hitIds u (usable u columns rules) row).Nodup := by
  rw [hitIds_usable]
  exact hids.sublist (List.filter_sublist.map _)

theorem perm_elim {α β γ : Type} (f : α → γ) (g : β → γ) (l : List (Sum α β)) :
    ((l.filterMap Sum.getLeft?).map f ++ (l.filterMap Sum.getRight?).map g).Perm
      (l.map (Sum.elim f g)) := by
  induction l with
  | nil => exact .nil
  | cons c l ih =>
    cases c with
    | inl a => exact ih.cons _
    | inr b => exact List.perm_middle.trans (ih.cons _)

/-- The tally, up to its order. -/
theorem rules_perm (hids : (rules.map RuleSpec.id).Nodup) (rows : List (Row columns)) :
    (evaluate u rules columns rows).rules.Perm ((rules.filter RuleSpec.enabled).map fun rule =>
      hit rule ((evaluate u rules columns rows).citing rule.id).length) := by
  have hperm := perm_elim (Prod.fst : RuleHit × String → RuleHit)
    (fun r : RuleSpec × Resolved columns =>
      hit r.1 ((scanRows u (usable u columns rules) rows 0 fun _ => 0).2 r.1.id))
    ((rules.filter RuleSpec.enabled).map (classify u columns))
  refine (List.Perm.of_eq rfl).trans (hperm.trans (List.Perm.of_eq ?_))
  rw [List.map_map]
  refine List.map_congr_left fun rule hrule => ?_
  obtain ⟨hmem, henabled⟩ := List.mem_filter.mp hrule
  rw [Function.comp_apply]
  cases hclass : classify u columns rule with
  | inl refused =>
    -- a rule that cannot be used marks no row
    have hnone : ∀ row : Row columns, ¬ Marks u rule row := by
      intro row h
      obtain ⟨r, hr, -⟩ := marks_iff.mp h
      rw [judge, if_pos henabled, hclass] at hr
      cases hr
    rw [Sum.elim_inl, hit_of_classify hclass, citing_evaluate hids hmem]
    simp [hnone]
  | inr r =>
    rw [Sum.elim_inr, rule_of_classify hclass, scanRows_counts (nodup_hitIds hids), Nat.zero_add,
      FlagOutcome.citing, List.length_map]
    rfl

theorem filter_id_eq (hids : (rules.map RuleSpec.id).Nodup) (hrule : rule ∈ rules) :
    (rules.filter fun other => other.id = rule.id) = [rule] := by
  induction rules with
  | nil => cases hrule
  | cons other rules ih =>
    rw [List.map_cons, List.nodup_cons] at hids
    rw [List.filter_cons]
    rcases List.mem_cons.mp hrule with rfl | hmem
    · have hrest : (rules.filter fun other => other.id = rule.id) = [] := by
        rw [List.filter_eq_nil_iff]
        intro other hother heq
        exact hids.1 (List.mem_map.mpr ⟨other, hother, by simpa using heq⟩)
      rw [hrest]
      simp
    · have hne : other.id ≠ rule.id := fun heq => hids.1 (heq ▸ List.mem_map_of_mem hmem)
      simp only [hne, decide_false, Bool.false_eq_true, if_false]
      exact ih hids.2 hmem

theorem tallyOf_evaluate (hids : (rules.map RuleSpec.id).Nodup) (hrule : rule ∈ rules)
    (rows : List (Row columns)) :
    (evaluate u rules columns rows).tallyOf rule.id =
      if rule.enabled then [hit rule ((evaluate u rules columns rows).citing rule.id).length]
      else [] := by
  have hperm := (rules_perm (u := u) hids rows).filter fun entry => entry.id = rule.id
  rw [List.filter_map, List.filter_filter] at hperm
  have hswap : (rules.filter fun other => ((fun entry : RuleHit => decide (entry.id = rule.id)) ∘
      fun other => hit other ((evaluate u rules columns rows).citing other.id).length) other &&
        other.enabled) = [rule].filter RuleSpec.enabled := by
    rw [← filter_id_eq hids hrule, List.filter_filter]
    exact List.filter_congr fun other _ => Bool.and_comm _ _
  rw [hswap, List.filter_singleton] at hperm
  unfold FlagOutcome.tallyOf
  cases henabled : rule.enabled with
  | true =>
    rw [henabled] at hperm
    exact List.perm_singleton.mp hperm
  | false =>
    rw [henabled] at hperm
    exact List.perm_nil.mp hperm

end Outcome

/-- **`evaluate` is correct.** -/
theorem evaluate_correct (u : Unicode) {rules : List RuleSpec}
    (hids : (rules.map RuleSpec.id).Nodup) (columns : List String) (rows : List (Row columns)) :
    Correct u rules columns rows := by
  have hflag : ∀ flag ∈ (evaluate u rules columns rows).rows, ∃ row,
      rows[flag.index]? = some row ∧ flag.ruleIds = hitIds u (usable u columns rules) row ∧
        flag.ruleIds ≠ [] := by
    intro flag hflag
    obtain ⟨i, row, hrow, hindex, hids, hne⟩ := mem_scanRows.mp hflag
    rw [Nat.zero_add] at hindex
    exact ⟨row, hindex ▸ hrow, hids, hne⟩
  constructor
  case flagged =>
    intro i row hrow
    have hsome : (∃ rule ∈ rules, Marks u rule row) ↔
        hitIds u (usable u columns rules) row ≠ [] := by
      rw [hitIds_usable, ne_eq, List.map_eq_nil_iff, List.filter_eq_nil_iff]
      simp
    rw [hsome]
    constructor
    · rintro ⟨flag, hmem, rfl⟩
      obtain ⟨row', hrow', hids, hne⟩ := hflag flag hmem
      obtain rfl := Option.some.inj (hrow'.symm.trans hrow)
      exact hids ▸ hne
    · intro hne
      exact ⟨⟨i, _⟩, mem_scanRows.mpr ⟨i, row, hrow, (Nat.zero_add i).symm, rfl, hne⟩, rfl⟩
  case ruleIds =>
    intro flag hmem
    obtain ⟨row, hrow, hids, -⟩ := hflag flag hmem
    exact ⟨row, hrow, hids.trans (hitIds_usable rules row)⟩
  case increasing =>
    have hplaces : (rows.zipIdx).Pairwise fun p q => p.2 < q.2 := by
      rw [← List.pairwise_map, List.zipIdx_map_snd]
      exact List.pairwise_lt_range'
    have hindex : ∀ p flag, flagOf u (usable u columns rules) p = some flag → flag.index = p.2 := by
      intro p flag h
      unfold flagOf at h
      split at h
      · cases h
      · obtain rfl := Option.some.inj h
        rfl
    rw [evaluate_rows, List.pairwise_map]
    refine hplaces.filterMap _ fun p q hpq flag hp flag' hq => ?_
    rw [hindex p flag hp, hindex q flag' hq]
    exact hpq
  case enabled =>
    intro entry hentry
    obtain ⟨rule, hrule, rfl⟩ := List.mem_map.mp ((rules_perm hids rows).mem_iff.mp hentry)
    obtain ⟨hmem, henabled⟩ := List.mem_filter.mp hrule
    exact ⟨rule, hmem, henabled, rfl⟩
  case tally =>
    intro rule hrule henabled
    rw [tallyOf_evaluate hids hrule, if_pos henabled]
  case alone =>
    intro rule hrule
    have hone : ([rule].map RuleSpec.id).Nodup := List.nodup_singleton _
    have hciting : (evaluate u rules columns rows).citing rule.id =
        (evaluate u [rule] columns rows).citing rule.id := by
      rw [citing_evaluate hids hrule, citing_evaluate hone List.mem_cons_self]
    refine ⟨hciting, ?_⟩
    rw [tallyOf_evaluate hids hrule, tallyOf_evaluate hone List.mem_cons_self, hciting]

namespace Sample

def condition (columnName : String) (operator : FlagOperator) (value : String) : ConditionSpec :=
  ⟨columnName, operator, some value, none, none⟩

/-- A rule on two columns, one on a missing column, and one that is disabled. -/
def rules : List RuleSpec :=
  [⟨"big", "Big", .high, [condition "amount" .eq "900", condition "day" .eq "friday"], true⟩,
    ⟨"ghost", "Ghost", .low, [condition "nonexistent" .eq "1"], true⟩,
    ⟨"off", "Off", .low, [condition "day" .eq "friday"], false⟩]

/-- The second column has the name of the first. -/
def columns : List String := ["amount", "amount", "day"]

def rows : List (Row columns) :=
  [⟨[.int 900, .int 10, .str "friday"], rfl⟩, ⟨[.int 10, .str "900.00", .str "friday"], rfl⟩]

end Sample

theorem evaluate_correct_sample :
    (evaluate .ascii Sample.rules Sample.columns Sample.rows).citing "big" = [1] ∧
      Correct .ascii Sample.rules Sample.columns Sample.rows :=
  ⟨by decide, evaluate_correct .ascii (by decide) Sample.columns Sample.rows⟩

end FraudAnalyzer.FlagRules
