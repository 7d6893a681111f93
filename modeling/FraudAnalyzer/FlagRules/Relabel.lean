import FraudAnalyzer.FlagRules.Evaluation
import FraudAnalyzer.FlagRules.Outcome
import Mathlib.Data.Set.Function

/-!
# Rule ids do not decide anything

`evaluate` uses the id of a rule only to name it and to count its matches. Giving the rules other
distinct ids therefore gives the same outcome under the new ids (`evaluate_relabel`): by induction
on the rows, the counts of a rule agree before and after.
-/

namespace FraudAnalyzer.FlagRules

open Python FraudAnalyzer.Lists

def RuleSpec.relabel (f : String → String) (rule : RuleSpec) : RuleSpec :=
  { rule with id := f rule.id }

def RowFlag.relabel (f : String → String) (row : RowFlag) : RowFlag :=
  ⟨row.index, row.ruleIds.map f⟩

def RuleHit.relabel (f : String → String) (hit : RuleHit) : RuleHit := { hit with id := f hit.id }

def FlagOutcome.relabel (f : String → String) (outcome : FlagOutcome) : FlagOutcome :=
  ⟨outcome.rows.map (RowFlag.relabel f), outcome.rules.map (RuleHit.relabel f), outcome.warnings⟩

def FlaggedEntry.relabel (f : String → String) (entry : FlaggedEntry) : FlaggedEntry :=
  { entry with ruleIds := entry.ruleIds.map f }

/-- The flags under other rule ids. -/
def Flags.relabel (f : String → String) (flags : Flags) : Flags :=
  { flags with
    rows := flags.rows.map (FlaggedEntry.relabel f), rules := flags.rules.map (RuleHit.relabel f) }

section Relabel

variable {u : Unicode} {f : String → String} {columns : List String}

theorem classify_relabel (rule : RuleSpec) :
    classify u columns (rule.relabel f) =
      Sum.map (Prod.map (RuleHit.relabel f) id) (Prod.map (RuleSpec.relabel f) id)
        (classify u columns rule) := by
  unfold classify RuleSpec.relabel
  dsimp only
  split
  · rfl
  · split
    · rfl
    · rfl

theorem filterMap_getLeft {α β γ δ : Type} (g : α → γ) (h : β → δ) (l : List (Sum α β)) :
    (l.map (Sum.map g h)).filterMap Sum.getLeft? = (l.filterMap Sum.getLeft?).map g := by
  rw [List.filterMap_map, List.map_filterMap]
  congr 1
  funext a
  cases a <;> rfl

theorem filterMap_getRight {α β γ δ : Type} (g : α → γ) (h : β → δ) (l : List (Sum α β)) :
    (l.map (Sum.map g h)).filterMap Sum.getRight? = (l.filterMap Sum.getRight?).map h := by
  rw [List.filterMap_map, List.map_filterMap]
  congr 1
  funext a
  cases a <;> rfl

theorem hitIds_relabel (usable : List (RuleSpec × Resolved columns)) (row : Row columns) :
    hitIds u (usable.map (Prod.map (RuleSpec.relabel f) id)) row = (hitIds u usable row).map f := by
  unfold hitIds
  rw [List.filter_map, List.map_map, List.map_map]
  rfl

/-- The counts of the rules `ids` are the same under their new ids. -/
def CountsAgree (f : String → String) (ids : List String) (counts counts' : String → Nat) : Prop :=
  ∀ id ∈ ids, counts' (f id) = counts id

theorem CountsAgree.bump {ids : List String} (hf : Set.InjOn f {id | id ∈ ids})
    {counts counts' : String → Nat} (h : CountsAgree f ids counts counts') {id : String}
    (hid : id ∈ ids) : CountsAgree f ids (bump counts id) (FlagRules.bump counts' (f id)) := by
  intro id' hid'
  unfold FlagRules.bump
  simp only [Function.update_apply]
  by_cases heq : id' = id
  · simp [heq, h id hid]
  · have hne : f id' ≠ f id := fun hsame => heq (hf hid' hid hsame)
    simp [heq, hne, h id' hid']

theorem CountsAgree.foldl_bump {ids : List String} (hf : Set.InjOn f {id | id ∈ ids})
    {hits : List String} (hhits : ∀ id ∈ hits, id ∈ ids) {counts counts' : String → Nat}
    (h : CountsAgree f ids counts counts') :
    CountsAgree f ids (hits.foldl FlagRules.bump counts)
      ((hits.map f).foldl FlagRules.bump counts') := by
  induction hits generalizing counts counts' with
  | nil => exact h
  | cons id hits ih =>
    exact ih (fun id' hid' => hhits id' (List.mem_cons_of_mem _ hid'))
      (h.bump hf (hhits id List.mem_cons_self))

/-- The second loop, with the counts so far. -/
theorem scanRows_relabel {usable : List (RuleSpec × Resolved columns)}
    (hf : Set.InjOn f {id | id ∈ usable.map fun r => r.1.id}) (rows : List (Row columns))
    (index : Nat) {counts counts' : String → Nat}
    (h : CountsAgree f (usable.map fun r => r.1.id) counts counts') :
    (scanRows u (usable.map (Prod.map (RuleSpec.relabel f) id)) rows index counts').1 =
        (scanRows u usable rows index counts).1.map (RowFlag.relabel f) ∧
      CountsAgree f (usable.map fun r => r.1.id) (scanRows u usable rows index counts).2
        (scanRows u (usable.map (Prod.map (RuleSpec.relabel f) id)) rows index counts').2 := by
  induction rows generalizing index counts counts' with
  | nil => exact ⟨rfl, h⟩
  | cons row rows ih =>
    have hhits : ∀ id ∈ hitIds u usable row, id ∈ usable.map fun r => r.1.id :=
      fun id hid => mem_hitIds hid
    have hbumped := h.foldl_bump hf hhits
    obtain ⟨hrows, hcounts⟩ := ih (index + 1) hbumped
    unfold scanRows
    dsimp only
    rw [hitIds_relabel]
    refine ⟨?_, hcounts⟩
    rw [hrows]
    cases hitIds u usable row with
    | nil => rfl
    | cons id ids => rfl

/-- **The outcome under other ids.** -/
theorem evaluate_relabel {rules : List RuleSpec}
    (hf : Set.InjOn f {id | id ∈ rules.map RuleSpec.id}) (rows : List (Row columns)) :
    evaluate u (rules.map (RuleSpec.relabel f)) columns rows =
      (evaluate u rules columns rows).relabel f := by
  have henabled : (rules.map (RuleSpec.relabel f)).filter RuleSpec.enabled =
      (rules.filter RuleSpec.enabled).map (RuleSpec.relabel f) := List.filter_map
  have hclassified : ((rules.map (RuleSpec.relabel f)).filter RuleSpec.enabled).map
      (classify u columns) = ((rules.filter RuleSpec.enabled).map (classify u columns)).map
        (Sum.map (Prod.map (RuleHit.relabel f) id) (Prod.map (RuleSpec.relabel f) id)) := by
    rw [henabled, List.map_map, List.map_map]
    exact List.map_congr_left fun rule _ => classify_relabel rule
  unfold evaluate
  dsimp only
  rw [hclassified, filterMap_getLeft, filterMap_getRight]
  have husable : ∀ id ∈ (((rules.filter RuleSpec.enabled).map (classify u columns)).filterMap
      Sum.getRight?).map fun r => r.1.id, id ∈ rules.map RuleSpec.id := by
    intro id hid
    obtain ⟨r, hr, rfl⟩ := List.mem_map.mp hid
    obtain ⟨c, hc, hright⟩ := List.mem_filterMap.mp hr
    obtain ⟨rule, hrule, rfl⟩ := List.mem_map.mp hc
    rw [rule_of_classify (Sum.getRight?_eq_some_iff.mp hright)]
    exact List.mem_map_of_mem (List.mem_filter.mp hrule).1
  generalize (((rules.filter RuleSpec.enabled).map (classify u columns)).filterMap
    Sum.getRight?) = usable at husable ⊢
  have hinj : Set.InjOn f {id | id ∈ usable.map fun r => r.1.id} :=
    fun a ha b hb => hf (husable a ha) (husable b hb)
  obtain ⟨hrows, hcounts⟩ := @scanRows_relabel u f columns usable hinj rows 0 (fun _ => 0)
    (fun _ => 0) fun _ _ => rfl
  generalize scanRows u usable rows 0 (fun _ => 0) = scanned at hrows hcounts ⊢
  generalize scanRows u (usable.map (Prod.map (RuleSpec.relabel f) id)) rows 0 (fun _ => 0) =
    scanned' at hrows hcounts ⊢
  have hcount : ∀ r ∈ usable, scanned'.2 (f r.1.id) = scanned.2 r.1.id :=
    fun r hr => hcounts _ (List.mem_map_of_mem hr)
  have htally : (usable.map (Prod.map (RuleSpec.relabel f) id)).map
      (fun r => hit r.1 (scanned'.2 r.1.id)) =
        (usable.map fun r => hit r.1 (scanned.2 r.1.id)).map (RuleHit.relabel f) := by
    rw [List.map_map, List.map_map]
    refine List.map_congr_left fun r hr => ?_
    show hit (r.1.relabel f) (scanned'.2 (f r.1.id)) = (hit r.1 (scanned.2 r.1.id)).relabel f
    rw [hcount r hr]
    rfl
  have hunmatched : ((usable.map (Prod.map (RuleSpec.relabel f) id)).filter
      fun r => scanned'.2 r.1.id = 0) =
        (usable.filter fun r => scanned.2 r.1.id = 0).map (Prod.map (RuleSpec.relabel f) id) := by
    rw [List.filter_map]
    congr 1
    refine List.filter_congr fun r hr => ?_
    show decide (scanned'.2 (f r.1.id) = 0) = decide (scanned.2 r.1.id = 0)
    rw [hcount r hr]
  unfold FlagOutcome.relabel
  dsimp only
  rw [hrows, htally, hunmatched, List.map_append]
  simp only [List.map_map]
  rfl

end Relabel

/-! ## Rules that differ in their ids -/

/-- A list without repetition can be given any names. -/
theorem exists_map_eq {α β : Type} [DecidableEq α] [Inhabited β] {l : List α} {l' : List β}
    (hl : l.Nodup) (hlen : l.length = l'.length) : ∃ f : α → β, l.map f = l' := by
  refine ⟨fun a => l'.getD (l.idxOf a) default, ?_⟩
  apply List.ext_getElem
  · rw [List.length_map, hlen]
  · intro i hi hi'
    rw [List.length_map] at hi
    simp [List.Nodup.idxOf_getElem hl i hi, hi']

/-- The spec of a rule, from its id and what the fingerprint covers of it. -/
def coveredSpec (u : Unicode) (lists : String → Option (List String)) (id : String)
    (rule : CoveredRule) : RuleSpec :=
  ⟨id, rule.name, rule.severity,
    rule.conditions.map fun c =>
      ⟨c.columnName, c.operator, c.value, c.value2, (c.listId.bind lists).map (membersFromItems u)⟩,
    rule.enabled⟩

section Specs

variable {u : Unicode} {lists : String → Option (List String)} {rules rules' : List FlagRule}
  {f : String → String}

/-- The specs are the covered rules, in position order. -/
theorem specsFromModels_eq :
    specsFromModels u lists rules =
      (sortedBy FlagRule.position rules).map fun r => coveredSpec u lists r.id r.covered := by
  unfold specsFromModels coveredSpec FlagRule.covered
  refine List.map_congr_left fun r _ => ?_
  simp only [List.map_map]
  rfl

/-- The rules' ids in position order, under other names, are the others' ids. -/
structure Renames (f : String → String) (rules rules' : List FlagRule) : Prop where
  injOn : Set.InjOn f {id | id ∈ rules.map FlagRule.id}
  map : ((sortedBy FlagRule.position rules).map FlagRule.id).map f =
    (sortedBy FlagRule.position rules').map FlagRule.id

theorem map_sortedBy_perm (l : List FlagRule) :
    ((sortedBy FlagRule.position l).map FlagRule.id).Perm (l.map FlagRule.id) :=
  (sortedBy_perm _ l).map _

theorem exists_renames (hrules : (rules.map FlagRule.id).Nodup)
    (hrules' : (rules'.map FlagRule.id).Nodup)
    (hlen : (sortedBy FlagRule.position rules).length =
      (sortedBy FlagRule.position rules').length) :
    ∃ f, Renames f rules rules' := by
  have hsorted := (map_sortedBy_perm rules).nodup_iff.mpr hrules
  have hlen' : ((sortedBy FlagRule.position rules).map FlagRule.id).length =
      ((sortedBy FlagRule.position rules').map FlagRule.id).length := by
    rw [List.length_map, List.length_map, hlen]
  obtain ⟨f, hf⟩ := exists_map_eq hsorted hlen'
  refine ⟨f, ?_, hf⟩
  have hnodup : (((sortedBy FlagRule.position rules).map FlagRule.id).map f).Nodup := by
    rw [hf]
    exact (map_sortedBy_perm rules').nodup_iff.mpr hrules'
  have hinj := List.inj_on_of_nodup_map hnodup
  intro a ha b hb heq
  have hmem := fun id => (map_sortedBy_perm rules).mem_iff (a := id)
  exact hinj ((hmem a).mpr ha) ((hmem b).mpr hb) heq

/-- Rules with the same covered fields have the same specs, under other ids. -/
theorem specsFromModels_relabel (hf : Renames f rules rules')
    (hcovered : (sortedBy FlagRule.position rules').map FlagRule.covered =
      (sortedBy FlagRule.position rules).map FlagRule.covered) :
    specsFromModels u lists rules' =
      (specsFromModels u lists rules).map (RuleSpec.relabel f) := by
  have hpairs : (sortedBy FlagRule.position rules').map (fun r => (r.id, r.covered)) =
      (sortedBy FlagRule.position rules).map (fun r => (f r.id, r.covered)) := by
    rw [← List.zip_map', ← hf.map, hcovered, List.map_map, List.zip_map']
    rfl
  have hspecs := congrArg (List.map fun p => coveredSpec u lists p.1 p.2) hpairs
  rw [List.map_map, List.map_map] at hspecs
  rw [specsFromModels_eq, specsFromModels_eq, List.map_map]
  exact hspecs

/-- **The flags of rules with the same covered fields** are the same, under the other ids. -/
theorem evaluateFlags_relabel {sha256Hex : Sha256Hex} (hf : Renames f rules rules')
    (hcovered : (sortedBy FlagRule.position rules').map FlagRule.covered =
      (sortedBy FlagRule.position rules).map FlagRule.covered)
    (columns : List String) (rows : List (Row columns)) :
    evaluateFlags u sha256Hex lists rules' columns rows =
      (evaluateFlags u sha256Hex lists rules columns rows).relabel f := by
  have hlen := congrArg List.length hcovered
  have hnil : rules' = [] ↔ rules = [] := by
    simp only [List.length_map, sortedBy, List.length_insertionSort] at hlen
    rw [← List.length_eq_zero_iff, hlen, List.length_eq_zero_iff]
  have hinj : Set.InjOn f {id | id ∈ (specsFromModels u lists rules).map RuleSpec.id} := by
    intro a ha b hb heq
    have hids : (specsFromModels u lists rules).map RuleSpec.id =
        (sortedBy FlagRule.position rules).map FlagRule.id := by
      rw [specsFromModels_eq, List.map_map]
      rfl
    rw [hids] at ha hb
    exact hf.injOn ((map_sortedBy_perm rules).mem_iff.mp ha)
      ((map_sortedBy_perm rules).mem_iff.mp hb) heq
  unfold evaluateFlags
  by_cases hempty : rules = []
  · rw [if_pos hempty, if_pos (hnil.mpr hempty)]
    rfl
  · rw [if_neg hempty, if_neg (fun h => hempty (hnil.mp h)),
      specsFromModels_relabel hf hcovered, evaluate_relabel hinj]
    unfold Flags.relabel FlagOutcome.relabel
    simp only [List.length_map, List.map_map]
    rfl

end Specs

end FraudAnalyzer.FlagRules
