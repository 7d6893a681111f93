import FraudAnalyzer.Charts.Machine
import FraudAnalyzer.FlagRules.Relabel

/-!
# Preview and save

`preview_flags` evaluates the rules of a request, `replace_rules` stores them and `evaluate_flags`
reads them back. Stored rules are ordered by their positions, which are their indices in the request
(`rulesOf_replaced`), so the evaluator gets the same specs under other ids.
-/

namespace FraudAnalyzer.FlagRules

open Python FraudAnalyzer.Lists Policy Charts

/-! ## What the schema accepts -/

/-- `FlagConditionBase._check_operator_arity`: what it raises, or the condition as it leaves it. -/
def checkOperatorArity (c : CoveredCondition) : Except String CoveredCondition :=
  if c.operator.isListOperator then
    if c.listId.getD "" = "" then .error s!"operator '{c.operator.value}' needs a list_id"
    else .ok { c with value := none, value2 := none }
  else if c.operator.isNullary then .ok { c with listId := none, value := none, value2 := none }
  else if c.value.getD "" = "" then
    .error s!"operator '{c.operator.value}' needs a value; only is_not_null, is_null may omit one"
  else if c.operator.isBinary then
    if c.value2.getD "" = "" then
      .error s!"operator '{c.operator.value}' needs both value and value2"
    else .ok { c with listId := none }
  else .ok { c with listId := none, value2 := none }

/-- No accepted condition has an empty list id. -/
theorem listId_of_checked {c : CoveredCondition} (h : checkOperatorArity c = .ok c) :
    c.listId ≠ some "" := by
  intro hempty
  have hcleared : ∀ d : CoveredCondition, d.listId = none →
      Except.ok d ≠ (.ok c : Except String _) :=
    fun d hd heq => by
      rw [Except.ok.inj heq, hempty] at hd
      cases hd
  unfold checkOperatorArity at h
  split at h
  · rw [hempty] at h
    cases h
  · split at h
    · exact hcleared _ rfl h
    · split at h
      · cases h
      · split at h
        · split at h
          · cases h
          · exact hcleared _ rfl h
        · exact hcleared _ rfl h

structure ConditionValid (c : CoveredCondition) : Prop where
  columnName : 1 ≤ c.columnName.length ∧ c.columnName.length ≤ 255
  arity : checkOperatorArity c = .ok c

structure RuleValid (rule : FlagRuleSpec) : Prop where
  name : 1 ≤ rule.name.length ∧ rule.name.length ≤ 200
  conditions : 1 ≤ rule.conditions.length ∧ rule.conditions.length ≤ 20
  condition : ∀ c ∈ rule.conditions, ConditionValid c

/-- `FlagRuleSetUpdate`, once it is validated. -/
structure FlagRuleSetUpdate (u : Unicode) where
  rules : List FlagRuleSpec
  count : rules.length ≤ 50
  rule : ∀ r ∈ rules, RuleValid r
  names_distinct : (rules.map fun r => nameKey u r.name).Nodup

/-! ## The lists that rules name -/

/-- `{c.list_id for rule in rules for c in rule.conditions if c.list_id}` -/
def listIdsOf (rules : List FlagRuleSpec) : List String :=
  rules.flatMap fun r => r.conditions.filterMap fun c => c.listId.filter (· ≠ "")

/-- `ensure_lists_exist`, which is also how `members_for` starts. -/
def ensureListsExist (u : Unicode) (lists : String → Option (List String)) (ids : List String) :
    Except AppError Unit :=
  match sortedNames (ids.filter fun id => (lists id).isNone) with
  | [] => .ok ()
  | first :: rest =>
    .error ⟨.listNotFound, s!"No list with id {repr u first}.",
      [("list_ids", .arr ((first :: rest).map .str))]⟩

/-- `members_for` -/
def membersFor (u : Unicode) (lists : String → Option (List String)) (ids : List String) :
    Except AppError (String → Option (List Member)) := do
  ensureListsExist u lists ids
  return fun id => if id ∈ ids then (lists id).map (membersFromItems u) else none

/-! ## preview_flags -/

/-- The specs of unsaved rules; the id of a rule is its index. -/
def previewSpecs (members : String → Option (List Member)) (rules : List FlagRuleSpec) :
    List RuleSpec :=
  rules.zipIdx.map fun r =>
    ⟨toString r.2, r.1.name, r.1.severity,
      r.1.conditions.map fun c =>
        ⟨c.columnName, c.operator, c.value, c.value2, (c.listId.filter (· ≠ "")).bind members⟩,
      r.1.enabled⟩

/-- `FlagOutcome.as_dict` -/
def FlagOutcome.asDict (outcome : FlagOutcome) : Flags where
  flaggedCount := outcome.rows.length
  rows := outcome.rows.map fun row => ⟨row.index, row.ruleIds, none⟩
  rules := outcome.rules
  warnings := outcome.warnings

/-- `preview_flags` -/
def previewFlags (u : Unicode) (lists : String → Option (List String)) (rules : List FlagRuleSpec)
    (columns : List String) (rows : List (Row columns)) : Except AppError Flags :=
  if rules = [] then .ok (FlagOutcome.asDict ⟨[], [], []⟩)
  else do
    let members ← membersFor u lists (listIdsOf rules)
    return (evaluate u (previewSpecs members rules) columns rows).asDict

/-! ## replace_rules -/

/-- What an `IntegrityError` at the commit becomes. -/
def listGone : AppError :=
  ⟨.listNotFound, "A list used by these rules no longer exists.", []⟩

/-- The foreign key of `flag_conditions.list_id`. -/
def listsStored (lists : String → Option (List String)) (rules : List FlagRuleSpec) : Bool :=
  rules.all fun r => r.conditions.all fun c => c.listId.all fun id => (lists id).isSome

/-- `replace_rules`, in a session that has loaded the rules that are stored. -/
def replaceRules (u : Unicode) (lists : String → Option (List String)) (db : Db) (queryId : String)
    (rules : List FlagRuleSpec) (ids : List String) : Except AppError Db := do
  ensureListsExist u lists (listIdsOf rules)
  if listsStored lists rules then
    match commitRules db queryId (db.rulesOf queryId) rules ids with
    | some db' => return db'
    | none => throw listGone
  else throw listGone

/-! ## What is stored -/

/-- `uuid4` for the rules of a request. -/
structure FreshRuleIds (db : Db) (rules : List FlagRuleSpec) (ids : List String) : Prop where
  length : ids.length = rules.length
  nodup : ids.Nodup
  unused : ∀ id ∈ ids, id ∉ db.flagRules.rows.map FlagRule.id

/-- What is kept of a rule but for its id. -/
def FlagRuleSpec.covered (spec : FlagRuleSpec) : CoveredRule :=
  ⟨spec.name, spec.severity, spec.enabled, spec.conditions⟩

theorem covered_buildRule (queryId id : String) (position : Nat) (spec : FlagRuleSpec) :
    (buildRule queryId id position spec).covered = FlagRuleSpec.covered spec := by
  have hpositions : (spec.conditions.zipIdx.map fun c => (⟨c.2, c.1.columnName, c.1.operator,
      c.1.value, c.1.value2, c.1.listId⟩ : FlagCondition)).Pairwise
        fun a b => a.position < b.position :=
    List.pairwise_map.mpr ((pairwise_zipIdx spec.conditions).imp fun hlt => Int.ofNat_lt.mpr hlt)
  unfold FlagRule.covered buildRule FlagRuleSpec.covered
  rw [sortedBy_eq_of_perm (.refl _) hpositions, List.map_map]
  congr 1
  exact List.zipIdx_map_fst 0 spec.conditions

section Save

variable {u : Unicode} {db : Db} {queryId : String} {rules : List FlagRuleSpec} {ids : List String}

theorem map_buildRules {β : Type} (f : FlagRule → β) (g : FlagRuleSpec × Nat → β)
    (hids : ids.length = rules.length)
    (hf : ∀ id (s : FlagRuleSpec × Nat), f (buildRule queryId id s.2 s.1) = g s) :
    (buildRules queryId ids rules).map f = rules.zipIdx.map g := by
  have hle : rules.zipIdx.length ≤ ids.length := by rw [List.length_zipIdx, hids]
  calc (buildRules queryId ids rules).map f
      = (ids.zip rules.zipIdx).map fun s => g s.2 := by
        unfold buildRules
        rw [List.map_map]
        refine List.map_congr_left fun s _ => ?_
        exact hf s.1 s.2
    _ = ((ids.zip rules.zipIdx).map Prod.snd).map g := by
        rw [List.map_map]
        rfl
    _ = rules.zipIdx.map g := by rw [List.map_snd_zip hle]

theorem map_id_buildRules (hids : ids.length = rules.length) :
    (buildRules queryId ids rules).map FlagRule.id = ids := by
  unfold buildRules
  rw [List.map_map]
  exact List.map_fst_zip (by rw [List.length_zipIdx, hids])

theorem buildRules_sorted (hids : ids.length = rules.length) :
    (buildRules queryId ids rules).Pairwise fun a b => a.position < b.position := by
  have hpositions : (buildRules queryId ids rules).map FlagRule.position =
      rules.zipIdx.map fun s => (s.2 : Int) := map_buildRules _ _ hids fun _ _ => rfl
  have hindices : (rules.zipIdx.map fun s => (s.2 : Int)).Pairwise (· < ·) :=
    List.pairwise_map.mpr ((pairwise_zipIdx rules).imp fun hlt => Int.ofNat_lt.mpr hlt)
  exact List.pairwise_map.mp (hpositions ▸ hindices)

/-- **The rules of a query after a save**, in the order of the request. -/
theorem rulesOf_replaced (hquery : (db.queries.get queryId).isSome)
    (hnames : (rules.map fun r => nameKey u r.name).Nodup) (hids : FreshRuleIds db rules ids) :
    ∃ db', commitRules db queryId (db.rulesOf queryId) rules ids = some db' ∧
      db'.rulesOf queryId = buildRules queryId ids rules := by
  have hbuilt : ((buildRules queryId ids rules).map FlagRule.id).Nodup := by
    rw [map_id_buildRules hids.length]
    exact hids.nodup
  -- no rule of the query is left
  have hkept : ∀ r ∈ (db.flagRules.deleteWhere fun r =>
      r.id ∈ (db.rulesOf queryId).map FlagRule.id).rows, r.queryId ≠ queryId := by
    intro r hr hquery
    obtain ⟨hmem, hother⟩ := List.mem_filter.mp hr
    have hloaded := List.mem_map_of_mem (f := FlagRule.id) (Db.mem_rulesOf.mpr ⟨hmem, hquery⟩)
    simp [hloaded] at hother
  have hnew : ∀ r ∈ buildRules queryId ids rules, r.id ∉ (db.flagRules.deleteWhere fun r =>
      r.id ∈ (db.rulesOf queryId).map FlagRule.id).rows.map FlagRule.id := by
    intro r hr hmem
    have hid := (queryId_of_mem_buildRules hr).2
    obtain ⟨d, hd, hsame⟩ := List.mem_map.mp hmem
    exact hids.unused _ hid (hsame ▸ List.mem_map_of_mem (List.mem_filter.mp hd).1)
  obtain ⟨stored, hstored⟩ := Option.isSome_iff_exists.mp
    ((Table.insertAll_isSome_iff hbuilt).mpr hnew)
  have hfilter : (stored.rows.filter fun r => r.queryId = queryId) =
      buildRules queryId ids rules := by
    rw [Table.rows_insertAll hstored, List.filter_append,
      List.filter_eq_nil_iff.mpr fun r hr => by simpa using hkept r hr, List.nil_append]
    exact List.filter_eq_self.mpr fun r hr => decide_eq_true (queryId_of_mem_buildRules hr).1
  have hdistinct : ((buildRules queryId ids rules).map FlagRule.name).Nodup := by
    rw [map_buildRules FlagRule.name (fun s => s.1.name) hids.length fun _ _ => rfl]
    rw [map_fst_zipIdx FlagRuleSpec.name]
    refine List.Nodup.of_map (nameKey u) ?_
    rw [List.map_map]
    exact hnames
  have hparent : ¬(buildRules queryId ids rules ≠ [] ∧ db.queries.get queryId = none) :=
    fun hnone => by
      rw [hnone.2] at hquery
      cases hquery
  refine ⟨{ db with flagRules := stored }, ?_, ?_⟩
  · unfold commitRules
    simp only []
    rw [if_neg hparent, hstored]
    simp only [Option.bind_eq_bind, Option.bind_some]
    rw [hfilter, if_pos hdistinct]
    rfl
  · unfold Db.rulesOf
    rw [hfilter, sortedBy_eq_of_perm (.refl _) (buildRules_sorted hids.length)]

end Save

/-! ## The lists -/

section ListIds

variable {u : Unicode} {lists : String → Option (List String)} {rules : List FlagRuleSpec}
  {ids : List String}

theorem mem_listIdsOf {id : String} :
    id ∈ listIdsOf rules ↔ id ≠ "" ∧ ∃ r ∈ rules, ∃ c ∈ r.conditions, c.listId = some id := by
  unfold listIdsOf
  simp only [List.mem_flatMap, List.mem_filterMap, Option.filter_eq_some_iff, decide_eq_true_eq]
  grind

theorem ensureListsExist_eq_ok :
    ensureListsExist u lists ids = .ok () ↔ ∀ id ∈ ids, (lists id).isSome := by
  have hmem : ∀ id, id ∈ sortedNames (ids.filter fun id => (lists id).isNone) ↔
      id ∈ ids ∧ (lists id).isNone := fun id => by rw [mem_sortedNames, List.mem_filter]
  unfold ensureListsExist
  split
  next hnil =>
    rw [hnil] at hmem
    refine iff_of_true rfl fun id hid => ?_
    by_contra hnone
    exact absurd ((hmem id).mpr ⟨hid, by simpa using hnone⟩) List.not_mem_nil
  next first rest hcons =>
    rw [hcons] at hmem
    obtain ⟨hid, hnone⟩ := (hmem first).mp List.mem_cons_self
    refine iff_of_false nofun fun hall => ?_
    have hstored := hall first hid
    rw [Option.isNone_iff_eq_none.mp hnone] at hstored
    cases hstored

/-- What a checked condition names is among the lists looked up. -/
theorem mem_listIdsOf_of_condition (payload : FlagRuleSetUpdate u) {r : FlagRuleSpec}
    (hr : r ∈ payload.rules) {c : CoveredCondition} (hc : c ∈ r.conditions) {id : String}
    (hid : c.listId = some id) : id ≠ "" ∧ id ∈ listIdsOf payload.rules := by
  have hne : id ≠ "" := fun hempty =>
    listId_of_checked ((payload.rule r hr).condition c hc).arity (hempty ▸ hid)
  exact ⟨hne, mem_listIdsOf.mpr ⟨hne, r, hr, c, hc, hid⟩⟩

/-- The members of a checked condition are those of its list. -/
theorem members_of_condition (payload : FlagRuleSetUpdate u) {r : FlagRuleSpec}
    (hr : r ∈ payload.rules) {c : CoveredCondition} (hc : c ∈ r.conditions) :
    ((c.listId.filter (· ≠ "")).bind fun id =>
      if id ∈ listIdsOf payload.rules then (lists id).map (membersFromItems u) else none) =
        (c.listId.bind lists).map (membersFromItems u) := by
  cases hid : c.listId with
  | none => rfl
  | some id =>
    obtain ⟨hne, hmem⟩ := mem_listIdsOf_of_condition payload hr hc hid
    rw [Option.filter_some, if_pos (by simpa using hne), Option.bind_some, if_pos hmem,
      Option.bind_some]

/-- The foreign keys hold once the lists are found. -/
theorem listsStored_of_exist (payload : FlagRuleSetUpdate u)
    (h : ensureListsExist u lists (listIdsOf payload.rules) = .ok ()) :
    listsStored lists payload.rules = true := by
  unfold listsStored
  refine List.all_eq_true.mpr fun r hr => List.all_eq_true.mpr fun c hc => ?_
  cases hid : c.listId with
  | none => rfl
  | some id =>
    exact ensureListsExist_eq_ok.mp h id (mem_listIdsOf_of_condition payload hr hc hid).2

end ListIds

/-! ## Both evaluate the same -/

/-- The ids of a preview. -/
def previewIds (rules : List FlagRuleSpec) : List String := rules.zipIdx.map fun r => toString r.2

theorem nodup_previewIds (rules : List FlagRuleSpec) : (previewIds rules).Nodup := by
  refine List.pairwise_map.mpr ((pairwise_zipIdx rules).imp fun hlt hsame => ?_)
  exact absurd (Nat.repr_injective hsame) (ne_of_lt hlt)

/-- The preview's ids under the stored ones. -/
theorem exists_storedName {rules : List FlagRuleSpec} {ids : List String}
    (hids : ids.length = rules.length) : ∃ f : String → String, (previewIds rules).map f = ids :=
  exists_map_eq (nodup_previewIds rules)
    (by rw [previewIds, List.length_map, List.length_zipIdx, hids])

section Same

variable {u : Unicode} {sha256Hex : Sha256Hex} {lists : String → Option (List String)}
  {queryId : String} {ids : List String} {f : String → String}

/-- **The two sets of specs differ in their ids.** -/
theorem specs_of_stored (payload : FlagRuleSetUpdate u) (hids : ids.length = payload.rules.length)
    (hf : (previewIds payload.rules).map f = ids) :
    specsFromModels u lists (buildRules queryId ids payload.rules) =
      (previewSpecs (fun id => if id ∈ listIdsOf payload.rules then
        (lists id).map (membersFromItems u) else none) payload.rules).map (RuleSpec.relabel f) := by
  have hpairs : ids.zip payload.rules.zipIdx =
      payload.rules.zipIdx.map fun r => (f (toString r.2), r) := by
    rw [List.map_prod_right_eq_zip, ← hf, previewIds, List.map_map]
    rfl
  rw [specsFromModels_eq, sortedBy_eq_of_perm (.refl _) (buildRules_sorted hids)]
  unfold buildRules previewSpecs
  rw [hpairs, List.map_map, List.map_map, List.map_map]
  refine List.map_congr_left fun r hr => ?_
  have hconditions : r.1.conditions.map (fun c => (⟨c.columnName, c.operator, c.value, c.value2,
      (c.listId.bind lists).map (membersFromItems u)⟩ : ConditionSpec)) =
        r.1.conditions.map fun c => ⟨c.columnName, c.operator, c.value, c.value2,
          (c.listId.filter (· ≠ "")).bind fun id =>
            if id ∈ listIdsOf payload.rules then (lists id).map (membersFromItems u)
            else none⟩ := by
    refine List.map_congr_left fun c hc => ?_
    rw [members_of_condition payload (List.fst_mem_of_mem_zipIdx hr) hc]
  simp only [Function.comp_apply, covered_buildRule]
  unfold coveredSpec RuleSpec.relabel FlagRuleSpec.covered
  rw [hconditions]
  rfl

end Same

/-- The flags without what identifies a row from run to run. -/
def Flags.withoutFingerprints (flags : Flags) : Flags :=
  { flags with rows := flags.rows.map fun row => { row with fingerprint := none } }

/-- The rules of a query are those of a preview, and mark what the preview showed. -/
structure SavedAsPreviewed (u : Unicode) (sha256Hex : Sha256Hex)
    (lists : String → Option (List String)) (queryId : String) (rules : List FlagRuleSpec) (db : Db)
    (f : String → String) : Prop where
  /-- The preview's ids stand for the stored ones. -/
  bijection : Set.BijOn f {id | id ∈ previewIds rules}
    {id | id ∈ (db.rulesOf queryId).map FlagRule.id}
  /-- The rules and their conditions have the order of the request. -/
  order : (db.rulesOf queryId).map FlagRule.covered = rules.map FlagRuleSpec.covered
  outcome : ∀ (columns : List String) (rows : List (Row columns)),
    (previewFlags u lists rules columns rows).map (Flags.relabel f) =
      .ok (evaluateFlags u sha256Hex lists (db.rulesOf queryId) columns rows).withoutFingerprints

/-- A save fails for a list that does not exist, as the preview does, or stores what was shown. -/
def PreviewShowsSaved (u : Unicode) (sha256Hex : Sha256Hex)
    (lists : String → Option (List String)) (db : Db) (queryId : String)
    (rules : List FlagRuleSpec) (ids : List String) : Prop :=
  match replaceRules u lists db queryId rules ids with
  | .error e => ensureListsExist u lists (listIdsOf rules) = .error e ∧
      ∀ (columns : List String) (rows : List (Row columns)),
        previewFlags u lists rules columns rows = .error e
  | .ok db' => ∃ f, SavedAsPreviewed u sha256Hex lists queryId rules db' f

section Shown

variable {u : Unicode} {sha256Hex : Sha256Hex} {lists : String → Option (List String)} {db : Db}
  {queryId : String} {ids : List String} {f : String → String}

theorem asDict_relabel (outcome : FlagOutcome) :
    (outcome.relabel f).asDict = outcome.asDict.relabel f := by
  unfold FlagOutcome.asDict FlagOutcome.relabel Flags.relabel
  simp only [List.length_map, List.map_map]
  rfl

/-- `evaluate_flags` on rules, but for the fingerprints. -/
theorem withoutFingerprints_evaluateFlags {rules : List FlagRule} (hne : rules ≠ [])
    (columns : List String) (rows : List (Row columns)) :
    (evaluateFlags u sha256Hex lists rules columns rows).withoutFingerprints =
      (evaluate u (specsFromModels u lists rules) columns rows).asDict := by
  unfold evaluateFlags Flags.withoutFingerprints FlagOutcome.asDict
  rw [if_neg hne]
  simp only [List.map_map]
  rfl

/-- What the preview shows, where the rules are stored under the ids `ids`. -/
theorem previewFlags_of_stored (payload : FlagRuleSetUpdate u)
    (hids : ids.length = payload.rules.length) (hf : (previewIds payload.rules).map f = ids)
    (hnodup : ids.Nodup)
    (hlists : ensureListsExist u lists (listIdsOf payload.rules) = .ok ()) (columns : List String)
    (rows : List (Row columns)) :
    (previewFlags u lists payload.rules columns rows).map (Flags.relabel f) =
      .ok (evaluateFlags u sha256Hex lists (buildRules queryId ids payload.rules) columns
        rows).withoutFingerprints := by
  unfold previewFlags membersFor
  have hnil : buildRules queryId ids payload.rules = [] ↔ payload.rules = [] := by
    rw [← List.map_eq_nil_iff (f := FlagRule.id), map_id_buildRules hids,
      ← List.length_eq_zero_iff, hids, List.length_eq_zero_iff]
  by_cases hempty : payload.rules = []
  · rw [if_pos hempty, hnil.mpr hempty]
    rfl
  · have hbuilt : buildRules queryId ids payload.rules ≠ [] := fun h => hempty (hnil.mp h)
    have hinj : Set.InjOn f {id | id ∈ (previewSpecs (fun id =>
        if id ∈ listIdsOf payload.rules then (lists id).map (membersFromItems u) else none)
          payload.rules).map RuleSpec.id} := by
      unfold previewSpecs
      rw [List.map_map]
      exact List.inj_on_of_nodup_map (hf ▸ hnodup)
    rw [if_neg hempty, hlists, withoutFingerprints_evaluateFlags hbuilt,
      specs_of_stored payload hids hf, evaluate_relabel hinj, asDict_relabel]
    rfl

end Shown

/-- **A preview shows what saving the rules would flag.** -/
theorem preview_shows_saved {u : Unicode} (payload : FlagRuleSetUpdate u) (sha256Hex : Sha256Hex)
    (lists : String → Option (List String)) {db : Db} {queryId : String} {ids : List String}
    (hquery : (db.queries.get queryId).isSome) (hids : FreshRuleIds db payload.rules ids) :
    PreviewShowsSaved u sha256Hex lists db queryId payload.rules ids := by
  unfold PreviewShowsSaved
  cases hlists : ensureListsExist u lists (listIdsOf payload.rules) with
  | error e =>
    have hrun : replaceRules u lists db queryId payload.rules ids = .error e := by
      unfold replaceRules
      rw [hlists]
      rfl
    have hne : payload.rules ≠ [] := fun hempty => by
      rw [hempty] at hlists
      cases hlists
    rw [hrun]
    refine ⟨rfl, fun columns rows => ?_⟩
    unfold previewFlags membersFor
    rw [if_neg hne, hlists]
    rfl
  | ok found =>
    obtain ⟨db', hcommit, hrules⟩ := rulesOf_replaced hquery payload.names_distinct hids
    have hrun : replaceRules u lists db queryId payload.rules ids = .ok db' := by
      unfold replaceRules
      rw [hlists, listsStored_of_exist payload hlists, hcommit]
      rfl
    obtain ⟨f, hf⟩ := exists_storedName hids.length
    rw [hrun]
    refine ⟨f, ?_, ?_, ?_⟩
    · have hinj : Set.InjOn f {id | id ∈ previewIds payload.rules} :=
        List.inj_on_of_nodup_map (hf ▸ hids.nodup)
      have himage : f '' {id | id ∈ previewIds payload.rules} =
          {id | id ∈ (db'.rulesOf queryId).map FlagRule.id} := by
        rw [hrules, map_id_buildRules hids.length, ← hf]
        ext id
        exact List.mem_map.symm
      exact himage ▸ hinj.bijOn_image
    · rw [hrules, map_buildRules FlagRule.covered (fun s => FlagRuleSpec.covered s.1) hids.length
        fun id s => covered_buildRule queryId id s.2 s.1]
      exact map_fst_zipIdx _ _
    · intro columns rows
      rw [hrules]
      exact previewFlags_of_stored payload hids.length hf hids.nodup hlists columns rows

namespace Sample

/-- A rule that reads a list and one that compares, in the order of their use. -/
def watchlistRules : FlagRuleSetUpdate .ascii where
  rules :=
    [{ name := "Known mule", severity := .high, enabled := true
       conditions := [⟨"account", .inList, none, none, some "mules"⟩,
         ⟨"amount", .gte, some "100", none, none⟩] },
      { name := "Large", severity := .low, enabled := true
        conditions := [⟨"amount", .between, some "500", some "900", none⟩] }]
  count := by decide
  rule := by
    refine List.forall_mem_cons.mpr ⟨⟨by decide, by decide, ?_⟩, List.forall_mem_singleton.mpr
      ⟨by decide, by decide, ?_⟩⟩
    · exact List.forall_mem_cons.mpr ⟨⟨by decide, rfl⟩,
        List.forall_mem_singleton.mpr ⟨by decide, rfl⟩⟩
    · exact List.forall_mem_singleton.mpr ⟨by decide, rfl⟩
  names_distinct := by decide

def mules : String → Option (List String) := fun id =>
  if id = "mules" then some ["AC-1", "AC-7"] else none

end Sample

theorem watchlist_preview_shows_saved :
    PreviewShowsSaved .ascii bytesDigest Sample.mules Charts.Sample.db "q"
      Sample.watchlistRules.rules ["r", "s"] :=
  preview_shows_saved Sample.watchlistRules bytesDigest Sample.mules rfl
    ⟨by decide, by decide, by decide⟩

end FraudAnalyzer.FlagRules
