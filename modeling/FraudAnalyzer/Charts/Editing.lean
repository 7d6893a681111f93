import FraudAnalyzer.Charts.Publishing
import FraudAnalyzer.Queries.Limits

/-!
# Edits of a query

The commits of `update_query`, `replace_rules`, `replace_charts` and `delete_query`. Each works on
objects its session loaded earlier. At the commit the session writes the columns that differ from
what it loaded, to whatever row has the key then; a missing row, a `NULL` in a required column or a
name already taken fails the transaction, which is `none` here. `EditEffect` is what every such
commit can do to the database, and all that later modules use.
-/

namespace FraudAnalyzer.Charts

open Python

/-! ## What a caller asks for -/

/-- `SavedQueryUpdate`: a field that is not set is `none`, an explicit null is `some none`. -/
structure SavedQueryUpdate where
  name : Option (Option String) := none
  description : Option (Option String) := none
  sqlText : Option (Option String) := none
  tableHint : Option (Option String) := none
  rowLimit : Option (Option Int) := none
  pollIntervalMs : Option (Option Int) := none

/-- `FlagRuleBase`; the position is the index in the list, for conditions too. -/
structure FlagRuleSpec where
  name : String
  severity : Policy.FlagSeverity
  enabled : Bool
  conditions : List CoveredCondition

/-- `QueryChartBase` -/
structure QueryChartSpec extends ChartMapping where
  name : String

inductive Edit where
  | updateQuery (payload : SavedQueryUpdate)
  | replaceRules (rules : List FlagRuleSpec)
  | replaceCharts (charts : List QueryChartSpec)
  | deleteQuery

/-- A column after a flush: the object's value if it differs from the loaded one. -/
def flushed {α : Type} [DecidableEq α] (loaded new stored : α) : α :=
  if new = loaded then stored else new

/-- A row that is as it was loaded gets the object's values. -/
theorem flushed_self {α : Type} [DecidableEq α] (loaded new : α) :
    flushed loaded new loaded = new := by
  unfold flushed
  split
  next h => exact h.symm
  · rfl

/-! ## update_query -/

/-- The object after the payload's fields are set; `none` when a required column gets a null. -/
def SavedQueryUpdate.assign (payload : SavedQueryUpdate) (query : SavedQuery) :
    Option SavedQuery := do
  let name ← payload.name.getD (some query.name)
  let sqlText ← payload.sqlText.getD (some query.sqlText)
  let rowLimit ← payload.rowLimit.getD (some query.rowLimit)
  return { query with
    name := name
    description := payload.description.getD query.description
    sqlText := sqlText
    tableHint := payload.tableHint.getD query.tableHint
    rowLimit := rowLimit
    pollIntervalMs := payload.pollIntervalMs.getD query.pollIntervalMs }

/-- The stored row after the object is flushed. -/
def flushQuery (loaded new stored : SavedQuery) : SavedQuery :=
  { stored with
    name := flushed loaded.name new.name stored.name
    description := flushed loaded.description new.description stored.description
    sqlText := flushed loaded.sqlText new.sqlText stored.sqlText
    tableHint := flushed loaded.tableHint new.tableHint stored.tableHint
    rowLimit := flushed loaded.rowLimit new.rowLimit stored.rowLimit
    pollIntervalMs := flushed loaded.pollIntervalMs new.pollIntervalMs stored.pollIntervalMs }

theorem flushQuery_id (loaded new stored : SavedQuery) :
    (flushQuery loaded new stored).id = stored.id := rfl

/-- `uq_saved_queries_conn_owner_name`; a row without an owner takes no name. -/
def queryNameTaken (rows : List SavedQuery) (query : SavedQuery) : Bool :=
  query.ownerId.isSome && rows.any fun r =>
    r.id ≠ query.id && r.connectionId = query.connectionId && r.ownerId = query.ownerId &&
      r.name = query.name

/-- `update_query` -/
def commitUpdate (db : Db) (loaded : SavedQuery) (payload : SavedQueryUpdate) : Option Db := do
  let new ← payload.assign loaded
  if new = loaded then return db
  let stored ← db.queries.get loaded.id
  if queryNameTaken db.queries.rows (flushQuery loaded new stored) then none
  else return { db with
    queries := db.queries.modify loaded.id (flushQuery loaded new) (flushQuery_id loaded new) }

/-! ## replace_rules -/

/-- The rule built from a spec. -/
def buildRule (queryId id : String) (position : Nat) (spec : FlagRuleSpec) : FlagRule :=
  ⟨id, queryId, spec.name, spec.severity, spec.enabled, position,
    spec.conditions.zipIdx.map fun c =>
      ⟨c.2, c.1.columnName, c.1.operator, c.1.value, c.1.value2, c.1.listId⟩⟩

def buildRules (queryId : String) (ids : List String) (specs : List FlagRuleSpec) : List FlagRule :=
  (ids.zip specs.zipIdx).map fun s => buildRule queryId s.1 s.2.2 s.2.1

/-- `replace_rules`: the rules that were loaded are deleted, the new ones inserted. -/
def commitRules (db : Db) (queryId : String) (loaded : List FlagRule) (specs : List FlagRuleSpec)
    (ids : List String) : Option Db := do
  let built := buildRules queryId ids specs
  let kept := db.flagRules.deleteWhere fun r => r.id ∈ loaded.map FlagRule.id
  if built ≠ [] ∧ db.queries.get queryId = none then none
  else
    let rules ← kept.insertAll built
    if ((rules.rows.filter fun r => r.queryId = queryId).map FlagRule.name).Nodup then
      return { db with flagRules := rules }
    else none

/-! ## replace_charts -/

/-- `name.strip().lower()` -/
def nameKey (u : Unicode) (name : String) : String := u.lower (strip u name)

/-- `existing.get(key)`: of two charts with one key the dictionary holds the later. -/
def existingChart (u : Unicode) (loaded : List QueryChart) (key : String) : Option QueryChart :=
  loaded.reverse.find? fun c => nameKey u c.name = key

/-- The chart object after a spec is assigned to it. -/
def assignChart (chart : QueryChart) (spec : QueryChartSpec) (position : Nat) : QueryChart :=
  { chart with name := spec.name, position := position, toChartMapping := spec.toChartMapping }

/-- The chart row after the object is flushed: the publishing columns are not the object's. -/
def flushChart (loaded new stored : QueryChart) : QueryChart :=
  { stored with
    name := flushed loaded.name new.name stored.name
    position := flushed loaded.position new.position stored.position
    chartType := flushed loaded.chartType new.chartType stored.chartType
    xField := flushed loaded.xField new.xField stored.xField
    yField := flushed loaded.yField new.yField stored.yField
    seriesField := flushed loaded.seriesField new.seriesField stored.seriesField
    surgeThresholdPct :=
      flushed loaded.surgeThresholdPct new.surgeThresholdPct stored.surgeThresholdPct }

theorem flushChart_id (loaded new stored : QueryChart) :
    (flushChart loaded new stored).id = stored.id := rfl

def newChart (queryId id : String) (spec : QueryChartSpec) (position : Nat) : QueryChart :=
  { spec.toChartMapping, PublishColumns.initial with
    id := id, queryId := queryId, name := spec.name, position := position }

/-- The matched charts with their new state. -/
def chartUpdates (u : Unicode) (loaded : List QueryChart) (specs : List QueryChartSpec) :
    List (QueryChart × QueryChart) :=
  specs.zipIdx.filterMap fun s =>
    (existingChart u loaded (nameKey u s.1.name)).map fun c => (c, assignChart c s.1 s.2)

/-- The specs no loaded chart has the name of, as new charts. -/
def chartInserts (u : Unicode) (queryId : String) (loaded : List QueryChart)
    (specs : List QueryChartSpec) (ids : List String) : List QueryChart :=
  let fresh := specs.zipIdx.filter fun s => (existingChart u loaded (nameKey u s.1.name)).isNone
  (ids.zip fresh).map fun s => newChart queryId s.1 s.2.1 s.2.2

/-- The loaded charts no spec has the name of. -/
def chartRemovals (u : Unicode) (loaded : List QueryChart) (specs : List QueryChartSpec) :
    List String :=
  (loaded.filter fun c =>
    existingChart u loaded (nameKey u c.name) = some c &&
      !(specs.any fun s => nameKey u s.name = nameKey u c.name)).map QueryChart.id

/-- Flush the changed objects; one whose row is gone fails the transaction. -/
def flushCharts (charts : Table QueryChart.id) :
    List (QueryChart × QueryChart) → Option (Table QueryChart.id)
  | [] => some charts
  | (loaded, new) :: rest =>
    if new = loaded then flushCharts charts rest
    else (charts.get loaded.id).bind fun _ =>
      flushCharts (charts.modify loaded.id (flushChart loaded new) (flushChart_id loaded new)) rest

/-- `replace_charts` -/
def commitCharts (u : Unicode) (db : Db) (queryId : String) (loaded : List QueryChart)
    (specs : List QueryChartSpec) (ids : List String) : Option Db := do
  let inserts := chartInserts u queryId loaded specs ids
  let updated ← flushCharts db.charts (chartUpdates u loaded specs)
  if inserts ≠ [] ∧ db.queries.get queryId = none then none
  else
    let inserted ← updated.insertAll inserts
    if ((inserted.rows.filter fun c => c.queryId = queryId).map QueryChart.name).Nodup then
      return { db with
        charts := inserted.deleteWhere fun c => c.id ∈ chartRemovals u loaded specs }
    else none

/-! ## delete_query -/

/-- `delete_query`; the charts and rules go with the query. -/
def commitDelete (db : Db) (queryId : String) : Db :=
  { db with
    queries := db.queries.deleteWhere fun q => q.id = queryId
    charts := db.charts.deleteWhere fun c => c.queryId = queryId
    flagRules := db.flagRules.deleteWhere fun r => r.queryId = queryId }

/-! ## Any edit -/

/-- An edit in progress: the query its session loaded, and the rules and charts once loaded. -/
structure EditOp where
  user : User
  query : SavedQuery
  edit : Edit

structure Loaded where
  rules : List FlagRule
  charts : List QueryChart

/-- The commit of an edit, with the ids given to new rules or charts. -/
def EditOp.commit (u : Unicode) (op : EditOp) (loaded : Loaded) (db : Db) (ids : List String) :
    Option Db :=
  match op.edit with
  | .updateQuery payload => commitUpdate db op.query payload
  | .replaceRules rules => commitRules db op.query.id loaded.rules rules ids
  | .replaceCharts charts => commitCharts u db op.query.id loaded.charts charts ids
  | .deleteQuery => some (commitDelete db op.query.id)

/-- The objects a session loaded belong to the query, and so do the rows with their ids. -/
structure LoadedFor (db : Db) (queryId : String) (loaded : Loaded) : Prop where
  charts : ∀ l ∈ loaded.charts, ∀ c, db.charts.get l.id = some c → c.queryId = queryId
  rules : ∀ l ∈ loaded.rules, ∀ r, db.flagRules.get l.id = some r → r.queryId = queryId

/-- The foreign key of `query_charts`. -/
def Referential (db : Db) : Prop :=
  ∀ id c, db.charts.get id = some c → (db.queries.get c.queryId).isSome

/-- What the commit of an edit can do: it concerns the rows of one query, keeps the publishing
columns of the charts it leaves, and writes no audit entry. -/
structure EditEffect (queryId : String) (ids : List String) (db db' : Db) : Prop where
  audit : db'.auditLogs = db.auditLogs
  chart_of : ∀ id c', db'.charts.get id = some c' →
    (∃ c, db.charts.get id = some c ∧ c'.toPublishColumns = c.toPublishColumns ∧
      c'.queryId = c.queryId) ∨
    (id ∈ ids ∧ c'.toPublishColumns = .initial ∧ c'.queryId = queryId)
  rule_of : ∀ id r', db'.flagRules.get id = some r' →
    db.flagRules.get id = some r' ∨ (id ∈ ids ∧ r'.queryId = queryId)
  other_charts : ∀ id c, db.charts.get id = some c → c.queryId ≠ queryId →
    db'.charts.get id = some c
  other_queries : ∀ id, id ≠ queryId → db'.queries.get id = db.queries.get id
  other_rules : ∀ id, id ≠ queryId → db'.rulesOf id = db.rulesOf id
  referential : Referential db → Referential db'

namespace EditEffect

variable {queryId : String} {ids : List String} {db db' : Db}

theorem refl (queryId : String) (ids : List String) (db : Db) : EditEffect queryId ids db db where
  audit := rfl
  chart_of _ c h := .inl ⟨c, h, rfl, rfl⟩
  rule_of _ _ h := .inl h
  other_charts _ _ h _ := h
  other_queries _ _ := rfl
  other_rules _ _ := rfl
  referential h := h

end EditEffect

section Commits

variable {u : Unicode} {db db' : Db} {queryId : String} {ids : List String}

theorem editEffect_commitUpdate {loaded : SavedQuery} {payload : SavedQueryUpdate}
    (h : commitUpdate db loaded payload = some db') : EditEffect loaded.id ids db db' := by
  unfold commitUpdate at h
  obtain ⟨new, -, h⟩ := Option.bind_eq_some_iff.mp h
  split at h
  · obtain rfl := Option.some.inj h
    exact .refl _ _ _
  obtain ⟨stored, -, h⟩ := Option.bind_eq_some_iff.mp h
  split at h
  · cases h
  · obtain rfl := Option.some.inj h
    have hget := fun id =>
      db.queries.get_modify loaded.id id (flushQuery loaded new) (flushQuery_id loaded new)
    refine { EditEffect.refl loaded.id ids db with other_queries := ?_, referential := ?_ }
    · intro id hid
      exact (hget id).trans (if_neg hid)
    · intro href id c hc
      have hquery := href id c hc
      simp only [hget]
      split
      · rw [Option.isSome_map]
        exact hquery
      · exact hquery

/-- Rows of other queries are the same after deleting and inserting rows of one query. -/
theorem filter_rows_of_other {kept rules : Table FlagRule.id} {built : List FlagRule}
    {loadedIds : List String} {id : String} (hid : id ≠ queryId)
    (hkept : kept = db.flagRules.deleteWhere fun r => r.id ∈ loadedIds)
    (hloaded : ∀ r ∈ db.flagRules.rows, r.id ∈ loadedIds → r.queryId = queryId)
    (hbuilt : ∀ r ∈ built, r.queryId = queryId) (hrules : rules.rows = kept.rows ++ built) :
    (rules.rows.filter fun r => r.queryId = id) =
      db.flagRules.rows.filter fun r => r.queryId = id := by
  have hnew : (built.filter fun r => r.queryId = id) = [] := by
    rw [List.filter_eq_nil_iff]
    intro r hr
    simpa [hbuilt r hr] using Ne.symm hid
  rw [hrules, List.filter_append, hnew, List.append_nil, hkept]
  unfold Table.deleteWhere
  rw [List.filter_filter]
  refine List.filter_congr fun r hr => ?_
  by_cases hquery : r.queryId = id
  · have hnot : r.id ∉ loadedIds := fun hmem => hid (hquery ▸ hloaded r hr hmem)
    simp [hquery, hnot]
  · simp [hquery]

theorem queryId_of_mem_buildRules {specs : List FlagRuleSpec} {r : FlagRule}
    (h : r ∈ buildRules queryId ids specs) : r.queryId = queryId ∧ r.id ∈ ids := by
  unfold buildRules at h
  obtain ⟨s, hs, rfl⟩ := List.mem_map.mp h
  exact ⟨rfl, (List.of_mem_zip hs).1⟩

/-- The rules that were not loaded are left, and the new ones come after them. -/
theorem commitRules_spec {loaded : List FlagRule} {specs : List FlagRuleSpec}
    (h : commitRules db queryId loaded specs ids = some db') :
    ∃ rules : Table FlagRule.id, db' = { db with flagRules := rules } ∧
      rules.rows = (db.flagRules.deleteWhere fun r => r.id ∈ loaded.map FlagRule.id).rows ++
        buildRules queryId ids specs := by
  unfold commitRules at h
  simp only [] at h
  split at h
  · cases h
  obtain ⟨rules, hrules, h⟩ := Option.bind_eq_some_iff.mp h
  split at h
  · exact ⟨rules, (Option.some.inj h).symm, Table.rows_insertAll hrules⟩
  · cases h

theorem editEffect_commitRules {loaded : List FlagRule} {specs : List FlagRuleSpec}
    (hloaded : ∀ l ∈ loaded, ∀ r, db.flagRules.get l.id = some r → r.queryId = queryId)
    (h : commitRules db queryId loaded specs ids = some db') : EditEffect queryId ids db db' := by
  obtain ⟨rules, rfl, hrows⟩ := commitRules_spec h
  refine { EditEffect.refl queryId ids db with rule_of := ?_, other_rules := ?_ }
  · intro id r hr
    rw [Table.get_iff_mem, hrows, List.mem_append] at hr
    obtain ⟨hmem | hmem, rfl⟩ := hr
    · have hold := List.mem_filter.mp hmem
      exact .inl (Table.get_of_mem hold.1)
    · have hbuilt := queryId_of_mem_buildRules hmem
      exact .inr ⟨hbuilt.2, hbuilt.1⟩
  · intro id hid
    unfold Db.rulesOf
    rw [filter_rows_of_other hid rfl _ (fun r hr => (queryId_of_mem_buildRules hr).1) hrows]
    intro r hr hmem
    obtain ⟨l, hl, hlid⟩ := List.mem_map.mp hmem
    exact hloaded l hl r (hlid ▸ Table.get_of_mem hr)

/-- A flush changes no publishing column and moves no chart to another query. -/
theorem get_flushCharts {charts charts' : Table QueryChart.id}
    {updates : List (QueryChart × QueryChart)} (h : flushCharts charts updates = some charts')
    {id : String} {c' : QueryChart} (hget : charts'.get id = some c') :
    ∃ c, charts.get id = some c ∧ c'.toPublishColumns = c.toPublishColumns ∧
      c'.queryId = c.queryId := by
  induction updates generalizing charts with
  | nil =>
    obtain rfl := Option.some.inj h
    exact ⟨c', hget, rfl, rfl⟩
  | cons update rest ih =>
    obtain ⟨loaded, new⟩ := update
    unfold flushCharts at h
    split at h
    · exact ih h
    · obtain ⟨stored, -, h⟩ := Option.bind_eq_some_iff.mp h
      obtain ⟨c, hc, hpublish, hquery⟩ := ih h
      rw [Table.get_modify] at hc
      split at hc
      · obtain ⟨c₀, hc₀, rfl⟩ := Option.map_eq_some_iff.mp hc
        exact ⟨c₀, hc₀, hpublish, hquery⟩
      · exact ⟨c, hc, hpublish, hquery⟩

/-- A flush leaves the charts it does not update. -/
theorem get_flushCharts_of_not_mem {charts charts' : Table QueryChart.id}
    {updates : List (QueryChart × QueryChart)} (h : flushCharts charts updates = some charts')
    {id : String} (hid : ∀ p ∈ updates, p.1.id ≠ id) : charts'.get id = charts.get id := by
  induction updates generalizing charts with
  | nil =>
    obtain rfl := Option.some.inj h
    rfl
  | cons update rest ih =>
    obtain ⟨loaded, new⟩ := update
    have hrest : ∀ p ∈ rest, p.1.id ≠ id := fun p hp => hid p (List.mem_cons_of_mem _ hp)
    unfold flushCharts at h
    split at h
    · exact ih h hrest
    · obtain ⟨stored, -, h⟩ := Option.bind_eq_some_iff.mp h
      rw [ih h hrest, Table.get_modify, if_neg (Ne.symm (hid _ List.mem_cons_self))]

theorem mem_of_existingChart {loaded : List QueryChart} {key : String} {c : QueryChart}
    (h : existingChart u loaded key = some c) : c ∈ loaded := by
  unfold existingChart at h
  exact List.mem_reverse.mp (List.mem_of_find?_eq_some h)

theorem mem_of_chartUpdates {loaded : List QueryChart} {specs : List QueryChartSpec}
    {p : QueryChart × QueryChart} (h : p ∈ chartUpdates u loaded specs) : p.1 ∈ loaded := by
  unfold chartUpdates at h
  obtain ⟨s, -, hs⟩ := List.mem_filterMap.mp h
  obtain ⟨c, hc, rfl⟩ := Option.map_eq_some_iff.mp hs
  exact mem_of_existingChart hc

theorem mem_of_chartRemovals {loaded : List QueryChart} {specs : List QueryChartSpec}
    {id : String} (h : id ∈ chartRemovals u loaded specs) : ∃ l ∈ loaded, l.id = id := by
  unfold chartRemovals at h
  obtain ⟨c, hc, rfl⟩ := List.mem_map.mp h
  exact ⟨c, (List.mem_filter.mp hc).1, rfl⟩

theorem of_mem_chartInserts {loaded : List QueryChart} {specs : List QueryChartSpec}
    {c : QueryChart} (h : c ∈ chartInserts u queryId loaded specs ids) :
    c.id ∈ ids ∧ c.toPublishColumns = .initial ∧ c.queryId = queryId := by
  unfold chartInserts at h
  obtain ⟨s, hs, rfl⟩ := List.mem_map.mp h
  exact ⟨(List.of_mem_zip hs).1, rfl, rfl⟩

/-- The flush, the insertions and the removals, where the query of a new chart is stored. -/
theorem commitCharts_spec {loaded : List QueryChart} {specs : List QueryChartSpec}
    (h : commitCharts u db queryId loaded specs ids = some db') :
    ∃ updated inserted : Table QueryChart.id,
      flushCharts db.charts (chartUpdates u loaded specs) = some updated ∧
      ¬ (chartInserts u queryId loaded specs ids ≠ [] ∧ db.queries.get queryId = none) ∧
      updated.insertAll (chartInserts u queryId loaded specs ids) = some inserted ∧
      db' = { db with
        charts := inserted.deleteWhere fun c => c.id ∈ chartRemovals u loaded specs } := by
  unfold commitCharts at h
  obtain ⟨updated, hupdated, h⟩ := Option.bind_eq_some_iff.mp h
  split at h
  · cases h
  next hparent =>
    obtain ⟨inserted, hinserted, h⟩ := Option.bind_eq_some_iff.mp h
    split at h
    · exact ⟨updated, inserted, hupdated, hparent, hinserted, (Option.some.inj h).symm⟩
    · cases h

theorem editEffect_commitCharts {loaded : List QueryChart} {specs : List QueryChartSpec}
    (hloaded : ∀ l ∈ loaded, ∀ c, db.charts.get l.id = some c → c.queryId = queryId)
    (h : commitCharts u db queryId loaded specs ids = some db') :
    EditEffect queryId ids db db' := by
  obtain ⟨updated, inserted, hupdated, hparent, hinserted, rfl⟩ := commitCharts_spec h
  have hrows := Table.rows_insertAll hinserted
  refine { EditEffect.refl queryId ids db with
    chart_of := ?_, other_charts := ?_, referential := ?_ }
  · intro id c' hc'
    simp only [Table.get_deleteWhere, Option.filter_eq_some_iff] at hc'
    rw [Table.get_iff_mem, hrows, List.mem_append] at hc'
    obtain ⟨⟨hmem | hmem, rfl⟩, -⟩ := hc'
    · exact .inl (get_flushCharts hupdated (Table.get_of_mem hmem))
    · exact .inr (of_mem_chartInserts hmem)
  · intro id c hc hquery
    -- a chart of another query is none of the loaded ones
    have hnot : ∀ l ∈ loaded, l.id ≠ id := fun l hl heq => hquery (hloaded l hl c (heq ▸ hc))
    have hstays : updated.get id = some c := by
      rw [get_flushCharts_of_not_mem hupdated fun p hp => hnot _ (mem_of_chartUpdates hp)]
      exact hc
    have hin : inserted.get id = some c := by
      rw [Table.get_iff_mem] at hstays ⊢
      exact ⟨hrows ▸ List.mem_append_left _ hstays.1, hstays.2⟩
    have hkept : id ∉ chartRemovals u loaded specs := fun hmem => by
      obtain ⟨l, hl, heq⟩ := mem_of_chartRemovals hmem
      exact hnot l hl heq
    simp only [Table.get_deleteWhere, hin, Option.filter_some, Table.key_of_get hin]
    simp [hkept]
  · intro href id c' hc'
    simp only [Table.get_deleteWhere, Option.filter_eq_some_iff] at hc'
    rw [Table.get_iff_mem, hrows, List.mem_append] at hc'
    obtain ⟨⟨hmem | hmem, rfl⟩, -⟩ := hc'
    · obtain ⟨c, hc, -, hquery⟩ := get_flushCharts hupdated (Table.get_of_mem hmem)
      exact hquery ▸ href _ c hc
    · -- a new chart is inserted only while its query is stored
      have hnew : chartInserts u queryId loaded specs ids ≠ [] := List.ne_nil_of_mem hmem
      rw [(of_mem_chartInserts hmem).2.2]
      exact Option.isSome_iff_ne_none.mpr fun hnone => hparent ⟨hnew, hnone⟩

theorem editEffect_commitDelete : EditEffect queryId ids db (commitDelete db queryId) where
  audit := rfl
  chart_of id c' hc' := by
    simp only [commitDelete, Table.get_deleteWhere, Option.filter_eq_some_iff] at hc'
    exact .inl ⟨c', hc'.1, rfl, rfl⟩
  rule_of id r' hr' := by
    simp only [commitDelete, Table.get_deleteWhere, Option.filter_eq_some_iff] at hr'
    exact .inl hr'.1
  other_charts id c hc hquery := by
    simp [commitDelete, Table.get_deleteWhere, hc, hquery]
  other_queries id hid := by
    simp only [commitDelete, Table.get_deleteWhere]
    cases hq : db.queries.get id with
    | none => rfl
    | some q => simp [Table.key_of_get hq, hid]
  other_rules id hid := by
    unfold Db.rulesOf commitDelete Table.deleteWhere
    simp only [List.filter_filter]
    congr 1
    refine List.filter_congr fun r _ => ?_
    by_cases hquery : r.queryId = id
    · simp [hquery, hid]
    · simp [hquery]
  referential href id c hc := by
    simp only [commitDelete, Table.get_deleteWhere, Option.filter_eq_some_iff] at hc ⊢
    obtain ⟨query, hq⟩ := Option.isSome_iff_exists.mp (href id c hc.1)
    have hother : c.queryId ≠ queryId := by simpa using hc.2
    have hid := Table.key_of_get hq
    simp [hq, hid, hother]

/-- **Every edit's commit is an edit effect** on its query. -/
theorem EditOp.commit_effect {op : EditOp} {loaded : Loaded}
    (hloaded : LoadedFor db op.query.id loaded) (h : op.commit u loaded db ids = some db') :
    EditEffect op.query.id ids db db' := by
  unfold EditOp.commit at h
  split at h
  · exact editEffect_commitUpdate h
  · exact editEffect_commitRules hloaded.rules h
  · exact editEffect_commitCharts hloaded.charts h
  · obtain rfl := Option.some.inj h
    exact editEffect_commitDelete

end Commits

end FraudAnalyzer.Charts
