import FraudAnalyzer.Queries.Updating

/-!
# Creating a query

`create_query`: the row limit and the dry run come first, then one commit of the query with the
table chart it begins with.
-/

namespace FraudAnalyzer.Queries.Creating

open Python Charts Updating

variable {X : Type}

/-- `SavedQueryCreate` -/
structure SavedQueryCreate where
  name : String
  description : Option String
  sqlText : String
  tableHint : Option String
  rowLimit : Option Int
  pollIntervalMs : Option Int

/-- The query as it is constructed. -/
def newQuery (id connectionId : String) (ownerId : Option String) (payload : SavedQueryCreate)
    (rowLimit : Int) : SavedQuery where
  id := id
  connectionId := connectionId
  name := payload.name
  description := payload.description
  sqlText := payload.sqlText
  tableHint := payload.tableHint
  rowLimit := rowLimit
  pollIntervalMs := payload.pollIntervalMs
  ownerId := ownerId

/-- The chart a query begins with. -/
def tableChart (id queryId name : String) : QueryChart :=
  { PublishColumns.initial with
    id := id, queryId := queryId, name := String.ofList (name.toList.take 200), position := 0
    chartType := .table, xField := none, yField := none, seriesField := none
    surgeThresholdPct := none }

/-- The commit of `create_query`. -/
def commitCreate (db : Db) (query : SavedQuery) (chartId : String) : Option Db := do
  if queryNameTaken db.queries.rows query then none
  let queries ← db.queries.insert query
  let charts ← db.charts.insert (tableChart chartId query.id query.name)
  return { db with queries := queries, charts := charts }

def duplicateName (u : Unicode) (name : String) : AppError :=
  ⟨.duplicateName, "A query named " ++ repr u name ++ " already exists on this connection.",
    [("name", .str name)]⟩

/-- `create_query`, with the ids its rows are given. -/
def createQuery (u : Unicode) (settings : Settings) (dryRun : DryRun X) (db : Db)
    (connectionId : String) (ownerId : Option String) (payload : SavedQueryCreate)
    (queryId chartId : String) : Except (Raised X) Db := do
  let rowLimit ← (resolveRowLimit settings payload.rowLimit).mapError .appError
  dryRun.run payload.sqlText
  match commitCreate db (newQuery queryId connectionId ownerId payload rowLimit) chartId with
  | none => throw (.appError (duplicateName u payload.name))
  | some db => return db

/-! ## What a new query adds -/

/-- What the commit of a new query does. -/
structure Created (query : SavedQuery) (chartId : String) (db db' : Db) : Prop where
  query_new : db.queries.get query.id = none
  queries : ∀ id, db'.queries.get id = if id = query.id then some query else db.queries.get id
  charts : ∀ id, db'.charts.get id =
    if id = chartId then some (tableChart chartId query.id query.name) else db.charts.get id
  flagRules : db'.flagRules = db.flagRules

theorem created_of_commitCreate {db db' : Db} {query : SavedQuery} {chartId : String}
    (h : commitCreate db query chartId = some db') : Created query chartId db db' := by
  unfold commitCreate at h
  split at h
  · cases h
  obtain ⟨queries, hqueries, h⟩ := Option.bind_eq_some_iff.mp h
  obtain ⟨charts, hcharts, h⟩ := Option.bind_eq_some_iff.mp h
  obtain rfl := Option.some.inj h
  exact ⟨Table.get_of_insert hqueries, Table.get_insert hqueries, Table.get_insert hcharts, rfl⟩

end FraudAnalyzer.Queries.Creating
