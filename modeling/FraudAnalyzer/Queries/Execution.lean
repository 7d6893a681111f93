import FraudAnalyzer.FlagRules.Outcome
import FraudAnalyzer.Queries.Limits

/-!
# Running a saved query

`execute_sql`, `build_charts` and `run_saved_query` of `app/features/queries/execution.py`. The
target database is a parameter: what it returns for a statement, as cells.
-/

namespace FraudAnalyzer.Queries

open Python FlagRules Policy

/-! ## Execution -/

/-- What a target returns for a statement. -/
structure Fetched where
  columns : List String
  rows : List (Row columns)
  durationMs : Nat

/-- A target database behind the SQL guard: the statement is validated, run, and at most `count`
rows are fetched. `encodedSize` is the length `orjson` gives a row. -/
structure Target where
  run (sql : String) (count : Int) : Except AppError Fetched
  encodedSize (cells : List Cell) : Nat

structure ExecutionResult where
  columns : List String
  rows : List (Row columns)
  truncated : Bool
  durationMs : Nat

def ExecutionResult.rowCount (result : ExecutionResult) : Nat := result.rows.length

/-- `ResultTooLargeError` -/
def resultTooLarge (budget : Int) (returned : Nat) : AppError :=
  ⟨.resultTooLarge,
    "The result passed the " ++ toString budget ++ " byte limit after " ++ toString returned ++
      " rows. Narrow the columns or lower the row limit.",
    [("max_result_bytes", .ofInt budget), ("rows_returned", .ofInt returned)]⟩

/-- The budget check, row by row, with the bytes and the rows so far. -/
def checkBudget (encodedSize : List Cell → Nat) (budget : Int) :
    List (List Cell) → Nat → Nat → Except AppError Unit
  | [], _, _ => .ok ()
  | row :: rows, used, returned =>
    if budget < (used + encodedSize row : Nat) then .error (resultTooLarge budget returned)
    else checkBudget encodedSize budget rows (used + encodedSize row) (returned + 1)

/-- `execute_sql` -/
def executeSql (settings : Settings) (target : Target) (sql : String) (rowLimit : Int) :
    Except AppError ExecutionResult := do
  let fetched ← target.run sql (rowLimit + 1)
  let rows := fetched.rows.take rowLimit.toNat
  checkBudget target.encodedSize settings.maxResultBytes (rows.map Subtype.val) 0 0
  return ⟨fetched.columns, rows, decide (rowLimit < fetched.rows.length), fetched.durationMs⟩

/-! ## Chart shaping -/

/-- The value of a mapping's field. -/
def fieldOf (mapping : ChartMapping) : ChartField → Option String
  | .xField => mapping.xField
  | .yField => mapping.yField
  | .seriesField => mapping.seriesField

/-- A chart as a payload shows it. -/
structure ChartSpec where
  id : String
  name : String
  chartType : ChartType
  xField : Option String
  yField : Option String
  seriesField : Option String
  surgeThresholdPct : PyFloat
  warnings : List String
  deriving DecidableEq

def absentField (u : Unicode) (columns : List String) (field : ChartField) (value : String) :
    String :=
  field.name ++ " " ++ repr u value ++ " is not in the result columns " ++
    reprList u (sortedNames columns)

def unsetField (u : Unicode) (chartType : ChartType) (field : ChartField) : String :=
  "chart_type " ++ repr u chartType.value ++ " needs " ++ field.name ++ " to be set"

/-- The warnings of `build_chart`. -/
def chartWarnings (u : Unicode) (mapping : ChartMapping) (columns : List String) : List String :=
  ([.xField, .yField, .seriesField].filterMap fun field =>
    match fieldOf mapping field with
    | none => none
    | some value =>
      if value ≠ "" ∧ value ∉ columns then some (absentField u columns field value) else none) ++
  (mapping.chartType.requiredFields.filter fun field => (fieldOf mapping field).getD "" = "").map
    (unsetField u mapping.chartType)

/-- `build_chart` -/
def buildChart (u : Unicode) (settings : Settings) (chart : QueryChart) (columns : List String) :
    ChartSpec where
  id := chart.id
  name := chart.name
  chartType := chart.chartType
  xField := chart.xField
  yField := chart.yField
  seriesField := chart.seriesField
  surgeThresholdPct := chart.surgeThresholdPct.getD settings.defaultSurgeThresholdPct
  warnings := chartWarnings u chart.toChartMapping columns

/-- `build_charts` -/
def buildCharts (u : Unicode) (settings : Settings) (charts : List QueryChart)
    (columns : List String) : List ChartSpec :=
  charts.map fun chart => buildChart u settings chart columns

/-! ## Saved queries -/

/-- `canonical_hash` -/
def canonicalHash (sha256Hex : Sha256Hex) (columns : List String) (rows : List (List Cell))
    (flags : Flags) : String :=
  "sha256:" ++ sha256Hex (String.ofList (Json.obj
    [("columns", .arr (columns.map .str)), ("rows", (Cell.list (rows.map .list)).json),
      ("flags", flags.json)]).sortKeys.write).toUTF8

structure RunPayload where
  queryId : String
  executedAt : Instant
  result : ExecutionResult
  dataHash : String
  charts : List ChartSpec
  flags : Flags

/-- What a run takes from its surroundings besides the query. -/
structure RunEnv where
  unicode : Unicode
  sha256Hex : Sha256Hex
  settings : Settings
  /-- The database of each connection. -/
  targets : String → Target
  /-- The items of each stored list. -/
  lists : String → Option (List String)

/-- `run_saved_query`, with the rules and charts of the query. -/
def runSavedQuery (E : RunEnv) (query : SavedQuery) (rules : List FlagRule)
    (charts : List QueryChart) (now : Instant) : Except AppError RunPayload := do
  let result ← executeSql E.settings (E.targets query.connectionId) query.sqlText query.rowLimit
  let flags := evaluateFlags E.unicode E.sha256Hex E.lists rules result.columns result.rows
  return {
    queryId := query.id
    executedAt := now
    result := result
    dataHash := canonicalHash E.sha256Hex result.columns (result.rows.map Subtype.val) flags
    charts := buildCharts E.unicode E.settings charts result.columns
    flags := flags }

end FraudAnalyzer.Queries
