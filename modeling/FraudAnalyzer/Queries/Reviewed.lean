import FraudAnalyzer.Charts.Machine
import FraudAnalyzer.FlagRules.Relabel
import FraudAnalyzer.Queries.Execution

/-!
# What was reviewed decides the run

Two stored definitions with one fingerprint run alike: nothing that the fingerprint leaves out can
change the statement, the limits, the chart's mapping, the rows that are flagged or the tallies.
The rules' ids and the chart's id and name are all that may differ.
-/

namespace FraudAnalyzer.Queries

open Charts FlagRules

/-- A run of a stored query. -/
def runStored (E : RunEnv) (db : Db) (query : SavedQuery) (now : Instant) :
    Except AppError RunPayload :=
  runSavedQuery E query (db.rulesOf query.id) (db.chartsOf query.id) now

/-- Two payloads show and flag the same: the result is one, the chart is drawn alike, and the flags
are the same under the other rules' ids. -/
structure SamePayload (f : String → String) (chart chart' : QueryChart) (p p' : RunPayload) :
    Prop where
  result : p'.result = p.result
  chart : ∃ spec ∈ p.charts, spec.id = chart.id ∧
    { spec with id := chart'.id, name := chart'.name } ∈ p'.charts
  flags : p'.flags = p.flags.relabel f

/-- Two runs fail alike or show and flag the same. -/
def SameOutcome (f : String → String) (chart chart' : QueryChart) :
    Except AppError RunPayload → Except AppError RunPayload → Prop
  | .ok p, .ok p' => SamePayload f chart chart' p p'
  | .error e, .error e' => e' = e
  | _, _ => False

/-- Two stored definitions run alike on every target. -/
structure RunsAlike (E : RunEnv) (db db' : Db) (query query' : SavedQuery)
    (chart chart' : QueryChart) : Prop where
  sqlText : query'.sqlText = query.sqlText
  rowLimit : query'.rowLimit = query.rowLimit
  pollInterval : pollIntervalFor E.settings query' = pollIntervalFor E.settings query
  outcome : ∃ f, Renames f (db.rulesOf query.id) (db'.rulesOf query'.id) ∧
    ∀ now now', SameOutcome f chart chart' (runStored E db query now) (runStored E db' query' now')

section Runs

variable {E : RunEnv} {db db' : Db} {query query' : SavedQuery} {chart chart' : QueryChart}

theorem nodup_rulesOf (db : Db) (queryId : String) :
    ((db.rulesOf queryId).map FlagRule.id).Nodup := by
  unfold Db.rulesOf
  rw [(map_sortedBy_perm _).nodup_iff]
  exact db.flagRules.nodup.sublist (List.filter_sublist.map _)

/-- A chart with the same mapping is drawn alike. -/
theorem buildChart_of_mapping (h : chart'.toChartMapping = chart.toChartMapping)
    (columns : List String) :
    buildChart E.unicode E.settings chart' columns =
      { buildChart E.unicode E.settings chart columns with
        id := chart'.id, name := chart'.name } := by
  have htype : chart'.chartType = chart.chartType := congrArg ChartMapping.chartType h
  have hx : chart'.xField = chart.xField := congrArg ChartMapping.xField h
  have hy : chart'.yField = chart.yField := congrArg ChartMapping.yField h
  have hseries : chart'.seriesField = chart.seriesField := congrArg ChartMapping.seriesField h
  have hsurge : chart'.surgeThresholdPct = chart.surgeThresholdPct :=
    congrArg ChartMapping.surgeThresholdPct h
  unfold buildChart
  rw [htype, hx, hy, hseries, hsurge, h]

/-- The runs of definitions with the same covered fields. -/
theorem runsAlike_of_covered (hchart : db.charts.get chart.id = some chart)
    (hchart' : db'.charts.get chart'.id = some chart') (hquery : chart.queryId = query.id)
    (hquery' : chart'.queryId = query'.id) (hconnection : query'.connectionId = query.connectionId)
    (h : coveredDefinition query' chart' (db'.rulesOf query'.id) =
      coveredDefinition query chart (db.rulesOf query.id)) :
    RunsAlike E db db' query query' chart chart' := by
  have hsql : query'.sqlText = query.sqlText := congrArg Covered.sqlText h
  have hlimit : query'.rowLimit = query.rowLimit := congrArg Covered.rowLimit h
  have hpoll : query'.pollIntervalMs = query.pollIntervalMs := congrArg Covered.pollIntervalMs h
  have hmapping : chart'.toChartMapping = chart.toChartMapping := congrArg Covered.chart h
  have hrules : (sortedBy FlagRule.position (db'.rulesOf query'.id)).map FlagRule.covered =
      (sortedBy FlagRule.position (db.rulesOf query.id)).map FlagRule.covered :=
    congrArg Covered.rules h
  have hlen := congrArg List.length hrules
  rw [List.length_map, List.length_map] at hlen
  obtain ⟨f, hf⟩ :=
    exists_renames (nodup_rulesOf db query.id) (nodup_rulesOf db' query'.id) hlen.symm
  refine ⟨hsql, hlimit, ?_, f, hf, ?_⟩
  · unfold pollIntervalFor
    rw [hpoll]
  intro now now'
  unfold runStored runSavedQuery
  rw [hconnection, hsql, hlimit]
  cases executeSql E.settings (E.targets query.connectionId) query.sqlText query.rowLimit with
  | error e => rfl
  | ok result =>
    refine ⟨rfl, ⟨buildChart E.unicode E.settings chart result.columns, ?_, rfl, ?_⟩, ?_⟩
    · exact List.mem_map_of_mem (hquery ▸ Db.mem_chartsOf.mpr ⟨Table.mem_of_get hchart, rfl⟩)
    · rw [← buildChart_of_mapping hmapping]
      exact List.mem_map_of_mem (hquery' ▸ Db.mem_chartsOf.mpr ⟨Table.mem_of_get hchart', rfl⟩)
    · exact evaluateFlags_relabel hf hrules result.columns result.rows

end Runs

/-- **The fingerprint is complete.** For a digest without collisions, two stored definitions have
one fingerprint exactly when their covered fields agree, and then, on one connection, they run
alike. -/
theorem fingerprint_complete (E : RunEnv) (hsha : Function.Injective E.sha256Hex) {db db' : Db}
    {query query' : SavedQuery} {chart chart' : QueryChart}
    (hchart : db.charts.get chart.id = some chart)
    (hchart' : db'.charts.get chart'.id = some chart')
    (hquery : db.queries.get chart.queryId = some query)
    (hquery' : db'.queries.get chart'.queryId = some query') :
    (definitionFingerprint E.sha256Hex query' chart' (db'.rulesOf query'.id) =
        definitionFingerprint E.sha256Hex query chart (db.rulesOf query.id) ↔
      coveredDefinition query' chart' (db'.rulesOf query'.id) =
        coveredDefinition query chart (db.rulesOf query.id)) ∧
    (definitionFingerprint E.sha256Hex query' chart' (db'.rulesOf query'.id) =
        definitionFingerprint E.sha256Hex query chart (db.rulesOf query.id) →
      query'.connectionId = query.connectionId →
      RunsAlike E db db' query query' chart chart') := by
  have hiff := @fingerprint_eq_iff_covered_eq _ hsha query' query chart' chart
    (db'.rulesOf query'.id) (db.rulesOf query.id)
  refine ⟨hiff, ?_⟩
  intro hsame hconnection
  exact runsAlike_of_covered hchart hchart' (Table.key_of_get hquery).symm
    (Table.key_of_get hquery').symm hconnection (hiff.mp hsame)

namespace Sample

/-- A query with a rule and a chart, under the given ids. -/
def stored (queryId ruleId chartId : String) : Db where
  queries := ⟨[⟨queryId, "db", "Transfers", none, "SELECT amount FROM t", none, 100, none, none⟩],
    by simp⟩
  charts := ⟨[{ Charts.Sample.chart with id := chartId, queryId := queryId }], by simp⟩
  flagRules := ⟨[⟨ruleId, queryId, "Large", .high, true, 0,
    [⟨0, "amount", .gt, some "500", none, none⟩]⟩], by simp⟩
  auditLogs := []

/-- One column of two amounts, on every target. -/
def env : RunEnv where
  unicode := .ascii
  sha256Hex := bytesDigest
  settings := .default
  targets _ :=
    { run := fun _ _ => .ok ⟨["amount"], [.single (.int 900), .single (.int 10)], 1⟩
      encodedSize := List.length }
  lists _ := none

end Sample

/-- A definition and its copy under other ids. -/
theorem fingerprint_complete_copy :
    RunsAlike Sample.env (Sample.stored "q" "r" "c") (Sample.stored "q2" "r2" "c2")
      ⟨"q", "db", "Transfers", none, "SELECT amount FROM t", none, 100, none, none⟩
      ⟨"q2", "db", "Transfers", none, "SELECT amount FROM t", none, 100, none, none⟩
      { Charts.Sample.chart with id := "c", queryId := "q" }
      { Charts.Sample.chart with id := "c2", queryId := "q2" } := by
  have h := @fingerprint_complete Sample.env bytesDigest_injective (Sample.stored "q" "r" "c")
    (Sample.stored "q2" "r2" "c2") _ _ { Charts.Sample.chart with id := "c", queryId := "q" }
    { Charts.Sample.chart with id := "c2", queryId := "q2" } rfl rfl rfl rfl
  exact h.2 (h.1.mpr rfl) rfl

end FraudAnalyzer.Queries
