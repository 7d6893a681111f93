import FraudAnalyzer.Charts.Models
import FraudAnalyzer.Lib.FirstKept
import Mathlib.Logic.Embedding.Basic

/-!
# Revision 0009: several charts per query

The upgrade gives every query one chart with the configuration it had and points the dashboard items
at it. The downgrade puts the first chart of a query back into its row and points the items at the
queries; it keeps the items of first charts only.
-/

namespace FraudAnalyzer.Migrations.QueryCharts

open Policy FirstKept

/-! ## The two revisions -/

/-- What moves between `saved_queries` and `query_charts`. -/
structure ChartConfig where
  chartType : ChartType
  xField : Option String
  yField : Option String
  seriesField : Option String
  deriving DecidableEq

/-- What the columns hold when they are added. -/
def ChartConfig.default : ChartConfig := ⟨.table, none, none, none⟩

/-- `saved_queries` at 0008 -/
structure ChartedQuery extends ChartConfig where
  id : String
  name : String
  deriving DecidableEq

/-- `dashboard_items` at 0008 -/
structure QueryItem where
  dashboardId : String
  queryId : String
  position : Int
  deriving DecidableEq

/-- The primary key of `dashboard_items` at 0008. -/
def QueryItem.key (i : QueryItem) : String × String := (i.dashboardId, i.queryId)

/-- A database at revision 0008. -/
structure OldDb where
  queries : Table ChartedQuery.id
  items : Table QueryItem.key
  fk_item : ∀ i ∈ items.rows, i.queryId ∈ queries.rows.map ChartedQuery.id

/-- `saved_queries` at 0009 -/
structure PlainQuery where
  id : String
  name : String
  deriving DecidableEq

/-- `query_charts` -/
structure Chart extends ChartConfig where
  id : String
  queryId : String
  name : String
  position : Int
  deriving DecidableEq

/-- `dashboard_items` at 0009 -/
structure ChartItem where
  dashboardId : String
  chartId : String
  position : Int
  deriving DecidableEq

/-- The primary key of `dashboard_items` at 0009. -/
def ChartItem.key (i : ChartItem) : String × String := (i.dashboardId, i.chartId)

/-- A database at revision 0009. -/
structure NewDb where
  queries : Table PlainQuery.id
  charts : Table Chart.id
  items : Table ChartItem.key
  fk_chart : ∀ c ∈ charts.rows, c.queryId ∈ queries.rows.map PlainQuery.id
  fk_item : ∀ i ∈ items.rows, i.chartId ∈ charts.rows.map Chart.id

/-! ## Upgrade -/

/-- `(row.name or "Chart")[:200]` -/
def chartName (name : String) : String :=
  String.ofList ((if name = "" then "Chart" else name).toList.take 200)

/-- The chart of a query; `uuid` is what `uuid4` returns for it. -/
def chartOf (uuid : String ↪ String) (q : ChartedQuery) : Chart where
  toChartConfig := q.toChartConfig
  id := uuid q.id
  queryId := q.id
  name := chartName q.name
  position := 0

/-- An item on the chart of its query. -/
def repoint (uuid : String ↪ String) (i : QueryItem) : ChartItem :=
  ⟨i.dashboardId, uuid i.queryId, i.position⟩

def strip (q : ChartedQuery) : PlainQuery := ⟨q.id, q.name⟩

/-- `upgrade` -/
def upgrade (uuid : String ↪ String) (db : OldDb) : NewDb where
  queries := ⟨db.queries.rows.map strip, by
    rw [List.map_map]
    exact db.queries.nodup⟩
  charts := ⟨db.queries.rows.map (chartOf uuid), by
    have hids := db.queries.nodup.map uuid.injective
    rw [List.map_map] at hids ⊢
    exact hids⟩
  items := ⟨db.items.rows.map (repoint uuid), by
    have hinj : Function.Injective fun key : String × String => (key.1, uuid key.2) :=
      fun a b h => Prod.ext (Prod.ext_iff.mp h).1 (uuid.injective (Prod.ext_iff.mp h).2)
    have hkeys := db.items.nodup.map hinj
    rw [List.map_map] at hkeys ⊢
    exact hkeys⟩
  fk_chart := by
    rw [List.forall_mem_map, List.map_map]
    exact fun q hq => List.mem_map_of_mem (f := PlainQuery.id ∘ strip) hq
  fk_item := by
    rw [List.forall_mem_map]
    intro i hi
    obtain ⟨q, hq, hid⟩ := List.mem_map.mp (db.fk_item i hi)
    rw [List.map_map, List.mem_map]
    exact ⟨q, hq, congrArg uuid hid⟩

/-! ## Downgrade -/

namespace NewDb

variable (db : NewDb)

/-- `SELECT .. FROM query_charts ORDER BY position` -/
def sortedCharts : List Chart := sortedBy Chart.position db.charts.rows

/-- The charts that the first loop does not skip, one for each query in `seen`. -/
def firstCharts : Table Chart.queryId :=
  ⟨firsts Chart.queryId db.sortedCharts ∅, List.pairwise_map.mpr (pairwise_firsts _ _)⟩

/-- `seen.get(query_id)` -/
def seen (queryId : String) : Option String := (db.firstCharts.get queryId).map Chart.id

/-- `query_for_chart.get(chart_id)` -/
def queryForChart (chartId : String) : Option String :=
  ((db.sortedCharts.filter fun c => db.seen c.queryId = some c.id).find? fun c =>
    c.id = chartId).map Chart.queryId

end NewDb

/-- The row with the columns added. -/
def PlainQuery.widen (q : PlainQuery) : ChartedQuery := { ChartConfig.default, q with }

/-- `UPDATE saved_queries SET chart_type = .., series_field = ..` -/
def ChartedQuery.configure (config : ChartConfig) (q : ChartedQuery) : ChartedQuery :=
  { q with toChartConfig := config }

/-- One turn of the first loop. -/
def configureQuery (queries : Table ChartedQuery.id) (c : Chart) : Table ChartedQuery.id :=
  queries.modify c.queryId (ChartedQuery.configure c.toChartConfig) fun _ => rfl

namespace NewDb

variable (db : NewDb)

/-- The queries with the columns added. -/
def widened : Table ChartedQuery.id :=
  ⟨db.queries.rows.map PlainQuery.widen, by
    rw [List.map_map]
    exact db.queries.nodup⟩

/-- The queries after the first loop. -/
def configured : Table ChartedQuery.id := db.firstCharts.rows.foldl configureQuery db.widened

/-- The items on their queries, without those that `query_for_chart` does not know. -/
def queryItems : List QueryItem :=
  db.items.rows.filterMap fun i =>
    (db.queryForChart i.chartId).map fun queryId => ⟨i.dashboardId, queryId, i.position⟩

/-- The items that the second loop inserts: one for each pair in `placed`. -/
def placedItems : Table QueryItem.key :=
  ⟨firsts QueryItem.key db.queryItems ∅, List.pairwise_map.mpr (pairwise_firsts _ _)⟩

/-! ## The first loop -/

/-- What one turn does to a row. -/
def configureRow (q : ChartedQuery) (c : Chart) : ChartedQuery :=
  if q.id = c.queryId then q.configure c.toChartConfig else q

theorem rows_foldl_configureQuery (cs : List Chart) (queries : Table ChartedQuery.id) :
    (cs.foldl configureQuery queries).rows = queries.rows.map fun q => cs.foldl configureRow q := by
  induction cs generalizing queries with
  | nil => exact (List.map_id _).symm
  | cons c cs ih =>
    have hrows : (configureQuery queries c).rows = queries.rows.map (configureRow · c) := rfl
    rw [List.foldl_cons, ih, hrows, List.map_map]
    rfl

theorem foldl_configureRow {cs : List Chart} (hcs : (cs.map Chart.queryId).Nodup)
    (q : ChartedQuery) :
    cs.foldl configureRow q =
      match cs.find? fun c => c.queryId = q.id with
      | none => q
      | some c => q.configure c.toChartConfig := by
  have hkeep : ∀ (cs : List Chart) (q : ChartedQuery), q.id ∉ cs.map Chart.queryId →
      cs.foldl configureRow q = q := by
    intro cs
    induction cs with
    | nil => exact fun q _ => rfl
    | cons c cs ih =>
      intro q hq
      rw [List.map_cons, List.mem_cons, not_or] at hq
      rw [List.foldl_cons, configureRow, if_neg hq.1, ih q hq.2]
  induction cs with
  | nil => rfl
  | cons c cs ih =>
    rw [List.map_cons, List.nodup_cons] at hcs
    by_cases hc : q.id = c.queryId
    · rw [List.foldl_cons, configureRow, if_pos hc, hkeep, List.find?_cons_of_pos]
      · exact decide_eq_true hc.symm
      · rw [ChartedQuery.configure, hc]
        exact hcs.1
    · rw [List.foldl_cons, configureRow, if_neg hc, ih hcs.2, List.find?_cons_of_neg]
      rw [decide_eq_true_iff]
      exact Ne.symm hc

/-- A query has the configuration of its first chart, or the default one. -/
theorem rows_configured :
    db.configured.rows = db.queries.rows.map fun q =>
      match db.firstCharts.get q.id with
      | none => q.widen
      | some c => q.widen.configure c.toChartConfig := by
  rw [configured, rows_foldl_configureQuery, widened, List.map_map]
  exact List.map_congr_left fun q _ => foldl_configureRow db.firstCharts.nodup q.widen

theorem strip_configured : db.configured.rows.map strip = db.queries.rows := by
  rw [rows_configured, List.map_map]
  conv_rhs => rw [← List.map_id db.queries.rows]
  refine List.map_congr_left fun q _ => ?_
  rw [Function.comp_apply]
  split
  · rfl
  · rfl

theorem ids_configured :
    db.configured.rows.map ChartedQuery.id = db.queries.rows.map PlainQuery.id := by
  rw [← strip_configured, List.map_map]
  rfl

/-! ## The second loop -/

theorem mem_sortedCharts {c : Chart} : c ∈ db.sortedCharts ↔ c ∈ db.charts.rows := mem_sortedBy

theorem mem_charts_of_first {c : Chart} (h : c ∈ db.firstCharts.rows) : c ∈ db.charts.rows :=
  db.mem_sortedCharts.mp ((firsts_sublist _ _).subset h)

theorem seen_eq_some {queryId chartId : String} :
    db.seen queryId = some chartId ↔
      ∃ c ∈ db.firstCharts.rows, c.queryId = queryId ∧ c.id = chartId := by
  rw [seen, Option.map_eq_some_iff]
  simp only [Table.get_iff_mem, and_assoc]

/-- `query_for_chart` knows the first charts. -/
theorem queryForChart_eq_some {chartId queryId : String} :
    db.queryForChart chartId = some queryId ↔
      ∃ c ∈ db.firstCharts.rows, c.id = chartId ∧ c.queryId = queryId := by
  rw [queryForChart, Option.map_eq_some_iff]
  constructor
  · rintro ⟨c, hfind, hquery⟩
    have hmem := List.mem_filter.mp (List.mem_of_find?_eq_some hfind)
    have hid : c.id = chartId := by simpa using List.find?_some hfind
    obtain ⟨f, hf, hfq, hfid⟩ := db.seen_eq_some.mp (decide_eq_true_iff.mp hmem.2)
    exact ⟨f, hf, hfid.trans hid, hfq.trans hquery⟩
  · rintro ⟨c, hc, rfl, rfl⟩
    have hchart := db.mem_charts_of_first hc
    have hseen := db.seen_eq_some.mpr ⟨c, hc, rfl, rfl⟩
    have hmem : c ∈ db.sortedCharts.filter fun c => db.seen c.queryId = some c.id :=
      List.mem_filter.mpr ⟨db.mem_sortedCharts.mpr hchart, decide_eq_true hseen⟩
    have hsome := List.find?_isSome (p := fun f => f.id = c.id).mpr ⟨c, hmem, by simp⟩
    obtain ⟨f, hfind⟩ := Option.isSome_iff_exists.mp hsome
    have hf := List.mem_filter.mp (List.mem_of_find?_eq_some hfind)
    have hid : f.id = c.id := by simpa using List.find?_some hfind
    have hfc : db.charts.get c.id = some f := by
      rw [← hid]
      exact Table.get_of_mem (db.mem_sortedCharts.mp hf.1)
    rw [Table.get_of_mem hchart] at hfc
    cases hfc
    exact ⟨c, hfind, rfl⟩

theorem mem_queryItems {i : QueryItem} :
    i ∈ db.queryItems ↔ ∃ j ∈ db.items.rows, ∃ queryId, db.queryForChart j.chartId = some queryId ∧
      ⟨j.dashboardId, queryId, j.position⟩ = i := by
  rw [queryItems, List.mem_filterMap]
  simp only [Option.map_eq_some_iff]

/-- A dashboard places a query when it placed a chart that `query_for_chart` knows. -/
theorem mem_placedItems {d q : String} :
    (d, q) ∈ db.placedItems.rows.map QueryItem.key ↔
      ∃ j ∈ db.items.rows, j.dashboardId = d ∧ db.queryForChart j.chartId = some q := by
  rw [List.mem_map]
  constructor
  · rintro ⟨i, hi, hkey⟩
    obtain ⟨j, hj, queryId, hquery, rfl⟩ := db.mem_queryItems.mp ((firsts_sublist _ _).subset hi)
    cases hkey
    exact ⟨j, hj, rfl, hquery⟩
  · rintro ⟨j, hj, rfl, hquery⟩
    exact exists_mem_firsts (db.mem_queryItems.mpr ⟨j, hj, q, hquery, rfl⟩) (Finset.notMem_empty _)

theorem fk_placedItems : ∀ i ∈ db.placedItems.rows,
    i.queryId ∈ db.configured.rows.map ChartedQuery.id := by
  intro i hi
  obtain ⟨j, -, queryId, hquery, rfl⟩ := db.mem_queryItems.mp ((firsts_sublist _ _).subset hi)
  obtain ⟨c, hc, -, rfl⟩ := db.queryForChart_eq_some.mp hquery
  rw [ids_configured]
  exact db.fk_chart c (db.mem_charts_of_first hc)

end NewDb

/-- `downgrade` -/
def downgrade (db : NewDb) : OldDb := ⟨db.configured, db.placedItems, db.fk_placedItems⟩

/-! ## What is kept -/

/-- The charts of a query have distinct positions. -/
def NewDb.DistinctPositions (db : NewDb) : Prop :=
  ∀ c ∈ db.charts.rows, ∀ c' ∈ db.charts.rows, c.queryId = c'.queryId → c.position = c'.position →
    c = c'

/-- The first chart of its query. -/
def NewDb.IsFirst (db : NewDb) (c : Chart) : Prop :=
  c ∈ db.charts.rows ∧ ∀ c' ∈ db.charts.rows, c'.queryId = c.queryId → c.position ≤ c'.position

/-- A dashboard places a chart of the query. -/
def NewDb.Places (db : NewDb) (dashboardId queryId : String) : Prop :=
  ∃ i ∈ db.items.rows, i.dashboardId = dashboardId ∧
    ∃ c ∈ db.charts.rows, c.id = i.chartId ∧ c.queryId = queryId

/-- What a downgrade is to keep of a database. -/
structure KeepsPlacements (db : NewDb) (old : OldDb) : Prop where
  queries : old.queries.rows.map strip = db.queries.rows
  config : ∀ c, db.IsFirst c → ∃ q, old.queries.get c.queryId = some q ∧
    q.toChartConfig = c.toChartConfig
  once : ∀ d q, db.Places d q → (old.items.rows.map QueryItem.key).count (d, q) = 1
  never : ∀ d q, ¬ db.Places d q → (old.items.rows.map QueryItem.key).count (d, q) = 0

/-- A dashboard that places a chart of a query places its first one. -/
def NewDb.PlacesFirst (db : NewDb) : Prop :=
  ∀ d q, db.Places d q → ∃ c, db.IsFirst c ∧ c.queryId = q ∧
    ∃ i ∈ db.items.rows, i.dashboardId = d ∧ i.chartId = c.id

instance (db : NewDb) : Decidable db.DistinctPositions :=
  inferInstanceAs (Decidable (∀ c ∈ db.charts.rows, ∀ c' ∈ db.charts.rows,
    c.queryId = c'.queryId → c.position = c'.position → c = c'))

instance (db : NewDb) (c : Chart) : Decidable (db.IsFirst c) :=
  inferInstanceAs (Decidable (c ∈ db.charts.rows ∧
    ∀ c' ∈ db.charts.rows, c'.queryId = c.queryId → c.position ≤ c'.position))

section Downgrade

variable {db : NewDb}

/-- The first loop stops at the first chart of each query. -/
theorem mem_firstCharts (hdb : db.DistinctPositions) {c : Chart} :
    c ∈ db.firstCharts.rows ↔ db.IsFirst c := by
  have hsorted : db.sortedCharts.Pairwise fun a b => a.position ≤ b.position :=
    List.pairwise_insertionSort (fun a b : Chart => a.position ≤ b.position) db.charts.rows
  have hfirst : ∀ f ∈ db.firstCharts.rows, db.IsFirst f := by
    intro f hf
    refine ⟨db.mem_charts_of_first hf, fun c' hc' hsame => ?_⟩
    exact rel_of_mem_firsts hsorted (fun _ => le_refl _) hf (db.mem_sortedCharts.mpr hc') hsame
  refine ⟨hfirst c, fun hc => ?_⟩
  obtain ⟨f, hf, hsame⟩ :=
    exists_mem_firsts (db.mem_sortedCharts.mpr hc.1) (Finset.notMem_empty c.queryId)
  have hle := (hfirst f hf).2 c hc.1 hsame.symm
  have hge := hc.2 f (hfirst f hf).1 hsame
  rwa [hdb c hc.1 f (hfirst f hf).1 hsame.symm (le_antisymm hge hle)]

/-- What a dashboard places after the downgrade. -/
theorem mem_items_downgrade (hdb : db.DistinctPositions) {d q : String} :
    (d, q) ∈ (downgrade db).items.rows.map QueryItem.key ↔
      ∃ c, db.IsFirst c ∧ c.queryId = q ∧
        ∃ i ∈ db.items.rows, i.dashboardId = d ∧ i.chartId = c.id := by
  rw [downgrade, NewDb.mem_placedItems]
  simp only [NewDb.queryForChart_eq_some, mem_firstCharts hdb]
  constructor
  · rintro ⟨i, hi, hd, c, hc, hid, hq⟩
    exact ⟨c, hc, hq, i, hi, hd, hid.symm⟩
  · rintro ⟨c, hc, hq, i, hi, hd, hid⟩
    exact ⟨i, hi, hd, c, hc, hid.symm, hq⟩

theorem config_downgrade (hdb : db.DistinctPositions) {c : Chart} (hc : db.IsFirst c) :
    ∃ q, (downgrade db).queries.get c.queryId = some q ∧ q.toChartConfig = c.toChartConfig := by
  have hget : db.firstCharts.get c.queryId = some c :=
    Table.get_of_mem ((mem_firstCharts hdb).mpr hc)
  obtain ⟨q, hq, hid⟩ := List.mem_map.mp (db.fk_chart c hc.1)
  refine ⟨q.widen.configure c.toChartConfig, ?_, rfl⟩
  rw [downgrade, Table.get_iff_mem, NewDb.rows_configured, List.mem_map]
  exact ⟨⟨q, hq, by rw [hid, hget]⟩, hid⟩

/-- A placement that is kept was one before. -/
theorem places_of_first {d q : String}
    (h : ∃ c, db.IsFirst c ∧ c.queryId = q ∧
      ∃ i ∈ db.items.rows, i.dashboardId = d ∧ i.chartId = c.id) : db.Places d q := by
  obtain ⟨c, hc, hq, i, hi, hd, hid⟩ := h
  exact ⟨i, hi, hd, c, hc.1, hid.symm, hq⟩

/-- The downgrade keeps the placements when no dashboard places only later charts of a query. -/
theorem keepsPlacements_iff (hdb : db.DistinctPositions) :
    KeepsPlacements db (downgrade db) ↔ db.PlacesFirst := by
  constructor
  · intro h d q hplaces
    refine (mem_items_downgrade hdb).mp (List.count_pos_iff.mp ?_)
    rw [h.once d q hplaces]
    exact Nat.one_pos
  · intro hfirst
    refine ⟨db.strip_configured, fun c => config_downgrade hdb, fun d q hplaces => ?_,
      fun d q hnot => ?_⟩
    · exact List.count_eq_one_of_mem (downgrade db).items.nodup
        ((mem_items_downgrade hdb).mpr (hfirst d q hplaces))
    · exact List.count_eq_zero_of_not_mem fun hmem =>
        hnot (places_of_first ((mem_items_downgrade hdb).mp hmem))

end Downgrade

/-! ## There and back -/

section RoundTrip

variable {uuid : String ↪ String} {old : OldDb}

theorem firstCharts_upgrade :
    (upgrade uuid old).firstCharts.rows = old.queries.rows.map (chartOf uuid) := by
  have hpositions : (old.queries.rows.map (chartOf uuid)).Pairwise
      fun a b : Chart => a.position ≤ b.position :=
    List.pairwise_map.mpr (List.pairwise_of_forall fun _ _ => le_refl _)
  have hsorted : (upgrade uuid old).sortedCharts = old.queries.rows.map (chartOf uuid) :=
    hpositions.insertionSort_eq
  have hdistinct : (old.queries.rows.map (chartOf uuid)).Pairwise
      fun a b => a.queryId ≠ b.queryId :=
    List.pairwise_map.mpr (List.pairwise_map.mp old.queries.nodup)
  calc (upgrade uuid old).firstCharts.rows
      = firsts Chart.queryId (upgrade uuid old).sortedCharts ∅ := rfl
    _ = firsts Chart.queryId (old.queries.rows.map (chartOf uuid)) ∅ := by rw [hsorted]
    _ = old.queries.rows.map (chartOf uuid) :=
      firsts_eq_self (fun _ _ => Finset.notMem_empty _) hdistinct

theorem mem_firstCharts_upgrade {q : ChartedQuery} (h : q ∈ old.queries.rows) :
    chartOf uuid q ∈ (upgrade uuid old).firstCharts.rows := by
  rw [firstCharts_upgrade]
  exact List.mem_map_of_mem h

/-- Every query gets its configuration back. -/
theorem queries_downgrade_upgrade :
    (downgrade (upgrade uuid old)).queries.rows = old.queries.rows := by
  rw [downgrade, NewDb.rows_configured, upgrade, List.map_map]
  conv_rhs => rw [← List.map_id old.queries.rows]
  refine List.map_congr_left fun q hq => ?_
  have hget : (upgrade uuid old).firstCharts.get q.id = some (chartOf uuid q) :=
    Table.get_of_mem (mem_firstCharts_upgrade hq)
  change (match (upgrade uuid old).firstCharts.get q.id with
    | none => (strip q).widen
    | some c => (strip q).widen.configure c.toChartConfig) = q
  rw [hget]
  rfl

/-- Every item goes back to its query, at its position. -/
theorem items_downgrade_upgrade :
    (downgrade (upgrade uuid old)).items.rows = old.items.rows := by
  have hitems : (upgrade uuid old).queryItems = old.items.rows := by
    rw [NewDb.queryItems]
    conv_rhs => rw [← List.filterMap_some (l := old.items.rows)]
    rw [show (upgrade uuid old).items.rows = old.items.rows.map (repoint uuid) from rfl,
      List.filterMap_map]
    refine List.filterMap_congr fun i hi => ?_
    obtain ⟨q, hq, hid⟩ := List.mem_map.mp (old.fk_item i hi)
    have hquery : (upgrade uuid old).queryForChart (uuid i.queryId) = some i.queryId :=
      (upgrade uuid old).queryForChart_eq_some.mpr
        ⟨chartOf uuid q, mem_firstCharts_upgrade hq, congrArg uuid hid, hid⟩
    rw [Function.comp_apply, repoint, hquery]
    rfl
  have hdistinct : old.items.rows.Pairwise fun a b => a.key ≠ b.key :=
    List.pairwise_map.mp old.items.nodup
  calc (downgrade (upgrade uuid old)).items.rows
      = firsts QueryItem.key (upgrade uuid old).queryItems ∅ := rfl
    _ = firsts QueryItem.key old.items.rows ∅ := by rw [hitems]
    _ = old.items.rows := firsts_eq_self (fun _ _ => Finset.notMem_empty _) hdistinct

/-- Two old databases with the same rows are the same. -/
theorem OldDb.eq_of_rows {a b : OldDb} (hqueries : a.queries.rows = b.queries.rows)
    (hitems : a.items.rows = b.items.rows) : a = b := by
  obtain ⟨⟨queries, _⟩, ⟨items, _⟩, _⟩ := a
  obtain ⟨⟨queries', _⟩, ⟨items', _⟩, _⟩ := b
  cases hqueries
  cases hitems
  rfl

theorem downgrade_upgrade (uuid : String ↪ String) (old : OldDb) :
    downgrade (upgrade uuid old) = old :=
  OldDb.eq_of_rows queries_downgrade_upgrade items_downgrade_upgrade

end RoundTrip

/-- **The migration loses no placement** exactly when a dashboard that places a chart of a query
places its first one; a database that comes from 0008 goes back to what it was. -/
theorem migration_keeps_iff (db : NewDb) (hdb : db.DistinctPositions) :
    (KeepsPlacements db (downgrade db) ∧ ∀ uuid old, downgrade (upgrade uuid old) = old) ↔
      db.PlacesFirst := by
  rw [and_iff_left downgrade_upgrade]
  exact keepsPlacements_iff hdb

section Examples

/-- A bar chart and a line chart of one query, with the items of one dashboard. -/
def twoCharts (items : List ChartItem) (hnodup : (items.map ChartItem.key).Nodup)
    (hitems : ∀ i ∈ items, i.chartId ∈ ["bar", "line"]) : NewDb where
  queries := ⟨[⟨"q", "Payments"⟩], by decide⟩
  charts :=
    ⟨[⟨⟨.line, some "day", some "total", none⟩, "line", "q", "Trend", 1⟩,
      ⟨⟨.bar, some "country", some "total", none⟩, "bar", "q", "By country", 0⟩], by decide⟩
  items := ⟨items, hnodup⟩
  fk_chart := by decide
  fk_item := fun i hi => by
    have hchart := hitems i hi
    simp only [List.mem_cons, List.not_mem_nil, or_false, List.map_cons, List.map_nil] at hchart ⊢
    exact hchart.symm

/-- The dashboard places both charts. -/
def bothPlaced : NewDb := twoCharts [⟨"d", "line", 0⟩, ⟨"d", "bar", 1⟩] (by decide) (by decide)

/-- The dashboard places the second chart only. -/
def laterPlaced : NewDb := twoCharts [⟨"d", "line", 0⟩] (by decide) (by decide)

theorem bothPlaced_kept : KeepsPlacements bothPlaced (downgrade bothPlaced) := by
  refine ((migration_keeps_iff bothPlaced (by decide)).mpr ?_).1
  rintro d q ⟨i, hi, rfl, c, hc, -, rfl⟩
  have hquery : ∀ c ∈ bothPlaced.charts.rows, "q" = c.queryId := by decide
  have hdashboard : ∀ i ∈ bothPlaced.items.rows, "d" = i.dashboardId := by decide
  refine ⟨⟨⟨.bar, some "country", some "total", none⟩, "bar", "q", "By country", 0⟩,
    by decide, hquery c hc, ⟨"d", "bar", 1⟩, by decide, hdashboard i hi, rfl⟩

/-- A dashboard with a second chart of a query loses it in the downgrade. -/
theorem laterPlaced_lost :
    (downgrade laterPlaced).items.rows = [] ∧
      ¬ KeepsPlacements laterPlaced (downgrade laterPlaced) := by
  have hnone : (downgrade laterPlaced).items.rows = [] := by decide
  refine ⟨hnone, fun h => ?_⟩
  have hplaces : laterPlaced.Places "d" "q" :=
    ⟨⟨"d", "line", 0⟩, by decide, rfl,
      ⟨⟨.line, some "day", some "total", none⟩, "line", "q", "Trend", 1⟩, by decide, rfl, rfl⟩
  have honce := h.once "d" "q" hplaces
  rw [hnone] at honce
  cases honce

end Examples

end FraudAnalyzer.Migrations.QueryCharts
