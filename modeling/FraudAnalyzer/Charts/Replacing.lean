import FraudAnalyzer.Charts.Machine

/-!
# Replacing the charts of a query

`replace_charts` with the dashboard items that place the charts. The stored charts of a query have
distinct names, but the loop compares names without case and outer white space. As long as no two
stored names agree in that way, every chart is found by its spec or is removed. Of two charts with
such names the dictionary holds one; the other is neither found nor removed (`get_of_shadowed`).
-/

namespace FraudAnalyzer.Charts

open Python

/-! ## Placements -/

/-- `dashboard_items` -/
structure DashboardItem where
  dashboardId : String
  chartId : String
  position : Int
  deriving DecidableEq

/-- The primary key of `dashboard_items`. -/
def DashboardItem.key (i : DashboardItem) : String × String := (i.dashboardId, i.chartId)

/-- The app database with the items of its dashboards. -/
structure Placed where
  db : Db
  items : Table DashboardItem.key
  fk_item : ∀ i ∈ items.rows, i.chartId ∈ db.charts.rows.map QueryChart.id

/-- The places of a chart. -/
def Placed.placements (s : Placed) (chartId : String) : List DashboardItem :=
  s.items.rows.filter fun i => i.chartId = chartId

/-- `ON DELETE CASCADE` of `dashboard_items.chart_id`. -/
def cascade (charts : Table QueryChart.id) (items : Table DashboardItem.key) :
    Table DashboardItem.key :=
  items.deleteWhere fun i => i.chartId ∉ charts.rows.map QueryChart.id

theorem mem_cascade {charts : Table QueryChart.id} {items : Table DashboardItem.key}
    {i : DashboardItem} :
    i ∈ (cascade charts items).rows ↔
      i ∈ items.rows ∧ i.chartId ∈ charts.rows.map QueryChart.id := by
  simp only [cascade, Table.deleteWhere, List.mem_filter, Bool.not_eq_true',
    decide_eq_false_iff_not, not_not]

/-- `replace_charts`, in a session that has loaded the charts that are stored. -/
def replaceCharts (u : Unicode) (s : Placed) (queryId : String) (specs : List QueryChartSpec)
    (ids : List String) : Option Placed :=
  (commitCharts u s.db queryId (s.db.chartsOf queryId) specs ids).map fun db =>
    ⟨db, cascade db.charts s.items, fun _ hi => (mem_cascade.mp hi).2⟩

/-! ## Names that match -/

/-- A chart's name as `replace_charts` compares it. -/
def chartKey (u : Unicode) (c : QueryChart) : String := nameKey u c.name

def specKey (u : Unicode) (spec : QueryChartSpec) : String := nameKey u spec.name

section Matching

variable {u : Unicode} {loaded : List QueryChart} {specs : List QueryChartSpec}
  {queryId : String} {ids : List String}

theorem key_of_existingChart {k : String} {c : QueryChart}
    (h : existingChart u loaded k = some c) : chartKey u c = k := by
  have hfound := List.find?_some h
  exact of_decide_eq_true hfound

theorem existingChart_eq_none {k : String} :
    existingChart u loaded k = none ↔ k ∉ loaded.map (chartKey u) := by
  unfold existingChart
  rw [List.find?_eq_none, List.mem_map]
  simp only [List.mem_reverse, decide_eq_true_eq, not_exists, not_and]
  exact Iff.rfl

/-- Without two names alike, a chart is found under its name. -/
theorem existingChart_eq_some (hloaded : (loaded.map (chartKey u)).Nodup) {k : String}
    {c : QueryChart} : existingChart u loaded k = some c ↔ c ∈ loaded ∧ chartKey u c = k := by
  constructor
  · intro h
    exact ⟨mem_of_existingChart h, key_of_existingChart h⟩
  · rintro ⟨hc, rfl⟩
    cases hfound : existingChart u loaded (chartKey u c) with
    | none => exact absurd (List.mem_map_of_mem hc) (existingChart_eq_none.mp hfound)
    | some d =>
      have hkey := key_of_existingChart hfound
      rw [List.inj_on_of_nodup_map hloaded (mem_of_existingChart hfound) hc hkey]

theorem mem_chartUpdates (hloaded : (loaded.map (chartKey u)).Nodup)
    {p : QueryChart × QueryChart} :
    p ∈ chartUpdates u loaded specs ↔ p.1 ∈ loaded ∧
      ∃ s ∈ specs.zipIdx, chartKey u p.1 = specKey u s.1 ∧ p.2 = assignChart p.1 s.1 s.2 := by
  unfold chartUpdates
  rw [List.mem_filterMap]
  constructor
  · rintro ⟨s, hs, h⟩
    obtain ⟨c, hc, rfl⟩ := Option.map_eq_some_iff.mp h
    exact ⟨mem_of_existingChart hc, s, hs, key_of_existingChart hc, rfl⟩
  · rintro ⟨hp, s, hs, hkey, hnew⟩
    refine ⟨s, hs, Option.map_eq_some_iff.mpr ⟨p.1, ?_, Prod.ext rfl hnew.symm⟩⟩
    exact (existingChart_eq_some hloaded).mpr ⟨hp, hkey⟩

theorem mem_chartRemovals (hloaded : (loaded.map (chartKey u)).Nodup) {id : String} :
    id ∈ chartRemovals u loaded specs ↔
      ∃ c ∈ loaded, c.id = id ∧ chartKey u c ∉ specs.map (specKey u) := by
  unfold chartRemovals
  rw [List.mem_map]
  refine exists_congr fun c => ?_
  rw [List.mem_filter, and_assoc]
  refine and_congr_right fun hc => ?_
  have hself : existingChart u loaded (nameKey u c.name) = some c :=
    (existingChart_eq_some hloaded).mpr ⟨hc, rfl⟩
  have hany : (specs.any fun s => nameKey u s.name = nameKey u c.name) = true ↔
      chartKey u c ∈ specs.map (specKey u) := by
    rw [List.any_eq_true, List.mem_map]
    simp only [decide_eq_true_eq]
    exact Iff.rfl
  rw [hself, decide_eq_true rfl, Bool.true_and, Bool.not_eq_true', ← Bool.not_eq_true, hany]
  exact and_comm

/-- Each chart is updated once. -/
theorem nodup_chartUpdates (hspecs : (specs.map (specKey u)).Nodup)
    (hids : (loaded.map QueryChart.id).Nodup) :
    ((chartUpdates u loaded specs).map fun p => p.1.id).Nodup := by
  have hkeys : (specs.zipIdx.map fun s => specKey u s.1).Nodup := by
    rw [map_fst_zipIdx]
    exact hspecs
  unfold chartUpdates
  rw [List.map_filterMap]
  refine (List.pairwise_map.mp hkeys).filterMap _ ?_
  intro s s' hne id hid id' hid' heq
  simp only [Option.map_map, Option.map_eq_some_iff, Function.comp_apply] at hid hid'
  obtain ⟨c, hc, rfl⟩ := hid
  obtain ⟨c', hc', rfl⟩ := hid'
  have hsame : c = c' :=
    List.inj_on_of_nodup_map hids (mem_of_existingChart hc) (mem_of_existingChart hc') heq
  refine hne ?_
  calc specKey u s.1 = chartKey u c := (key_of_existingChart hc).symm
    _ = chartKey u c' := congrArg _ hsame
    _ = specKey u s'.1 := key_of_existingChart hc'

end Matching

/-! ## The flush -/

/-- What a flush makes of a row. -/
def flushedRow (updates : List (QueryChart × QueryChart)) (r : QueryChart) : QueryChart :=
  ((updates.find? fun p => p.1.id = r.id).map Prod.snd).getD r

section Flush

variable {updates : List (QueryChart × QueryChart)} {r : QueryChart}

theorem flushedRow_of_not_mem (h : ∀ p ∈ updates, p.1.id ≠ r.id) : flushedRow updates r = r := by
  have hnone : (updates.find? fun p => p.1.id = r.id) = none :=
    List.find?_eq_none.mpr fun p hp => by simpa using h p hp
  rw [flushedRow, hnone]
  rfl

theorem flushedRow_cons (l n : QueryChart) :
    flushedRow ((l, n) :: updates) r = if l.id = r.id then n else flushedRow updates r := by
  unfold flushedRow
  rw [List.find?_cons]
  by_cases h : l.id = r.id
  · simp [h]
  · simp [h]

theorem flushedRow_of_mem (hnodup : (updates.map fun p => p.1.id).Nodup)
    {p : QueryChart × QueryChart} (hp : p ∈ updates) (hid : p.1.id = r.id) :
    flushedRow updates r = p.2 := by
  induction updates with
  | nil => cases hp
  | cons q rest ih =>
    obtain ⟨l, n⟩ := q
    rw [List.map_cons, List.nodup_cons] at hnodup
    rw [flushedRow_cons]
    rcases List.mem_cons.mp hp with rfl | hp
    · rw [if_pos hid]
    · have hne : l.id ≠ r.id := fun heq => by
        refine hnodup.1 ?_
        rw [heq, ← hid]
        exact List.mem_map_of_mem (f := fun p : QueryChart × QueryChart => p.1.id) hp
      rw [if_neg hne, ih hnodup.2 hp]

/-- Objects as they are stored, each updated once, are flushed into their rows. -/
theorem flushCharts_rows {charts : Table QueryChart.id}
    (hstored : ∀ p ∈ updates, p.1 ∈ charts.rows) (hnodup : (updates.map fun p => p.1.id).Nodup)
    (hflush : ∀ p ∈ updates, flushChart p.1 p.2 p.1 = p.2) :
    ∃ charts', flushCharts charts updates = some charts' ∧
      charts'.rows = charts.rows.map (flushedRow updates) := by
  induction updates generalizing charts with
  | nil => exact ⟨charts, rfl, (List.map_id _).symm⟩
  | cons p rest ih =>
    obtain ⟨l, n⟩ := p
    obtain ⟨hl, hrest⟩ := List.forall_mem_cons.mp hstored
    obtain ⟨hn, hflush⟩ := List.forall_mem_cons.mp hflush
    rw [List.map_cons, List.nodup_cons] at hnodup
    have hother : ∀ p ∈ rest, p.1.id ≠ l.id := fun p hp heq => by
      refine hnodup.1 ?_
      rw [← heq]
      exact List.mem_map_of_mem (f := fun p : QueryChart × QueryChart => p.1.id) hp
    -- the row of this object is the object
    have hrow : ∀ r ∈ charts.rows, l.id = r.id → r = l := fun r hr heq =>
      (List.inj_on_of_nodup_map charts.nodup hl hr heq).symm
    unfold flushCharts
    split
    next hsame =>
      obtain ⟨charts', hcharts', hrows⟩ := ih hrest hnodup.2 hflush
      refine ⟨charts', hcharts', hrows.trans (List.map_congr_left fun r hr => ?_)⟩
      rw [flushedRow_cons]
      split
      next hid =>
        obtain rfl := hrow r hr hid
        rw [flushedRow_of_not_mem hother, hsame]
      · rfl
    · rw [Table.get_of_mem hl, Option.bind_some]
      have hstored' : ∀ p ∈ rest, p.1 ∈
          (charts.modify l.id (flushChart l n) (flushChart_id l n)).rows := by
        intro p hp
        refine List.mem_map.mpr ⟨p.1, hrest p hp, if_neg (hother p hp)⟩
      obtain ⟨charts', hcharts', hrows⟩ := ih hstored' hnodup.2 hflush
      refine ⟨charts', hcharts', hrows.trans ?_⟩
      unfold Table.modify
      rw [List.map_map]
      refine List.map_congr_left fun r hr => ?_
      rw [Function.comp_apply, flushedRow_cons]
      by_cases hid : l.id = r.id
      · obtain rfl := hrow r hr hid
        have hn : flushChart r n r = n := hn
        have hnid : n.id = r.id := by rw [← hn, flushChart_id]
        rw [if_pos rfl, if_pos rfl, hn, flushedRow_of_not_mem]
        intro p hp
        rw [hnid]
        exact hother p hp
      · rw [if_neg (Ne.symm hid), if_neg hid]

/-- A flush of objects that were not changed. -/
theorem flushCharts_of_unchanged (charts : Table QueryChart.id) (h : ∀ p ∈ updates, p.2 = p.1) :
    flushCharts charts updates = some charts := by
  induction updates with
  | nil => rfl
  | cons p rest ih =>
    obtain ⟨hp, hrest⟩ := List.forall_mem_cons.mp h
    unfold flushCharts
    rw [if_pos hp, ih hrest]

end Flush

/-! ## One replacement -/

/-- `uuid4` for the charts of a request: as many ids as it may need, and no stored chart has one. -/
structure FreshIds (db : Db) (specs : List QueryChartSpec) (ids : List String) : Prop where
  enough : specs.length ≤ ids.length
  nodup : ids.Nodup
  unused : ∀ id ∈ ids, id ∉ db.charts.rows.map QueryChart.id

/-- The charts of a stored query, without two names alike, and what the schema accepts for it. -/
structure Replaceable (u : Unicode) (db : Db) (queryId : String) (specs : List QueryChartSpec)
    (ids : List String) : Prop where
  query : (db.queries.get queryId).isSome
  stored : ((db.chartsOf queryId).map (chartKey u)).Nodup
  incoming : (specs.map (specKey u)).Nodup
  fresh : FreshIds db specs ids

/-- What a caller sees of a chart: its name, its position and its mapping. -/
def shown (c : QueryChart) : String × Int × ChartMapping := (c.name, c.position, c.toChartMapping)

/-- The charts that a list of specs describes. -/
def described (specs : List QueryChartSpec) : List (String × Int × ChartMapping) :=
  specs.zipIdx.map fun s => (s.1.name, (s.2 : Int), s.1.toChartMapping)

theorem flushChart_assignChart (c : QueryChart) (spec : QueryChartSpec) (position : Nat) :
    flushChart c (assignChart c spec position) c = assignChart c spec position := by
  simp only [flushChart, flushed_self]
  rfl

theorem chartsOf_perm (db : Db) (queryId : String) :
    (db.chartsOf queryId).Perm (db.charts.rows.filter fun c => c.queryId = queryId) :=
  sortedBy_perm _ _

theorem nodup_ids_chartsOf (db : Db) (queryId : String) :
    ((db.chartsOf queryId).map QueryChart.id).Nodup :=
  ((chartsOf_perm db queryId).map _).nodup_iff.mpr
    (db.charts.nodup.sublist (List.filter_sublist.map _))

section Insert

variable {u : Unicode} {queryId : String} {loaded : List QueryChart} {specs : List QueryChartSpec}
  {ids : List String}

theorem nodup_chartInserts (hids : ids.Nodup) :
    ((chartInserts u queryId loaded specs ids).map QueryChart.id).Nodup := by
  unfold chartInserts
  rw [List.map_map]
  exact hids.sublist (map_fst_zip_sublist ids _)

/-- With ids enough, every spec without a chart gets one. -/
theorem map_chartInserts {β : Type} (f : QueryChart → β) (g : QueryChartSpec × Nat → β)
    (hids : specs.length ≤ ids.length)
    (hf : ∀ id s, f (newChart queryId id s.1 s.2) = g s) :
    (chartInserts u queryId loaded specs ids).map f =
      (specs.zipIdx.filter fun s => (existingChart u loaded (specKey u s.1)).isNone).map g := by
  have hle : (specs.zipIdx.filter fun s =>
      (existingChart u loaded (specKey u s.1)).isNone).length ≤ ids.length :=
    (List.length_filter_le _ _).trans (by rwa [List.length_zipIdx])
  unfold chartInserts
  rw [List.map_map, ← List.map_snd_zip hle, List.map_map]
  refine List.map_congr_left fun s _ => ?_
  exact hf s.1 s.2

theorem mem_key_of_mem_chartInserts {c : QueryChart}
    (h : c ∈ chartInserts u queryId loaded specs ids) : chartKey u c ∈ specs.map (specKey u) := by
  unfold chartInserts at h
  obtain ⟨s, hs, rfl⟩ := List.mem_map.mp h
  have hspec := (List.mem_filter.mp (List.of_mem_zip hs).2).1
  exact List.mem_map.mpr ⟨s.2.1, List.fst_mem_of_mem_zipIdx hspec, rfl⟩

theorem key_of_mem_chartInserts {c : QueryChart}
    (h : c ∈ chartInserts u queryId loaded specs ids) :
    chartKey u c ∉ loaded.map (chartKey u) := by
  unfold chartInserts at h
  obtain ⟨s, hs, rfl⟩ := List.mem_map.mp h
  have hnone := (List.mem_filter.mp (List.of_mem_zip hs).2).2
  exact existingChart_eq_none.mp (Option.isNone_iff_eq_none.mp hnone)

/-- Every spec with a chart updates it. -/
theorem map_chartUpdates {β : Type} (f : QueryChart → β) (g : QueryChartSpec × Nat → β)
    (hf : ∀ c s, f (assignChart c s.1 s.2) = g s) :
    (chartUpdates u loaded specs).map (fun p => f p.2) =
      (specs.zipIdx.filter fun s => (existingChart u loaded (specKey u s.1)).isSome).map g := by
  unfold chartUpdates
  induction specs.zipIdx with
  | nil => rfl
  | cons s rest ih =>
    rw [List.filterMap_cons, List.filter_cons]
    cases hfound : existingChart u loaded (nameKey u s.1.name) with
    | none => simpa [specKey, hfound] using ih
    | some c => simpa [specKey, hfound, hf] using ih

end Insert

/-- One chart in two states. -/
structure SameChart (u : Unicode) (c c' : QueryChart) : Prop where
  id : c'.id = c.id
  queryId : c'.queryId = c.queryId
  key : chartKey u c' = chartKey u c
  publish : c'.toPublishColumns = c.toPublishColumns

theorem SameChart.refl (u : Unicode) (c : QueryChart) : SameChart u c c := ⟨rfl, rfl, rfl, rfl⟩

section Commit

variable {u : Unicode} {db : Db} {queryId : String} {specs : List QueryChartSpec}
  {ids : List String} {c : QueryChart}

theorem mem_map_specKey {k : String} :
    k ∈ specs.map (specKey u) ↔ ∃ s ∈ specs.zipIdx, k = specKey u s.1 := by
  rw [← map_fst_zipIdx, List.mem_map]
  simp only [eq_comm]

/-- The row of a chart that a spec is found for. -/
theorem flushedRow_of_spec (h : Replaceable u db queryId specs ids) (hc : c ∈ db.chartsOf queryId)
    {s : QueryChartSpec × Nat} (hs : s ∈ specs.zipIdx) (hkey : chartKey u c = specKey u s.1) :
    flushedRow (chartUpdates u (db.chartsOf queryId) specs) c = assignChart c s.1 s.2 := by
  have hmem : (c, assignChart c s.1 s.2) ∈ chartUpdates u (db.chartsOf queryId) specs :=
    (mem_chartUpdates h.stored).mpr ⟨hc, s, hs, hkey, rfl⟩
  exact flushedRow_of_mem (nodup_chartUpdates h.incoming (nodup_ids_chartsOf db queryId)) hmem rfl

/-- The row of any other chart stays. -/
theorem flushedRow_of_other (h : Replaceable u db queryId specs ids) (hc : c ∈ db.charts.rows)
    (hother : ¬(c ∈ db.chartsOf queryId ∧ chartKey u c ∈ specs.map (specKey u))) :
    flushedRow (chartUpdates u (db.chartsOf queryId) specs) c = c := by
  refine flushedRow_of_not_mem fun p hp hid => hother ?_
  obtain ⟨hloaded, s, hs, hkey, -⟩ := (mem_chartUpdates h.stored).mp hp
  have hrow : p.1 = c :=
    List.inj_on_of_nodup_map db.charts.nodup (Db.mem_chartsOf.mp hloaded).1 hc hid
  rw [← hrow]
  exact ⟨hloaded, mem_map_specKey.mpr ⟨s, hs, hkey⟩⟩

theorem sameChart_flushedRow (h : Replaceable u db queryId specs ids) (hc : c ∈ db.charts.rows) :
    SameChart u c (flushedRow (chartUpdates u (db.chartsOf queryId) specs) c) := by
  by_cases hspec : c ∈ db.chartsOf queryId ∧ chartKey u c ∈ specs.map (specKey u)
  · obtain ⟨s, hs, hkey⟩ := mem_map_specKey.mp hspec.2
    rw [flushedRow_of_spec h hspec.1 hs hkey]
    exact ⟨rfl, rfl, hkey.symm, rfl⟩
  · rw [flushedRow_of_other h hc hspec]
    exact .refl u c

/-- A row keeps its query in the flush, and with it the charts of the query keep their names. -/
theorem keys_flushed (h : Replaceable u db queryId specs ids) :
    ((db.charts.rows.map (flushedRow (chartUpdates u (db.chartsOf queryId) specs))).filter
      fun c => c.queryId = queryId).map (chartKey u) =
      (db.charts.rows.filter fun c => c.queryId = queryId).map (chartKey u) := by
  rw [List.filter_map, List.map_map]
  have hfilter : db.charts.rows.filter ((fun c => decide (c.queryId = queryId)) ∘
      flushedRow (chartUpdates u (db.chartsOf queryId) specs)) =
        db.charts.rows.filter fun c => c.queryId = queryId := by
    refine List.filter_congr fun c hc => ?_
    rw [Function.comp_apply, (sameChart_flushedRow h hc).queryId]
  rw [hfilter]
  refine List.map_congr_left fun c hc => ?_
  exact (sameChart_flushedRow h (List.mem_of_mem_filter hc)).key

theorem nodup_keys_flushed (h : Replaceable u db queryId specs ids) :
    (((db.charts.rows.map (flushedRow (chartUpdates u (db.chartsOf queryId) specs)) ++
      chartInserts u queryId (db.chartsOf queryId) specs ids).filter
        fun c => c.queryId = queryId).map (chartKey u)).Nodup := by
  have hperm := (chartsOf_perm db queryId).map (chartKey u)
  have hnew : (chartInserts u queryId (db.chartsOf queryId) specs ids).filter
      (fun c => c.queryId = queryId) = chartInserts u queryId (db.chartsOf queryId) specs ids :=
    List.filter_eq_self.mpr fun c hc => decide_eq_true (of_mem_chartInserts hc).2.2
  rw [List.filter_append, List.map_append, hnew, keys_flushed h]
  refine (hperm.nodup_iff.mp h.stored).append ?_ ?_
  · rw [map_chartInserts (chartKey u) (fun s => specKey u s.1) h.fresh.enough fun _ _ => rfl]
    have hspecs := h.incoming
    rw [← map_fst_zipIdx] at hspecs
    exact hspecs.sublist (List.filter_sublist.map _)
  · intro k hk hk'
    obtain ⟨c, hc, rfl⟩ := List.mem_map.mp hk'
    exact key_of_mem_chartInserts hc (hperm.mem_iff.mpr hk)

/-- The rows after a replacement. -/
def replacedRows (u : Unicode) (db : Db) (queryId : String) (specs : List QueryChartSpec)
    (ids : List String) : List QueryChart :=
  (db.charts.rows.map (flushedRow (chartUpdates u (db.chartsOf queryId) specs)) ++
    chartInserts u queryId (db.chartsOf queryId) specs ids).filter
      fun c => !decide (c.id ∈ chartRemovals u (db.chartsOf queryId) specs)

/-- **What a replacement stores.** -/
theorem commitCharts_eq_some (h : Replaceable u db queryId specs ids) :
    ∃ charts : Table QueryChart.id,
      commitCharts u db queryId (db.chartsOf queryId) specs ids =
        some { db with charts := charts } ∧
      charts.rows = replacedRows u db queryId specs ids := by
  obtain ⟨updated, hupdated, hrows⟩ : ∃ charts', flushCharts db.charts
      (chartUpdates u (db.chartsOf queryId) specs) = some charts' ∧ charts'.rows =
        db.charts.rows.map (flushedRow (chartUpdates u (db.chartsOf queryId) specs)) := by
    refine flushCharts_rows ?_ (nodup_chartUpdates h.incoming (nodup_ids_chartsOf db queryId)) ?_
    · intro p hp
      exact (Db.mem_chartsOf.mp (mem_of_chartUpdates hp)).1
    · intro p hp
      obtain ⟨-, s, -, -, hnew⟩ := (mem_chartUpdates h.stored).mp hp
      rw [hnew, flushChart_assignChart]
  -- the new ids are those of no row
  have hids : updated.rows.map QueryChart.id = db.charts.rows.map QueryChart.id := by
    rw [hrows, List.map_map]
    exact List.map_congr_left fun c hc => (sameChart_flushedRow h hc).id
  have hfresh : ∀ c ∈ chartInserts u queryId (db.chartsOf queryId) specs ids,
      c.id ∉ updated.rows.map QueryChart.id := fun c hc => by
    rw [hids]
    exact h.fresh.unused _ (of_mem_chartInserts hc).1
  obtain ⟨inserted, hinserted⟩ := Option.isSome_iff_exists.mp
    ((Table.insertAll_isSome_iff (nodup_chartInserts h.fresh.nodup)).mpr hfresh)
  have hall := Table.rows_insertAll hinserted
  have hquery : ¬(chartInserts u queryId (db.chartsOf queryId) specs ids ≠ [] ∧
      db.queries.get queryId = none) := fun hnone => by
    have hstored := h.query
    rw [hnone.2] at hstored
    cases hstored
  have hnames :
      ((inserted.rows.filter fun c => c.queryId = queryId).map QueryChart.name).Nodup := by
    have hkeys := nodup_keys_flushed h
    rw [← hrows, ← hall] at hkeys
    refine List.Nodup.of_map (nameKey u) ?_
    rw [List.map_map]
    exact hkeys
  refine ⟨inserted.deleteWhere fun c => c.id ∈ chartRemovals u (db.chartsOf queryId) specs, ?_, ?_⟩
  · unfold commitCharts
    rw [hupdated]
    simp only [Option.bind_eq_bind, Option.bind_some]
    rw [if_neg hquery, hinserted, Option.bind_some, if_pos hnames]
    rfl
  · rw [replacedRows, ← hrows, ← hall]
    rfl

/-- The charts that are removed are those of the query whose names are in no spec. -/
theorem mem_chartRemovals_of_row (h : Replaceable u db queryId specs ids)
    (hc : c ∈ db.charts.rows) :
    c.id ∈ chartRemovals u (db.chartsOf queryId) specs ↔
      c.queryId = queryId ∧ chartKey u c ∉ specs.map (specKey u) := by
  rw [mem_chartRemovals h.stored]
  constructor
  · rintro ⟨d, hd, hid, hkey⟩
    obtain ⟨hmem, hquery⟩ := Db.mem_chartsOf.mp hd
    obtain rfl := List.inj_on_of_nodup_map db.charts.nodup hmem hc hid
    exact ⟨hquery, hkey⟩
  · rintro ⟨hquery, hkey⟩
    exact ⟨c, Db.mem_chartsOf.mpr ⟨hc, hquery⟩, rfl, hkey⟩

/-- A row after the replacement is one that stays, or it is new. -/
theorem mem_replacedRows (h : Replaceable u db queryId specs ids) :
    c ∈ replacedRows u db queryId specs ids ↔
      (∃ d ∈ db.charts.rows, ¬(d.queryId = queryId ∧ chartKey u d ∉ specs.map (specKey u)) ∧
        flushedRow (chartUpdates u (db.chartsOf queryId) specs) d = c) ∨
      c ∈ chartInserts u queryId (db.chartsOf queryId) specs ids := by
  unfold replacedRows
  rw [List.mem_filter, List.mem_append, Bool.not_eq_true', decide_eq_false_iff_not, or_and_right]
  refine or_congr ?_ ?_
  · rw [List.mem_map]
    constructor
    · rintro ⟨⟨d, hd, rfl⟩, hkept⟩
      rw [(sameChart_flushedRow h hd).id, mem_chartRemovals_of_row h hd] at hkept
      exact ⟨d, hd, hkept, rfl⟩
    · rintro ⟨d, hd, hkept, rfl⟩
      refine ⟨⟨d, hd, rfl⟩, ?_⟩
      rw [(sameChart_flushedRow h hd).id, mem_chartRemovals_of_row h hd]
      exact hkept
  · refine and_iff_left_of_imp fun hnew hremoved => ?_
    obtain ⟨d, hd, hid⟩ := mem_of_chartRemovals hremoved
    refine h.fresh.unused _ (of_mem_chartInserts hnew).1 ?_
    exact hid ▸ List.mem_map_of_mem (Db.mem_chartsOf.mp hd).1

/-- The charts of the query afterwards: those updated and those inserted. -/
theorem perm_replacedRows (h : Replaceable u db queryId specs ids)
    (hids : ((replacedRows u db queryId specs ids).map QueryChart.id).Nodup) :
    ((replacedRows u db queryId specs ids).filter fun c => c.queryId = queryId).Perm
      ((chartUpdates u (db.chartsOf queryId) specs).map Prod.snd ++
        chartInserts u queryId (db.chartsOf queryId) specs ids) := by
  have hupdated : (((chartUpdates u (db.chartsOf queryId) specs).map Prod.snd).map
      QueryChart.id).Nodup := by
    have hnodup := nodup_chartUpdates (u := u) h.incoming (nodup_ids_chartsOf db queryId)
    have hsame : ((chartUpdates u (db.chartsOf queryId) specs).map Prod.snd).map QueryChart.id =
        (chartUpdates u (db.chartsOf queryId) specs).map fun p => p.1.id := by
      rw [List.map_map]
      refine List.map_congr_left fun p hp => ?_
      obtain ⟨-, s, -, -, hnew⟩ := (mem_chartUpdates h.stored).mp hp
      rw [Function.comp_apply, hnew]
      rfl
    rw [hsame]
    exact hnodup
  have hapart : ∀ c ∈ (chartUpdates u (db.chartsOf queryId) specs).map Prod.snd,
      c ∉ chartInserts u queryId (db.chartsOf queryId) specs ids := by
    intro c hc hnew
    obtain ⟨p, hp, rfl⟩ := List.mem_map.mp hc
    obtain ⟨hloaded, s, -, -, hassign⟩ := (mem_chartUpdates h.stored).mp hp
    refine h.fresh.unused _ (of_mem_chartInserts hnew).1 ?_
    rw [hassign]
    exact List.mem_map.mpr ⟨p.1, (Db.mem_chartsOf.mp hloaded).1, rfl⟩
  refine (List.perm_ext_iff_of_nodup ((List.Nodup.of_map _ hids).filter _)
    ((List.Nodup.of_map _ hupdated).append
      (List.Nodup.of_map _ (nodup_chartInserts h.fresh.nodup)) hapart)).mpr fun c => ?_
  rw [List.mem_filter, decide_eq_true_eq, mem_replacedRows h, List.mem_append, or_and_right]
  refine or_congr ?_ (and_iff_left_of_imp fun hnew => (of_mem_chartInserts hnew).2.2)
  rw [List.mem_map]
  constructor
  · rintro ⟨⟨d, hd, hkept, rfl⟩, hquery⟩
    rw [(sameChart_flushedRow h hd).queryId] at hquery
    have hloaded : d ∈ db.chartsOf queryId := Db.mem_chartsOf.mpr ⟨hd, hquery⟩
    have hkey : chartKey u d ∈ specs.map (specKey u) := not_not.mp fun hno => hkept ⟨hquery, hno⟩
    obtain ⟨s, hs, hspec⟩ := mem_map_specKey.mp hkey
    refine ⟨(d, assignChart d s.1 s.2), ?_, (flushedRow_of_spec h hloaded hs hspec).symm⟩
    exact (mem_chartUpdates h.stored).mpr ⟨hloaded, s, hs, hspec, rfl⟩
  · rintro ⟨p, hp, rfl⟩
    obtain ⟨hloaded, s, hs, hspec, hassign⟩ := (mem_chartUpdates h.stored).mp hp
    obtain ⟨hd, hquery⟩ := Db.mem_chartsOf.mp hloaded
    refine ⟨⟨p.1, hd, ?_, ?_⟩, ?_⟩
    · exact fun hno => hno.2 (mem_map_specKey.mpr ⟨s, hs, hspec⟩)
    · rw [flushedRow_of_spec h hloaded hs hspec, hassign]
    · rw [hassign]
      exact hquery

theorem described_sorted (specs : List QueryChartSpec) :
    (described specs).Pairwise fun a b => a.2.1 < b.2.1 :=
  List.pairwise_map.mpr ((pairwise_zipIdx specs).imp fun hlt => Int.ofNat_lt.mpr hlt)

/-- **One chart for each spec, in their order.** -/
theorem shown_chartsOf (h : Replaceable u db queryId specs ids) {charts : Table QueryChart.id}
    (hrows : charts.rows = replacedRows u db queryId specs ids) :
    (Db.chartsOf { db with charts := charts } queryId).map shown = described specs := by
  have hids : ((replacedRows u db queryId specs ids).map QueryChart.id).Nodup :=
    hrows ▸ charts.nodup
  have hupdated : ((chartUpdates u (db.chartsOf queryId) specs).map Prod.snd).map shown =
      (specs.zipIdx.filter fun s =>
        (existingChart u (db.chartsOf queryId) (specKey u s.1)).isSome).map fun s =>
          (s.1.name, (s.2 : Int), s.1.toChartMapping) := by
    rw [List.map_map]
    exact map_chartUpdates shown _ fun _ _ => rfl
  have hinserted : (chartInserts u queryId (db.chartsOf queryId) specs ids).map shown =
      (specs.zipIdx.filter fun s =>
        (existingChart u (db.chartsOf queryId) (specKey u s.1)).isNone).map fun s =>
          (s.1.name, (s.2 : Int), s.1.toChartMapping) :=
    map_chartInserts shown _ h.fresh.enough fun _ _ => rfl
  have hperm : ((charts.rows.filter fun c => c.queryId = queryId).map shown).Perm
      (described specs) := by
    rw [hrows]
    refine ((perm_replacedRows h hids).map shown).trans ?_
    rw [List.map_append, hupdated, hinserted, ← List.map_append]
    refine List.Perm.map _ ?_
    simpa only [Option.not_isSome] using List.filter_append_perm
      (fun s => (existingChart u (db.chartsOf queryId) (specKey u s.1)).isSome) specs.zipIdx
  calc (Db.chartsOf { db with charts := charts } queryId).map shown
      = sortedBy (fun d => d.2.1) ((charts.rows.filter fun c => c.queryId = queryId).map shown) :=
        map_sortedBy shown (fun c : QueryChart => (rfl : (shown c).2.1 = c.position)) _
    _ = described specs := sortedBy_eq_of_perm hperm (described_sorted specs)

/-- The charts that specs describe have the names of the specs. -/
theorem map_chartKey_of_shown (hshown : (db.chartsOf queryId).map shown = described specs) :
    (db.chartsOf queryId).map (chartKey u) = specs.map (specKey u) := by
  calc (db.chartsOf queryId).map (chartKey u)
      = ((db.chartsOf queryId).map shown).map fun d => nameKey u d.1 := by
        rw [List.map_map]
        rfl
    _ = specs.zipIdx.map fun s => specKey u s.1 := by
        rw [hshown, described, List.map_map]
        rfl
    _ = specs.map (specKey u) := map_fst_zipIdx _ _

/-- A chart that a spec describes is what it is assigned. -/
theorem assignChart_of_shown {s : QueryChartSpec × Nat}
    (h : shown c = (s.1.name, (s.2 : Int), s.1.toChartMapping)) : assignChart c s.1 s.2 = c := by
  have hname : c.name = s.1.name := (Prod.ext_iff.mp h).1
  have hrest := (Prod.ext_iff.mp h).2
  have hposition : c.position = (s.2 : Int) := (Prod.ext_iff.mp hrest).1
  have hmapping : c.toChartMapping = s.1.toChartMapping := (Prod.ext_iff.mp hrest).2
  unfold assignChart
  rw [← hname, ← hposition, ← hmapping]

/-- **The same specs again find every chart as they left it.** -/
theorem commitCharts_again (hincoming : (specs.map (specKey u)).Nodup)
    (hshown : (db.chartsOf queryId).map shown = described specs) (ids : List String) :
    commitCharts u db queryId (db.chartsOf queryId) specs ids = some db := by
  have hkeys := map_chartKey_of_shown (u := u) hshown
  have hstored : ((db.chartsOf queryId).map (chartKey u)).Nodup := hkeys ▸ hincoming
  have hunchanged : ∀ p ∈ chartUpdates u (db.chartsOf queryId) specs, p.2 = p.1 := by
    intro p hp
    obtain ⟨hloaded, s, hs, hkey, hnew⟩ := (mem_chartUpdates hstored).mp hp
    have hmem : (s.1.name, (s.2 : Int), s.1.toChartMapping) ∈ (db.chartsOf queryId).map shown := by
      rw [hshown]
      exact List.mem_map.mpr ⟨s, hs, rfl⟩
    obtain ⟨c, hc, hshape⟩ := List.mem_map.mp hmem
    have hname : chartKey u c = specKey u s.1 := congrArg (nameKey u) (Prod.ext_iff.mp hshape).1
    have hsame : p.1 = c :=
      List.inj_on_of_nodup_map hstored hloaded hc (hkey.trans hname.symm)
    rw [hnew, hsame, assignChart_of_shown hshape]
  have hinserts : chartInserts u queryId (db.chartsOf queryId) specs ids = [] :=
    List.eq_nil_iff_forall_not_mem.mpr fun c hc =>
      key_of_mem_chartInserts hc (hkeys ▸ mem_key_of_mem_chartInserts hc)
  have hremovals : ∀ id, id ∉ chartRemovals u (db.chartsOf queryId) specs := by
    intro id hid
    obtain ⟨c, hc, -, hkey⟩ := (mem_chartRemovals hstored).mp hid
    exact hkey (hkeys ▸ List.mem_map_of_mem hc)
  have hnames :
      ((db.charts.rows.filter fun c => c.queryId = queryId).map QueryChart.name).Nodup := by
    have hperm := ((chartsOf_perm db queryId).map (chartKey u)).nodup_iff.mp hstored
    refine List.Nodup.of_map (nameKey u) ?_
    rw [List.map_map]
    exact hperm
  have hrows : db.charts.deleteWhere
      (fun c => c.id ∈ chartRemovals u (db.chartsOf queryId) specs) = db.charts :=
    Table.deleteWhere_eq_self fun c _ => decide_eq_false (hremovals c.id)
  unfold commitCharts
  rw [flushCharts_of_unchanged db.charts hunchanged, hinserts]
  simp only [Option.bind_eq_bind, Option.bind_some, ne_eq, not_true_eq_false, false_and, if_false,
    Table.insertAll]
  rw [if_pos hnames, hrows]
  rfl

end Commit

/-! ## Identity -/

/-- What replacing the charts of a query is for. -/
structure Replaced (u : Unicode) (s : Placed) (queryId : String) (specs : List QueryChartSpec)
    (ids : List String) (t : Placed) : Prop where
  /-- One chart per spec, in their order, with positions from 0. -/
  one_per_spec : (t.db.chartsOf queryId).map shown = described specs
  /-- A chart with the name of a spec is the same chart, with its places. -/
  kept : ∀ c ∈ s.db.chartsOf queryId, chartKey u c ∈ specs.map (specKey u) →
    ∃ c', t.db.charts.get c.id = some c' ∧ SameChart u c c' ∧
      t.placements c.id = s.placements c.id
  /-- A chart with a name that no chart had is new. -/
  added : ∀ c' ∈ t.db.chartsOf queryId,
    chartKey u c' ∉ (s.db.chartsOf queryId).map (chartKey u) →
      c'.id ∈ ids ∧ c'.toPublishColumns = .initial
  /-- The charts that go are those of the query with a name that no spec has. -/
  removed : ∀ c ∈ s.db.charts.rows, t.db.charts.get c.id = none ↔
    c.queryId = queryId ∧ chartKey u c ∉ specs.map (specKey u)
  /-- The places that go are theirs. -/
  items : t.items.rows = s.items.rows.filter fun i => (t.db.charts.get i.chartId).isSome
  /-- Nothing else changes. -/
  others : ∀ c ∈ s.db.charts.rows, c.queryId ≠ queryId → t.db.charts.get c.id = some c
  queries : t.db.queries = s.db.queries
  flagRules : t.db.flagRules = s.db.flagRules
  auditLogs : t.db.auditLogs = s.db.auditLogs

/-- The charts are replaced, and a second time there is nothing to do. -/
def PreservesIdentity (u : Unicode) (s : Placed) (queryId : String) (specs : List QueryChartSpec)
    (ids : List String) : Prop :=
  ∃ t, replaceCharts u s queryId specs ids = some t ∧ Replaced u s queryId specs ids t ∧
    ∀ ids', replaceCharts u t queryId specs ids' = some t

section Identity

variable {u : Unicode} {s t : Placed} {queryId : String} {specs : List QueryChartSpec}
  {ids : List String}

/-- A chart of the query that the dictionary does not hold is left as it is. -/
theorem get_of_shadowed {c d : QueryChart} (hc : c ∈ s.db.chartsOf queryId)
    (hfound : existingChart u (s.db.chartsOf queryId) (chartKey u c) = some d) (hne : d ≠ c)
    (h : replaceCharts u s queryId specs ids = some t) : t.db.charts.get c.id = some c := by
  obtain ⟨db, hdb, rfl⟩ := Option.map_eq_some_iff.mp h
  have hrow := (Db.mem_chartsOf.mp hc).1
  -- neither the loop over the specs nor the one over the dictionary comes to it
  have hnot : ∀ l, existingChart u (s.db.chartsOf queryId) (chartKey u l) = some l →
      l.id ≠ c.id := by
    intro l hl hid
    have hsame : l = c := List.inj_on_of_nodup_map s.db.charts.nodup
      (Db.mem_chartsOf.mp (mem_of_existingChart hl)).1 hrow hid
    rw [hsame, hfound] at hl
    exact hne (Option.some.inj hl)
  have hupdates : ∀ p ∈ chartUpdates u (s.db.chartsOf queryId) specs, p.1.id ≠ c.id := by
    intro p hp
    unfold chartUpdates at hp
    obtain ⟨spec, -, hspec⟩ := List.mem_filterMap.mp hp
    obtain ⟨l, hl, rfl⟩ := Option.map_eq_some_iff.mp hspec
    exact hnot l (key_of_existingChart hl ▸ hl)
  have hremovals : c.id ∉ chartRemovals u (s.db.chartsOf queryId) specs := by
    intro hmem
    unfold chartRemovals at hmem
    obtain ⟨l, hl, hid⟩ := List.mem_map.mp hmem
    obtain ⟨hself, -⟩ := Bool.and_eq_true_iff.mp (List.mem_filter.mp hl).2
    exact hnot l (of_decide_eq_true hself) hid
  obtain ⟨updated, inserted, hupdated, -, hinserted, rfl⟩ := commitCharts_spec hdb
  have hupdated' : updated.get c.id = some c := by
    rw [get_flushCharts_of_not_mem hupdated hupdates]
    exact Table.get_of_mem hrow
  have hinserted' : c ∈ inserted.rows := by
    rw [Table.rows_insertAll hinserted]
    exact List.mem_append_left _ (Table.mem_of_get hupdated')
  rw [Table.get_deleteWhere, Table.get_of_mem hinserted', Option.filter_some,
    decide_eq_false hremovals]
  rfl

/-- A replacement leaves no two names alike, so the next one finds none. -/
theorem Replaced.nodup_keys (h : Replaced u s queryId specs ids t)
    (hspecs : (specs.map (specKey u)).Nodup) :
    ((t.db.chartsOf queryId).map (chartKey u)).Nodup := by
  rw [map_chartKey_of_shown h.one_per_spec]
  exact hspecs

/-- Where the charts were replaced, the dictionary held every chart of the query. -/
theorem Replaced.eq_of_existingChart (h : Replaced u s queryId specs ids t)
    (hrun : replaceCharts u s queryId specs ids = some t) (hspecs : (specs.map (specKey u)).Nodup)
    {c d : QueryChart} (hc : c ∈ s.db.chartsOf queryId)
    (hfound : existingChart u (s.db.chartsOf queryId) (chartKey u c) = some d) : d = c := by
  by_contra hne
  have hstays := get_of_shadowed hc hfound hne hrun
  have hd := mem_of_existingChart hfound
  have hkey := key_of_existingChart hfound
  by_cases hspec : chartKey u c ∈ specs.map (specKey u)
  · -- both are charts of the query afterwards, under one name
    obtain ⟨d', hd', hsame, -⟩ := h.kept d hd (hkey ▸ hspec)
    have hc' : c ∈ t.db.chartsOf queryId :=
      Db.mem_chartsOf.mpr ⟨Table.mem_of_get hstays, (Db.mem_chartsOf.mp hc).2⟩
    have hmem : d' ∈ t.db.chartsOf queryId :=
      Db.mem_chartsOf.mpr ⟨Table.mem_of_get hd', hsame.queryId.trans (Db.mem_chartsOf.mp hd).2⟩
    have heq : d' = c :=
      List.inj_on_of_nodup_map (h.nodup_keys hspecs) hmem hc' (hsame.key.trans hkey)
    refine hne (List.inj_on_of_nodup_map (nodup_ids_chartsOf s.db queryId) hd hc ?_)
    rw [← heq, hsame.id]
  · have hgone := (h.removed c (Db.mem_chartsOf.mp hc).1).mpr ⟨(Db.mem_chartsOf.mp hc).2, hspec⟩
    rw [hgone] at hstays
    cases hstays

theorem cascade_eq_self (s : Placed) : cascade s.db.charts s.items = s.items :=
  Table.deleteWhere_eq_self fun i hi => decide_eq_false (not_not.mpr (s.fk_item i hi))

/-- A commit that changes nothing takes no place away. -/
theorem replaceCharts_of_commit
    (h : commitCharts u s.db queryId (s.db.chartsOf queryId) specs ids = some s.db) :
    replaceCharts u s queryId specs ids = some s := by
  obtain ⟨db, items, hfk⟩ := s
  unfold replaceCharts
  rw [h, Option.map_some]
  congr 2
  exact cascade_eq_self ⟨db, items, hfk⟩

/-- The places of a chart that stays. -/
theorem filter_cascade {charts : Table QueryChart.id} {id : String}
    (hid : id ∈ charts.rows.map QueryChart.id) (items : Table DashboardItem.key) :
    (cascade charts items).rows.filter (fun i => i.chartId = id) =
      items.rows.filter fun i => i.chartId = id := by
  unfold cascade Table.deleteWhere
  rw [List.filter_filter]
  refine List.filter_congr fun i _ => ?_
  by_cases hi : i.chartId = id
  · simp [hi, hid]
  · simp [hi]

/-- Where no two stored names are alike, a replacement does what it is for. -/
theorem replaced_of_rows (h : Replaceable u s.db queryId specs ids) {charts : Table QueryChart.id}
    (hrows : charts.rows = replacedRows u s.db queryId specs ids)
    (hfk : ∀ i ∈ (cascade charts s.items).rows, i.chartId ∈ charts.rows.map QueryChart.id) :
    Replaced u s queryId specs ids
      ⟨{ s.db with charts := charts }, cascade charts s.items, hfk⟩ := by
  -- a row that is not removed is there after the flush
  have hstays : ∀ c ∈ s.db.charts.rows,
      ¬(c.queryId = queryId ∧ chartKey u c ∉ specs.map (specKey u)) →
      charts.get c.id = some (flushedRow (chartUpdates u (s.db.chartsOf queryId) specs) c) := by
    intro c hc hkept
    rw [Table.get_iff_mem, hrows, mem_replacedRows h]
    exact ⟨.inl ⟨c, hc, hkept, rfl⟩, (sameChart_flushedRow h hc).id⟩
  refine ⟨shown_chartsOf h hrows, ?_, ?_, ?_, ?_, ?_, rfl, rfl, rfl⟩
  · intro c hc hspec
    have hrow := (Db.mem_chartsOf.mp hc).1
    have hget := hstays c hrow fun hno => hno.2 hspec
    have hid : c.id ∈ charts.rows.map QueryChart.id := Table.mem_keys_iff.mpr ⟨_, hget⟩
    exact ⟨_, hget, sameChart_flushedRow h hrow, filter_cascade hid s.items⟩
  · intro c' hc' hnew
    obtain ⟨hmem, hquery⟩ := Db.mem_chartsOf.mp hc'
    change c' ∈ charts.rows at hmem
    rw [hrows, mem_replacedRows h] at hmem
    rcases hmem with ⟨d, hd, -, rfl⟩ | hinsert
    · have hsame := sameChart_flushedRow h hd
      have hloaded : d ∈ s.db.chartsOf queryId :=
        Db.mem_chartsOf.mpr ⟨hd, hsame.queryId.symm.trans hquery⟩
      exact absurd (List.mem_map_of_mem hloaded) (hsame.key ▸ hnew)
    · exact ⟨(of_mem_chartInserts hinsert).1, (of_mem_chartInserts hinsert).2.1⟩
  · intro c hc
    constructor
    · intro hnone
      by_contra hkept
      change charts.get c.id = none at hnone
      rw [hstays c hc hkept] at hnone
      cases hnone
    · intro hgone
      refine Option.eq_none_iff_forall_not_mem.mpr fun c' hc' => ?_
      obtain ⟨hmem, hid⟩ := Table.get_iff_mem.mp hc'
      change c' ∈ charts.rows at hmem
      rw [hrows, mem_replacedRows h] at hmem
      rcases hmem with ⟨d, hd, hkept, rfl⟩ | hinsert
      · rw [(sameChart_flushedRow h hd).id] at hid
        obtain rfl := List.inj_on_of_nodup_map s.db.charts.nodup hd hc hid
        exact hkept hgone
      · refine h.fresh.unused _ (of_mem_chartInserts hinsert).1 ?_
        exact hid ▸ List.mem_map_of_mem hc
  · refine List.filter_congr fun i _ => ?_
    rw [Bool.eq_iff_iff, Bool.not_eq_true', decide_eq_false_iff_not, not_not, Table.mem_keys_iff,
      Option.isSome_iff_exists]
  · intro c hc hquery
    change charts.get c.id = some c
    rw [hstays c hc fun hno => hquery hno.1, flushedRow_of_other h hc]
    exact fun hno => hquery (Db.mem_chartsOf.mp hno.1).2

/-- **The charts of a query keep their identity exactly when no two of them have names alike.** -/
theorem preservesIdentity_iff (hquery : (s.db.queries.get queryId).isSome)
    (hspecs : (specs.map (specKey u)).Nodup) (hids : FreshIds s.db specs ids) :
    PreservesIdentity u s queryId specs ids ↔
      ((s.db.chartsOf queryId).map (chartKey u)).Nodup := by
  constructor
  · rintro ⟨t, hrun, h, -⟩
    have hnodup := List.Nodup.of_map _ (nodup_ids_chartsOf s.db queryId)
    refine (List.nodup_map_iff_inj_on hnodup).mpr ?_
    intro x hx y hy hkey
    cases hfound : existingChart u (s.db.chartsOf queryId) (chartKey u x) with
    | none => exact absurd (List.mem_map_of_mem hx) (existingChart_eq_none.mp hfound)
    | some d =>
      have hdx := h.eq_of_existingChart hrun hspecs hx hfound
      have hdy := h.eq_of_existingChart hrun hspecs hy (hkey ▸ hfound)
      exact hdx.symm.trans hdy
  · intro hstored
    have h : Replaceable u s.db queryId specs ids := ⟨hquery, hstored, hspecs, hids⟩
    obtain ⟨charts, hcommit, hrows⟩ := commitCharts_eq_some h
    have hfk : ∀ i ∈ (cascade charts s.items).rows, i.chartId ∈ charts.rows.map QueryChart.id :=
      fun _ hi => (mem_cascade.mp hi).2
    have hreplaced := replaced_of_rows h hrows hfk
    refine ⟨_, ?_, hreplaced, ?_⟩
    · rw [replaceCharts, hcommit]
      rfl
    · exact fun ids' =>
        replaceCharts_of_commit (commitCharts_again hspecs hreplaced.one_per_spec ids')

end Identity

namespace Sample

def tableSpec (name : String) : QueryChartSpec :=
  { name := name, chartType := .table, xField := none, yField := none, seriesField := none
    surgeThresholdPct := none }

/-- A chart that waits for approval and one that does not, both on a board. -/
def placed : Placed where
  db :=
    { db with
      charts :=
        ⟨[setPublish (requestPublish author 5).values chart,
          { chart with id := "d", name := "Rows", position := 1 }], by decide⟩ }
  items := ⟨[⟨"board", "d", 0⟩, ⟨"board", "c", 1⟩], by decide⟩
  fk_item := by decide

end Sample

/-- One chart is renamed in case and moved, one goes, one comes. -/
theorem trend_kept :
    PreservesIdentity .ascii Sample.placed "q"
      [Sample.tableSpec "Volume", Sample.tableSpec " TREND"] ["e", "f"] :=
  (preservesIdentity_iff (by decide) (by decide) ⟨by decide, by decide, by decide⟩).mpr (by decide)

/-- Two saves overlap, one adds "Volume" and one "volume". The next save of "Trend" alone removes
the second of them only. -/
theorem overlapping_saves_keep_removed :
    ∃ s, Machine.Run (step Sample.env) Machine.Always (State.start Sample.db)
        [.openEdit 0 Sample.author "q"
            (.replaceCharts [Sample.tableSpec "Trend", Sample.tableSpec "Volume"]),
          .guardEdit 0, .prepareEdit 0,
          .openEdit 1 Sample.author "q"
            (.replaceCharts [Sample.tableSpec "Trend", Sample.tableSpec "volume"]),
          .guardEdit 1, .prepareEdit 1, .commitEdit 0 ["d"], .commitEdit 1 ["e"]] s ∧
      (s.db.queries.get "q").isSome ∧ FreshIds s.db [Sample.tableSpec "Trend"] ["f"] ∧
      ¬ PreservesIdentity .ascii ⟨s.db, Table.empty, nofun⟩ "q" [Sample.tableSpec "Trend"]
        ["f"] := by
  refine ⟨_, Machine.run_of_exec rfl, rfl, ⟨by decide, by decide, by decide⟩, ?_⟩
  rintro ⟨t, hrun, h, -⟩
  -- under the name of the first the dictionary holds the second
  have hsame := h.eq_of_existingChart hrun (by decide)
    (c := { Sample.chart with id := "d", name := "Volume", position := 1 })
    (d := { Sample.chart with id := "e", name := "volume", position := 1 }) (by decide) (by decide)
  exact absurd (congrArg QueryChart.id hsame) (by decide)

end FraudAnalyzer.Charts
