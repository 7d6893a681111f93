import FraudAnalyzer.Charts.Replacing
import FraudAnalyzer.Lib.FirstKept
import FraudAnalyzer.Queries.Visibility

/-!
# Dashboards

The rows of `dashboards` with their items, and the functions of
`app/features/dashboards/service.py`. A request reads, checks, and commits once; the commit is
written here as the flush it does, so that requests can be interleaved in front of it.

A flush takes an item that is dropped and placed again for the same row: the row is updated with the
new object's position, whatever the position was before.
-/

namespace FraudAnalyzer.Dashboards

open Charts Python Queries

structure Dashboard where
  id : String
  name : String
  ownerId : Option String
  createdAt : Instant
  updatedAt : Instant
  deriving DecidableEq

structure Boards where
  dashboards : Table Dashboard.id
  items : Table DashboardItem.key

/-- `DashboardCreate` -/
structure DashboardCreate where
  name : String
  chartIds : List String

/-- `DashboardUpdate`: a field that is left out and one that is null change nothing. -/
structure DashboardUpdate where
  name : Option String
  chartIds : Option (List String)

/-- `dashboard.items`, in the order of the relationship. -/
def Boards.itemsOf (boards : Boards) (dashboardId : String) : List DashboardItem :=
  sortedBy DashboardItem.position (boards.items.rows.filter fun i => i.dashboardId = dashboardId)

/-- `chart_ids` -/
def Boards.chartIds (boards : Boards) (dashboardId : String) : List String :=
  (boards.itemsOf dashboardId).map DashboardItem.chartId

theorem Boards.mem_itemsOf {boards : Boards} {dashboardId : String} {i : DashboardItem} :
    i ∈ boards.itemsOf dashboardId ↔ i ∈ boards.items.rows ∧ i.dashboardId = dashboardId := by
  rw [Boards.itemsOf, mem_sortedBy, List.mem_filter, decide_eq_true_eq]

/-! ## Reading -/

def noSuchDashboard : AppError := ⟨.dashboardNotFound, "No such dashboard.", []⟩

/-- `visible_to` -/
def visibleTo (user : User) (board : Dashboard) : Bool :=
  user.isAdmin || board.ownerId = some user.id

/-- `get_owned` -/
def getOwned (dashboards : Table Dashboard.id) (dashboardId : String) (user : User) :
    Except AppError Dashboard :=
  match dashboards.get dashboardId with
  | none => .error noSuchDashboard
  | some board =>
    if !user.isAdmin && board.ownerId ≠ some user.id then .error noSuchDashboard else .ok board

theorem getOwned_eq_ok_iff {dashboards : Table Dashboard.id} {dashboardId : String} {user : User}
    {board : Dashboard} : getOwned dashboards dashboardId user = .ok board ↔
      dashboards.get dashboardId = some board ∧ visibleTo user board = true := by
  unfold getOwned
  cases hget : dashboards.get dashboardId with
  | none => simp
  | some stored =>
    have hcond : (!user.isAdmin && decide (stored.ownerId ≠ some user.id)) =
        !visibleTo user stored := by
      unfold visibleTo
      cases user.isAdmin <;> simp
    simp only [hcond]
    cases hvisible : visibleTo user stored with
    | true =>
      simp only [Bool.not_true, Bool.false_eq_true, if_false, Except.ok.injEq, Option.some.injEq]
      exact ⟨fun h => ⟨h, h ▸ hvisible⟩, And.left⟩
    | false =>
      simp only [Bool.not_false, if_true, reduceCtorEq, Option.some.injEq, false_iff, not_and]
      rintro rfl
      rw [hvisible]
      exact Bool.false_ne_true

/-- `list_dashboards` -/
def listDashboards (dashboards : Table Dashboard.id) (user : User) : List Dashboard :=
  sortedBy Dashboard.createdAt (dashboards.rows.filter (visibleTo user))

/-! ## Checking an arrangement -/

/-- The chart is stored, on a query the user may see. -/
def chartVisibleTo (db : Db) (user : User) (chartId : String) : Bool :=
  (db.charts.get chartId).any fun chart =>
    (db.queries.get chart.queryId).any fun query => Queries.visibleTo user query

/-- The ids, each at its first position. -/
def deduped (chartIds : List String) : List String := FirstKept.firsts id chartIds ∅

def noSuchCharts (u : Unicode) (missing : List String) (first : String) : AppError :=
  ⟨.queryNotFound, "No chart with id " ++ repr u first ++ ".",
    [("chart_ids", .arr (missing.map .str))]⟩

/-- `_validate_chart_ids` -/
def validateChartIds (u : Unicode) (db : Db) (user : User) (chartIds : List String) :
    Except AppError (List String) :=
  let missing := (deduped chartIds).filter fun chartId => !chartVisibleTo db user chartId
  match missing with
  | [] => .ok (deduped chartIds)
  | first :: _ => .error (noSuchCharts u missing first)

/-- `_apply_items`: the objects of the new arrangement. -/
def applyItems (dashboardId : String) (chartIds : List String) : List DashboardItem :=
  chartIds.zipIdx.map fun c => ⟨dashboardId, c.1, c.2⟩

/-! ## Committing -/

inductive FlushError where
  | integrityError
  /-- An `UPDATE` of a row that is gone, which is not an `IntegrityError`. -/
  | staleData
  deriving DecidableEq

def duplicateName (u : Unicode) (name : String) : AppError :=
  ⟨.duplicateName, "A dashboard named " ++ repr u name ++ " already exists.",
    [("name", .str name)]⟩

/-- What `_commit` makes of a failed commit. -/
def FlushError.report (u : Unicode) (name : String) : FlushError → AppError
  | .integrityError => duplicateName u name
  | .staleData => internalError

/-- The columns of `uq_dashboards_owner_name`, where none is null. -/
def boardName (board : Dashboard) : Option (String × String) :=
  board.ownerId.map fun owner => (owner, board.name)

/-- `uq_dashboards_owner_name`; a row without an owner takes no name. -/
def nameTaken (rows : List Dashboard) (board : Dashboard) : Bool :=
  board.ownerId.isSome && rows.any fun r =>
    r.id ≠ board.id && r.ownerId = board.ownerId && r.name = board.name

/-- The item of an object that is dropped and placed again. The new object has no loaded values, so
its position is written even where it is the old one. -/
def reposition (loaded new : List DashboardItem) (row : DashboardItem) : DashboardItem :=
  if loaded.any fun l => l.key = row.key then
    match new.find? fun n => n.key = row.key with
    | some n => { row with position := n.position }
    | none => row
  else row

theorem reposition_key (loaded new : List DashboardItem) (row : DashboardItem) :
    (reposition loaded new row).key = row.key := by
  unfold reposition
  split
  · split <;> rfl
  · rfl

/-- The flush of the items of a board: the objects with a loaded row update it, the others are
inserted, and what was loaded and not placed again is deleted. An `UPDATE` fails when its row is
gone. -/
def flushItems (charts : Table QueryChart.id) (boards : Boards) (loaded new : List DashboardItem) :
    Except FlushError (Table DashboardItem.key) :=
  let moved := new.filter fun n => loaded.any fun l => l.key = n.key
  let added := new.filter fun n => loaded.all fun l => l.key ≠ n.key
  if moved.any fun n => (boards.items.get n.key).isNone then .error .staleData
  else if added.any fun n =>
      (boards.dashboards.get n.dashboardId).isNone || (charts.get n.chartId).isNone then
    .error .integrityError
  else
    match (boards.items.mapRows (reposition loaded new) (reposition_key _ _)).insertAll added with
    | none => .error .integrityError
    | some items =>
      .ok (items.deleteWhere fun i =>
        (loaded.any fun l => l.key = i.key) && new.all fun n => n.key ≠ i.key)

/-- The commit of `create_dashboard`. -/
def commitCreate (charts : Table QueryChart.id) (boards : Boards) (board : Dashboard)
    (chartIds : List String) : Except FlushError Boards :=
  if nameTaken boards.dashboards.rows board then .error .integrityError
  else
    match boards.dashboards.insert board with
    | none => .error .integrityError
    | some dashboards =>
      (flushItems charts ⟨dashboards, boards.items⟩ [] (applyItems board.id chartIds)).map
        fun items => ⟨dashboards, items⟩

/-- The row of a board after a rename is flushed. -/
def flushName (name : String) (now : Instant) (row : Dashboard) : Dashboard :=
  { row with name := name, updatedAt := now }

theorem flushName_id (name : String) (now : Instant) (row : Dashboard) :
    (flushName name now row).id = row.id := rfl

/-- The rename of `update_dashboard`. -/
def commitName (boards : Boards) (loaded : Dashboard) (name : Option String) (now : Instant) :
    Except FlushError Boards :=
  match name with
  | none => .ok boards
  | some name =>
    if name = loaded.name then .ok boards
    else
      match boards.dashboards.get loaded.id with
      | none => .error .staleData
      | some row =>
        if nameTaken boards.dashboards.rows (flushName name now row) then .error .integrityError
        else .ok { boards with
          dashboards :=
            boards.dashboards.modify loaded.id (flushName name now) (flushName_id name now) }

/-- What `update_dashboard` found of the board it changes: the ids that were checked, with the items
it loaded to replace. -/
structure Arrangement where
  chartIds : List String
  loaded : List DashboardItem

/-- The commit of `update_dashboard`. -/
def commitUpdate (charts : Table QueryChart.id) (boards : Boards) (loaded : Dashboard)
    (name : Option String) (arrangement : Option Arrangement) (now : Instant) :
    Except FlushError Boards := do
  let boards ← commitName boards loaded name now
  match arrangement with
  | none => return boards
  | some a =>
    let items ← flushItems charts boards a.loaded (applyItems loaded.id a.chartIds)
    return { boards with items := items }

/-- `delete_dashboard`; the items go with the board. -/
def commitDelete (boards : Boards) (dashboardId : String) : Boards where
  dashboards := boards.dashboards.deleteWhere fun d => d.id = dashboardId
  items := boards.items.deleteWhere fun i => i.dashboardId = dashboardId

/-! ## An arrangement that was checked -/

theorem nodup_deduped (chartIds : List String) : (deduped chartIds).Nodup :=
  FirstKept.pairwise_firsts chartIds ∅

theorem mem_deduped {chartIds : List String} {chartId : String} :
    chartId ∈ deduped chartIds ↔ chartId ∈ chartIds := by
  constructor
  · intro h
    exact (FirstKept.firsts_sublist chartIds ∅).subset h
  · intro h
    have hkept : ∃ other ∈ FirstKept.firsts id chartIds ∅, id other = id chartId :=
      FirstKept.exists_mem_firsts h (Finset.notMem_empty _)
    obtain ⟨other, hother, rfl⟩ := hkept
    exact hother

/-- What an accepted arrangement is. -/
theorem validateChartIds_eq_ok_iff {u : Unicode} {db : Db} {user : User}
    {chartIds kept : List String} : validateChartIds u db user chartIds = .ok kept ↔
      kept = deduped chartIds ∧ ∀ chartId ∈ chartIds, chartVisibleTo db user chartId = true := by
  unfold validateChartIds
  simp only
  split
  next hmissing =>
    have hall : ∀ chartId ∈ chartIds, chartVisibleTo db user chartId = true := by
      intro chartId hmem
      by_contra hhidden
      have := List.filter_eq_nil_iff.mp hmissing chartId (mem_deduped.mpr hmem)
      simp [hhidden] at this
    exact ⟨fun h => ⟨(Except.ok.inj h).symm, hall⟩, fun h => h.1 ▸ rfl⟩
  next first rest hmissing =>
    refine iff_of_false (fun h => by cases h) ?_
    rintro ⟨-, hall⟩
    have hfirst : first ∈ (deduped chartIds).filter fun c => !chartVisibleTo db user c := by
      rw [hmissing]
      exact List.mem_cons_self
    obtain ⟨hmem, hhidden⟩ := List.mem_filter.mp hfirst
    rw [hall first (mem_deduped.mp hmem)] at hhidden
    cases hhidden

theorem mem_applyItems {dashboardId : String} {chartIds : List String} {i : DashboardItem} :
    i ∈ applyItems dashboardId chartIds ↔
      i.dashboardId = dashboardId ∧ ∃ n : Nat, chartIds[n]? = some i.chartId ∧ i.position = n := by
  unfold applyItems
  rw [List.mem_map]
  constructor
  · rintro ⟨⟨chartId, n⟩, hmem, rfl⟩
    exact ⟨rfl, n, List.mk_mem_zipIdx_iff_getElem?.mp hmem, rfl⟩
  · obtain ⟨board, chartId, position⟩ := i
    rintro ⟨rfl, n, hget, rfl⟩
    exact ⟨(chartId, n), List.mk_mem_zipIdx_iff_getElem?.mpr hget, rfl⟩

theorem dashboardId_of_mem_applyItems {dashboardId : String} {chartIds : List String}
    {i : DashboardItem} (h : i ∈ applyItems dashboardId chartIds) : i.dashboardId = dashboardId :=
  (mem_applyItems.mp h).1

theorem chartId_of_mem_applyItems {dashboardId : String} {chartIds : List String}
    {i : DashboardItem} (h : i ∈ applyItems dashboardId chartIds) : i.chartId ∈ chartIds := by
  obtain ⟨-, n, hget, -⟩ := mem_applyItems.mp h
  exact List.mem_of_getElem? hget

theorem map_chartId_applyItems (dashboardId : String) (chartIds : List String) :
    (applyItems dashboardId chartIds).map DashboardItem.chartId = chartIds := by
  rw [applyItems, List.map_map]
  exact List.zipIdx_map_fst 0 chartIds

/-- Items that are told apart by their charts are told apart by their keys. -/
theorem nodup_key_of_nodup_chartId {items : List DashboardItem}
    (h : (items.map DashboardItem.chartId).Nodup) : (items.map DashboardItem.key).Nodup := by
  rw [List.Nodup, List.pairwise_map] at h ⊢
  exact h.imp fun hne hkey => hne (congrArg Prod.snd hkey)

theorem pairwise_applyItems (dashboardId : String) (chartIds : List String) :
    (applyItems dashboardId chartIds).Pairwise fun a b => a.position < b.position := by
  rw [applyItems, List.pairwise_map]
  exact (pairwise_zipIdx chartIds).imp fun h => Int.ofNat_lt.mpr h

/-! ## What a flush leaves -/

section Flush

variable {charts : Table QueryChart.id} {boards : Boards} {loaded new : List DashboardItem}
  {items : Table DashboardItem.key} {row : DashboardItem}

theorem mem_keys_iff_any {l : List DashboardItem} {k : String × String} :
    k ∈ l.map DashboardItem.key ↔ (l.any fun j => j.key = k) = true := by
  simp only [List.mem_map, List.any_eq_true, decide_eq_true_eq]

theorem notMem_keys_iff_all {l : List DashboardItem} {k : String × String} :
    k ∉ l.map DashboardItem.key ↔ (l.all fun j => j.key ≠ k) = true := by
  simp only [List.mem_map, List.all_eq_true, decide_eq_true_eq, not_exists, not_and]

theorem reposition_of_notMem (h : row.key ∉ loaded.map DashboardItem.key) :
    reposition loaded new row = row := by
  unfold reposition
  exact if_neg (mt mem_keys_iff_any.mpr h)

/-- The element with a key, in a list that has each key once. -/
theorem find?_key {l : List DashboardItem} (hl : (l.map DashboardItem.key).Nodup)
    {i : DashboardItem} (hi : i ∈ l) {k : String × String} (hk : i.key = k) :
    (l.find? fun j => j.key = k) = some i := by
  subst hk
  exact Table.get_of_mem (t := ⟨l, hl⟩) hi

/-- A row of a loaded item takes the place of its new object. -/
theorem reposition_eq (hnew : (new.map DashboardItem.key).Nodup)
    (hrow : row.key ∈ loaded.map DashboardItem.key) {n : DashboardItem} (hn : n ∈ new)
    (hkey : n.key = row.key) : reposition loaded new row = n := by
  unfold reposition
  rw [if_pos (mem_keys_iff_any.mp hrow), find?_key hnew hn hkey]
  obtain ⟨hboard, hchart⟩ := Prod.mk.inj hkey
  obtain ⟨board, chart, position⟩ := n
  obtain ⟨board', chart', position'⟩ := row
  subst hboard hchart
  rfl

/-- All that a flush of items does. -/
structure Flushed (charts : Table QueryChart.id) (boards : Boards)
    (loaded new : List DashboardItem) (items : Table DashboardItem.key) : Prop where
  mem_iff : ∀ i, i ∈ items.rows ↔
    (∃ row ∈ boards.items.rows, reposition loaded new row = i ∧
      (row.key ∈ loaded.map DashboardItem.key → row.key ∈ new.map DashboardItem.key)) ∨
    i ∈ new ∧ i.key ∉ loaded.map DashboardItem.key
  added : ∀ i ∈ new, i.key ∉ loaded.map DashboardItem.key →
    (boards.dashboards.get i.dashboardId).isSome ∧ (charts.get i.chartId).isSome

theorem flushed_of_flushItems (h : flushItems charts boards loaded new = .ok items) :
    Flushed charts boards loaded new items := by
  unfold flushItems at h
  simp only at h
  split at h
  · cases h
  split at h
  · cases h
  next hforeign =>
    split at h
    · cases h
    next inserted hinserted =>
      obtain rfl := Except.ok.inj h
      rw [Bool.not_eq_true, List.any_eq_false] at hforeign
      refine ⟨fun i => ?_, fun i hi hkey => ?_⟩
      · -- a row survives the deletes unless it was loaded and is not placed again
        have hkept : (!((loaded.any fun l => l.key = i.key) && new.all fun n => n.key ≠ i.key)) =
            true ↔ (i.key ∈ loaded.map DashboardItem.key → i.key ∈ new.map DashboardItem.key) := by
          rw [Bool.not_eq_true', ← Bool.not_eq_true, Bool.and_eq_true, ← mem_keys_iff_any,
            ← notMem_keys_iff_all, not_and, not_not]
        simp only [Table.deleteWhere, List.mem_filter, Table.rows_insertAll hinserted,
          List.mem_append, Table.mapRows, ← notMem_keys_iff_all, hkept]
        constructor
        · rintro ⟨hmem | hadded, hkeep⟩
          · obtain ⟨row, hrow, rfl⟩ := List.mem_map.mp hmem
            rw [reposition_key] at hkeep
            exact .inl ⟨row, hrow, rfl, hkeep⟩
          · exact .inr hadded
        · rintro (⟨row, hrow, rfl, hkeep⟩ | hadded)
          · rw [reposition_key]
            exact ⟨.inl (List.mem_map_of_mem hrow), hkeep⟩
          · exact ⟨.inr hadded, fun hkey => absurd hkey hadded.2⟩
      · have hnone := hforeign i (List.mem_filter.mpr ⟨hi, notMem_keys_iff_all.mp hkey⟩)
        simpa only [Bool.or_eq_true, not_or, Bool.not_eq_true, Option.isNone_eq_false_iff] using
          hnone

/-- Where the rows of a board are what was loaded, less the places of charts that have gone, they
are afterwards the new arrangement, less the same. -/
theorem Flushed.rearranged (h : Flushed charts boards loaded new items)
    (hnew : (new.map DashboardItem.key).Nodup) {boardId : String}
    (hboard : ∀ n ∈ new, n.dashboardId = boardId)
    (hrows : ∀ i, (i ∈ boards.items.rows ∧ i.dashboardId = boardId) ↔
      i ∈ loaded ∧ (charts.get i.chartId).isSome) (i : DashboardItem) :
    (i ∈ items.rows ∧ i.dashboardId = boardId) ↔ i ∈ new ∧ (charts.get i.chartId).isSome := by
  rw [h.mem_iff]
  constructor
  · rintro ⟨⟨row, hrow, rfl, hkeep⟩ | ⟨hadded, hkey⟩, hid⟩
    · have hkey := reposition_key loaded new row
      have hrowId : row.dashboardId = boardId := (congrArg Prod.fst hkey).symm.trans hid
      obtain ⟨hmem, hchart⟩ := (hrows row).mp ⟨hrow, hrowId⟩
      obtain ⟨n, hn, hnkey⟩ := List.mem_map.mp (hkeep (List.mem_map_of_mem hmem))
      rw [reposition_eq hnew (List.mem_map_of_mem hmem) hn hnkey]
      have hsame : n.chartId = row.chartId := congrArg Prod.snd hnkey
      exact ⟨hn, hsame ▸ hchart⟩
    · exact ⟨hadded, (h.added i hadded hkey).2⟩
  · rintro ⟨hn, hchart⟩
    refine ⟨?_, hboard i hn⟩
    by_cases hkey : i.key ∈ loaded.map DashboardItem.key
    · obtain ⟨row, hrow, hrowKey⟩ := List.mem_map.mp hkey
      have hsame : row.chartId = i.chartId := congrArg Prod.snd hrowKey
      have hstored := (hrows row).mpr ⟨hrow, hsame ▸ hchart⟩
      refine .inl ⟨row, hstored.1,
        reposition_eq hnew (List.mem_map_of_mem hrow) hn hrowKey.symm, fun _ => ?_⟩
      exact hrowKey ▸ List.mem_map_of_mem hn
    · exact .inr ⟨hn, hkey⟩

/-- The items of other boards are left alone. -/
theorem Flushed.other (h : Flushed charts boards loaded new items) {boardId : String}
    (hloaded : ∀ l ∈ loaded, l.dashboardId = boardId) (hnew : ∀ n ∈ new, n.dashboardId = boardId)
    {i : DashboardItem} (hi : i.dashboardId ≠ boardId) :
    i ∈ items.rows ↔ i ∈ boards.items.rows := by
  have hnotMem : ∀ j : DashboardItem, j.dashboardId ≠ boardId →
      j.key ∉ loaded.map DashboardItem.key := by
    intro j hj hkey
    obtain ⟨l, hl, hlkey⟩ := List.mem_map.mp hkey
    exact hj ((congrArg Prod.fst hlkey).symm.trans (hloaded l hl))
  rw [h.mem_iff]
  constructor
  · rintro (⟨row, hrow, rfl, -⟩ | ⟨hn, -⟩)
    · have hrowId : row.dashboardId ≠ boardId :=
        fun hid => hi ((congrArg Prod.fst (reposition_key loaded new row)).trans hid)
      rwa [reposition_of_notMem (hnotMem row hrowId)]
    · exact absurd (hnew i hn) hi
  · intro hrow
    exact .inl ⟨i, hrow, reposition_of_notMem (hnotMem i hi),
      fun hkey => absurd hkey (hnotMem i hi)⟩

end Flush

/-! ## What a commit does -/

section Commits

variable {charts : Table QueryChart.id} {boards boards' : Boards} {board : Dashboard}
  {now : Instant}

/-- A name that is not taken is the name of no other row. -/
theorem boardName_ne_of_not_nameTaken {rows : List Dashboard} (h : nameTaken rows board = false)
    {owned : String × String} (howned : boardName board = some owned) {row : Dashboard}
    (hrow : row ∈ rows) (hid : row.id ≠ board.id) : boardName row ≠ some owned := by
  obtain ⟨owner, howner, rfl⟩ := Option.map_eq_some_iff.mp howned
  intro hsame
  obtain ⟨owner', howner', hpair⟩ := Option.map_eq_some_iff.mp hsame
  obtain ⟨rfl, hname⟩ := Prod.mk.inj hpair
  unfold nameTaken at h
  rw [howner, Option.isSome_some, Bool.true_and, List.any_eq_false] at h
  have hrefused := h row hrow
  simp [hid, howner', hname] at hrefused

/-- All that the commit of a new board does. -/
structure Created (charts : Table QueryChart.id) (boards : Boards) (board : Dashboard)
    (chartIds : List String) (boards' : Boards) : Prop where
  board_new : boards.dashboards.get board.id = none
  rows : boards'.dashboards.rows = boards.dashboards.rows ++ [board]
  get : ∀ id, boards'.dashboards.get id =
    if id = board.id then some board else boards.dashboards.get id
  items : Flushed charts ⟨boards'.dashboards, boards.items⟩ [] (applyItems board.id chartIds)
    boards'.items
  names : (boards.dashboards.rows.filterMap boardName).Nodup →
    (boards'.dashboards.rows.filterMap boardName).Nodup

theorem created_of_commitCreate {chartIds : List String}
    (h : commitCreate charts boards board chartIds = .ok boards') :
    Created charts boards board chartIds boards' := by
  unfold commitCreate at h
  split at h
  · cases h
  next htaken =>
    split at h
    · cases h
    next dashboards hinsert =>
      obtain ⟨items, hitems, rfl⟩ := map_eq_ok.mp h
      have hnew : boards.dashboards.get board.id = none := Table.get_of_insert hinsert
      refine ⟨hnew, Table.rows_insert hinsert, Table.get_insert hinsert,
        flushed_of_flushItems hitems, fun hnames => ?_⟩
      rw [Table.rows_insert hinsert, List.filterMap_append]
      refine hnames.append ?_ ?_
      · cases howned : boardName board <;> simp [howned]
      · intro owned hmem hmem'
        obtain ⟨row, hrow, hrowName⟩ := List.mem_filterMap.mp hmem
        obtain ⟨last, hlast, howned⟩ := List.mem_filterMap.mp hmem'
        obtain rfl := List.mem_singleton.mp hlast
        refine boardName_ne_of_not_nameTaken (by simpa using htaken) howned hrow ?_ hrowName
        intro hid
        have hget := Table.get_of_mem hrow
        rw [hid, hnew] at hget
        cases hget

/-- All that a rename does. -/
structure Renamed (boards boards' : Boards) : Prop where
  items : boards'.items = boards.items
  owner : ∀ id, (boards'.dashboards.get id).map Dashboard.ownerId =
    (boards.dashboards.get id).map Dashboard.ownerId
  names : (boards.dashboards.rows.filterMap boardName).Nodup →
    (boards'.dashboards.rows.filterMap boardName).Nodup

theorem Renamed.refl (boards : Boards) : Renamed boards boards := ⟨rfl, fun _ => rfl, id⟩

theorem renamed_of_commitName {name : Option String}
    (h : commitName boards board name now = .ok boards') : Renamed boards boards' := by
  unfold commitName at h
  split at h
  · cases h
    exact .refl boards
  next name =>
    split at h
    · cases h
      exact .refl boards
    split at h
    · cases h
    next row hrow =>
      split at h
      · cases h
      next htaken =>
        obtain rfl := Except.ok.inj h
        refine ⟨rfl, fun id => ?_, fun hnames => ?_⟩
        · simp only [Table.get_modify]
          split
          · rw [Option.map_map]
            rfl
          · rfl
        · refine Table.nodup_filterMap_modify (flushName_id name now) hnames ?_
          intro r hr hid owned howned r' hr' hid'
          have hsame : r = row := by
            rw [← hid, Table.get_of_mem hr] at hrow
            exact Option.some.inj hrow
          subst hsame
          refine boardName_ne_of_not_nameTaken (by simpa using htaken) howned hr' ?_
          exact hid ▸ hid'

/-- All that the commit of an update does. -/
structure Updated (charts : Table QueryChart.id) (boards : Boards) (boardId : String)
    (arrangement : Option Arrangement) (boards' : Boards) : Prop where
  owner : ∀ id, (boards'.dashboards.get id).map Dashboard.ownerId =
    (boards.dashboards.get id).map Dashboard.ownerId
  names : (boards.dashboards.rows.filterMap boardName).Nodup →
    (boards'.dashboards.rows.filterMap boardName).Nodup
  kept : arrangement = none → boards'.items = boards.items
  items : ∀ a, arrangement = some a →
    Flushed charts ⟨boards'.dashboards, boards.items⟩ a.loaded (applyItems boardId a.chartIds)
      boards'.items

theorem updated_of_commitUpdate {name : Option String} {arrangement : Option Arrangement}
    (h : commitUpdate charts boards board name arrangement now = .ok boards') :
    Updated charts boards board.id arrangement boards' := by
  unfold commitUpdate at h
  obtain ⟨renamed, hrenamed, h⟩ := bind_eq_ok.mp h
  have hname := renamed_of_commitName hrenamed
  split at h
  · obtain rfl := Except.ok.inj h
    exact ⟨hname.owner, hname.names, fun _ => hname.items, fun _ h => by cases h⟩
  next a =>
    obtain ⟨items, hitems, h⟩ := bind_eq_ok.mp h
    obtain rfl := Except.ok.inj h
    refine ⟨hname.owner, hname.names, fun h => (by cases h), fun a' ha => ?_⟩
    obtain rfl := Option.some.inj ha
    exact hname.items ▸ flushed_of_flushItems hitems

end Commits

end FraudAnalyzer.Dashboards
