import FraudAnalyzer.Charts.Rows
import FraudAnalyzer.Dashboards.Machine

/-!
# What boards place

The invariants of `step`, for any interleaving: the foreign keys and the unique name, and that every
id a request carries was given out. A chart that is deleted leaves every board, and no other chart
ever takes its id, so an arrangement that is committed late cannot place something else.
-/

namespace FraudAnalyzer.Dashboards

open Charts Python

/-- The constraints of the tables hold. -/
structure Consistent (db : Db) (boards : Boards) : Prop where
  referential : Referential db
  item_board : ∀ i ∈ boards.items.rows, (boards.dashboards.get i.dashboardId).isSome
  item_chart : ∀ i ∈ boards.items.rows, (db.charts.get i.chartId).isSome
  names : (boards.dashboards.rows.filterMap boardName).Nodup

namespace Stage

/-- The charts a request is about to place. -/
def chartIds : Stage → List String
  | .checked _ _ chartIds => chartIds
  | .validated _ _ chartIds => chartIds
  | .ready _ _ (some a) _ => a.chartIds
  | _ => []

/-- The board a request is about. -/
def boardId : Stage → Option String
  | .checked _ _ _ => none
  | .opened _ board _ => some board.id
  | .validated board _ _ => some board.id
  | .ready board _ _ _ => some board.id
  | .deleting board => some board.id

/-- The items a request has loaded. -/
def loaded : Stage → List DashboardItem
  | .ready _ _ (some a) _ => a.loaded
  | _ => []

end Stage

/-- What a request carries was there once. -/
structure Stage.Sound (s : State) (stage : Stage) : Prop where
  nodup : stage.chartIds.Nodup
  issued : ∀ chartId ∈ stage.chartIds, chartId ∈ s.charts.issued
  board : ∀ id, stage.boardId = some id → id ∈ s.boardIds
  loaded : ∀ l ∈ stage.loaded, stage.boardId = some l.dashboardId

structure Sound (s : State) : Prop where
  known : Known s.charts
  consistent : Consistent s.charts.db s.boards
  boardIds : ∀ id board, s.boards.dashboards.get id = some board → id ∈ s.boardIds
  requests : ∀ i stage, s.requests i = some stage → stage.Sound s

section Sound

variable {E : Env} {s t : State} {a : Action}

theorem sound_start {db : Db} {boards : Boards} (h : Consistent db boards) :
    Sound (State.start db boards) where
  known := known_start db
  consistent := h
  boardIds id board hget := Table.mem_keys_iff.mpr ⟨board, hget⟩
  requests i stage hstage := by cases hstage

theorem Stage.Sound.mono {stage : Stage} (h : stage.Sound s)
    (hissued : ∀ id ∈ s.charts.issued, id ∈ t.charts.issued)
    (hboards : ∀ id ∈ s.boardIds, id ∈ t.boardIds) : stage.Sound t :=
  ⟨h.nodup, fun c hc => hissued c (h.issued c hc), fun id hid => hboards id (h.board id hid),
    h.loaded⟩

/-- A chart that may be placed is stored. -/
theorem isSome_of_chartVisibleTo {db : Db} {user : User} {chartId : String}
    (h : chartVisibleTo db user chartId = true) : (db.charts.get chartId).isSome := by
  unfold chartVisibleTo at h
  obtain ⟨chart, hchart, -⟩ := (Option.any_eq_true _ _).mp h
  rw [hchart]
  rfl

theorem Sound.issued (h : Sound s) {chartId : String}
    (hchart : (s.charts.db.charts.get chartId).isSome) : chartId ∈ s.charts.issued := by
  obtain ⟨chart, hget⟩ := Option.isSome_iff_exists.mp hchart
  exact h.known.charts chartId chart hget

theorem Sound.of_validate (h : Sound s) {user : User} {sent chartIds : List String}
    (hvalid : validateChartIds E.unicode s.charts.db user sent = .ok chartIds) :
    chartIds.Nodup ∧ ∀ chartId ∈ chartIds, chartId ∈ s.charts.issued := by
  obtain ⟨rfl, hvisible⟩ := validateChartIds_eq_ok_iff.mp hvalid
  refine ⟨nodup_deduped sent, fun chartId hmem => ?_⟩
  exact h.issued (isSome_of_chartVisibleTo (hvisible chartId (mem_deduped.mp hmem)))

theorem Sound.of_getOwned (h : Sound s) {user : User} {dashboardId : String} {board : Dashboard}
    (howned : getOwned s.boards.dashboards dashboardId user = .ok board) :
    board.id ∈ s.boardIds := by
  have hget := (getOwned_eq_ok_iff.mp howned).1
  exact Table.key_of_get hget ▸ h.boardIds dashboardId board hget

theorem Sound.advance (h : Sound s) {old : Option Stage} {stage : Stage}
    (hold : ∀ stage, old = some stage → stage.Sound s) (hadv : Advance E s a old stage) :
    stage.Sound s := by
  cases hadv with
  | checked hvalid =>
    obtain ⟨hnodup, hissued⟩ := h.of_validate hvalid
    exact ⟨hnodup, hissued, fun _ h => (by cases h), fun _ h => (by cases h)⟩
  | opened howned =>
    refine ⟨List.nodup_nil, fun _ h => (by cases h), ?_, fun _ h => (by cases h)⟩
    rintro id ⟨⟩
    exact h.of_getOwned howned
  | nameOnly _ =>
    refine ⟨List.nodup_nil, fun _ h => (by cases h), ?_, fun _ h => (by cases h)⟩
    rintro id ⟨⟩
    exact (hold _ rfl).board _ rfl
  | validated _ hvalid =>
    obtain ⟨hnodup, hissued⟩ := h.of_validate hvalid
    refine ⟨hnodup, hissued, ?_, fun _ h => (by cases h)⟩
    rintro id ⟨⟩
    exact (hold _ rfl).board _ rfl
  | loaded =>
    have hprev := hold _ rfl
    refine ⟨hprev.nodup, hprev.issued, hprev.board, fun l hl => ?_⟩
    exact congrArg some (Boards.mem_itemsOf.mp hl).2.symm
  | deleting howned =>
    refine ⟨List.nodup_nil, fun _ h => (by cases h), ?_, fun _ h => (by cases h)⟩
    rintro id ⟨⟩
    exact h.of_getOwned howned

/-- The requests that are left after one of them has ended. -/
theorem Sound.requests_drop (h : Sound s) {i : Nat}
    (hreq : t.requests = (s.drop i).requests)
    (hissued : ∀ id ∈ s.charts.issued, id ∈ t.charts.issued)
    (hboards : ∀ id ∈ s.boardIds, id ∈ t.boardIds) (j : Nat) (stage : Stage)
    (hstage : t.requests j = some stage) : stage.Sound t := by
  rw [hreq] at hstage
  exact (h.requests j stage (of_requests_drop hstage)).mono hissued hboards

theorem Flushed.mem_cases {charts : Table QueryChart.id} {boards : Boards}
    {loaded new : List DashboardItem} {items : Table DashboardItem.key}
    (h : Flushed charts boards loaded new items) {i : DashboardItem} (hi : i ∈ items.rows) :
    (∃ row ∈ boards.items.rows, row.dashboardId = i.dashboardId ∧ row.chartId = i.chartId) ∨
      i ∈ new ∧ i.key ∉ loaded.map DashboardItem.key := by
  rcases (h.mem_iff i).mp hi with ⟨row, hrow, rfl, -⟩ | hadded
  · obtain ⟨hboard, hchart⟩ := Prod.mk.inj (reposition_key loaded new row)
    exact .inl ⟨row, hrow, hboard.symm, hchart.symm⟩
  · exact .inr hadded

/-- A flush places nothing on a board or of a chart that is not stored. -/
theorem Consistent.flush {db : Db} {boards boards' : Boards} (h : Consistent db boards)
    {loaded new : List DashboardItem}
    (hflush : Flushed db.charts ⟨boards'.dashboards, boards.items⟩ loaded new boards'.items)
    (hboards : ∀ id, (boards.dashboards.get id).isSome → (boards'.dashboards.get id).isSome)
    (hnames : (boards'.dashboards.rows.filterMap boardName).Nodup) : Consistent db boards' where
  referential := h.referential
  item_board i hi := by
    rcases hflush.mem_cases hi with ⟨row, hrow, hboard, -⟩ | ⟨hnew, hkey⟩
    · exact hboard ▸ hboards _ (h.item_board row hrow)
    · exact (hflush.added i hnew hkey).1
  item_chart i hi := by
    rcases hflush.mem_cases hi with ⟨row, hrow, -, hchart⟩ | ⟨hnew, hkey⟩
    · exact hchart ▸ h.item_chart row hrow
    · exact (hflush.added i hnew hkey).2
  names := hnames

theorem Consistent.cascade {db db' : Db} {boards : Boards} (h : Consistent db boards)
    (href : Referential db') :
    Consistent db' { boards with items := Charts.cascade db'.charts boards.items } where
  referential := href
  item_board i hi := h.item_board i (mem_cascade.mp hi).1
  item_chart i hi := by
    obtain ⟨chart, hchart⟩ := Table.mem_keys_iff.mp (mem_cascade.mp hi).2
    rw [hchart]
    rfl
  names := h.names

theorem known_createQuery (h : Sound s) {query : SavedQuery} {chartId : String} {db : Db}
    (hfresh : chartId ∉ s.charts.issued)
    (hcreate : Queries.Creating.Created query chartId s.charts.db db) :
    Known { s.charts with db := db, issued := s.charts.issued ++ [chartId] } where
  charts id chart hchart := by
    simp only [hcreate.charts] at hchart
    split at hchart
    next hid => exact List.mem_append_right _ (List.mem_singleton.mpr hid)
    · exact List.mem_append_left _ (h.known.charts id chart hchart)
  rules id rule hrule := by
    simp only [hcreate.flagRules] at hrule
    exact List.mem_append_left _ (h.known.rules id rule hrule)
  loaded i since op loaded hop := by
    refine (h.known.loaded i since op loaded hop).mono
      (fun _ hid => List.mem_append_left _ hid) ?_ ?_
    · intro id hid chart hchart
      simp only [hcreate.charts] at hchart
      have hne : id ≠ chartId := fun heq => hfresh (heq ▸ hid)
      rw [if_neg hne] at hchart
      exact ⟨chart, hchart, rfl⟩
    · intro id _ rule hrule
      simpa only [hcreate.flagRules] using hrule

theorem Consistent.createQuery {db db' : Db} {boards : Boards} (h : Consistent db boards)
    {query : SavedQuery} {chartId : String}
    (hcreate : Queries.Creating.Created query chartId db db') : Consistent db' boards where
  referential id chart hchart := by
    rw [hcreate.queries]
    split
    · rfl
    next hne =>
      rw [hcreate.charts] at hchart
      split at hchart
      · obtain rfl := Option.some.inj hchart
        exact absurd rfl hne
      · exact h.referential id chart hchart
  item_board := h.item_board
  item_chart i hi := by
    rw [hcreate.charts]
    split
    · rfl
    · exact h.item_chart i hi
  names := h.names

/-- Known rows stay known, whatever becomes of the queries. -/
theorem known_of_queries {charts : Charts.State} (h : Known charts)
    (queries : Table SavedQuery.id) :
    Known { charts with db := { charts.db with queries := queries } } where
  charts := h.charts
  rules := h.rules
  loaded i since op loaded hop :=
    have hloaded := h.loaded i since op loaded hop
    ⟨hloaded.charts, hloaded.rules, ⟨hloaded.stored.charts, hloaded.stored.rules⟩⟩

theorem isSome_get_of_updated {boards boards' : Boards}
    (howner : ∀ id, (boards'.dashboards.get id).map Dashboard.ownerId =
      (boards.dashboards.get id).map Dashboard.ownerId) (id : String) :
    (boards'.dashboards.get id).isSome = (boards.dashboards.get id).isSome := by
  rw [← Option.isSome_map (f := Dashboard.ownerId), howner, Option.isSome_map]

theorem Sound.boardIds_of_updated (h : Sound s) {boards : Boards}
    (howner : ∀ id, (boards.dashboards.get id).map Dashboard.ownerId =
      (s.boards.dashboards.get id).map Dashboard.ownerId) (id : String) (board : Dashboard)
    (hget : boards.dashboards.get id = some board) : id ∈ s.boardIds := by
  have hsome := isSome_get_of_updated howner id
  rw [hget] at hsome
  obtain ⟨row, hrow⟩ := Option.isSome_iff_exists.mp hsome.symm
  exact h.boardIds id row hrow

theorem Consistent.created {db : Db} {boards boards' : Boards} (h : Consistent db boards)
    {board : Dashboard} {chartIds : List String}
    (hcreate : Created db.charts boards board chartIds boards') : Consistent db boards' := by
  refine h.flush hcreate.items (fun other hother => ?_) (hcreate.names h.names)
  rw [hcreate.get]
  split
  · rfl
  · exact hother

theorem Consistent.updated {db : Db} {boards boards' : Boards} (h : Consistent db boards)
    {boardId : String} {arrangement : Option Arrangement}
    (hupdate : Updated db.charts boards boardId arrangement boards') : Consistent db boards' := by
  cases arrangement with
  | none =>
    have hitems := hupdate.kept rfl
    refine ⟨h.referential, fun i hi => ?_, hitems ▸ h.item_chart, hupdate.names h.names⟩
    rw [isSome_get_of_updated hupdate.owner]
    exact h.item_board i (hitems ▸ hi)
  | some a =>
    refine h.flush (hupdate.items a rfl) (fun id hid => ?_) (hupdate.names h.names)
    exact (isSome_get_of_updated hupdate.owner id).trans hid

theorem Consistent.deleted {db : Db} {boards : Boards} (h : Consistent db boards)
    (boardId : String) : Consistent db (commitDelete boards boardId) where
  referential := h.referential
  item_board item hitem := by
    obtain ⟨hmem, hboard⟩ := List.mem_filter.mp hitem
    obtain ⟨row, hrow⟩ := Option.isSome_iff_exists.mp (h.item_board item hmem)
    have hid := Table.key_of_get hrow
    have hkept : (boards.dashboards.deleteWhere fun d => d.id = boardId).get item.dashboardId =
        some row := by
      rw [Table.get_deleteWhere, hrow]
      simpa [hid] using hboard
    simp only [commitDelete, hkept, Option.isSome_some]
  item_chart item hitem := h.item_chart item (List.mem_filter.mp hitem).1
  names := h.names.sublist (List.filter_sublist.filterMap _)

theorem Sound.effect (h : Sound s) (he : Effect E s a t) : Sound t := by
  cases he with
  | @idle _ requests hreq =>
    refine ⟨h.known, h.consistent, h.boardIds, fun i stage hstage => ?_⟩
    rcases hreq i stage hstage with hold | hadv
    · exact (h.requests i stage hold).mono (fun _ hid => hid) fun _ hid => hid
    · exact (h.advance (h.requests i) hadv).mono (fun _ hid => hid) fun _ hid => hid
  | edit hstep =>
    have hkept := rowsKept_of_step h.known hstep
    refine ⟨hkept.known, h.consistent.cascade (hkept.referential h.consistent.referential),
      h.boardIds, fun i stage hstage => ?_⟩
    exact (h.requests i stage hstage).mono hkept.issued fun _ hid => hid
  | createQuery hquery hchart hcommit =>
    have hcreate := Queries.Creating.created_of_commitCreate hcommit
    refine ⟨known_createQuery h hchart hcreate, h.consistent.createQuery hcreate, h.boardIds,
      fun i stage hstage => ?_⟩
    exact (h.requests i stage hstage).mono (fun _ hid => List.mem_append_left _ hid)
      fun _ hid => hid
  | claim hclaim =>
    obtain ⟨rfl, rfl, -, hnames⟩ := Cli.claimUnowned_eq_some_iff.mp hclaim
    refine ⟨known_of_queries h.known _, ⟨?_, ?_, h.consistent.item_chart,
      hnames⟩, ?_, fun i stage hstage => ?_⟩
    · intro id chart hchart
      rw [Cli.get_claimQueries, Option.isSome_map]
      exact h.consistent.referential id chart hchart
    · intro i hi
      rw [Cli.get_claimBoards, Option.isSome_map]
      exact h.consistent.item_board i hi
    · intro id board hget
      rw [Cli.get_claimBoards] at hget
      obtain ⟨row, hrow, -⟩ := Option.map_eq_some_iff.mp hget
      exact h.boardIds id row hrow
    · exact (h.requests i stage hstage).mono (fun _ hid => hid) fun _ hid => hid
  | @create i id now user name chartIds boards hstage hid hcommit =>
    have hcreate := created_of_commitCreate hcommit
    refine ⟨h.known, h.consistent.created hcreate, ?_, ?_⟩
    · intro other board hget
      simp only [State.note, hcreate.get] at hget
      split at hget
      next heq => exact List.mem_append_right _ (List.mem_singleton.mpr heq)
      · exact List.mem_append_left _ (h.boardIds other board hget)
    · exact h.requests_drop rfl (fun _ hid => hid) fun _ hid => List.mem_append_left _ hid
  | rename hstage hcommit =>
    have hupdate := updated_of_commitUpdate hcommit
    exact ⟨h.known, h.consistent.updated hupdate, h.boardIds_of_updated hupdate.owner,
      h.requests_drop rfl (fun _ hid => hid) fun _ hid => hid⟩
  | rearrange hstage hcommit =>
    have hupdate := updated_of_commitUpdate hcommit
    exact ⟨h.known, h.consistent.updated hupdate, h.boardIds_of_updated hupdate.owner,
      h.requests_drop rfl (fun _ hid => hid) fun _ hid => hid⟩
  | @delete i board hstage =>
    refine ⟨h.known, h.consistent.deleted board.id, fun id row hget => ?_,
      h.requests_drop rfl (fun _ hid => hid) fun _ hid => hid⟩
    simp only [commitDelete, Table.get_deleteWhere] at hget
    exact h.boardIds id row (Option.filter_eq_some_iff.mp hget).1

end Sound

namespace Sample

open Charts.Sample (author chart)

def rows : QueryChart := { chart with id := "d", name := "Rows", position := 1 }

theorem nodup_charts : ([chart, rows].map QueryChart.id).Nodup := by decide

/-- Two charts of one analyst. -/
def db : Db := { Charts.Sample.db with charts := ⟨[chart, rows], nodup_charts⟩ }

def board : Dashboard := ⟨"b", "Transfers", some "ann", 1, 1⟩

theorem nodup_board : ([board].map Dashboard.id).Nodup := by decide

def items : List DashboardItem := [⟨"b", "d", 0⟩, ⟨"b", "c", 1⟩]

theorem nodup_items : (items.map DashboardItem.key).Nodup := by decide

/-- Both on her board. -/
def boards : Boards := ⟨⟨[board], nodup_board⟩, ⟨items, nodup_items⟩⟩

theorem consistent : Consistent db boards where
  referential id chart h := by
    have hmem := Table.mem_of_get h
    clear h
    revert chart
    decide
  item_board := by decide
  item_chart := by decide
  names := by decide

/-- An update of the arrangement, up to its commit. -/
def arrange (i : Nat) (chartIds : List String) : List Action :=
  [.beginUpdate i author "b" ⟨none, some chartIds⟩, .validate i, .load i]

end Sample

end FraudAnalyzer.Dashboards
