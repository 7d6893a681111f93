import FraudAnalyzer.Dashboards.Placements

/-!
# An analyst's boards show what the analyst may see

The charts of an arrangement are checked when the request is made, and placed later. What may happen
in between does not let a chart of somebody else onto the board: a query keeps its owner, a chart
its query, and a chart that is gone leaves an id that nothing else gets.

The two ways there are stay out of the runs here (`KeptFromAdmins`): an administrator, who may place
anything, arranges the board, or a claim of unowned work gives the analyst a board of others.
-/

namespace FraudAnalyzer.Dashboards

open Charts Python

/-- The owner of a stored board. -/
def State.ownerOf (s : State) (boardId : String) : Option String :=
  (s.boards.dashboards.get boardId).bind Dashboard.ownerId

/-- What is stored under the id of a chart is on a query of the analyst. -/
def Mine (u : String) (s : State) (chartId : String) : Prop :=
  ∀ chart, s.charts.db.charts.get chartId = some chart →
    ∃ query, s.charts.db.queries.get chart.queryId = some query ∧ query.ownerId = some u

/-- The analyst is no administrator, no administrator updates a board of the analyst, and nothing is
claimed for the analyst. -/
def KeptFromAdmins (u : String) (s : State) : Action → Prop
  | .claim accountId _ => accountId ≠ u
  | .beginCreate _ user _ => user.id = u → user.isAdmin = false
  | .beginUpdate _ user dashboardId _ => s.ownerOf dashboardId = some u → user.isAdmin = false
  | _ => True

instance (u : String) (s : State) (a : Action) : Decidable (KeptFromAdmins u s a) := by
  unfold KeptFromAdmins
  split <;> infer_instance

/-- What a request holds that may become the arrangement of a board of the analyst. -/
def Stage.OwnCharts (u : String) (s : State) : Stage → Prop
  | .checked user _ chartIds => user.id = u → ∀ c ∈ chartIds, Mine u s c
  | .opened user board _ => s.ownerOf board.id = some u → user = ⟨u, false⟩
  | .validated board _ chartIds => s.ownerOf board.id = some u → ∀ c ∈ chartIds, Mine u s c
  | .ready board _ (some a) _ => s.ownerOf board.id = some u → ∀ c ∈ a.chartIds, Mine u s c
  | .ready _ _ none _ => True
  | .deleting _ => True

structure OwnCharts (u : String) (s : State) : Prop where
  placed : ∀ i ∈ s.boards.items.rows, s.ownerOf i.dashboardId = some u → Mine u s i.chartId
  requests : ∀ j stage, s.requests j = some stage → stage.OwnCharts u s

/-- `t` comes after `s`: what was the analyst's still is, and no older board has become the
analyst's. -/
structure Evolves (u : String) (s t : State) : Prop where
  mine : ∀ c ∈ s.charts.issued, Mine u s c → Mine u t c
  board : ∀ id ∈ s.boardIds, t.ownerOf id = some u → s.ownerOf id = some u

section OwnCharts

variable {E : Env} {u : String} {s t : State} {a : Action}

theorem mine_of_chartVisibleTo {chartId : String}
    (h : chartVisibleTo s.charts.db ⟨u, false⟩ chartId = true) : Mine u s chartId := by
  intro chart hchart
  unfold chartVisibleTo at h
  obtain ⟨chart', hchart', hquery⟩ := (Option.any_eq_true _ _).mp h
  obtain rfl : chart = chart' := Option.some.inj (hchart.symm.trans hchart')
  obtain ⟨query, hget, hvisible⟩ := (Option.any_eq_true _ _).mp hquery
  exact ⟨query, hget, by simpa [Queries.visibleTo] using hvisible⟩

theorem chartVisibleTo_of_mine {chartId : String} (h : Mine u s chartId)
    (hstored : (s.charts.db.charts.get chartId).isSome) :
    chartVisibleTo s.charts.db ⟨u, false⟩ chartId = true := by
  obtain ⟨chart, hchart⟩ := Option.isSome_iff_exists.mp hstored
  obtain ⟨query, hquery, howner⟩ := h chart hchart
  simp [chartVisibleTo, hchart, hquery, Queries.visibleTo, howner]

theorem mine_of_validate {sent chartIds : List String}
    (h : validateChartIds E.unicode s.charts.db ⟨u, false⟩ sent = .ok chartIds) :
    ∀ c ∈ chartIds, Mine u s c := by
  obtain ⟨rfl, hvisible⟩ := validateChartIds_eq_ok_iff.mp h
  exact fun c hc => mine_of_chartVisibleTo (hvisible c (mem_deduped.mp hc))

theorem Stage.OwnCharts.evolves {stage : Stage} (h : stage.OwnCharts u s) (hs : stage.Sound s)
    (he : Evolves u s t) : stage.OwnCharts u t := by
  cases stage with
  | checked user name chartIds =>
    exact fun huser c hc => he.mine c (hs.issued c hc) (h huser c hc)
  | opened user board payload => exact fun hboard => h (he.board _ (hs.board _ rfl) hboard)
  | validated board name chartIds =>
    exact fun hboard c hc =>
      he.mine c (hs.issued c hc) (h (he.board _ (hs.board _ rfl) hboard) c hc)
  | ready board name arrangement since =>
    cases arrangement with
    | none => trivial
    | some a =>
      exact fun hboard c hc =>
        he.mine c (hs.issued c hc) (h (he.board _ (hs.board _ rfl) hboard) c hc)
  | deleting board => trivial

/-- A step that places nothing on the boards of the analyst, or what is the analyst's. -/
theorem OwnCharts.step (h : OwnCharts u s) (hs : Sound s) (he : Evolves u s t)
    (hitems : ∀ i ∈ t.boards.items.rows, t.ownerOf i.dashboardId = some u →
      (∃ row ∈ s.boards.items.rows, row.dashboardId = i.dashboardId ∧ row.chartId = i.chartId) ∨
        Mine u s i.chartId ∧ i.chartId ∈ s.charts.issued)
    (hrequests : ∀ j stage, t.requests j = some stage → s.requests j = some stage) :
    OwnCharts u t where
  placed i hi howner := by
    rcases hitems i hi howner with ⟨row, hrow, hboard, hchart⟩ | ⟨hmine, hissued⟩
    · obtain ⟨board, hget⟩ :=
        Option.isSome_iff_exists.mp (hs.consistent.item_board row hrow)
      have hid : i.dashboardId ∈ s.boardIds := hboard ▸ hs.boardIds _ board hget
      have hissued := hs.issued (hs.consistent.item_chart row hrow)
      have hmine := h.placed row hrow (hboard ▸ he.board _ hid howner)
      exact hchart ▸ he.mine _ hissued hmine
    · exact he.mine _ hissued hmine
  requests j stage hstage := by
    have hold := hrequests j stage hstage
    exact (h.requests j stage hold).evolves (hs.requests j stage hold) he

/-- The user a board is opened by, where the board is the analyst's. -/
theorem user_eq_of_getOwned {user : User} {dashboardId : String} {board : Dashboard}
    (h : getOwned s.boards.dashboards dashboardId user = .ok board)
    (hadmin : s.ownerOf dashboardId = some u → user.isAdmin = false)
    (howner : s.ownerOf dashboardId = some u) : user = ⟨u, false⟩ := by
  obtain ⟨hget, hvisible⟩ := getOwned_eq_ok_iff.mp h
  have hanalyst := hadmin howner
  rw [State.ownerOf, hget, Option.bind_some] at howner
  obtain ⟨id, isAdmin⟩ := user
  obtain rfl : isAdmin = false := hanalyst
  simp only [visibleTo, Bool.false_or, decide_eq_true_eq, howner, Option.some.injEq] at hvisible
  rw [hvisible]

theorem OwnCharts.idle {requests : Nat → Option Stage} (h : OwnCharts u s)
    (hreq : Requests E s a { s with requests := requests }) (hok : KeptFromAdmins u s a) :
    OwnCharts u { s with requests := requests } where
  placed := h.placed
  requests j stage hstage := by
    have hkept : ∀ st : Stage, st.OwnCharts u s →
        st.OwnCharts u { s with requests := requests } := by
      intro st hst
      cases st with
      | ready board name arrangement since =>
        cases arrangement with
        | none => trivial
        | some a => exact hst
      | _ => exact hst
    refine hkept stage ?_
    rcases hreq j stage hstage with hold | hadv
    · exact h.requests j stage hold
    have hprevious := h.requests j
    generalize s.requests j = old at hadv hprevious
    cases hadv with
    | @checked i _ user chartIds payload hvalid =>
      intro huser
      obtain ⟨id, isAdmin⟩ := user
      obtain rfl : isAdmin = false := hok huser
      obtain rfl : id = u := huser
      exact mine_of_validate hvalid
    | opened howned =>
      intro howner
      rw [Table.key_of_get (getOwned_eq_ok_iff.mp howned).1] at howner
      exact user_eq_of_getOwned howned hok howner
    | nameOnly _ => trivial
    | validated _ hvalid =>
      intro howner
      obtain rfl := hprevious _ rfl howner
      exact mine_of_validate hvalid
    | loaded => exact fun howner => hprevious _ rfl howner
    | deleting _ => trivial

/-- Queries and boards are as they were, the charts too. -/
theorem evolves_of_charts (hcharts : t.charts = s.charts)
    (hboards : ∀ id ∈ s.boardIds, t.ownerOf id = some u → s.ownerOf id = some u) :
    Evolves u s t := by
  refine ⟨fun c _ hmine => ?_, hboards⟩
  unfold Mine
  rw [hcharts]
  exact hmine

theorem evolves_cascade (hs : Sound s) {op : Charts.Action} {charts : Charts.State}
    (hstep : Charts.step E s.charts op = some charts) : Evolves u s (s.cascade charts) := by
  have hkept := rowsKept_of_step hs.known hstep
  refine ⟨fun c hc hmine chart' hchart' => ?_, fun _ _ howner => howner⟩
  obtain ⟨chart, hchart, hquery⟩ := hkept.charts c chart' hchart' hc
  obtain ⟨query, hget, howner⟩ := hmine chart hchart
  have href := hkept.referential hs.consistent.referential c chart' hchart'
  obtain ⟨query', hquery'⟩ := Option.isSome_iff_exists.mp href
  obtain ⟨old, hold, hsame⟩ := hkept.owners _ query' hquery'
  refine ⟨query', hquery', ?_⟩
  rw [hquery, hget] at hold
  obtain rfl := Option.some.inj hold
  exact hsame.trans howner

/-- What a flush adds is what the request was to place. -/
theorem mem_chartIds_of_flushed {charts : Table QueryChart.id} {dashboards : Table Dashboard.id}
    {old items : Table DashboardItem.key} {loaded : List DashboardItem} {boardId : String}
    {chartIds : List String}
    (hflush : Flushed charts ⟨dashboards, old⟩ loaded (applyItems boardId chartIds) items)
    {i : DashboardItem} (hi : i ∈ items.rows) :
    (∃ row ∈ old.rows, row.dashboardId = i.dashboardId ∧ row.chartId = i.chartId) ∨
      i.dashboardId = boardId ∧ i.chartId ∈ chartIds := by
  rcases hflush.mem_cases hi with hold | ⟨hnew, -⟩
  · exact .inl hold
  · exact .inr ⟨dashboardId_of_mem_applyItems hnew, chartId_of_mem_applyItems hnew⟩

theorem ownerOf_of_updated {boards : Boards}
    (howner : ∀ id, (boards.dashboards.get id).map Dashboard.ownerId =
      (s.boards.dashboards.get id).map Dashboard.ownerId) (id : String) :
    (boards.dashboards.get id).bind Dashboard.ownerId = s.ownerOf id := by
  have hbind := congrArg (fun o => o.bind fun owner => owner) (howner id)
  simp only [Option.bind_map] at hbind
  exact hbind

theorem OwnCharts.effect (h : OwnCharts u s) (hs : Sound s) (he : Effect E s a t)
    (hok : KeptFromAdmins u s a) : OwnCharts u t := by
  cases he with
  | idle hreq => exact h.idle hreq hok
  | edit hstep =>
    refine h.step hs (evolves_cascade hs hstep) (fun i hi _ => .inl ?_) fun _ _ hj => hj
    exact ⟨i, (mem_cascade.mp hi).1, rfl, rfl⟩
  | @createQuery query chartId db _ hchart hcommit =>
    have hcreate := Queries.Creating.created_of_commitCreate hcommit
    refine h.step hs ⟨fun c hc hmine chart hget => ?_, fun _ _ howner => howner⟩
      (fun i hi _ => .inl ⟨i, hi, rfl, rfl⟩) fun _ _ hj => hj
    have hne : c ≠ chartId := fun heq => hchart (heq ▸ hc)
    simp only [hcreate.charts, if_neg hne] at hget
    obtain ⟨stored, hstored, howner⟩ := hmine chart hget
    have hold : chart.queryId ≠ query.id := by
      intro heq
      rw [heq, hcreate.query_new] at hstored
      cases hstored
    refine ⟨stored, ?_, howner⟩
    simpa only [hcreate.queries, if_neg hold] using hstored
  | @claim accountId now _ _ hclaim =>
    obtain ⟨rfl, rfl, -, -⟩ := Cli.claimUnowned_eq_some_iff.mp hclaim
    refine h.step hs ⟨fun c _ hmine chart hget => ?_, fun id _ howner => ?_⟩
      (fun i hi _ => .inl ⟨i, hi, rfl, rfl⟩) fun _ _ hj => hj
    · obtain ⟨query, hquery, howner⟩ := hmine chart hget
      refine ⟨Cli.claimQuery accountId query, ?_, ?_⟩
      · rw [Cli.get_claimQueries, hquery, Option.map_some]
      · simp only [Cli.claimQuery, Cli.claimedOwner, howner, Option.getD_some]
    · rw [State.ownerOf] at howner ⊢
      obtain ⟨board, hget, hclaimed⟩ := Option.bind_eq_some_iff.mp howner
      rw [Cli.get_claimBoards] at hget
      obtain ⟨row, hrow, rfl⟩ := Option.map_eq_some_iff.mp hget
      rw [hrow, Option.bind_some]
      simp only [Cli.claimBoard, Cli.claimedOwner, Option.some.injEq] at hclaimed
      cases hrowOwner : row.ownerId with
      | none => exact absurd (by simpa [hrowOwner] using hclaimed) hok
      | some owner => simpa [hrowOwner] using hclaimed
  | @create i id now user name chartIds boards hstage hid hcommit =>
    have hcreate := created_of_commitCreate hcommit
    have hown := h.requests i _ hstage
    refine h.step hs (evolves_of_charts rfl fun other hother howner => ?_)
      (fun item hitem howner => ?_)
      fun _ _ hj => of_requests_drop hj
    · have hne : other ≠ id := fun heq => hid (heq ▸ hother)
      simpa only [State.ownerOf, State.note, hcreate.get, if_neg hne] using howner
    · rcases mem_chartIds_of_flushed hcreate.items hitem with hold | ⟨hboard, hmem⟩
      · exact .inl hold
      · have huser : user.id = u := by
          simpa [State.ownerOf, State.note, hcreate.get, hboard] using howner
        exact .inr ⟨hown huser _ hmem, (hs.requests i _ hstage).issued _ hmem⟩
  | rename hstage hcommit =>
    have hupdate := updated_of_commitUpdate hcommit
    refine h.step hs (evolves_of_charts rfl fun id _ howner => ?_)
      (fun i hi _ => .inl ⟨i, hupdate.kept rfl ▸ hi, rfl, rfl⟩) fun _ _ hj => of_requests_drop hj
    exact (ownerOf_of_updated hupdate.owner id).symm.trans howner
  | @rearrange i now board name since arrangement boards hstage hcommit =>
    have hupdate := updated_of_commitUpdate hcommit
    have howners := ownerOf_of_updated hupdate.owner
    have hown := h.requests i _ hstage
    refine h.step hs (evolves_of_charts rfl fun id _ howner => (howners id).symm.trans howner)
      (fun item hitem howner => ?_) fun _ _ hj => of_requests_drop hj
    rcases mem_chartIds_of_flushed (hupdate.items _ rfl) hitem with hold | ⟨hboard, hmem⟩
    · exact .inl hold
    · have howner' := (howners item.dashboardId).symm.trans howner
      exact .inr ⟨hown (hboard ▸ howner') _ hmem, (hs.requests i _ hstage).issued _ hmem⟩
  | @delete i board hstage =>
    refine h.step hs (evolves_of_charts rfl fun id _ howner => ?_)
      (fun item hitem _ => .inl ⟨item, (List.mem_filter.mp hitem).1, rfl, rfl⟩)
      fun _ _ hj => of_requests_drop hj
    obtain ⟨row, hrow, hrowOwner⟩ := Option.bind_eq_some_iff.mp howner
    simp only [commitDelete, Table.get_deleteWhere] at hrow
    rw [State.ownerOf, (Option.filter_eq_some_iff.mp hrow).1]
    exact hrowOwner

end OwnCharts

/-! ## Runs -/

/-- **An analyst's boards show only charts the analyst may see**, so each card of a board is drawn
for its owner, in any interleaving in which no administrator has a hand in them. -/
theorem chartVisibleTo_of_run {E : Env} {db : Db} {boards : Boards} {u : String} {as : List Action}
    {t : State} (hconsistent : Consistent db boards)
    (hstart : ∀ board ∈ boards.dashboards.rows, board.ownerId = some u →
      ∀ c ∈ boards.chartIds board.id, chartVisibleTo db ⟨u, false⟩ c = true)
    (h : Machine.Run (step E) (KeptFromAdmins u) (State.start db boards) as t) :
    ∀ board ∈ t.boards.dashboards.rows, board.ownerId = some u →
      ∀ c ∈ t.boards.chartIds board.id, chartVisibleTo t.charts.db ⟨u, false⟩ c = true := by
  have hfirst : OwnCharts u (State.start db boards) := by
    refine ⟨fun i hi howner => ?_, fun j stage hstage => by cases hstage⟩
    obtain ⟨board, hget, hboard⟩ := Option.bind_eq_some_iff.mp howner
    have hid := Table.key_of_get hget
    have hmem : i.chartId ∈ boards.chartIds board.id :=
      List.mem_map_of_mem (Boards.mem_itemsOf.mpr ⟨hi, hid.symm⟩)
    exact mine_of_chartVisibleTo (hstart board (Table.mem_of_get hget) hboard _ hmem)
  have hinv : Sound t ∧ OwnCharts u t := by
    refine h.invariant (I := fun s => Sound s ∧ OwnCharts u s) ?_ ⟨sound_start hconsistent, hfirst⟩
    rintro s a t ⟨hs, hown⟩ hstep hok
    have heff := effect_of_step hstep
    exact ⟨hs.effect heff, hown.effect hs heff hok⟩
  intro board hboard howner c hc
  obtain ⟨i, hi, rfl⟩ := List.mem_map.mp hc
  obtain ⟨hrow, hid⟩ := Boards.mem_itemsOf.mp hi
  refine chartVisibleTo_of_mine (hinv.2.placed i hrow ?_) (hinv.1.consistent.item_chart i hrow)
  rw [State.ownerOf, hid, Table.get_of_mem hboard]
  exact howner

/-- Her board of two charts becomes a board of one, while the administrator claims what
is unowned. -/
theorem chartVisibleTo_of_arrange :
    ∃ t, Machine.Run (step Charts.Sample.env) (KeptFromAdmins "ann")
        (State.start Sample.db Sample.boards)
        (.claim "root" 3 :: Sample.arrange 0 ["c"] ++ [.commitUpdate 0 5]) t ∧
      t.boards.chartIds "b" = ["c"] ∧
      ∀ board ∈ t.boards.dashboards.rows, board.ownerId = some "ann" →
        ∀ c ∈ t.boards.chartIds board.id, chartVisibleTo t.charts.db ⟨"ann", false⟩ c = true := by
  have hrun : ∃ t, Machine.Run (step Charts.Sample.env) (KeptFromAdmins "ann")
      (State.start Sample.db Sample.boards)
      (.claim "root" 3 :: Sample.arrange 0 ["c"] ++ [.commitUpdate 0 5]) t ∧
      t.boards.chartIds "b" = ["c"] :=
    ⟨_, Machine.run_of_exec_checked rfl, rfl⟩
  obtain ⟨t, ht, hcharts⟩ := hrun
  exact ⟨t, ht, hcharts, chartVisibleTo_of_run Sample.consistent (by decide) ht⟩

end FraudAnalyzer.Dashboards
