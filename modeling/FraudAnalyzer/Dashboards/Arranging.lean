import FraudAnalyzer.Dashboards.Placements

/-!
# The arrangement that a board shows

An update of the arrangement replaces what its request had loaded, so what it leaves is the new
arrangement exactly where no other one was committed in between (`Undisturbed`). The charts are free
to come and go: a chart that is deleted leaves its place, and the rest keep their order.
-/

namespace FraudAnalyzer.Dashboards

open Charts Python

/-- `chart_id` is the id of a stored chart. -/
def State.stored (s : State) (chartId : String) : Bool := (s.charts.db.charts.get chartId).isSome

/-- The rows of a board are `items`, less the places of charts that have gone. -/
def Shows (s : State) (boardId : String) (items : List DashboardItem) : Prop :=
  ∀ i, (i ∈ s.boards.items.rows ∧ i.dashboardId = boardId) ↔ i ∈ items ∧ s.stored i.chartId = true

/-- No other arrangement of the board was committed since the request loaded its own. -/
def Undisturbed (s : State) : Action → Prop
  | .commitUpdate i _ =>
    match s.requests i with
    | some (.ready board _ (some _) since) => since = (s.written board.id).count
    | _ => True
  | _ => True

instance (s : State) (a : Action) : Decidable (Undisturbed s a) := by
  unfold Undisturbed
  split
  · split <;> infer_instance
  · infer_instance

/-- What a request has loaded of a board. -/
structure Loaded (s : State) (boardId : String) (loaded : List DashboardItem) (since : Nat) :
    Prop where
  issued : ∀ l ∈ loaded, l.chartId ∈ s.charts.issued
  since_le : since ≤ (s.written boardId).count
  shows : since = (s.written boardId).count → (s.boards.dashboards.get boardId).isSome →
    Shows s boardId loaded

structure Arranged (s : State) : Prop where
  issued : ∀ id, ∀ i ∈ (s.written id).items, i.chartId ∈ s.charts.issued
  ordered : ∀ id, (s.written id).items.Pairwise fun a b => a.position < b.position
  shows : ∀ id, (s.boards.dashboards.get id).isSome → Shows s id (s.written id).items
  requests : ∀ j board name a since, s.requests j = some (.ready board name (some a) since) →
    Loaded s board.id a.loaded since

/-- `t` comes after `s`: no chart has come back. -/
structure Later (s t : State) : Prop where
  issued : ∀ id ∈ s.charts.issued, id ∈ t.charts.issued
  stored : ∀ id ∈ s.charts.issued, t.stored id = true → s.stored id = true

/-- A step that leaves the arrangement of a board alone. -/
structure Untouched (s t : State) (id : String) : Prop where
  written : t.written id = s.written id
  board : (t.boards.dashboards.get id).isSome → (s.boards.dashboards.get id).isSome
  rows : (t.boards.dashboards.get id).isSome → ∀ i, i.dashboardId = id →
    (i ∈ t.boards.items.rows ↔ i ∈ s.boards.items.rows ∧ t.stored i.chartId = true)

/-- A step that commits an arrangement of a board. -/
structure Rearranged (s t : State) (id : String) : Prop where
  count : (s.written id).count < (t.written id).count
  issued : ∀ i ∈ (t.written id).items, i.chartId ∈ t.charts.issued
  ordered : (t.written id).items.Pairwise fun a b => a.position < b.position
  shows : (t.boards.dashboards.get id).isSome → Shows t id (t.written id).items

section Arranged

variable {E : Env} {s t : State} {a : Action}

theorem Shows.untouched {id : String} {items : List DashboardItem} (h : Shows s id items)
    (hlater : Later s t) (hun : Untouched s t id) (hboard : (t.boards.dashboards.get id).isSome)
    (hissued : ∀ i ∈ items, i.chartId ∈ s.charts.issued) : Shows t id items := by
  intro i
  constructor
  · rintro ⟨hrow, hid⟩
    obtain ⟨hold, hstored⟩ := (hun.rows hboard i hid).mp hrow
    exact ⟨((h i).mp ⟨hold, hid⟩).1, hstored⟩
  · rintro ⟨hmem, hstored⟩
    obtain ⟨hold, hid⟩ := (h i).mpr ⟨hmem, hlater.stored _ (hissued i hmem) hstored⟩
    exact ⟨(hun.rows hboard i hid).mpr ⟨hold, hstored⟩, hid⟩

theorem Loaded.untouched {id : String} {loaded : List DashboardItem} {since : Nat}
    (h : Loaded s id loaded since) (hlater : Later s t) (hun : Untouched s t id) :
    Loaded t id loaded since where
  issued l hl := hlater.issued _ (h.issued l hl)
  since_le := hun.written ▸ h.since_le
  shows hsince hboard :=
    (h.shows (hun.written ▸ hsince) (hun.board hboard)).untouched hlater hun hboard h.issued

/-- What was loaded before another arrangement says nothing any more. -/
theorem Loaded.rearranged {id : String} {loaded : List DashboardItem} {since : Nat}
    (h : Loaded s id loaded since) (hlater : Later s t) (hre : Rearranged s t id) :
    Loaded t id loaded since where
  issued l hl := hlater.issued _ (h.issued l hl)
  since_le := h.since_le.trans hre.count.le
  shows hsince := by
    have := h.since_le
    have := hre.count
    omega

/-- A step that leaves each board alone or commits an arrangement of it. -/
theorem Arranged.step (h : Arranged s) (hlater : Later s t)
    (hboards : ∀ id, Untouched s t id ∨ Rearranged s t id)
    (hrequests : ∀ j stage, t.requests j = some stage → s.requests j = some stage) :
    Arranged t where
  issued id i hi := by
    rcases hboards id with hun | hre
    · exact hlater.issued _ (h.issued id i (hun.written ▸ hi))
    · exact hre.issued i hi
  ordered id := by
    rcases hboards id with hun | hre
    · exact hun.written ▸ h.ordered id
    · exact hre.ordered
  shows id hboard := by
    rcases hboards id with hun | hre
    · exact hun.written ▸ (h.shows id (hun.board hboard)).untouched hlater hun hboard (h.issued id)
    · exact hre.shows hboard
  requests j board name a since hstage := by
    have hloaded := h.requests j board name a since (hrequests j _ hstage)
    rcases hboards board.id with hun | hre
    · exact hloaded.untouched hlater hun
    · exact hloaded.rearranged hlater hre

/-- What a request loads now is what the board shows. -/
theorem Sound.shows_itemsOf (h : Sound s) (boardId : String) :
    Shows s boardId (s.boards.itemsOf boardId) := by
  intro i
  rw [Boards.mem_itemsOf]
  constructor
  · exact fun hi => ⟨hi, h.consistent.item_chart i hi.1⟩
  · exact fun hi => hi.1

theorem Sound.issued_itemsOf (h : Sound s) (boardId : String) :
    ∀ i ∈ s.boards.itemsOf boardId, i.chartId ∈ s.charts.issued := by
  intro i hi
  exact h.issued (h.consistent.item_chart i (Boards.mem_itemsOf.mp hi).1)

theorem Arranged.idle {requests : Nat → Option Stage} (h : Arranged s) (hsound : Sound s)
    (hreq : Requests E s a { s with requests := requests }) :
    Arranged { s with requests := requests } where
  issued := h.issued
  ordered := h.ordered
  shows := h.shows
  requests j board name a since hstage := by
    rcases hreq j _ hstage with hold | hadv
    · have hloaded := h.requests j board name a since hold
      exact ⟨hloaded.issued, hloaded.since_le, hloaded.shows⟩
    · generalize s.requests j = old at hadv
      cases hadv with
      | loaded =>
        exact ⟨hsound.issued_itemsOf _, le_rfl, fun _ _ => hsound.shows_itemsOf _⟩

/-- A step that changes no item, in a state where each item has its chart. -/
theorem untouched_of_items (ht : Sound t) (hwritten : t.written = s.written)
    (hboard : ∀ id, (t.boards.dashboards.get id).isSome → (s.boards.dashboards.get id).isSome)
    (hitems : t.boards.items = s.boards.items) (id : String) : Untouched s t id where
  written := congrFun hwritten id
  board := hboard id
  rows _ i _ := by
    rw [hitems]
    exact ⟨fun hi => ⟨hi, ht.consistent.item_chart i (hitems ▸ hi)⟩, And.left⟩

theorem later_of_charts (h : t.charts = s.charts) : Later s t := by
  refine ⟨fun _ hid => h ▸ hid, fun _ _ hstored => ?_⟩
  rwa [State.stored, h] at hstored

/-- The commit of an arrangement of one board, where what it replaces is what the board shows. -/
theorem rearranged_of_flushed {boardId : String} {chartIds : List String}
    {loaded : List DashboardItem} (hcharts : t.charts = s.charts)
    (hwritten : t.written boardId =
      ⟨(s.written boardId).count + 1, applyItems boardId chartIds⟩)
    (hflush : Flushed s.charts.db.charts ⟨t.boards.dashboards, s.boards.items⟩ loaded
      (applyItems boardId chartIds) t.boards.items)
    (hissued : ∀ chartId ∈ chartIds, chartId ∈ s.charts.issued) (hnodup : chartIds.Nodup)
    (hshows : (t.boards.dashboards.get boardId).isSome → Shows s boardId loaded) :
    Rearranged s t boardId where
  count := by rw [hwritten]; exact Nat.lt_succ_self _
  issued i hi := by
    rw [hwritten] at hi
    exact hcharts ▸ hissued _ (chartId_of_mem_applyItems hi)
  ordered := by
    rw [hwritten]
    exact pairwise_applyItems boardId chartIds
  shows hboard i := by
    have hnew :=
      nodup_key_of_nodup_chartId ((map_chartId_applyItems boardId chartIds).symm ▸ hnodup)
    rw [hwritten, State.stored, hcharts]
    exact hflush.rearranged hnew (fun n hn => dashboardId_of_mem_applyItems hn) (hshows hboard) i

/-- The other boards of a flush. -/
theorem untouched_of_flushed {boardId id : String} {loaded new : List DashboardItem}
    (ht : Sound t) (hid : id ≠ boardId) (hwritten : t.written id = s.written id)
    (hboard : (t.boards.dashboards.get id).isSome → (s.boards.dashboards.get id).isSome)
    (hflush : Flushed s.charts.db.charts ⟨t.boards.dashboards, s.boards.items⟩ loaded new
      t.boards.items)
    (hloaded : ∀ l ∈ loaded, l.dashboardId = boardId)
    (hnew : ∀ n ∈ new, n.dashboardId = boardId) : Untouched s t id where
  written := hwritten
  board := hboard
  rows _ i hi := by
    have hother := hflush.other hloaded hnew (i := i) (hi ▸ hid)
    constructor
    · exact fun hrow => ⟨hother.mp hrow, ht.consistent.item_chart i hrow⟩
    · exact fun hrow => hother.mpr hrow.1

/-- The board of a new id was not there, so no item was on it. -/
theorem Sound.shows_nil (h : Sound s) {id : String} (hid : id ∉ s.boardIds) : Shows s id [] := by
  intro i
  refine iff_of_false ?_ (fun hi => absurd hi.1 List.not_mem_nil)
  rintro ⟨hmem, rfl⟩
  obtain ⟨board, hboard⟩ := Option.isSome_iff_exists.mp (h.consistent.item_board i hmem)
  exact hid (h.boardIds _ board hboard)

theorem later_of_edit {charts : Charts.State} {op : Charts.Action} (h : Sound s)
    (hstep : Charts.step E s.charts op = some charts) : Later s (s.cascade charts) := by
  have hkept := rowsKept_of_step h.known hstep
  refine ⟨hkept.issued, fun id hid hstored => ?_⟩
  obtain ⟨chart', hchart'⟩ := Option.isSome_iff_exists.mp hstored
  obtain ⟨chart, hchart, -⟩ := hkept.charts id chart' hchart' hid
  rw [State.stored, hchart]
  rfl

theorem untouched_cascade (charts : Charts.State) (id : String) :
    Untouched s (s.cascade charts) id where
  written := rfl
  board h := h
  rows _ i _ := by
    have hstored : (s.cascade charts).stored i.chartId = true ↔
        i.chartId ∈ charts.db.charts.rows.map QueryChart.id := by
      rw [Table.mem_keys_iff, State.stored, Option.isSome_iff_exists]
      rfl
    rw [hstored]
    exact mem_cascade

theorem Arranged.effect (h : Arranged s) (hs : Sound s) (ht : Sound t) (he : Effect E s a t)
    (hok : Undisturbed s a) : Arranged t := by
  cases he with
  | idle hreq => exact h.idle hs hreq
  | edit hstep =>
    exact h.step (later_of_edit hs hstep) (fun id => .inl (untouched_cascade _ id)) fun _ _ hj => hj
  | @createQuery query chartId db _ hchart hcommit =>
    have hcreate := Queries.Creating.created_of_commitCreate hcommit
    refine h.step ⟨fun _ hid => List.mem_append_left _ hid, fun id hid hstored => ?_⟩
      (fun id => .inl (untouched_of_items (s := s) ht rfl (fun _ hb => hb) rfl id)) fun _ _ hj => hj
    have hne : id ≠ chartId := fun heq => hchart (heq ▸ hid)
    simpa only [State.stored, hcreate.charts, if_neg hne] using hstored
  | claim hclaim =>
    obtain ⟨rfl, rfl, -, -⟩ := Cli.claimUnowned_eq_some_iff.mp hclaim
    refine h.step ⟨fun _ hid => hid, fun _ _ hstored => hstored⟩
      (fun id => .inl (untouched_of_items (s := s) ht rfl (fun id hb => ?_) rfl id))
      fun _ _ hj => hj
    simpa only [Cli.get_claimBoards, Option.isSome_map] using hb
  | @create i id now user name chartIds boards hstage hid hcommit =>
    have hcreate := created_of_commitCreate hcommit
    have hcarried := hs.requests i _ hstage
    refine h.step (later_of_charts rfl) (fun other => ?_) fun _ _ hj => of_requests_drop hj
    by_cases hother : other = id
    · subst hother
      exact .inr (rearranged_of_flushed rfl (Function.update_self _ _ _) hcreate.items
        hcarried.issued hcarried.nodup fun _ => hs.shows_nil hid)
    · refine .inl (untouched_of_flushed ht hother (Function.update_of_ne hother _ _) (fun hb => ?_)
        hcreate.items (fun l hl => absurd hl List.not_mem_nil)
        fun n hn => dashboardId_of_mem_applyItems hn)
      simpa only [State.note, hcreate.get, if_neg hother] using hb
  | rename hstage hcommit =>
    have hupdate := updated_of_commitUpdate hcommit
    refine h.step (later_of_charts rfl)
      (fun id => .inl (untouched_of_items (s := s) ht rfl (fun id hb => ?_) (hupdate.kept rfl) id))
      fun _ _ hj => of_requests_drop hj
    exact (isSome_get_of_updated hupdate.owner id).symm.trans hb
  | @rearrange i now board name since arrangement boards hstage hcommit =>
    have hupdate := updated_of_commitUpdate hcommit
    have hcarried := hs.requests i _ hstage
    have hloaded := h.requests i board name arrangement since hstage
    have hsince : since = (s.written board.id).count := by
      simpa only [Undisturbed, hstage] using hok
    have hboards : ∀ id, (boards.dashboards.get id).isSome → (s.boards.dashboards.get id).isSome :=
      fun id hb => (isSome_get_of_updated hupdate.owner id).symm.trans hb
    refine h.step (later_of_charts rfl) (fun other => ?_) fun _ _ hj => of_requests_drop hj
    by_cases hother : other = board.id
    · subst hother
      exact .inr (rearranged_of_flushed rfl (Function.update_self _ _ _) (hupdate.items _ rfl)
        hcarried.issued hcarried.nodup fun hb => hloaded.shows hsince (hboards _ hb))
    · exact .inl (untouched_of_flushed ht hother (Function.update_of_ne hother _ _) (hboards other)
        (hupdate.items _ rfl) (fun l hl => (Option.some.inj (hcarried.loaded l hl)).symm)
        fun n hn => dashboardId_of_mem_applyItems hn)
  | @delete i board hstage =>
    refine h.step (later_of_charts rfl) (fun id => .inl ?_) fun _ _ hj => of_requests_drop hj
    have hget : ((s.boards.dashboards.deleteWhere fun d => d.id = board.id).get id).isSome →
        (s.boards.dashboards.get id).isSome ∧ id ≠ board.id := by
      rw [Table.get_deleteWhere]
      intro hsome
      obtain ⟨row, hrow⟩ := Option.isSome_iff_exists.mp hsome
      obtain ⟨hstored, hkept⟩ := Option.filter_eq_some_iff.mp hrow
      refine ⟨hstored ▸ rfl, ?_⟩
      rw [← Table.key_of_get hstored]
      simpa using hkept
    refine ⟨rfl, fun hb => (hget hb).1, fun hb item hitem => ?_⟩
    have hne : item.dashboardId ≠ board.id := hitem ▸ (hget hb).2
    have hmem : item ∈ (commitDelete s.boards board.id).items.rows ↔
        item ∈ s.boards.items.rows := by
      simp [commitDelete, Table.deleteWhere, hne]
    exact hmem.trans ⟨fun hrow => ⟨hrow, hs.consistent.item_chart item hrow⟩, And.left⟩

end Arranged

/-! ## Runs -/

/-- No two items of a board are at one place. -/
def DistinctPlaces (boards : Boards) : Prop :=
  boards.items.rows.Pairwise fun a b => a.dashboardId = b.dashboardId → a.position ≠ b.position

theorem DistinctPlaces.pairwise_itemsOf {boards : Boards} (h : DistinctPlaces boards)
    (id : String) : (boards.itemsOf id).Pairwise fun a b => a.position < b.position := by
  have hne : (boards.itemsOf id).Pairwise fun a b => a.position ≠ b.position := by
    refine ((sortedBy_perm _ _).pairwise_iff fun hab => hab.symm).mpr ?_
    refine (List.Pairwise.filter _ h).imp_of_mem fun ha hb hab => hab ?_
    have ha := of_decide_eq_true (List.mem_filter.mp ha).2
    exact ha.trans (of_decide_eq_true (List.mem_filter.mp hb).2).symm
  have hle : (boards.itemsOf id).Pairwise fun a b => a.position ≤ b.position :=
    List.pairwise_insertionSort (fun a b : DashboardItem => a.position ≤ b.position) _
  exact (hle.and hne).imp fun hab => lt_of_le_of_ne hab.1 hab.2

theorem arranged_start {db : Db} {boards : Boards} (h : Consistent db boards)
    (hplaces : DistinctPlaces boards) : Arranged (State.start db boards) where
  issued id := (sound_start h).issued_itemsOf id
  ordered := hplaces.pairwise_itemsOf
  shows id _ := (sound_start h).shows_itemsOf id
  requests j board name a since hstage := by cases hstage

/-- What a board shows is its last arrangement, with the charts that have gone left out. -/
theorem Arranged.itemsOf_eq {s : State} (h : Arranged s) {id : String}
    (hboard : (s.boards.dashboards.get id).isSome) :
    s.boards.itemsOf id = (s.written id).items.filter fun i => s.stored i.chartId := by
  have hordered := (h.ordered id).sublist
    (List.filter_sublist (p := fun i => s.stored i.chartId))
  refine sortedBy_eq_of_perm ?_ hordered
  refine (List.perm_ext_iff_of_nodup ?_ ?_).mpr fun i => ?_
  · exact (s.boards.items.nodup.of_map _).filter _
  · exact hordered.imp fun hlt heq => by
      subst heq
      exact lt_irrefl _ hlt
  · rw [List.mem_filter, decide_eq_true_eq, List.mem_filter]
    exact h.shows id hboard i

/-- **A board shows its last arrangement**, in any interleaving with edits and deletions of charts
and with the requests of others, as long as no two arrangements of one board overlap. -/
theorem itemsOf_eq_written_of_run {E : Env} {db : Db} {boards : Boards} {as : List Action}
    {t : State} (hconsistent : Consistent db boards) (hplaces : DistinctPlaces boards)
    (h : Machine.Run (step E) Undisturbed (State.start db boards) as t) {id : String}
    (hboard : (t.boards.dashboards.get id).isSome) :
    t.boards.itemsOf id = (t.written id).items.filter fun i => t.stored i.chartId := by
  have hinv : Sound t ∧ Arranged t := by
    refine h.invariant (I := fun s => Sound s ∧ Arranged s) ?_
      ⟨sound_start hconsistent, arranged_start hconsistent hplaces⟩
    rintro s a t ⟨hs, harranged⟩ hstep hok
    have heff := effect_of_step hstep
    have ht := hs.effect heff
    exact ⟨ht, harranged.effect hs ht heff hok⟩
  exact hinv.2.itemsOf_eq hboard

namespace Sample

open Charts.Sample (author)

/-- The query keeps the chart "Rows" only. -/
def keepRows : List Action :=
  [.edit (.openEdit 0 author "q" (.replaceCharts [⟨rows.toChartMapping, "Rows"⟩])),
    .edit (.guardEdit 0), .edit (.prepareEdit 0), .edit (.commitEdit 0 [])]

end Sample

/-- "Trend" is put first, and then deleted. -/
theorem itemsOf_eq_written_of_keepRows :
    ∃ t, Machine.Run (step Charts.Sample.env) Undisturbed (State.start Sample.db Sample.boards)
        (Sample.arrange 0 ["c", "d"] ++ [.commitUpdate 0 5] ++ Sample.keepRows) t ∧
      t.boards.itemsOf "b" = (t.written "b").items.filter (fun i => t.stored i.chartId) ∧
      t.boards.itemsOf "b" = [⟨"b", "d", 1⟩] := by
  have hrun : ∃ t, Machine.Run (step Charts.Sample.env) Undisturbed
      (State.start Sample.db Sample.boards)
      (Sample.arrange 0 ["c", "d"] ++ [.commitUpdate 0 5] ++ Sample.keepRows) t ∧
      (t.boards.dashboards.get "b").isSome ∧ t.boards.itemsOf "b" = [⟨"b", "d", 1⟩] :=
    ⟨_, Machine.run_of_exec_checked rfl, rfl, rfl⟩
  obtain ⟨t, ht, hboard, hitems⟩ := hrun
  have hplaces : DistinctPlaces Sample.boards := by
    unfold DistinctPlaces
    decide
  exact ⟨t, ht, itemsOf_eq_written_of_run Sample.consistent hplaces ht hboard, hitems⟩

/-- Two updates that overlap: the second had not loaded the item that the first adds, so it does not
delete it, and the board shows more than the second has arranged. -/
example : (Machine.exec (step Charts.Sample.env) (State.start Sample.db Sample.boards)
    (Sample.arrange 0 ["c"] ++ [.commitUpdate 0 5] ++ Sample.arrange 1 ["c", "d"] ++
      Sample.arrange 2 ["c"] ++ [.commitUpdate 1 6, .commitUpdate 2 7])).map
        (fun t => (t.boards.chartIds "b", (t.written "b").items.map DashboardItem.chartId)) =
    some (["c", "d"], ["c"]) := rfl

end FraudAnalyzer.Dashboards
