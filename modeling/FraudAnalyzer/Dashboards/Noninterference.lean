import FraudAnalyzer.Dashboards.Placements
import FraudAnalyzer.Dashboards.Requests
import FraudAnalyzer.Lib.Agree

/-!
# Dashboard requests are no oracle

Two sets of tables that show one analyst the same: the analyst's boards with what is on them, and
the charts the analyst may place. Whatever else they hold, any requests of the analyst are answered
alike, refusals included, so nobody learns which charts, boards and names other people have.
-/

namespace FraudAnalyzer.Dashboards

open Charts Python

/-- The board is stored, and the analyst's. -/
def isOwn (u : String) (dashboards : Table Dashboard.id) (id : String) : Bool :=
  (dashboards.get id).any fun d => d.ownerId = some u

/-- The ids in `foreign` are those of the boards of others, in both. -/
structure SameView (u : String) (foreign : List String) (s t : Tables) : Prop where
  consistent : Consistent s.db s.boards ∧ Consistent t.db t.boards
  boards : AgreeOn (fun d => d.ownerId = some u) s.boards.dashboards.rows t.boards.dashboards.rows
  items : AgreeOn (fun i => isOwn u s.boards.dashboards i.dashboardId)
    s.boards.items.rows t.boards.items.rows
  visible : ∀ c, chartVisibleTo s.db ⟨u, false⟩ c = chartVisibleTo t.db ⟨u, false⟩ c
  charts : ∀ c, chartVisibleTo s.db ⟨u, false⟩ c = true → s.db.charts.get c = t.db.charts.get c
  placed : ∀ i ∈ s.boards.items.rows, isOwn u s.boards.dashboards i.dashboardId = true →
    s.db.charts.get i.chartId = t.db.charts.get i.chartId
  foreign : ∀ id, ((s.boards.dashboards.get id).isSome ∧ isOwn u s.boards.dashboards id = false) ∨
    ((t.boards.dashboards.get id).isSome ∧ isOwn u t.boards.dashboards id = false) → id ∈ foreign

/-- A board is not created under the id of a board of somebody else. -/
def Request.Fresh (foreign : List String) : Request → Prop
  | .create _ id _ => id ∉ foreign
  | _ => True

instance (foreign : List String) (r : Request) : Decidable (r.Fresh foreign) := by
  unfold Request.Fresh
  split <;> infer_instance

section Rows

variable {u : String} {a b : Table Dashboard.id}

theorem isOwn_iff {id : String} :
    isOwn u a id = true ↔ ∃ d, a.get id = some d ∧ d.ownerId = some u := by
  rw [isOwn, Option.any_eq_true]
  simp only [decide_eq_true_eq]

theorem isOwn_of_mem {d : Dashboard} (h : d ∈ a.rows) (howner : d.ownerId = some u) :
    isOwn u a d.id = true :=
  isOwn_iff.mpr ⟨d, Table.get_of_mem h, howner⟩

/-- Boards that agree are the same ones of the analyst. -/
theorem get_of_isOwn (h : AgreeOn (fun d => d.ownerId = some u) a.rows b.rows) {id : String}
    (hid : isOwn u a id = true) : b.get id = a.get id := by
  obtain ⟨d, hget, howner⟩ := isOwn_iff.mp hid
  have hmem := (h.mem_iff (decide_eq_true howner)).mp (Table.mem_of_get hget)
  rw [hget, ← Table.key_of_get hget]
  exact Table.get_of_mem hmem

theorem isOwn_eq (h : AgreeOn (fun d => d.ownerId = some u) a.rows b.rows) :
    isOwn u a = isOwn u b := by
  funext id
  rw [Bool.eq_iff_iff]
  constructor
  · intro hid
    rwa [isOwn, get_of_isOwn h hid]
  · intro hid
    rwa [isOwn, get_of_isOwn h.symm hid]

theorem isOwn_of_owners (h : ∀ id, (b.get id).map Dashboard.ownerId =
    (a.get id).map Dashboard.ownerId) : isOwn u b = isOwn u a := by
  funext id
  have hany : ∀ o : Option Dashboard, (o.any fun d => decide (d.ownerId = some u)) =
      (o.map Dashboard.ownerId).any fun owner => decide (owner = some u) := by
    intro o
    cases o <;> rfl
  rw [isOwn, isOwn, hany, hany, h id]

end Rows

section SameView

variable {u : String} {foreign : List String} {s t : Tables}

theorem SameView.isOwn_eq (h : SameView u foreign s t) :
    isOwn u s.boards.dashboards = isOwn u t.boards.dashboards :=
  Dashboards.isOwn_eq h.boards

/-! ## Reading -/

theorem SameView.itemsOf_eq (h : SameView u foreign s t) {id : String}
    (hid : isOwn u s.boards.dashboards id = true) : s.boards.itemsOf id = t.boards.itemsOf id := by
  have hnot : ∀ i : DashboardItem, isOwn u s.boards.dashboards i.dashboardId = false →
      decide (i.dashboardId = id) = false := by
    intro i hi
    refine decide_eq_false fun heq => ?_
    rw [heq, hid] at hi
    cases hi
  unfold Boards.itemsOf
  rw [h.items.filter (fun i _ => hnot i) (fun i _ => hnot i) fun _ _ _ => rfl]

theorem SameView.read_eq (h : SameView u foreign s t) (names : Names) {board : Dashboard}
    (hid : isOwn u s.boards.dashboards board.id = true) :
    read names s board = read names t board := by
  have hitems := h.itemsOf_eq hid
  have hcharts : (s.boards.itemsOf board.id).filterMap (fun i => s.db.charts.get i.chartId) =
      (t.boards.itemsOf board.id).filterMap fun i => t.db.charts.get i.chartId := by
    rw [← hitems]
    refine List.filterMap_congr fun i hi => ?_
    obtain ⟨hmem, hboard⟩ := Boards.mem_itemsOf.mp hi
    exact h.placed i hmem (hboard ▸ hid)
  unfold read Boards.chartIds
  rw [hcharts, hitems]

theorem SameView.readStored_eq (h : SameView u foreign s t) (names : Names) {id : String}
    (hid : isOwn u s.boards.dashboards id = true) :
    readStored names s id = readStored names t id := by
  unfold readStored
  rw [get_of_isOwn h.boards hid]
  refine Option.map_congr fun board hboard => ?_
  exact h.read_eq names (Table.key_of_get hboard ▸ hid)

theorem visibleTo_eq (board : Dashboard) :
    visibleTo ⟨u, false⟩ board = decide (board.ownerId = some u) := by
  rw [visibleTo, Bool.false_or]

theorem SameView.list_eq (h : SameView u foreign s t) (names : Names) :
    (listDashboards s.boards.dashboards ⟨u, false⟩).map (read names s) =
      (listDashboards t.boards.dashboards ⟨u, false⟩).map (read names t) := by
  have hfilter : s.boards.dashboards.rows.filter (visibleTo ⟨u, false⟩) =
      t.boards.dashboards.rows.filter (visibleTo ⟨u, false⟩) := by
    have hown : visibleTo ⟨u, false⟩ = fun d => decide (d.ownerId = some u) := funext visibleTo_eq
    rw [hown]
    exact h.boards
  unfold listDashboards
  rw [← hfilter]
  refine List.map_congr_left fun board hboard => ?_
  obtain ⟨hmem, hvisible⟩ := List.mem_filter.mp (mem_sortedBy.mp hboard)
  rw [visibleTo_eq, decide_eq_true_eq] at hvisible
  exact h.read_eq names (isOwn_of_mem hmem hvisible)

/-- Both refuse, or both find the same board, which is the analyst's. -/
theorem SameView.getOwned (h : SameView u foreign s t) (id : String) :
    SameOutcome (fun board board' => board' = board ∧ board.id = id ∧
        isOwn u s.boards.dashboards id = true ∧ board.ownerId = some u)
      (getOwned s.boards.dashboards id ⟨u, false⟩)
      (getOwned t.boards.dashboards id ⟨u, false⟩) := by
  have hrefused : ∀ d : Table Dashboard.id, isOwn u d id = false →
      Dashboards.getOwned d id ⟨u, false⟩ = .error noSuchDashboard := by
    intro d hnot
    unfold Dashboards.getOwned
    unfold isOwn at hnot
    split
    · rfl
    next board hboard =>
      rw [hboard, Option.any_some, decide_eq_false_iff_not] at hnot
      simp [hnot]
  cases hid : isOwn u s.boards.dashboards id with
  | true =>
    obtain ⟨board, hget, howner⟩ := isOwn_iff.mp hid
    have hvisible : visibleTo ⟨u, false⟩ board = true := by
      rw [visibleTo_eq, decide_eq_true howner]
    have hs := getOwned_eq_ok_iff.mpr ⟨hget, hvisible⟩
    have ht := getOwned_eq_ok_iff.mpr ⟨(get_of_isOwn h.boards hid).trans hget, hvisible⟩
    rw [hs, ht]
    exact .ok ⟨rfl, Table.key_of_get hget, rfl, howner⟩
  | false =>
    rw [hrefused _ hid, hrefused _ (h.isOwn_eq ▸ hid)]
    exact .error _

theorem SameView.validateChartIds_eq (h : SameView u foreign s t) (unicode : Unicode)
    (chartIds : List String) : validateChartIds unicode s.db ⟨u, false⟩ chartIds =
      validateChartIds unicode t.db ⟨u, false⟩ chartIds := by
  unfold validateChartIds
  simp only [h.visible]

end SameView

/-! ## Writing -/

section Commits

variable {u : String} {own : String → Bool} {charts charts' : Table QueryChart.id}
  {boards boards' : Boards} {boardId : String}

theorem get_item_agree {a b : Table DashboardItem.key}
    (h : AgreeOn (fun i => own i.dashboardId) a.rows b.rows) {k : String × String}
    (hk : own k.1 = true) : a.get k = b.get k := by
  ext i
  rw [Table.get_iff_mem, Table.get_iff_mem]
  refine and_congr_left fun hkey => h.mem_iff ?_
  rw [← hkey] at hk
  exact hk

/-- Rows on boards of the analyst are inserted alike. -/
theorem insertAll_agree {a b : Table DashboardItem.key} {new : List DashboardItem}
    (h : AgreeOn (fun i => own i.dashboardId) a.rows b.rows)
    (hnew : ∀ n ∈ new, own n.dashboardId = true) (hkeys : (new.map DashboardItem.key).Nodup) :
    a.insertAll new = none ∧ b.insertAll new = none ∨
      ∃ a' b', a.insertAll new = some a' ∧ b.insertAll new = some b' ∧
        AgreeOn (fun i => own i.dashboardId) a'.rows b'.rows := by
  have hsome : (a.insertAll new).isSome = (b.insertAll new).isSome := by
    rw [Bool.eq_iff_iff, Table.insertAll_isSome_iff hkeys, Table.insertAll_isSome_iff hkeys]
    refine forall₂_congr fun n hn => ?_
    have hget := get_item_agree h (k := n.key) (hnew n hn)
    simp only [Table.mem_keys_iff, hget]
  cases ha : a.insertAll new with
  | none =>
    rw [ha] at hsome
    exact .inl ⟨rfl, Option.isSome_eq_false_iff.mp hsome.symm |> Option.isNone_iff_eq_none.mp⟩
  | some a' =>
    rw [ha] at hsome
    obtain ⟨b', hb⟩ := Option.isSome_iff_exists.mp hsome.symm
    refine .inr ⟨a', b', rfl, hb, ?_⟩
    rw [Table.rows_insertAll ha, Table.rows_insertAll hb]
    exact h.append new

theorem flushItems_agree {loaded new : List DashboardItem} (hown : own boardId = true)
    (hitems : AgreeOn (fun i => own i.dashboardId) boards.items.rows boards'.items.rows)
    (hboard : boards.dashboards.get boardId = boards'.dashboards.get boardId)
    (hnew : ∀ n ∈ new, n.dashboardId = boardId) (hkeys : (new.map DashboardItem.key).Nodup)
    (hcharts : ∀ n ∈ new, charts.get n.chartId = charts'.get n.chartId) :
    SameOutcome (fun a b => AgreeOn (fun i => own i.dashboardId) a.rows b.rows)
      (flushItems charts boards loaded new) (flushItems charts' boards' loaded new) := by
  have hownNew : ∀ n ∈ new, own n.dashboardId = true := fun n hn => hnew n hn ▸ hown
  have hget : ∀ n ∈ new, boards.items.get n.key = boards'.items.get n.key := fun n hn =>
    get_item_agree hitems (hownNew n hn)
  have hmoved : ∀ p : DashboardItem → Bool,
      ((new.filter p).any fun n => (boards.items.get n.key).isNone) =
        (new.filter p).any fun n => (boards'.items.get n.key).isNone := by
    intro p
    refine any_congr_of_mem fun n hn => ?_
    rw [hget n (List.mem_filter.mp hn).1]
  have hforeign : ∀ p : DashboardItem → Bool,
      ((new.filter p).any fun n =>
        (boards.dashboards.get n.dashboardId).isNone || (charts.get n.chartId).isNone) =
      (new.filter p).any fun n =>
        (boards'.dashboards.get n.dashboardId).isNone || (charts'.get n.chartId).isNone := by
    intro p
    refine any_congr_of_mem fun n hn => ?_
    have hn := (List.mem_filter.mp hn).1
    rw [hnew n hn, hboard, hcharts n hn]
  unfold flushItems
  simp only [hmoved, hforeign]
  split
  · exact .error _
  split
  · exact .error _
  have hmapped := hitems.map (f := reposition loaded new) fun i =>
    congrArg own (congrArg Prod.fst (reposition_key loaded new i))
  have hadded : ∀ p : DashboardItem → Bool, ((new.filter p).map DashboardItem.key).Nodup :=
    fun p => hkeys.sublist (List.filter_sublist.map _)
  rcases insertAll_agree (a := boards.items.mapRows _ (reposition_key loaded new))
      (b := boards'.items.mapRows _ (reposition_key loaded new)) hmapped
      (fun n hn => hownNew n (List.mem_filter.mp hn).1)
      (hadded fun n => loaded.all fun l => l.key ≠ n.key)
    with ⟨ha, hb⟩ | ⟨a, b, ha, hb, hagree⟩
  · rw [ha, hb]
    exact .error _
  · rw [ha, hb]
    exact .ok (hagree.keep _)

theorem nameTaken_agree {rows rows' : List Dashboard} {board : Dashboard}
    (h : AgreeOn (fun d => d.ownerId = some u) rows rows') (howner : board.ownerId = some u) :
    nameTaken rows board = nameTaken rows' board := by
  have hnot : ∀ d : Dashboard, decide (d.ownerId = some u) = false →
      (decide (d.id ≠ board.id) && decide (d.ownerId = board.ownerId) &&
        decide (d.name = board.name)) = false := by
    intro d hd
    rw [decide_eq_false_iff_not] at hd
    simp [howner, hd]
  unfold nameTaken
  rw [h.any (fun d _ => hnot d) (fun d _ => hnot d) fun _ _ _ => rfl]

theorem commitName_agree {loaded : Dashboard} {name : Option String} {now : Instant}
    (h : AgreeOn (fun d => d.ownerId = some u) boards.dashboards.rows boards'.dashboards.rows)
    (hown : isOwn u boards.dashboards loaded.id = true) :
    SameOutcome
      (fun a b => AgreeOn (fun d => d.ownerId = some u) a.dashboards.rows b.dashboards.rows)
      (commitName boards loaded name now) (commitName boards' loaded name now) := by
  unfold commitName
  cases name with
  | none => exact .ok h
  | some name =>
    simp only
    split
    · exact .ok h
    obtain ⟨row, hrow, howner⟩ := isOwn_iff.mp hown
    rw [get_of_isOwn h hown, hrow]
    have htaken : nameTaken boards.dashboards.rows (flushName name now row) =
        nameTaken boards'.dashboards.rows (flushName name now row) := nameTaken_agree h howner
    simp only [htaken]
    split
    · exact .error _
    · refine .ok (h.map fun d => ?_)
      split <;> rfl

end Commits

section Requests

variable {u : String} {foreign : List String} {s t : Tables}

/-- What a request was allowed to place. -/
structure Allowed (s : Tables) (u : String) (chartIds : List String) : Prop where
  nodup : chartIds.Nodup
  visible : ∀ c ∈ chartIds, chartVisibleTo s.db ⟨u, false⟩ c = true

theorem allowed_of_validate {unicode : Unicode} {sent chartIds : List String}
    (h : validateChartIds unicode s.db ⟨u, false⟩ sent = .ok chartIds) : Allowed s u chartIds := by
  obtain ⟨rfl, hvisible⟩ := validateChartIds_eq_ok_iff.mp h
  exact ⟨nodup_deduped sent, fun c hc => hvisible c (mem_deduped.mp hc)⟩

theorem Allowed.nodup_keys {chartIds : List String} (h : Allowed s u chartIds) (id : String) :
    ((applyItems id chartIds).map DashboardItem.key).Nodup :=
  nodup_key_of_nodup_chartId ((map_chartId_applyItems id chartIds).symm ▸ h.nodup)

theorem SameView.charts_of_allowed (h : SameView u foreign s t) {chartIds : List String}
    (hallowed : Allowed s u chartIds) {id : String} :
    ∀ n ∈ applyItems id chartIds, s.db.charts.get n.chartId = t.db.charts.get n.chartId :=
  fun n hn => h.charts n.chartId (hallowed.visible _ (chartId_of_mem_applyItems hn))

/-- The boards after both commits agree. -/
structure AgreeBoards (u : String) (own : String → Bool) (a b : Boards) : Prop where
  boards : AgreeOn (fun d => d.ownerId = some u) a.dashboards.rows b.dashboards.rows
  items : AgreeOn (fun i => own i.dashboardId) a.items.rows b.items.rows

theorem SameView.commitUpdate (h : SameView u foreign s t) {board : Dashboard}
    (hown : isOwn u s.boards.dashboards board.id = true) (name : Option String)
    {arrangement : Option Arrangement}
    (hallowed : ∀ a, arrangement = some a → Allowed s u a.chartIds) (now : Instant) :
    SameOutcome (AgreeBoards u (isOwn u s.boards.dashboards))
      (commitUpdate s.db.charts s.boards board name arrangement now)
      (commitUpdate t.db.charts t.boards board name arrangement now) := by
  have hname : SameOutcome _ (commitName s.boards board name now)
      (commitName t.boards board name now) := commitName_agree h.boards hown
  unfold Dashboards.commitUpdate
  generalize hs : commitName s.boards board name now = outcome at hname ⊢
  generalize ht : commitName t.boards board name now = outcome' at hname ⊢
  cases hname with
  | error e => exact .error e
  | @ok a b hboards =>
    have hrenamed := renamed_of_commitName hs
    have hrenamed' := renamed_of_commitName ht
    have hitems : AgreeOn (fun i => isOwn u s.boards.dashboards i.dashboardId)
        a.items.rows b.items.rows := by
      rw [hrenamed.items, hrenamed'.items]
      exact h.items
    have hsame : isOwn u a.dashboards = isOwn u s.boards.dashboards :=
      isOwn_of_owners hrenamed.owner
    cases arrangement with
    | none => exact .ok ⟨hboards, hitems⟩
    | some arrangement =>
      have hallowed := hallowed arrangement rfl
      have hflush : SameOutcome
          (fun x y => AgreeOn (fun i => isOwn u s.boards.dashboards i.dashboardId) x.rows y.rows)
          (flushItems s.db.charts a arrangement.loaded (applyItems board.id arrangement.chartIds))
          (flushItems t.db.charts b arrangement.loaded
            (applyItems board.id arrangement.chartIds)) :=
        flushItems_agree hown hitems (get_of_isOwn hboards (hsame ▸ hown)).symm
          (fun n hn => dashboardId_of_mem_applyItems hn) (hallowed.nodup_keys board.id)
          (h.charts_of_allowed hallowed)
      simp only [bind, Except.bind]
      generalize flushItems s.db.charts a arrangement.loaded _ = items at hflush ⊢
      generalize flushItems t.db.charts b arrangement.loaded _ = items' at hflush ⊢
      cases hflush with
      | error e => exact .error e
      | ok hitems' => exact .ok ⟨hboards, hitems'⟩

/-- Boards of others, and no new ones. -/
def NoNewForeign (u : String) (a b : Table Dashboard.id) : Prop :=
  ∀ id, (b.get id).isSome → isOwn u b id = false → (a.get id).isSome ∧ isOwn u a id = false

theorem SameView.write (h : SameView u foreign s t) {a b : Boards}
    (hconsistent : Consistent s.db a ∧ Consistent t.db b)
    (hagree : AgreeBoards u (isOwn u a.dashboards) a b)
    (hitems : ∀ i ∈ a.items.rows,
      (∃ row ∈ s.boards.items.rows, row.dashboardId = i.dashboardId ∧ row.chartId = i.chartId) ∨
        chartVisibleTo s.db ⟨u, false⟩ i.chartId = true)
    (hown : ∀ id, (s.boards.dashboards.get id).isSome → isOwn u a.dashboards id = true →
      isOwn u s.boards.dashboards id = true)
    (hforeign : NoNewForeign u s.boards.dashboards a.dashboards ∧
      NoNewForeign u t.boards.dashboards b.dashboards) :
    SameView u foreign { s with boards := a } { t with boards := b } where
  consistent := hconsistent
  boards := hagree.boards
  items := hagree.items
  visible := h.visible
  charts := h.charts
  placed i hi hid := by
    rcases hitems i hi with ⟨row, hrow, hboard, hchart⟩ | hvisible
    · have hstored := h.consistent.1.item_board row hrow
      exact hchart ▸ h.placed row hrow (hown _ hstored (hboard ▸ hid))
    · exact h.charts _ hvisible
  foreign id hid := by
    rcases hid with ⟨hsome, hnot⟩ | ⟨hsome, hnot⟩
    · exact h.foreign id (.inl (hforeign.1 id hsome hnot))
    · exact h.foreign id (.inr (hforeign.2 id hsome hnot))

theorem noNewForeign_of_owners {a b : Table Dashboard.id}
    (h : ∀ id, (b.get id).map Dashboard.ownerId = (a.get id).map Dashboard.ownerId) :
    NoNewForeign u a b := by
  intro id hsome hnot
  rw [isOwn_of_owners h] at hnot
  rw [← Option.isSome_map (f := Dashboard.ownerId), h, Option.isSome_map] at hsome
  exact ⟨hsome, hnot⟩

theorem SameView.updated (h : SameView u foreign s t) {a b : Boards} {boardId : String}
    {arrangement : Option Arrangement}
    (hallowed : ∀ x, arrangement = some x → Allowed s u x.chartIds)
    (ha : Updated s.db.charts s.boards boardId arrangement a)
    (hb : Updated t.db.charts t.boards boardId arrangement b)
    (hagree : AgreeBoards u (isOwn u s.boards.dashboards) a b) :
    SameView u foreign { s with boards := a } { t with boards := b } := by
  have hsame := isOwn_of_owners (u := u) ha.owner
  refine h.write ⟨h.consistent.1.updated ha, h.consistent.2.updated hb⟩ (hsame ▸ hagree)
    (fun i hi => ?_) (fun id _ hid => hsame ▸ hid)
    ⟨noNewForeign_of_owners ha.owner, noNewForeign_of_owners hb.owner⟩
  cases arrangement with
  | none => exact .inl ⟨i, ha.kept rfl ▸ hi, rfl, rfl⟩
  | some x =>
    rcases (ha.items x rfl).mem_cases hi with hold | ⟨hnew, -⟩
    · exact .inl hold
    · exact .inr ((hallowed x rfl).visible _ (chartId_of_mem_applyItems hnew))

theorem SameView.deleted (h : SameView u foreign s t) (boardId : String) :
    SameView u foreign { s with boards := commitDelete s.boards boardId }
      { t with boards := commitDelete t.boards boardId } := by
  have hget : ∀ (d : Table Dashboard.id) (id : String), id ≠ boardId →
      (d.deleteWhere fun r => r.id = boardId).get id = d.get id := by
    intro d id hne
    rw [Table.get_deleteWhere]
    cases hd : d.get id with
    | none => rfl
    | some row =>
      have hid : row.id ≠ boardId := Table.key_of_get hd ▸ hne
      rw [Option.filter_some, decide_eq_false hid, Bool.not_false, if_pos rfl]
  have hgone : ∀ d : Table Dashboard.id, (d.deleteWhere fun r => r.id = boardId).get boardId =
      none :=
    fun d => Table.get_delete d boardId
  have hisOwn : ∀ (d : Table Dashboard.id) (id : String), id ≠ boardId →
      isOwn u (d.deleteWhere fun r => r.id = boardId) id = isOwn u d id := by
    intro d id hne
    rw [isOwn, hget d id hne, isOwn]
  have hkept : ∀ {items : List DashboardItem} {i : DashboardItem},
      i ∈ items.filter (fun i => !decide (i.dashboardId = boardId)) → i.dashboardId ≠ boardId := by
    intro items i hi
    simpa using (List.mem_filter.mp hi).2
  have hforeign : ∀ d : Table Dashboard.id,
      NoNewForeign u d (d.deleteWhere fun r => r.id = boardId) := by
    intro d id hsome hnot
    have hne : id ≠ boardId := by
      rintro rfl
      rw [hgone] at hsome
      cases hsome
    rw [hget d id hne] at hsome
    exact ⟨hsome, hisOwn d id hne ▸ hnot⟩
  refine h.write ⟨h.consistent.1.deleted boardId, h.consistent.2.deleted boardId⟩
    ⟨h.boards.keep _, ?_⟩ (fun i hi => .inl ⟨i, (List.mem_filter.mp hi).1, rfl, rfl⟩)
    (fun id _ hid => ?_) ⟨hforeign _, hforeign _⟩
  · exact (h.items.keep _).congr (fun i hi => hisOwn _ _ (hkept hi))
      fun i hi => hisOwn _ _ (hkept hi)
  · have hne : id ≠ boardId := by
      rintro rfl
      simp only [commitDelete, isOwn, hgone] at hid
      cases hid
    exact hisOwn _ id hne ▸ hid

/-- Nobody else's board has the id, so it is free in both or in neither. -/
theorem SameView.get_eq_of_fresh (h : SameView u foreign s t) {id : String} (hid : id ∉ foreign) :
    s.boards.dashboards.get id = t.boards.dashboards.get id := by
  cases hown : isOwn u s.boards.dashboards id with
  | true => exact (get_of_isOwn h.boards hown).symm
  | false =>
    have hs : s.boards.dashboards.get id = none := by
      by_contra hsome
      exact hid (h.foreign id (.inl ⟨Option.isSome_iff_ne_none.mpr hsome, hown⟩))
    have ht : t.boards.dashboards.get id = none := by
      by_contra hsome
      rw [h.isOwn_eq] at hown
      exact hid (h.foreign id (.inr ⟨Option.isSome_iff_ne_none.mpr hsome, hown⟩))
    rw [hs, ht]

theorem insert_agree {a b : Table Dashboard.id} {shown : Dashboard → Bool} {board : Dashboard}
    (h : AgreeOn shown a.rows b.rows) (hget : a.get board.id = b.get board.id) :
    a.insert board = none ∧ b.insert board = none ∨
      ∃ a' b', a.insert board = some a' ∧ b.insert board = some b' ∧
        AgreeOn shown a'.rows b'.rows := by
  cases ha : a.get board.id with
  | none =>
    obtain ⟨a', ha'⟩ := Table.insert_isSome ha
    obtain ⟨b', hb'⟩ := Table.insert_isSome (hget ▸ ha)
    refine .inr ⟨a', b', ha', hb', ?_⟩
    rw [Table.rows_insert ha', Table.rows_insert hb']
    exact h.append [board]
  | some row =>
    have hnone : ∀ d : Table Dashboard.id, d.get board.id = some row → d.insert board = none := by
      intro d hd
      by_contra hne
      obtain ⟨d', hd'⟩ := Option.ne_none_iff_exists'.mp hne
      rw [Table.get_of_insert hd'] at hd
      cases hd
    exact .inl ⟨hnone a ha, hnone b (hget ▸ ha)⟩

/-- The analyst's boards after one more. -/
theorem isOwn_insert {a a' : Table Dashboard.id} {board : Dashboard}
    (hget : ∀ id, a'.get id = if id = board.id then some board else a.get id)
    (howner : board.ownerId = some u) (id : String) :
    isOwn u a' id = (decide (id = board.id) || isOwn u a id) := by
  rw [isOwn, hget]
  by_cases hid : id = board.id
  · simp [hid, howner]
  · rw [if_neg hid, decide_eq_false hid, Bool.false_or, isOwn]

theorem SameView.commitCreate (h : SameView u foreign s t) {board : Dashboard}
    (howner : board.ownerId = some u) (hid : board.id ∉ foreign) {chartIds : List String}
    (hallowed : Allowed s u chartIds) :
    SameOutcome (fun a b => AgreeBoards u (isOwn u a.dashboards) a b)
      (commitCreate s.db.charts s.boards board chartIds)
      (commitCreate t.db.charts t.boards board chartIds) := by
  have hget := h.get_eq_of_fresh hid
  unfold Dashboards.commitCreate
  simp only [nameTaken_agree h.boards howner]
  split
  · exact .error _
  rcases insert_agree h.boards hget with ⟨hs, ht⟩ | ⟨a, b, hs, ht, hboards⟩
  · rw [hs, ht]
    exact .error _
  rw [hs, ht]
  have hnew : s.boards.dashboards.get board.id = none := Table.get_of_insert hs
  -- no item is on a board that is not there yet
  have hold : ∀ (x : Tables) (d : Table Dashboard.id), Consistent x.db x.boards →
      x.boards.dashboards.get board.id = none →
      (∀ id, d.get id = if id = board.id then some board else x.boards.dashboards.get id) →
      ∀ i ∈ x.boards.items.rows, isOwn u d i.dashboardId =
        isOwn u x.boards.dashboards i.dashboardId := by
    intro x d hconsistent hfree hinsert i hi
    have hne : i.dashboardId ≠ board.id := by
      intro heq
      have hsome := hconsistent.item_board i hi
      rw [heq, hfree] at hsome
      cases hsome
    rw [isOwn_insert hinsert howner, decide_eq_false hne, Bool.false_or]
  have hinsert := Table.get_insert hs
  have hsame : isOwn u b = isOwn u a := (Dashboards.isOwn_eq hboards).symm
  have hitems :
      AgreeOn (fun i => isOwn u a i.dashboardId) s.boards.items.rows t.boards.items.rows := by
    refine h.items.congr (hold s a h.consistent.1 hnew hinsert) fun i hi => ?_
    rw [← hsame, h.isOwn_eq]
    exact hold t b h.consistent.2 (hget ▸ hnew) (Table.get_insert ht) i hi
  have hown : isOwn u a board.id = true := by
    rw [isOwn_insert hinsert howner, decide_eq_true rfl, Bool.true_or]
  have hflush : SameOutcome (fun x y => AgreeOn (fun i => isOwn u a i.dashboardId) x.rows y.rows)
      (flushItems s.db.charts ⟨a, s.boards.items⟩ [] (applyItems board.id chartIds))
      (flushItems t.db.charts ⟨b, t.boards.items⟩ [] (applyItems board.id chartIds)) :=
    flushItems_agree hown hitems (get_of_isOwn hboards hown).symm
      (fun n hn => dashboardId_of_mem_applyItems hn) (hallowed.nodup_keys board.id)
      (h.charts_of_allowed hallowed)
  simp only
  generalize flushItems s.db.charts ⟨a, s.boards.items⟩ [] _ = items at hflush ⊢
  generalize flushItems t.db.charts ⟨b, t.boards.items⟩ [] _ = items' at hflush ⊢
  cases hflush with
  | error e => exact .error e
  | ok hagree => exact .ok ⟨hboards, hagree⟩

theorem noNewForeign_insert {a a' : Table Dashboard.id} {board : Dashboard}
    (hget : ∀ id, a'.get id = if id = board.id then some board else a.get id)
    (howner : board.ownerId = some u) : NoNewForeign u a a' := by
  intro id hsome hnot
  rw [isOwn_insert hget howner, Bool.or_eq_false_iff, decide_eq_false_iff_not] at hnot
  rw [hget, if_neg hnot.1] at hsome
  exact ⟨hsome, hnot.2⟩

theorem SameView.created (h : SameView u foreign s t) {a b : Boards} {board : Dashboard}
    (howner : board.ownerId = some u) {chartIds : List String} (hallowed : Allowed s u chartIds)
    (ha : Created s.db.charts s.boards board chartIds a)
    (hb : Created t.db.charts t.boards board chartIds b)
    (hagree : AgreeBoards u (isOwn u a.dashboards) a b) :
    SameView u foreign { s with boards := a } { t with boards := b } := by
  refine h.write ⟨h.consistent.1.created ha, h.consistent.2.created hb⟩ hagree (fun i hi => ?_)
    (fun id hsome hid => ?_) ⟨noNewForeign_insert ha.get howner, noNewForeign_insert hb.get howner⟩
  · rcases ha.items.mem_cases hi with hold | ⟨hnew, -⟩
    · exact .inl hold
    · exact .inr (hallowed.visible _ (chartId_of_mem_applyItems hnew))
  · have hne : id ≠ board.id := by
      rintro rfl
      rw [ha.board_new] at hsome
      cases hsome
    rwa [isOwn_insert ha.get howner, decide_eq_false hne, Bool.false_or] at hid

/-- Both requests fail alike, or lead to states that show the analyst the same. -/
abbrev SameTables (u : String) (foreign : List String) (id : String) :=
  SameOutcome (ε := AppError) fun s t =>
    SameView u foreign s t ∧ isOwn u s.boards.dashboards id = true

theorem SameView.createDashboard (h : SameView u foreign s t) (unicode : Unicode)
    (payload : DashboardCreate) {id : String} (hid : id ∉ foreign) (now : Instant) :
    SameTables u foreign id (createDashboard unicode s ⟨u, false⟩ payload id now)
      (createDashboard unicode t ⟨u, false⟩ payload id now) := by
  unfold Dashboards.createDashboard
  rw [← h.validateChartIds_eq]
  cases hvalid : validateChartIds unicode s.db ⟨u, false⟩ payload.chartIds with
  | error e => exact .error e
  | ok chartIds =>
    have hallowed := allowed_of_validate hvalid
    have houtcome : SameOutcome _
        (Dashboards.commitCreate s.db.charts s.boards ⟨id, payload.name, some u, now, now⟩ chartIds)
        (Dashboards.commitCreate t.db.charts t.boards ⟨id, payload.name, some u, now, now⟩
          chartIds) := h.commitCreate rfl hid hallowed
    simp only [bind, Except.bind]
    generalize hs : Dashboards.commitCreate s.db.charts s.boards _ chartIds = outcome at houtcome ⊢
    generalize ht : Dashboards.commitCreate t.db.charts t.boards _ chartIds = outcome' at houtcome ⊢
    cases houtcome with
    | error e => exact .error _
    | ok hagree =>
      have ha := created_of_commitCreate hs
      refine .ok ⟨h.created rfl hallowed ha (created_of_commitCreate ht) hagree, ?_⟩
      rw [isOwn_insert ha.get rfl, decide_eq_true rfl, Bool.true_or]

theorem SameView.arrangementOf (h : SameView u foreign s t) (unicode : Unicode) {board : Dashboard}
    (hown : isOwn u s.boards.dashboards board.id = true) (chartIds : Option (List String)) :
    SameOutcome (fun x y => y = x ∧ ∀ a, x = some a → Allowed s u a.chartIds)
      (arrangementOf unicode s ⟨u, false⟩ board chartIds)
      (arrangementOf unicode t ⟨u, false⟩ board chartIds) := by
  cases chartIds with
  | none => exact .ok ⟨rfl, fun _ h => by cases h⟩
  | some sent =>
    simp only [Dashboards.arrangementOf]
    rw [← h.validateChartIds_eq, ← h.itemsOf_eq hown]
    cases hvalid : validateChartIds unicode s.db ⟨u, false⟩ sent with
    | error e => exact .error e
    | ok chartIds =>
      refine .ok ⟨rfl, ?_⟩
      rintro a ⟨⟩
      exact allowed_of_validate hvalid

theorem SameView.updateDashboard (h : SameView u foreign s t) (unicode : Unicode)
    {board : Dashboard}
    (hown : isOwn u s.boards.dashboards board.id = true) (payload : DashboardUpdate)
    (now : Instant) :
    SameTables u foreign board.id (updateDashboard unicode s ⟨u, false⟩ board payload now)
      (updateDashboard unicode t ⟨u, false⟩ board payload now) := by
  unfold Dashboards.updateDashboard
  have harrangement := h.arrangementOf unicode hown payload.chartIds
  generalize Dashboards.arrangementOf unicode s _ board payload.chartIds = x at harrangement ⊢
  generalize Dashboards.arrangementOf unicode t _ board payload.chartIds = y at harrangement ⊢
  cases harrangement with
  | error e => exact .error e
  | @ok x _ harr =>
    obtain ⟨rfl, hallowed⟩ := harr
    have houtcome := h.commitUpdate hown payload.name hallowed now
    simp only [bind, Except.bind]
    generalize hs : Dashboards.commitUpdate s.db.charts s.boards board _ _ now = a at houtcome ⊢
    generalize ht : Dashboards.commitUpdate t.db.charts t.boards board _ _ now = b at houtcome ⊢
    cases houtcome with
    | error e => exact .error _
    | ok hagree =>
      have ha := updated_of_commitUpdate hs
      refine .ok ⟨h.updated hallowed ha (updated_of_commitUpdate ht) hagree, ?_⟩
      rwa [isOwn_of_owners ha.owner]

theorem SameView.handle (h : SameView u foreign s t) (unicode : Unicode) (names : Names)
    {r : Request} (hr : r.Fresh foreign) :
    (handle unicode names ⟨u, false⟩ s r).2 = (handle unicode names ⟨u, false⟩ t r).2 ∧
      SameView u foreign (handle unicode names ⟨u, false⟩ s r).1
        (handle unicode names ⟨u, false⟩ t r).1 := by
  cases r with
  | list => exact ⟨congrArg Response.boards (h.list_eq names), h⟩
  | create payload id now =>
    have houtcome := h.createDashboard unicode payload hr now
    unfold Dashboards.handle
    simp only
    generalize Dashboards.createDashboard unicode s _ payload id now = x at houtcome ⊢
    generalize Dashboards.createDashboard unicode t _ payload id now = y at houtcome ⊢
    cases houtcome with
    | error e => exact ⟨rfl, h⟩
    | ok hview => exact ⟨congrArg Response.board (hview.1.readStored_eq names hview.2), hview.1⟩
  | get id =>
    have houtcome := h.getOwned id
    unfold Dashboards.handle
    simp only
    generalize Dashboards.getOwned s.boards.dashboards id _ = x at houtcome ⊢
    generalize Dashboards.getOwned t.boards.dashboards id _ = y at houtcome ⊢
    cases houtcome with
    | error e => exact ⟨rfl, h⟩
    | ok hboard =>
      obtain ⟨rfl, rfl, hown, -⟩ := hboard
      exact ⟨congrArg (Response.board ∘ some) (h.read_eq names hown), h⟩
  | update id payload now =>
    have houtcome := h.getOwned id
    unfold Dashboards.handle
    simp only
    generalize Dashboards.getOwned s.boards.dashboards id _ = x at houtcome ⊢
    generalize Dashboards.getOwned t.boards.dashboards id _ = y at houtcome ⊢
    cases houtcome with
    | error e => exact ⟨rfl, h⟩
    | @ok _ board hboard =>
      obtain ⟨rfl, rfl, hown, -⟩ := hboard
      have hupdate := h.updateDashboard unicode hown payload now
      simp only
      generalize Dashboards.updateDashboard unicode s _ board payload now = a at hupdate ⊢
      generalize Dashboards.updateDashboard unicode t _ board payload now = b at hupdate ⊢
      cases hupdate with
      | error e => exact ⟨rfl, h⟩
      | ok hview => exact ⟨congrArg Response.board (hview.1.readStored_eq names hview.2), hview.1⟩
  | delete id =>
    have houtcome := h.getOwned id
    unfold Dashboards.handle
    simp only
    generalize Dashboards.getOwned s.boards.dashboards id _ = x at houtcome ⊢
    generalize Dashboards.getOwned t.boards.dashboards id _ = y at houtcome ⊢
    cases houtcome with
    | error e => exact ⟨rfl, h⟩
    | ok hboard =>
      obtain ⟨rfl, rfl, -, -⟩ := hboard
      exact ⟨rfl, h.deleted _⟩

end Requests

/-- **Dashboards are no oracle**: any requests of an analyst are answered alike, each with the same
read, the same refusal and the same error, whatever other people have. -/
theorem responses_eq_of_sameView (unicode : Unicode) (names : Names) {u : String}
    {foreign : List String} {s t : Tables} (h : SameView u foreign s t) {requests : List Request}
    (hfresh : ∀ r ∈ requests, r.Fresh foreign) :
    Machine.outputs (handle unicode names ⟨u, false⟩) s requests =
      Machine.outputs (handle unicode names ⟨u, false⟩) t requests :=
  Machine.outputs_eq_of_unwinding (R := SameView u foreign)
    (fun _ _ _ hr hview => (hview.handle unicode names hr).1)
    (fun _ _ _ hr hview => (hview.handle unicode names hr).2) hfresh h

namespace Sample

open Charts.Sample (chart query)

def bobQuery : SavedQuery := { query with id := "r", ownerId := some "bob" }

def bobChart : QueryChart := { chart with id := "e", queryId := "r", name := "Payees" }

def bobBoard : Dashboard := ⟨"x", "Fraud", some "bob", 2, 2⟩

theorem nodup_queries : ([query, bobQuery].map SavedQuery.id).Nodup := by decide

theorem nodup_moreCharts : ([chart, rows, bobChart].map QueryChart.id).Nodup := by decide

theorem nodup_moreBoards : ([board, bobBoard].map Dashboard.id).Nodup := by decide

def moreItems : List DashboardItem := items ++ [⟨"x", "e", 0⟩]

theorem nodup_moreItems : (moreItems.map DashboardItem.key).Nodup := by decide

/-- The tables of one analyst, and of another. -/
def shared : Tables where
  db :=
    { db with
      queries := ⟨[query, bobQuery], nodup_queries⟩
      charts := ⟨[chart, rows, bobChart], nodup_moreCharts⟩ }
  boards := ⟨⟨[board, bobBoard], nodup_moreBoards⟩, ⟨moreItems, nodup_moreItems⟩⟩

theorem consistent_shared : Consistent shared.db shared.boards where
  referential id chart h := by
    have hmem := Table.mem_of_get h
    clear h
    revert chart
    decide
  item_board := by decide
  item_chart := by decide
  names := by decide

theorem sameView : SameView "ann" ["x"] ⟨db, boards⟩ shared where
  consistent := ⟨consistent, consistent_shared⟩
  boards := rfl
  items := rfl
  visible c := by
    by_cases h : c = "c"
    · subst h; decide
    by_cases h' : c = "d"
    · subst h'; decide
    by_cases h'' : c = "e"
    · subst h''; decide
    · simp [chartVisibleTo, shared, db, Table.get, chart, rows, bobChart, Ne.symm h, Ne.symm h',
        Ne.symm h'']
  charts c := by
    by_cases h : c = "c"
    · subst h; decide
    by_cases h' : c = "d"
    · subst h'; decide
    · simp [chartVisibleTo, db, Table.get, chart, rows, Ne.symm h, Ne.symm h']
  placed := by decide
  foreign id := by
    by_cases h : id = "b"
    · subst h; decide
    · simp only [shared, boards, isOwn, Table.get, board, bobBoard, List.find?_cons, Ne.symm h,
        decide_false]
      by_cases h' : "x" = id
      · exact fun _ => List.mem_singleton.mpr h'.symm
      · simp [h']

/-- She tries a chart and a board of somebody else, and takes the name of one. -/
def requests : List Request :=
  [.create ⟨"Probe", ["e"]⟩ "n" 5, .get "x", .create ⟨"Fraud", ["c"]⟩ "m" 6, .list]

end Sample

theorem responses_eq_of_requests :
    Machine.outputs (handle .ascii (fun _ => none) ⟨"ann", false⟩) ⟨Sample.db, Sample.boards⟩
        Sample.requests =
      Machine.outputs (handle .ascii (fun _ => none) ⟨"ann", false⟩) Sample.shared
        Sample.requests :=
  responses_eq_of_sameView .ascii _ Sample.sameView (by decide)

end FraudAnalyzer.Dashboards
