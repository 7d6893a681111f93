import FraudAnalyzer.Cli.ClaimUnowned
import FraudAnalyzer.Queries.Creating

/-!
# Dashboards, queries and charts together

Requests on dashboards, interleaved at every read and every commit with each other and with the
publishing and editing of `Charts.step`, with new queries and with a claim of unowned work. When
charts go, the foreign key of the items takes their places with them (`State.cascade`).

`written` is for the statements only: the arrangement that was last committed for a board, and how
many were.
-/

namespace FraudAnalyzer.Dashboards

open Charts Python

/-- The items of the last arrangement of a board, with the number of those before it. -/
structure Written where
  count : Nat
  items : List DashboardItem

/-- Where a request stands. -/
inductive Stage where
  | checked (user : User) (name : String) (chartIds : List String)
  | opened (user : User) (board : Dashboard) (payload : DashboardUpdate)
  | validated (board : Dashboard) (name : Option String) (chartIds : List String)
  | ready (board : Dashboard) (name : Option String) (arrangement : Option Arrangement)
      (since : Nat)
  | deleting (board : Dashboard)

structure State where
  charts : Charts.State
  boards : Boards
  requests : Nat → Option Stage
  /-- The ids given out to queries and to boards, which are never given out again. -/
  queryIds : List String
  boardIds : List String
  written : String → Written

namespace State

/-- No request is in progress, and each board shows what is stored. -/
def start (db : Db) (boards : Boards) : State where
  charts := Charts.State.start db
  boards := boards
  requests := fun _ => none
  queryIds := db.queries.rows.map SavedQuery.id
  boardIds := boards.dashboards.rows.map Dashboard.id
  written := fun id => ⟨0, boards.itemsOf id⟩

def put (s : State) (i : Nat) (stage : Stage) : State :=
  { s with requests := Function.update s.requests i (some stage) }

def drop (s : State) (i : Nat) : State :=
  { s with requests := Function.update s.requests i none }

/-- The queries and charts after a step on them, with `ON DELETE CASCADE` of the items. -/
def cascade (s : State) (charts : Charts.State) : State :=
  { s with
    charts := charts
    boards := { s.boards with items := Charts.cascade charts.db.charts s.boards.items } }

/-- A committed arrangement is noted. -/
def note (s : State) (boardId : String) (chartIds : List String) : State :=
  { s with
    written := Function.update s.written boardId
      ⟨(s.written boardId).count + 1, applyItems boardId chartIds⟩ }

end State

/-- A query is created from whatever its author sent. -/
inductive Action where
  | edit (a : Charts.Action)
  | createQuery (query : SavedQuery) (chartId : String)
  | claim (accountId : String) (now : Instant)
  | beginCreate (i : Nat) (user : User) (payload : DashboardCreate)
  | commitCreate (i : Nat) (id : String) (now : Instant)
  | beginUpdate (i : Nat) (user : User) (dashboardId : String) (payload : DashboardUpdate)
  | validate (i : Nat)
  | load (i : Nat)
  | commitUpdate (i : Nat) (now : Instant)
  | beginDelete (i : Nat) (user : User) (dashboardId : String)
  | commitDelete (i : Nat)
  | abort (i : Nat)

/-- One step of one request. A request that is refused ends. -/
def step (E : Env) (s : State) : Action → Option State
  | .edit a => (Charts.step E s.charts a).map s.cascade
  | .createQuery query chartId =>
    if query.id ∉ s.queryIds ∧ chartId ∉ s.charts.issued then
      match Queries.Creating.commitCreate s.charts.db query chartId with
      | none => some s
      | some db =>
        some { s with
          charts := { s.charts with db := db, issued := s.charts.issued ++ [chartId] }
          queryIds := s.queryIds ++ [query.id] }
    else none
  | .claim accountId now =>
    match Cli.claimUnowned s.charts.db s.boards accountId now with
    | none => some s
    | some (db, boards) => some { s with charts := { s.charts with db := db }, boards := boards }
  | .beginCreate i user payload =>
    match validateChartIds E.unicode s.charts.db user payload.chartIds with
    | .error _ => some s
    | .ok chartIds => some (s.put i (.checked user payload.name chartIds))
  | .commitCreate i id now =>
    match s.requests i with
    | some (.checked user name chartIds) =>
      if id ∉ s.boardIds then
        match commitCreate s.charts.db.charts s.boards ⟨id, name, some user.id, now, now⟩ chartIds
        with
        | .error _ => some (s.drop i)
        | .ok boards =>
          some ({ s.drop i with boards := boards, boardIds := s.boardIds ++ [id] }.note id chartIds)
      else none
    | _ => none
  | .beginUpdate i user dashboardId payload =>
    match getOwned s.boards.dashboards dashboardId user with
    | .error _ => some s
    | .ok board => some (s.put i (.opened user board payload))
  | .validate i =>
    match s.requests i with
    | some (.opened user board payload) =>
      match payload.chartIds with
      | none => some (s.put i (.ready board payload.name none 0))
      | some chartIds =>
        match validateChartIds E.unicode s.charts.db user chartIds with
        | .error _ => some (s.drop i)
        | .ok chartIds => some (s.put i (.validated board payload.name chartIds))
    | _ => none
  | .load i =>
    match s.requests i with
    | some (.validated board name chartIds) =>
      some (s.put i (.ready board name (some ⟨chartIds, s.boards.itemsOf board.id⟩)
        (s.written board.id).count))
    | _ => none
  | .commitUpdate i now =>
    match s.requests i with
    | some (.ready board name arrangement _) =>
      match commitUpdate s.charts.db.charts s.boards board name arrangement now with
      | .error _ => some (s.drop i)
      | .ok boards =>
        match arrangement with
        | none => some { s.drop i with boards := boards }
        | some a => some ({ s.drop i with boards := boards }.note board.id a.chartIds)
    | _ => none
  | .beginDelete i user dashboardId =>
    match getOwned s.boards.dashboards dashboardId user with
    | .error _ => some s
    | .ok board => some (s.put i (.deleting board))
  | .commitDelete i =>
    match s.requests i with
    | some (.deleting board) =>
      some { s.drop i with boards := commitDelete s.boards board.id }
    | _ => none
  | .abort i => some (s.drop i)

/-! ## What a step can do -/

/-- How an action brings a request to its stage, out of the one that was in its place. -/
inductive Advance (E : Env) (s : State) : Action → Option Stage → Stage → Prop
  | checked {i old user chartIds} {payload : DashboardCreate}
      (h : validateChartIds E.unicode s.charts.db user payload.chartIds = .ok chartIds) :
      Advance E s (.beginCreate i user payload) old (.checked user payload.name chartIds)
  | opened {i old user dashboardId board} {payload : DashboardUpdate}
      (h : getOwned s.boards.dashboards dashboardId user = .ok board) :
      Advance E s (.beginUpdate i user dashboardId payload) old (.opened user board payload)
  | nameOnly {i user board} {payload : DashboardUpdate} (h : payload.chartIds = none) :
      Advance E s (.validate i) (some (.opened user board payload))
        (.ready board payload.name none 0)
  | validated {i user board sent chartIds} {payload : DashboardUpdate}
      (hsent : payload.chartIds = some sent)
      (h : validateChartIds E.unicode s.charts.db user sent = .ok chartIds) :
      Advance E s (.validate i) (some (.opened user board payload))
        (.validated board payload.name chartIds)
  | loaded {i board name chartIds} :
      Advance E s (.load i) (some (.validated board name chartIds))
        (.ready board name (some ⟨chartIds, s.boards.itemsOf board.id⟩) (s.written board.id).count)
  | deleting {i old user dashboardId board}
      (h : getOwned s.boards.dashboards dashboardId user = .ok board) :
      Advance E s (.beginDelete i user dashboardId) old (.deleting board)

/-- The requests of `t` are those of `s`, or have advanced. -/
def Requests (E : Env) (s : State) (a : Action) (t : State) : Prop :=
  ∀ j stage, t.requests j = some stage →
    s.requests j = some stage ∨ Advance E s a (s.requests j) stage

/-- All that one step can do: nothing is committed, or one commit is. -/
inductive Effect (E : Env) (s : State) : Action → State → Prop
  | idle {a : Action} {requests : Nat → Option Stage}
      (h : Requests E s a { s with requests := requests }) :
      Effect E s a { s with requests := requests }
  | edit {a charts} (h : Charts.step E s.charts a = some charts) :
      Effect E s (.edit a) (s.cascade charts)
  | createQuery {query chartId db} (hquery : query.id ∉ s.queryIds)
      (hchart : chartId ∉ s.charts.issued)
      (h : Queries.Creating.commitCreate s.charts.db query chartId = some db) :
      Effect E s (.createQuery query chartId)
        { s with
          charts := { s.charts with db := db, issued := s.charts.issued ++ [chartId] }
          queryIds := s.queryIds ++ [query.id] }
  | claim {accountId now db boards}
      (h : Cli.claimUnowned s.charts.db s.boards accountId now = some (db, boards)) :
      Effect E s (.claim accountId now)
        { s with charts := { s.charts with db := db }, boards := boards }
  | create {i id now user name chartIds boards}
      (hstage : s.requests i = some (.checked user name chartIds)) (hid : id ∉ s.boardIds)
      (h : commitCreate s.charts.db.charts s.boards ⟨id, name, some user.id, now, now⟩ chartIds =
        .ok boards) :
      Effect E s (.commitCreate i id now)
        ({ s.drop i with boards := boards, boardIds := s.boardIds ++ [id] }.note id chartIds)
  | rename {i now board name since boards}
      (hstage : s.requests i = some (.ready board name none since))
      (h : commitUpdate s.charts.db.charts s.boards board name none now = .ok boards) :
      Effect E s (.commitUpdate i now) { s.drop i with boards := boards }
  | rearrange {i now board name since a boards}
      (hstage : s.requests i = some (.ready board name (some a) since))
      (h : commitUpdate s.charts.db.charts s.boards board name (some a) now = .ok boards) :
      Effect E s (.commitUpdate i now) ({ s.drop i with boards := boards }.note board.id a.chartIds)
  | delete {i board} (hstage : s.requests i = some (.deleting board)) :
      Effect E s (.commitDelete i) { s.drop i with boards := commitDelete s.boards board.id }

section Steps

variable {E : Env} {s t : State} {a : Action}

theorem of_requests_drop {i j : Nat} {stage : Stage} (h : (s.drop i).requests j = some stage) :
    s.requests j = some stage := by
  simp only [State.drop, Function.update_apply] at h
  split at h
  · cases h
  · exact h

theorem Effect.refl : Effect E s a s := .idle fun _ _ h => .inl h

theorem Effect.drop (i : Nat) : Effect E s a (s.drop i) :=
  .idle fun _ _ h => .inl (of_requests_drop h)

theorem Effect.put {i : Nat} {stage : Stage} (h : Advance E s a (s.requests i) stage) :
    Effect E s a (s.put i stage) := by
  refine .idle fun j other hother => ?_
  simp only [Function.update_apply] at hother
  split at hother
  next hj =>
    obtain rfl := Option.some.inj hother
    exact .inr (hj ▸ h)
  · exact .inl hother

end Steps

/-- **Inversion of `step`.** -/
theorem effect_of_step {E : Env} {s t : State} {a : Action} (h : step E s a = some t) :
    Effect E s a t := by
  cases a with
  | edit a =>
    obtain ⟨charts, hcharts, rfl⟩ := Option.map_eq_some_iff.mp h
    exact .edit hcharts
  | createQuery query chartId =>
    unfold step at h
    simp only at h
    split at h
    next hfresh =>
      split at h
      · obtain rfl := Option.some.inj h
        exact .refl
      next hcommit =>
        obtain rfl := Option.some.inj h
        exact .createQuery hfresh.1 hfresh.2 hcommit
    · cases h
  | claim accountId now =>
    unfold step at h
    simp only at h
    split at h
    · obtain rfl := Option.some.inj h
      exact .refl
    next hclaim =>
      obtain rfl := Option.some.inj h
      exact .claim hclaim
  | beginCreate i user payload =>
    unfold step at h
    simp only at h
    split at h
    · obtain rfl := Option.some.inj h
      exact .refl
    next hvalid =>
      obtain rfl := Option.some.inj h
      exact .put (.checked hvalid)
  | commitCreate i id now =>
    unfold step at h
    simp only at h
    split at h
    next hstage =>
      split at h
      next hid =>
        split at h
        · obtain rfl := Option.some.inj h
          exact .drop i
        next hcommit =>
          obtain rfl := Option.some.inj h
          exact .create hstage hid hcommit
      · cases h
    · cases h
  | beginUpdate i user dashboardId payload =>
    unfold step at h
    simp only at h
    split at h
    · obtain rfl := Option.some.inj h
      exact .refl
    next howned =>
      obtain rfl := Option.some.inj h
      exact .put (.opened howned)
  | validate i =>
    unfold step at h
    simp only at h
    split at h
    next hstage =>
      split at h
      next hnone =>
        obtain rfl := Option.some.inj h
        exact .put (hstage ▸ .nameOnly hnone)
      next hsent =>
        split at h
        · obtain rfl := Option.some.inj h
          exact .drop i
        next hvalid =>
          obtain rfl := Option.some.inj h
          exact .put (hstage ▸ .validated hsent hvalid)
    · cases h
  | load i =>
    unfold step at h
    simp only at h
    split at h
    next hstage =>
      obtain rfl := Option.some.inj h
      exact .put (hstage ▸ .loaded)
    · cases h
  | commitUpdate i now =>
    unfold step at h
    simp only at h
    split at h
    next hstage =>
      split at h
      · obtain rfl := Option.some.inj h
        exact .drop i
      next hcommit =>
        split at h
        · obtain rfl := Option.some.inj h
          exact .rename hstage hcommit
        · obtain rfl := Option.some.inj h
          exact .rearrange hstage hcommit
    · cases h
  | beginDelete i user dashboardId =>
    unfold step at h
    simp only at h
    split at h
    · obtain rfl := Option.some.inj h
      exact .refl
    next howned =>
      obtain rfl := Option.some.inj h
      exact .put (.deleting howned)
  | commitDelete i =>
    unfold step at h
    simp only at h
    split at h
    next hstage =>
      obtain rfl := Option.some.inj h
      exact .delete hstage
    · cases h
  | abort i =>
    obtain rfl := Option.some.inj h
    exact .drop i

end FraudAnalyzer.Dashboards
