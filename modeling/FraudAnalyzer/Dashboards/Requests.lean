import FraudAnalyzer.Dashboards.Service

/-!
# The requests of one user, one after another

The endpoints of `app/features/dashboards/router.py`, each run to its end, over the functions of the
service.
-/

namespace FraudAnalyzer.Dashboards

open Charts Python Queries

structure Tables where
  db : Db
  boards : Boards

/-- `full_name` and `email` of an account, under its id. -/
abbrev Names := String → Option (String × String)

/-- `DashboardRead` -/
structure DashboardRead where
  id : String
  name : String
  chartIds : List String
  charts : List QueryChart
  ownerId : Option String
  owner : Option (String × String)
  createdAt : Instant
  updatedAt : Instant

/-- `_read` -/
def read (names : Names) (s : Tables) (board : Dashboard) : DashboardRead where
  id := board.id
  name := board.name
  chartIds := s.boards.chartIds board.id
  charts := (s.boards.itemsOf board.id).filterMap fun i => s.db.charts.get i.chartId
  ownerId := board.ownerId
  owner := board.ownerId.bind names
  createdAt := board.createdAt
  updatedAt := board.updatedAt

/-- The read of a row that is stored. -/
def readStored (names : Names) (s : Tables) (id : String) : Option DashboardRead :=
  (s.boards.dashboards.get id).map (read names s)

/-- `create_dashboard` -/
def createDashboard (u : Unicode) (s : Tables) (user : User) (payload : DashboardCreate)
    (id : String) (now : Instant) : Except AppError Tables := do
  let chartIds ← validateChartIds u s.db user payload.chartIds
  let board : Dashboard := ⟨id, payload.name, some user.id, now, now⟩
  match commitCreate s.db.charts s.boards board chartIds with
  | .error e => .error (e.report u payload.name)
  | .ok boards => return { s with boards := boards }

/-- The arrangement that `update_dashboard` is asked for, checked. -/
def arrangementOf (u : Unicode) (s : Tables) (user : User) (board : Dashboard) :
    Option (List String) → Except AppError (Option Arrangement)
  | none => return none
  | some chartIds => do
    let chartIds ← validateChartIds u s.db user chartIds
    return some ⟨chartIds, s.boards.itemsOf board.id⟩

/-- `update_dashboard` -/
def updateDashboard (u : Unicode) (s : Tables) (user : User) (board : Dashboard)
    (payload : DashboardUpdate) (now : Instant) : Except AppError Tables := do
  let arrangement ← arrangementOf u s user board payload.chartIds
  match commitUpdate s.db.charts s.boards board payload.name arrangement now with
  | .error e => .error (e.report u (payload.name.getD board.name))
  | .ok boards => return { s with boards := boards }

/-- `delete_dashboard` -/
def deleteDashboard (s : Tables) (board : Dashboard) : Tables :=
  { s with boards := commitDelete s.boards board.id }

/-- A new row is given its id, and the moment. -/
inductive Request where
  | list
  | create (payload : DashboardCreate) (id : String) (now : Instant)
  | get (id : String)
  | update (id : String) (payload : DashboardUpdate) (now : Instant)
  | delete (id : String)

inductive Response where
  | boards (reads : List DashboardRead)
  | board (read : Option DashboardRead)
  | noContent
  | error (e : AppError)

/-- The handlers of the router. A request that fails leaves the tables as they were. -/
def handle (u : Unicode) (names : Names) (user : User) (s : Tables) : Request → Tables × Response
  | .list => (s, .boards ((listDashboards s.boards.dashboards user).map (read names s)))
  | .create payload id now =>
    match createDashboard u s user payload id now with
    | .error e => (s, .error e)
    | .ok t => (t, .board (readStored names t id))
  | .get id =>
    match getOwned s.boards.dashboards id user with
    | .error e => (s, .error e)
    | .ok board => (s, .board (some (read names s board)))
  | .update id payload now =>
    match getOwned s.boards.dashboards id user with
    | .error e => (s, .error e)
    | .ok board =>
      match updateDashboard u s user board payload now with
      | .error e => (s, .error e)
      | .ok t => (t, .board (readStored names t id))
  | .delete id =>
    match getOwned s.boards.dashboards id user with
    | .error e => (s, .error e)
    | .ok board => (deleteDashboard s board, .noContent)

end FraudAnalyzer.Dashboards
