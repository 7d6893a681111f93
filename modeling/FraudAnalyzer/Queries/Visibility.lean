import FraudAnalyzer.Charts.Publishing
import FraudAnalyzer.Store

/-!
# Which queries a user may see

The clauses and the reads of `app/features/queries/service.py`. A listing carries the charts of
each query, as its read model does.
-/

namespace FraudAnalyzer.Queries

open Charts (noSuchQuery)

/-- `visible_to` -/
def visibleTo (user : User) (query : SavedQuery) : Bool :=
  user.isAdmin || query.ownerId = some user.id

/-- `is_published_clause` -/
def isPublished (db : Db) (queryId : String) : Bool :=
  db.charts.rows.any fun c => c.queryId = queryId && c.isPublic

/-- `alert_visible_to` -/
def alertVisibleTo (db : Db) (user : User) (query : SavedQuery) : Bool :=
  user.isAdmin || query.ownerId = some user.id || isPublished db query.id

/-- `get_viewable` -/
def getViewable (db : Db) (queryId : String) (user : User) : Except AppError SavedQuery :=
  match db.queries.get queryId with
  | none => .error noSuchQuery
  | some query =>
    if user.isAdmin || query.ownerId = some user.id then .ok query
    else if isPublished db queryId then .ok query
    else .error noSuchQuery

/-- A query as it is listed. -/
structure QueryRead where
  query : SavedQuery
  charts : List QueryChart
  createdAt : Instant
  deriving DecidableEq

def readQuery (s : Store) (query : SavedQuery) : QueryRead :=
  ⟨query, s.db.chartsOf query.id, s.created query.id⟩

/-- `select(SavedQuery).where(..).order_by(SavedQuery.created_at)` -/
def selectQueries (s : Store) (clause : SavedQuery → Bool) : List SavedQuery :=
  sortedBy (fun query => s.created query.id) (s.db.queries.rows.filter clause)

theorem mem_selectQueries {s : Store} {clause : SavedQuery → Bool} {query : SavedQuery} :
    query ∈ selectQueries s clause ↔ query ∈ s.db.queries.rows ∧ clause query = true := by
  unfold selectQueries
  rw [mem_sortedBy, List.mem_filter]

/-- `list_queries` -/
def listQueries (s : Store) (connectionId : String) (user : User) : List QueryRead :=
  (selectQueries s fun query => query.connectionId = connectionId && visibleTo user query).map
    (readQuery s)

/-- `list_visible_queries` -/
def listVisibleQueries (s : Store) (user : User) : List QueryRead :=
  (selectQueries s (visibleTo user)).map (readQuery s)

/-- `list_queries_by_ids` -/
def listQueriesByIds (s : Store) (queryIds : List String) (user : User) : List QueryRead :=
  if queryIds = [] then []
  else
    let found := s.db.queries.rows.filter fun query => query.id ∈ queryIds && visibleTo user query
    queryIds.filterMap fun id => (found.find? fun query => query.id = id).map (readQuery s)

end FraudAnalyzer.Queries
