import FraudAnalyzer.Charts.Machine
import FraudAnalyzer.Store

/-!
# Reading other people's charts

`get_published`, `list_published` and `definition` of `app/features/charts/service.py`: what
somebody who does not own a query may read of its charts.
-/

namespace FraudAnalyzer.Charts

open Queries

def noSuchPublishedChart : AppError := ⟨.queryNotFound, "No such published chart.", []⟩

/-- `get_published` -/
def getPublished (db : Db) (chartId : String) : Except AppError QueryChart :=
  match db.charts.get chartId with
  | none => .error noSuchPublishedChart
  | some chart => if !chart.isPublic then .error noSuchPublishedChart else .ok chart

/-- `published_at.desc()`; a chart without an instant comes last. -/
def publishedLater (a b : QueryChart) : Bool :=
  match a.publishedAt, b.publishedAt with
  | _, none => true
  | none, some _ => false
  | some ta, some tb => tb ≤ ta

/-- `list_published` -/
def listPublished (db : Db) : List QueryChart :=
  (db.charts.rows.filter fun c => c.isPublic).insertionSort fun a b => publishedLater a b

/-- The `query` of a definition. -/
structure QueryOutline where
  id : String
  name : String
  description : Option String
  sqlText : String
  rowLimit : Int
  pollIntervalMs : Int
  deriving DecidableEq

structure ChartDefinition where
  chart : QueryChart
  query : QueryOutline
  rules : List FlagRule
  connectionName : String
  ownerName : Option String
  readOnly : Bool
  definitionFingerprint : String
  deriving DecidableEq

/-- `definition` -/
def definition (E : Env) (s : Store) (chartId : String) (user : User) :
    Except AppError ChartDefinition :=
  match s.db.charts.get chartId with
  | none => .error noSuchChart
  | some chart =>
    match s.db.queries.get chart.queryId with
    | none => .error internalError
    | some query =>
      let privileged := user.isAdmin || query.ownerId = some user.id
      if !chart.isPublic && !privileged then .error noSuchChart
      else
        let rules := s.db.rulesOf query.id
        (resolveRowLimit E.settings (some query.rowLimit)).map fun rowLimit =>
          { chart := chart
            query := ⟨query.id, query.name, query.description, query.sqlText, rowLimit,
              pollIntervalFor E.settings query⟩
            rules := rules
            connectionName := ((s.connections.get query.connectionId).map
              Connections.Connection.name).getD ""
            ownerName := s.ownerName query
            readOnly := !privileged
            definitionFingerprint := definitionFingerprint E.sha256Hex query chart rules }

end FraudAnalyzer.Charts
