import FraudAnalyzer.Charts.Reading

/-!
# Whether a chart exists

The answers somebody gets about a chart that is not theirs and not published, compared with the
answers about a chart that is not there. The calls that read a chart answer alike
(`answer_withoutChart_iff`); those that change one name the query in the one case and the chart in
the other.
-/

namespace FraudAnalyzer.Charts

/-! ## The calls that change a chart, one at a time -/

/-- The database after a conditional write, which is the same if no row matches. -/
def PublishWrite.commit (w : PublishWrite) (db : Db) (user : User) (chart : QueryChart) : Db :=
  (w.applyIf db user chart).getD db

/-- `_finish`: the chart as it is stored now. -/
def finish (db : Db) (chart : QueryChart) : Except AppError QueryChart :=
  match db.charts.get chart.id with
  | none => .error internalError
  | some chart => .ok chart

/-- `publish` -/
def publish (db : Db) (chartId : String) (user : User) (now : Instant) :
    Except AppError QueryChart := do
  let chart ← chartForOwner db chartId user
  if user.isAdmin then finish ((publishNow user now).commit db user chart) chart
  else finish ((requestPublish user now).commit db user chart) chart

/-- `cancel_request` -/
def cancelRequest (db : Db) (chartId : String) (user : User) : Except AppError QueryChart := do
  let chart ← chartForOwner db chartId user
  match withdrawRequest.applyIf db user chart with
  | some db => finish db chart
  | none => finish (clearRejection.commit db user chart) chart

/-- `unpublish` -/
def unpublish (db : Db) (chartId : String) (user : User) : Except AppError QueryChart := do
  let chart ← chartForOwner db chartId user
  if chart.isPublic && !user.isAdmin && chart.publishedBy ≠ some user.id then
    throw notThePublisher
  finish ((retract user).commit db user chart) chart

/-! ## Every call that names a chart -/

inductive ChartCall where
  | publish (now : Instant)
  | cancelRequest
  | unpublish
  | definition
  | published

inductive ChartAnswer where
  | chart (chart : QueryChart)
  | definition (definition : ChartDefinition)
  deriving DecidableEq

/-- The call changes nothing. -/
def ChartCall.isRead : ChartCall → Bool
  | .definition | .published => true
  | _ => false

def ChartCall.answer (E : Env) (s : Store) (user : User) (chartId : String) :
    ChartCall → Except AppError ChartAnswer
  | .publish now => (Charts.publish s.db chartId user now).map .chart
  | .cancelRequest => (Charts.cancelRequest s.db chartId user).map .chart
  | .unpublish => (Charts.unpublish s.db chartId user).map .chart
  | .definition => (Charts.definition E s chartId user).map .definition
  | .published => (getPublished s.db chartId).map .chart

/-- The state with the chart removed. -/
def withoutChart (s : Store) (chartId : String) : Store :=
  { s with db := { s.db with charts := s.db.charts.deleteWhere fun c => c.id = chartId } }

section Answers

variable {E : Env} {s : Store} {user : User} {chartId : String}

theorem get_withoutChart : (withoutChart s chartId).db.charts.get chartId = none :=
  s.db.charts.get_delete chartId

/-- What the calls that change a chart answer when there is none. -/
theorem answer_of_none (h : s.db.charts.get chartId = none) (call : ChartCall) :
    call.answer E s user chartId =
      .error (match call with | .published => noSuchPublishedChart | _ => noSuchChart) := by
  have howner : chartForOwner s.db chartId user = .error noSuchChart := by
    unfold chartForOwner
    rw [h]
  cases call with
  | publish now => simp only [ChartCall.answer, publish, howner]; rfl
  | cancelRequest => simp only [ChartCall.answer, cancelRequest, howner]; rfl
  | unpublish => simp only [ChartCall.answer, unpublish, howner]; rfl
  | definition => simp only [ChartCall.answer, definition, h]; rfl
  | published => simp only [ChartCall.answer, getPublished, h]; rfl

/-- What they answer about a private chart of somebody else's. -/
theorem answer_of_foreign (huser : user.isAdmin = false) {chart : QueryChart} {query : SavedQuery}
    (hchart : s.db.charts.get chartId = some chart)
    (hquery : s.db.queries.get chart.queryId = some query) (howner : query.ownerId ≠ some user.id)
    (hprivate : chart.isPublic = false) (call : ChartCall) :
    call.answer E s user chartId =
      .error (match call with
        | .published => noSuchPublishedChart
        | .definition => noSuchChart
        | _ => noSuchQuery) := by
  have hrefused : chartForOwner s.db chartId user = .error noSuchQuery := by
    simp [chartForOwner, getOwned, hchart, hquery, huser, howner]
    rfl
  cases call with
  | publish now => simp only [ChartCall.answer, publish, hrefused]; rfl
  | cancelRequest => simp only [ChartCall.answer, cancelRequest, hrefused]; rfl
  | unpublish => simp only [ChartCall.answer, unpublish, hrefused]; rfl
  | definition =>
    simp [ChartCall.answer, definition, hchart, hquery, hprivate, huser, howner]
    rfl
  | published => simp [ChartCall.answer, getPublished, hchart, hprivate]; rfl

theorem noSuchQuery_ne_noSuchChart : noSuchQuery ≠ noSuchChart := by
  intro h
  exact absurd (congrArg AppError.message h) (by decide)

/-- **A private chart of somebody else's** gives the answer of one that is not there to the calls
that read it, and to no others. -/
theorem answer_withoutChart_iff (huser : user.isAdmin = false) {chart : QueryChart}
    {query : SavedQuery} (hchart : s.db.charts.get chartId = some chart)
    (hquery : s.db.queries.get chart.queryId = some query) (howner : query.ownerId ≠ some user.id)
    (hprivate : chart.isPublic = false) (call : ChartCall) :
    call.answer E s user chartId = call.answer E (withoutChart s chartId) user chartId ↔
      call.isRead = true := by
  rw [answer_of_foreign huser hchart hquery howner hprivate, answer_of_none get_withoutChart]
  cases call with
  | publish now => simpa [ChartCall.isRead] using noSuchQuery_ne_noSuchChart
  | cancelRequest => simpa [ChartCall.isRead] using noSuchQuery_ne_noSuchChart
  | unpublish => simpa [ChartCall.isRead] using noSuchQuery_ne_noSuchChart
  | definition => simp [ChartCall.isRead]
  | published => simp [ChartCall.isRead]

end Answers

namespace Sample

/-- The private chart of `ann`, and nothing else. -/
def store : Store := ⟨db, Table.empty, Table.empty, fun _ => 0, Table.empty, []⟩

/-- Another analyst. -/
def stranger : User := ⟨"bob", false⟩

end Sample

theorem answer_withoutChart_iff_published :
    ChartCall.published.answer Sample.env Sample.store Sample.stranger "c" =
      ChartCall.published.answer Sample.env (withoutChart Sample.store "c") Sample.stranger "c" :=
  (@answer_withoutChart_iff Sample.env Sample.store Sample.stranger "c" rfl Sample.chart
    Sample.query rfl rfl (by decide) rfl .published).mpr rfl

/-- A request to publish tells the chart of a colleague from one that is not there. -/
theorem publish_tells :
    Sample.stranger.isAdmin = false ∧ Sample.store.db.charts.get "c" = some Sample.chart ∧
      Sample.store.db.queries.get "q" = some Sample.query ∧ Sample.chart.queryId = "q" ∧
      Sample.query.ownerId ≠ some Sample.stranger.id ∧ Sample.chart.isPublic = false ∧
      (ChartCall.publish 0).answer Sample.env Sample.store Sample.stranger "c" ≠
        (ChartCall.publish 0).answer Sample.env (withoutChart Sample.store "c") Sample.stranger
          "c" := by
  refine ⟨rfl, rfl, rfl, rfl, by decide, rfl, ?_⟩
  have hthere : (ChartCall.publish 0).answer Sample.env Sample.store Sample.stranger "c" =
      .error noSuchQuery := rfl
  have hgone : (ChartCall.publish 0).answer Sample.env (withoutChart Sample.store "c")
      Sample.stranger "c" = .error noSuchChart := rfl
  rw [hthere, hgone]
  intro h
  exact noSuchQuery_ne_noSuchChart (Except.error.inj h)

end FraudAnalyzer.Charts
