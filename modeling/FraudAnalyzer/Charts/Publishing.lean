import FraudAnalyzer.Charts.Fingerprint
import FraudAnalyzer.Errors
import FraudAnalyzer.Python.Text

/-!
# Publishing operations

The functions of `app/features/charts/service.py` that publish a chart. Each reads the chart,
decides, and changes it with one conditional `UPDATE` whose `WHERE` carries the state the decision
assumed; the `UPDATE`, its audit entry and the commit are one transaction. A `PublishRequest` is a
call of the service; `beginRequest` is what it does up to its first write, and `PublishCall.write`
is the write.
-/

namespace FraudAnalyzer.Charts

open Python

def noSuchChart : AppError := ⟨.queryNotFound, "No such chart.", []⟩

def noSuchQuery : AppError := ⟨.queryNotFound, "No such query.", []⟩

/-- `get_owned` -/
def getOwned (db : Db) (queryId : String) (user : User) : Except AppError SavedQuery :=
  match db.queries.get queryId with
  | none => .error noSuchQuery
  | some query =>
    if !user.isAdmin && query.ownerId ≠ some user.id then .error noSuchQuery else .ok query

theorem getOwned_id {db : Db} {queryId : String} {user : User} {query : SavedQuery}
    (h : getOwned db queryId user = .ok query) : query.id = queryId := by
  unfold getOwned at h
  split at h
  · cases h
  next found hfound =>
    split at h
    · cases h
    · cases h
      exact Table.key_of_get hfound

/-- `_chart_for_owner` -/
def chartForOwner (db : Db) (chartId : String) (user : User) : Except AppError QueryChart :=
  match db.charts.get chartId with
  | none => .error noSuchChart
  | some chart => (getOwned db chart.queryId user).map fun _ => chart

/-- `_require_admin` -/
def requireAdmin (user : User) : Except AppError Unit :=
  if user.isAdmin then .ok ()
  else .error ⟨.forbidden, "Only an administrator can decide on a publish request.", []⟩

/-- `_pending_chart`: the chart with the instant of the request that is waiting on it. -/
def pendingChart (db : Db) (chartId : String) : Except AppError (QueryChart × Instant) :=
  match db.charts.get chartId with
  | none => .error noSuchChart
  | some chart =>
    match chart.isPublic, chart.publishRequestedAt with
    | false, some requestedAt => .ok (chart, requestedAt)
    | _, _ =>
      .error ⟨.publishNotPending,
        "Nobody is waiting on this chart: it was already decided, withdrawn, or never requested.",
        []⟩

/-- `_undecided` -/
def undecided : AppError :=
  ⟨.publishNotPending,
    "Nobody is waiting on this chart: it was decided, withdrawn or asked for again while you " ++
      "were looking at it.",
    []⟩

def definitionChanged : AppError :=
  ⟨.definitionChanged,
    "This chart's definition changed since it was reviewed. Open it again and review the " ++
      "current SQL and rules before approving.",
    []⟩

def notThePublisher : AppError :=
  ⟨.forbidden,
    "An administrator published this chart, so only an administrator can unpublish it.", []⟩

/-! ## Conditional writes -/

/-- `_NO_REQUEST` -/
def noRequest (c : PublishColumns) : PublishColumns :=
  { c with publishRequestedBy := none, publishRequestedAt := none }

/-- `_NO_REJECTION` -/
def noRejection (c : PublishColumns) : PublishColumns :=
  { c with publishRejectedBy := none, publishRejectedAt := none, publishRejectedReason := none }

/-- A conditional `UPDATE` of one chart: what its `WHERE` asks of the row, the values it sets, and
the audit entry of the transaction. -/
structure PublishWrite where
  conditions : PublishColumns → Bool
  values : PublishColumns → PublishColumns
  audit : Option (AuditAction × List (String × Json))

/-- The chart with other publishing columns. -/
def setPublish (values : PublishColumns → PublishColumns) (chart : QueryChart) : QueryChart :=
  { chart with toPublishColumns := values chart.toPublishColumns }

theorem setPublish_id (values : PublishColumns → PublishColumns) (chart : QueryChart) :
    (setPublish values chart).id = chart.id := rfl

/-- `_audit`, which names the chart as it was read. -/
def auditEntry (user : User) (chart : QueryChart) (action : AuditAction)
    (extra : List (String × Json)) : AuditLog :=
  ⟨user.id, action, chart.id,
    [("chart", .str chart.name), ("query_id", .str chart.queryId)] ++ extra⟩

/-- `_apply_if` with the audit entry and the commit after it: `none` when no row matches. -/
def PublishWrite.applyIf (w : PublishWrite) (db : Db) (user : User) (chart : QueryChart) :
    Option Db :=
  match db.charts.get chart.id with
  | none => none
  | some row =>
    if w.conditions row.toPublishColumns then
      some
        { db with
          charts := db.charts.modify chart.id (setPublish w.values) (setPublish_id w.values)
          auditLogs := db.auditLogs ++
            (w.audit.map fun a => auditEntry user chart a.1 a.2).toList }
    else none

/-- What `approve` read before it compares: the chart, the request that was waiting, the
fingerprint the administrator was shown. `requests` is the number of requests committed for the
chart so far; no step reads it, and it tells one request from another. -/
structure ApproveRead where
  chart : QueryChart
  requestedAt : Instant
  seen : String
  requests : Nat

/-- A publishing operation that is about to write. -/
inductive PublishCall where
  | publish (now : Instant)
  | cancelRequest
  | dismissRejection
  | approve (read : ApproveRead)
  | reject (requestedAt : Instant) (requester : Option String) (reason : Option String)
  | unpublish

/-- An administrator's `publish`. -/
def publishNow (user : User) (now : Instant) : PublishWrite where
  conditions c := !c.isPublic
  values c := noRejection (noRequest
    { c with isPublic := true, publishedBy := some user.id, publishedAt := some now })
  audit := some (.chartPublished, [])

/-- Anybody else's `publish`. -/
def requestPublish (user : User) (now : Instant) : PublishWrite where
  conditions c := !c.isPublic && c.publishRequestedAt.isNone
  values c := noRejection
    { c with publishRequestedBy := some user.id, publishRequestedAt := some now }
  audit := some (.chartPublishRequested, [])

/-- The first half of `cancel_request`. -/
def withdrawRequest : PublishWrite where
  conditions c := !c.isPublic && c.publishRequestedAt.isSome
  values := noRequest
  audit := some (.chartPublishCancelled, [])

/-- The second half of `cancel_request`, when the first matched nothing. -/
def clearRejection : PublishWrite where
  conditions c := !c.isPublic && c.publishRequestedAt.isNone && c.publishRejectedAt.isSome
  values := noRejection
  audit := none

/-- The row still has the request that was read. -/
def sameRequest (requestedAt : Instant) (requester : Option String) (c : PublishColumns) : Bool :=
  !c.isPublic && c.publishRequestedAt == some requestedAt && c.publishRequestedBy == requester

/-- The write of `approve`. -/
def approveRequest (read : ApproveRead) (now : Instant) : PublishWrite where
  conditions := sameRequest read.requestedAt read.chart.publishRequestedBy
  values c := noRejection (noRequest
    { c with
      isPublic := true, publishedBy := read.chart.publishRequestedBy, publishedAt := some now })
  audit := some (.chartPublishApproved,
    [("requested_by", .ofOption .str read.chart.publishRequestedBy)])

/-- The write of `reject`. -/
def rejectRequest (user : User) (requestedAt : Instant) (requester reason : Option String)
    (now : Instant) : PublishWrite where
  conditions := sameRequest requestedAt requester
  values c :=
    { noRequest c with
      publishRejectedBy := some user.id, publishRejectedAt := some now,
      publishRejectedReason := reason }
  audit := some (.chartPublishRejected,
    [("requested_by", .ofOption .str requester), ("reason", .ofOption .str reason)])

/-- The write of `unpublish`. -/
def retract (user : User) : PublishWrite where
  conditions c := c.isPublic && (user.isAdmin || c.publishedBy == some user.id)
  values c := { c with isPublic := false, publishedBy := none, publishedAt := none }
  audit := some (.chartUnpublished, [])

/-- The write of each operation; `now` is the clock when the statement is built. -/
def PublishCall.write (call : PublishCall) (user : User) (now : Instant) : PublishWrite :=
  match call with
  | .publish requestedAt =>
    if user.isAdmin then publishNow user requestedAt else requestPublish user requestedAt
  | .cancelRequest => withdrawRequest
  | .dismissRejection => clearRejection
  | .approve read => approveRequest read now
  | .reject requestedAt requester reason => rejectRequest user requestedAt requester reason now
  | .unpublish => retract user

/-! ## Reading and deciding -/

/-- A call of the publishing service. -/
inductive PublishRequest where
  | publish (now : Instant)
  | cancelRequest
  | approve (seen : String)
  | reject (reason : Option String)
  | unpublish

/-- The requests to publish a chart that have been committed. -/
def requestsOf (db : Db) (chartId : String) : Nat :=
  db.auditLogs.countP fun e => e.targetId = chartId && e.action = .chartPublishRequested

/-- Where a call stands after its first read. -/
inductive Begun where
  | write (chart : QueryChart) (call : PublishCall)
  | approveQuery (read : ApproveRead)

/-- The reads and checks of a call before its first write; `approve` has its definition still to
read. -/
def beginRequest (u : Unicode) (db : Db) (user : User) (chartId : String) :
    PublishRequest → Except AppError Begun
  | .publish now => (chartForOwner db chartId user).map fun chart => .write chart (.publish now)
  | .cancelRequest => (chartForOwner db chartId user).map fun chart => .write chart .cancelRequest
  | .approve seen => do
    requireAdmin user
    let (chart, requestedAt) ← pendingChart db chartId
    return .approveQuery ⟨chart, requestedAt, seen, requestsOf db chartId⟩
  | .reject reason => do
    requireAdmin user
    let (chart, requestedAt) ← pendingChart db chartId
    let cleaned := match reason with
      | none => none
      | some text => if strip u text = "" then none else some (strip u text)
    return .write chart (.reject requestedAt chart.publishRequestedBy cleaned)
  | .unpublish => do
    let chart ← chartForOwner db chartId user
    if chart.isPublic && !user.isAdmin && chart.publishedBy ≠ some user.id then
      throw notThePublisher
    return .write chart .unpublish

/-- The comparison of `approve`, with the query it read before and the rules it reads now. -/
def compareFingerprint (sha256Hex : Sha256Hex) (read : ApproveRead) (query : SavedQuery)
    (rules : List FlagRule) : Except AppError Unit :=
  if definitionFingerprint sha256Hex query read.chart rules = read.seen then .ok ()
  else .error definitionChanged

/-! ## The freeze -/

/-- The charts with the instant `frozen_by` sorts them by, which raises on a chart that has
neither. -/
def withInstants : List QueryChart → Option (List (QueryChart × Instant))
  | [] => some []
  | c :: cs =>
    (c.publishedAt <|> c.publishRequestedAt).bind fun t =>
      (withInstants cs).map fun rest => (c, t) :: rest

/-- `frozen_by`: the charts that freeze a query, published first, then the most recent first. -/
def frozenBy (db : Db) (queryId : String) : Option (List QueryChart) :=
  (withInstants (db.charts.rows.filter fun c => c.queryId = queryId && c.isFrozen)).map fun l =>
    (l.insertionSort fun a b =>
      (a.1.isPublic = true ∧ b.1.isPublic = false) ∨
        (a.1.isPublic = b.1.isPublic ∧ b.2 ≤ a.2)).map Prod.fst

def internalError : AppError := ⟨.internalError, "An unexpected internal error occurred.", []⟩

/-- The refusal of `guard_frozen`. -/
def queryFrozen (frozen : List QueryChart) : AppError :=
  let published := frozen.filter fun c => c.isPublic
  ⟨.queryFrozen,
    if published ≠ [] then
      "This query is published as " ++ join ", " (published.map QueryChart.name) ++
        ". Unpublish it to edit the query."
    else
      "A request to publish " ++ join ", " (frozen.map QueryChart.name) ++
        " is waiting for an administrator. Withdraw the request to edit the query.",
    [("published_charts", .arr (frozen.map fun c => .str c.id))]⟩

/-- `guard_frozen` -/
def guardFrozen (db : Db) (query : SavedQuery) (user : User) : Except AppError Unit :=
  if user.isAdmin then .ok ()
  else
    match frozenBy db query.id with
    | none => .error internalError
    | some [] => .ok ()
    | some frozen => .error (queryFrozen frozen)

theorem eq_nil_of_withInstants {l : List QueryChart} (h : withInstants l = some []) : l = [] := by
  cases l with
  | nil => rfl
  | cons c cs =>
    unfold withInstants at h
    obtain ⟨t, -, h⟩ := Option.bind_eq_some_iff.mp h
    obtain ⟨rest, -, h⟩ := Option.map_eq_some_iff.mp h
    cases h

/-- The guard lets a non-admin through only when no chart of the query is frozen. -/
theorem not_isFrozen_of_guardFrozen {db : Db} {query : SavedQuery} {user : User}
    (huser : user.isAdmin = false) (h : guardFrozen db query user = .ok ()) {chart : QueryChart}
    (hmem : chart ∈ db.charts.rows) (hquery : chart.queryId = query.id) :
    chart.isFrozen = false := by
  unfold guardFrozen at h
  rw [huser] at h
  simp only [Bool.false_eq_true, if_false] at h
  split at h
  · cases h
  · next hnone =>
    unfold frozenBy at hnone
    obtain ⟨keyed, hkeyed, hsorted⟩ := Option.map_eq_some_iff.mp hnone
    have hempty : keyed = [] := by
      apply List.eq_nil_of_length_eq_zero
      simpa using congrArg List.length hsorted
    subst hempty
    have hnot := List.filter_eq_nil_iff.mp (eq_nil_of_withInstants hkeyed) chart hmem
    simpa [hquery] using hnot
  · cases h

/-- The definition that is stored for a chart, as far as the fingerprint covers it. -/
def coveredOf (db : Db) (chartId : String) : Option Covered :=
  (db.charts.get chartId).bind fun chart =>
    (db.queries.get chart.queryId).map fun query =>
      coveredDefinition query chart (db.rulesOf chart.queryId)

/-- `fingerprint_of` -/
def fingerprintOf (sha256Hex : Sha256Hex) (db : Db) (chart : QueryChart) : Option String :=
  (db.queries.get chart.queryId).map fun query =>
    definitionFingerprint sha256Hex query chart (db.rulesOf chart.queryId)

end FraudAnalyzer.Charts
