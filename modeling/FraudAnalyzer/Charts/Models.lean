import FraudAnalyzer.Lib.Json
import FraudAnalyzer.Lib.Table
import FraudAnalyzer.Policy.ChartTypes
import FraudAnalyzer.Policy.FlagRules

/-!
# Stored queries, rules and charts

The rows of `saved_queries`, `flag_rules` with their conditions, `query_charts` and the audit log,
with the columns the modelled functions read or write. Identifiers are strings; instants are
integers, as many microseconds from a fixed one.
-/

namespace FraudAnalyzer

open Policy

/-- A finite float, known by its `repr`: two floats with one `repr` are one float. -/
structure PyFloat where
  repr : NumberToken
  deriving DecidableEq

/-- `json.dumps` of a float. -/
def PyFloat.json (x : PyFloat) : Json := .num x.repr

abbrev Instant := Int

structure User where
  id : String
  isAdmin : Bool
  deriving DecidableEq, Repr

structure SavedQuery where
  id : String
  connectionId : String
  name : String
  description : Option String
  sqlText : String
  tableHint : Option String
  rowLimit : Int
  pollIntervalMs : Option Int
  ownerId : Option String
  deriving DecidableEq

structure FlagCondition where
  position : Int
  columnName : String
  operator : FlagOperator
  value : Option String
  value2 : Option String
  listId : Option String
  deriving DecidableEq

structure FlagRule where
  id : String
  queryId : String
  name : String
  severity : FlagSeverity
  enabled : Bool
  position : Int
  conditions : List FlagCondition
  deriving DecidableEq

/-- How a chart maps the columns of a result. -/
structure ChartMapping where
  chartType : ChartType
  xField : Option String
  yField : Option String
  seriesField : Option String
  surgeThresholdPct : Option PyFloat
  deriving DecidableEq

/-- The publishing columns of a chart. -/
structure PublishColumns where
  isPublic : Bool
  publishedBy : Option String
  publishedAt : Option Instant
  publishRequestedBy : Option String
  publishRequestedAt : Option Instant
  publishRejectedBy : Option String
  publishRejectedAt : Option Instant
  publishRejectedReason : Option String
  deriving DecidableEq

/-- The columns of a chart nobody has published or asked to publish. -/
def PublishColumns.initial : PublishColumns := ⟨false, none, none, none, none, none, none, none⟩

structure QueryChart extends ChartMapping, PublishColumns where
  id : String
  queryId : String
  name : String
  position : Int
  deriving DecidableEq

inductive PublishStatus where
  | private_
  | pending
  | published
  deriving DecidableEq, Repr

/-- `publish_status`, derived from the columns. -/
def PublishColumns.publishStatus (c : PublishColumns) : PublishStatus :=
  if c.isPublic then .published
  else if c.publishRequestedAt.isSome then .pending
  else .private_

/-- The chart freezes its query: it is published or a request is waiting. -/
def PublishColumns.isFrozen (c : PublishColumns) : Bool :=
  c.isPublic || c.publishRequestedAt.isSome

inductive AuditAction where
  | userCreated
  | userDeactivated
  | userReactivated
  | userRoleChanged
  | userPasswordReset
  | chartPublished
  | chartUnpublished
  | chartPublishRequested
  | chartPublishApproved
  | chartPublishRejected
  | chartPublishCancelled
  deriving DecidableEq, Repr

/-- An audit entry about an account or a chart. -/
structure AuditLog where
  actorId : String
  action : AuditAction
  targetId : String
  detail : List (String × Json)

structure Db where
  queries : Table SavedQuery.id
  charts : Table QueryChart.id
  flagRules : Table FlagRule.id
  auditLogs : List AuditLog

/-- Python's `sorted(.., key=..)` for an integer key; it is stable. -/
def sortedBy {α : Type} (key : α → Int) (l : List α) : List α :=
  l.insertionSort fun a b => key a ≤ key b

theorem sortedBy_perm {α : Type} (key : α → Int) (l : List α) : (sortedBy key l).Perm l :=
  List.perm_insertionSort _ l

theorem mem_sortedBy {α : Type} {key : α → Int} {l : List α} {a : α} : a ∈ sortedBy key l ↔ a ∈ l :=
  (sortedBy_perm key l).mem_iff

/-- A sort is known by what it sorts, where the result has each key once. -/
theorem sortedBy_eq_of_perm {α : Type} {key : α → Int} {l l' : List α} (h : l.Perm l')
    (hkeys : l'.Pairwise fun a b => key a < key b) : sortedBy key l = l' := by
  have hsorted : (sortedBy key l).Pairwise fun a b => key a ≤ key b :=
    List.pairwise_insertionSort _ l
  have hperm : (sortedBy key l).Perm l' := (sortedBy_perm key l).trans h
  -- the keys of the sorted list are those of `l'`, and so increase strictly
  have hnodup : ((sortedBy key l).map key).Nodup := by
    refine (hperm.map key).nodup_iff.mpr (List.pairwise_map.mpr ?_)
    exact hkeys.imp fun hlt => ne_of_lt hlt
  have hstrict : (sortedBy key l).Pairwise fun a b => key a < key b :=
    hsorted.imp₂ (fun _ _ hle hne => lt_of_le_of_ne hle hne) (List.pairwise_map.mp hnodup)
  exact hperm.eq_of_pairwise (fun a b _ _ hab hba => absurd hab (lt_asymm hba)) hstrict hkeys

/-- A sort looks at nothing but the keys. -/
theorem map_sortedBy {α β : Type} {key : α → Int} {key' : β → Int} (f : α → β)
    (hkey : ∀ a, key' (f a) = key a) (l : List α) :
    (sortedBy key l).map f = sortedBy key' (l.map f) := by
  refine List.map_insertionSort _ _ f l fun a _ b _ => ?_
  rw [hkey, hkey]

theorem map_fst_zipIdx {α β : Type} (f : α → β) (l : List α) :
    (l.zipIdx.map fun s => f s.1) = l.map f := by
  calc (l.zipIdx.map fun s => f s.1) = (l.zipIdx.map Prod.fst).map f := by
        rw [List.map_map]
        rfl
    _ = l.map f := by rw [List.zipIdx_map_fst]

/-- `enumerate` counts up. -/
theorem pairwise_zipIdx {α : Type} (l : List α) : l.zipIdx.Pairwise fun a b => a.2 < b.2 := by
  have hindices : (l.zipIdx.map Prod.snd).Pairwise (· < ·) := by
    rw [List.zipIdx_map_snd]
    exact List.pairwise_lt_range'
  exact List.pairwise_map.mp hindices

/-- New rows take the ids in the order they are given out. -/
theorem map_fst_zip_sublist {α β : Type} (ids : List α) (rows : List β) :
    ((ids.zip rows).map Prod.fst).Sublist ids := by
  induction ids generalizing rows with
  | nil => exact .slnil
  | cons id ids ih =>
    cases rows with
    | nil => exact List.nil_sublist _
    | cons row rows => exact (ih rows).cons_cons id

/-- `_rules_of` and `list_rules`: the rules of a query in position order. -/
def Db.rulesOf (db : Db) (queryId : String) : List FlagRule :=
  sortedBy FlagRule.position (db.flagRules.rows.filter fun r => r.queryId = queryId)

/-- `list_charts` and `query.charts`: the charts of a query in position order. -/
def Db.chartsOf (db : Db) (queryId : String) : List QueryChart :=
  sortedBy QueryChart.position (db.charts.rows.filter fun c => c.queryId = queryId)

theorem Db.mem_rulesOf {db : Db} {queryId : String} {rule : FlagRule} :
    rule ∈ db.rulesOf queryId ↔ rule ∈ db.flagRules.rows ∧ rule.queryId = queryId := by
  rw [Db.rulesOf, mem_sortedBy, List.mem_filter, decide_eq_true_eq]

theorem Db.mem_chartsOf {db : Db} {queryId : String} {chart : QueryChart} :
    chart ∈ db.chartsOf queryId ↔ chart ∈ db.charts.rows ∧ chart.queryId = queryId := by
  rw [Db.chartsOf, mem_sortedBy, List.mem_filter, decide_eq_true_eq]

theorem Db.rulesOf_congr {db db' : Db} (h : db'.flagRules = db.flagRules) (queryId : String) :
    db'.rulesOf queryId = db.rulesOf queryId := by
  rw [Db.rulesOf, Db.rulesOf, h]

end FraudAnalyzer
