import FraudAnalyzer.FlagRules.Summary
import FraudAnalyzer.Queries.ResultCache

/-!
# The flagged view of a connection

`queries_with_rules`, `_section` and `flagged_for_connection` of
`app/features/flag_rules/service.py`, without a refresh: the view is read from the stored findings,
and from the result cache as far as warnings go.
-/

namespace FraudAnalyzer.FlagRules

open Python Policy Queries

/-- `queries_with_rules` -/
def queriesWithRules (s : Store) (connectionId : String) (user : User) : List SavedQuery :=
  (selectQueries s fun query =>
      query.connectionId = connectionId && alertVisibleTo s.db user query).filter fun query =>
    s.db.rulesOf query.id ≠ []

/-- `rows_for_query`: worst first, then oldest first. -/
def rowsForQuery (s : Store) (queryId : String) : List FlaggedRow :=
  (s.flaggedRows.rows.filter fun row => row.queryId = queryId).insertionSort fun a b =>
    b.severity.order < a.severity.order ∨
      (a.severity.order = b.severity.order ∧ a.firstSeenAt ≤ b.firstSeenAt)

/-- A finding as it is shown. -/
structure ShownRow where
  index : Nat
  ruleIds : List String
  ruleNames : List String
  values : List Cell
  fingerprint : String
  severity : FlagSeverity
  firstSeenAt : Instant
  lastSeenAt : Instant

structure Section where
  queryId : String
  queryName : String
  shared : Bool
  ownerName : Option String
  columns : List String
  rows : List ShownRow
  rules : List RuleHit
  warnings : List String
  flaggedCount : Nat
  dismissedCount : Nat
  executedAt : Option Instant
  stale : Bool
  errorCode : Option ErrorCode
  errorMessage : Option String

/-- One rule of a finding in the legend: counted, and no less severe than the finding. -/
def noteRule (severity : FlagSeverity) (legend : OrderedDict String RuleHit)
    (rule : String × String) : OrderedDict String RuleHit :=
  let entry := (legend.get rule.1).getD ⟨rule.1, rule.2, severity, 0⟩
  legend.assign rule.1
    { entry with
      matched := entry.matched + 1
      severity := if entry.severity.order < severity.order then severity else entry.severity }

/-- `rules_by_id`: the rules of the findings, and those that currently match nothing. -/
def legend (stored : List FlaggedRow) (rules : List FlagRule) : OrderedDict String RuleHit :=
  let found := stored.foldl
    (fun legend row => (row.ruleIds.zip row.ruleNames).foldl (noteRule row.severity) legend) .empty
  rules.foldl
    (fun legend rule =>
      if (legend.get rule.id).isSome then legend
      else legend.assign rule.id ⟨rule.id, rule.name, rule.severity, 0⟩) found

/-- The findings of a query that the user has not dismissed. -/
def undismissed (s : Store) (query : SavedQuery) (user : User) : List FlaggedRow :=
  (rowsForQuery s query.id).filter fun row =>
    row.rowFingerprint ∉ dismissedFingerprints s.dismissals query.id user.id

/-- `_section` -/
def sectionOf (s : Store) (results : ResultCache Body) (now : Clock) (query : SavedQuery)
    (user : User) : Section :=
  let mine := dismissedFingerprints s.dismissals query.id user.id
  let stored := undismissed s query user
  let entry := (results.getFresh query.id now).1
  { queryId := query.id
    queryName := query.name
    shared := query.ownerId ≠ some user.id
    ownerName := s.ownerName query
    columns := (stored.head?.map FlaggedRow.columns).getD []
    rows := stored.zipIdx.map fun row =>
      ⟨row.2, row.1.ruleIds, row.1.ruleNames, row.1.values, row.1.rowFingerprint, row.1.severity,
        row.1.firstSeenAt, row.1.lastSeenAt⟩
    rules := (legend stored (s.db.rulesOf query.id)).entries.map Prod.snd
    warnings := (entry.map fun entry => entry.payload.flags.warnings).getD []
    flaggedCount := stored.length
    dismissedCount := mine.length
    executedAt := (stored.map FlaggedRow.lastSeenAt).max?
    stale := stored.isEmpty && entry.isNone
    errorCode := none
    errorMessage := none }

structure ConnectionFlagged where
  connectionId : String
  queries : List Section
  flaggedCount : Nat
  dismissedCount : Nat
  refreshed : Bool
  refreshTruncated : Bool

/-- `flagged_for_connection` without a refresh. -/
def flaggedForConnection (s : Store) (results : ResultCache Body) (now : Clock)
    (connectionId : String) (user : User) : ConnectionFlagged :=
  let sections := (queriesWithRules s connectionId user).map fun query =>
    sectionOf s results now query user
  { connectionId := connectionId
    queries := sections
    flaggedCount := (sections.map Section.flaggedCount).sum
    dismissedCount := (sections.map Section.dismissedCount).sum
    refreshed := false
    refreshTruncated := false }

end FraudAnalyzer.FlagRules
