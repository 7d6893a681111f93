import FraudAnalyzer.Lib.Tally
import FraudAnalyzer.Queries.Visibility

/-!
# The summary of findings

`summary` of `app/features/flag_rules/flagged_rows.py`: one aggregate over the stored findings, and
the totals of each connection and each query that are made of its groups.
-/

namespace FraudAnalyzer.FlagRules

open Policy Queries

/-- What the statement groups by. -/
structure GroupKey where
  connectionId : String
  connectionName : String
  queryId : String
  severity : FlagSeverity
  ownerId : Option String
  deriving DecidableEq

/-- A stored finding joined with its query and its connection. -/
structure Joined where
  key : GroupKey
  firstSeenAt : Instant
  deriving DecidableEq

/-- A row of the result: `count()` and `max(first_seen_at)` of a group. -/
structure Group where
  key : GroupKey
  total : Nat
  seen : Option Instant
  deriving DecidableEq

/-- The user has dismissed the finding. -/
def isDismissed (s : Store) (user : User) (row : FlaggedRow) : Bool :=
  s.dismissals.any fun d =>
    d.queryId = row.queryId && d.rowFingerprint = row.rowFingerprint && d.userId = user.id

/-- The joins and the `WHERE` of the statement, for one finding. -/
def joined (s : Store) (user : User) (row : FlaggedRow) : Option Joined :=
  (s.db.queries.get row.queryId).bind fun query =>
    (s.connections.get query.connectionId).bind fun conn =>
      if alertVisibleTo s.db user query && !isDismissed s user row then
        some ⟨⟨query.connectionId, conn.name, row.queryId, row.severity, query.ownerId⟩,
          row.firstSeenAt⟩
      else none

def joinedRows (s : Store) (user : User) : List Joined :=
  s.flaggedRows.rows.filterMap (joined s user)

/-- `_newer` -/
def newer (current candidate : Option Instant) : Option Instant :=
  match current, candidate with
  | _, none => current
  | none, some t => some t
  | some t₀, some t => if t₀ < t then some t else some t₀

/-- The groups. SQL leaves their order open; here each has the place of its last finding. -/
def groups (rows : List Joined) : List Group :=
  (rows.map Joined.key).dedup.map fun key =>
    ⟨key, (rows.map Joined.key).count key,
      (rows.filter fun row => row.key = key).foldl
        (fun seen row => newer seen (some row.firstSeenAt)) none⟩

/-- What an entry counts. -/
structure Tally where
  flaggedCount : Nat
  severity : FlagSeverity
  newestFirstSeenAt : Option Instant
  deriving DecidableEq

def Tally.zero : Tally := ⟨0, .low, none⟩

def Tally.add (tally : Tally) (group : Group) : Tally where
  flaggedCount := tally.flaggedCount + group.total
  severity := if tally.severity.order < group.key.severity.order then group.key.severity
    else tally.severity
  newestFirstSeenAt := newer tally.newestFirstSeenAt group.seen

structure QueryEntry extends Tally where
  queryId : String
  connectionId : String
  shared : Bool
  deriving DecidableEq

structure ConnectionEntry extends Tally where
  connectionId : String
  connectionName : String
  deriving DecidableEq

/-- `per_query` -/
def perQuery (user : User) : List Group → OrderedDict String QueryEntry :=
  OrderedDict.tally (fun group => group.key.queryId)
    (fun group =>
      { Tally.zero with
        queryId := group.key.queryId, connectionId := group.key.connectionId,
        shared := group.key.ownerId ≠ some user.id })
    fun entry group => { entry with toTally := entry.toTally.add group }

/-- `per_connection` -/
def perConnection : List Group → OrderedDict String ConnectionEntry :=
  OrderedDict.tally (fun group => group.key.connectionId)
    (fun group =>
      { Tally.zero with
        connectionId := group.key.connectionId, connectionName := group.key.connectionName })
    fun entry group => { entry with toTally := entry.toTally.add group }

structure Summary where
  connections : List ConnectionEntry
  queries : List QueryEntry
  flaggedCount : Nat
  newestFirstSeenAt : Option Instant
  deriving DecidableEq

/-- What `summary` makes of the result of its statement. -/
def summarize (user : User) (groups : List Group) : Summary where
  connections := sortedBy (fun e => -(e.flaggedCount : Int))
    ((perConnection groups).entries.map Prod.snd)
  queries := sortedBy (fun e => -(e.flaggedCount : Int))
    ((perQuery user groups).entries.map Prod.snd)
  flaggedCount := ((perConnection groups).entries.map fun e => e.2.flaggedCount).sum
  newestFirstSeenAt := groups.foldl (fun newest group => newer newest group.seen) none

/-- `summary` -/
def summary (s : Store) (user : User) : Summary := summarize user (groups (joinedRows s user))

end FraudAnalyzer.FlagRules
