import FraudAnalyzer.Queries.Execution
import Mathlib.Data.List.Forall2

/-!
# The execution log

The six places that run SQL against a target, as far as they write to the execution log, which
itself never fails here. A run ends with what it returns or with an exception. What is done with the
result afterwards may raise as well, after the row is written.
-/

namespace FraudAnalyzer.Queries.Logging

variable {X : Type}

/-- `QueryExecutionLog`, without its id and time. -/
structure LogRow where
  queryId : Option String
  connectionId : Option String
  success : Bool
  rowCount : Option Nat
  durationMs : Option Nat
  errorCode : Option ErrorCode
  errorMessage : Option String
  userId : Option String
  deriving DecidableEq

/-- `log_execution` with `success=True` -/
def logSuccess (queryId connectionId : Option String) (rowCount durationMs : Nat)
    (userId : Option String) : LogRow :=
  ⟨queryId, connectionId, true, some rowCount, some durationMs, none, none, userId⟩

/-- `log_execution` with `success=False` -/
def logFailure (queryId connectionId : Option String) (error : AppError) (userId : Option String) :
    LogRow :=
  ⟨queryId, connectionId, false, none, none, some error.errorCode, some error.message, userId⟩

/-- What `run_saved_query` does with a query, and what is raised once the run is on record: by the
interval, by the cache or by `sync`. None of these raises an `AppError`. -/
structure Attempt (X : Type) where
  query : SavedQuery
  ran : Except (Raised X) RunPayload
  later : Option X

/-- What `execute_sql` does with a statement, and what is raised by the flags of the preview, which
are evaluated once the run is on record. -/
structure Preview (X : Type) where
  connectionId : String
  ran : Except (Raised X) ExecutionResult
  later : Option (Raised X)

/-- The rows that are written, and what the caller gets to see. -/
structure Written (X : Type) where
  rows : List LogRow
  raised : Option (Raised X)

/-- What the paths have in common: a run that has returned something is logged, and of the others
those that an `except` clause catches, with the error that it logs. -/
def logRun (queryId connectionId userId : Option String) (caught : Raised X → Option AppError) :
    Except (Raised X) ExecutionResult → List LogRow
  | .ok result => [logSuccess queryId connectionId result.rowCount result.durationMs userId]
  | .error raised =>
    match caught raised with
    | none => []
    | some error => [logFailure queryId connectionId error userId]

/-- `except AppError` -/
def onlyAppErrors : Raised X → Option AppError
  | .appError error => some error
  | .other _ => none

/-- `except AppError`, then `except Exception`; `translate` is `translate_db_error`. -/
def translated (translate : X → AppError) : Raised X → Option AppError
  | .appError error => some error
  | .other error => some (translate error)

def Attempt.logRun (caught : Raised X → Option AppError) (userId : Option String) (a : Attempt X) :
    List LogRow :=
  Logging.logRun (some a.query.id) none userId caught (a.ran.map RunPayload.result)

/-- What is raised by a path that catches what the run raises. -/
def Attempt.raisedLater (a : Attempt X) : Option (Raised X) :=
  match a.ran with
  | .error _ => none
  | .ok _ => a.later.map .other

/-- `execute_and_log` and what follows it in `run_query` and `poll_one` -/
def executeAndLog (userId : String) (a : Attempt X) : Written X where
  rows := a.logRun onlyAppErrors (some userId)
  raised :=
    match a.ran with
    | .error raised => some raised
    | .ok _ => a.later.map .other

/-- `preview_query` -/
def previewQuery (userId : String) (p : Preview X) : Written X where
  rows := logRun none (some p.connectionId) (some userId) onlyAppErrors p.ran
  raised :=
    match p.ran with
    | .error raised => some raised
    | .ok _ => p.later

/-- `_refresh`: nobody sees an exception. -/
def refresh (userId : Option String) (a : Attempt X) : Written X where
  rows := a.logRun onlyAppErrors userId
  raised := none

/-- `_run_one` -/
def runOne (translate : X → AppError) (userId : String) (a : Attempt X) : Written X where
  rows := a.logRun (translated translate) (some userId)
  raised := a.raisedLater

/-- A query that `run_due_once` runs: what its run raises is caught, and not logged. -/
def scheduledRun (a : Attempt X) : Written X where
  rows := a.logRun (fun _ => none) none
  raised := a.raisedLater

/-- A loop over queries, which an exception ends. -/
def runAll (one : Attempt X → Written X) : List (Attempt X) → Written X
  | [] => ⟨[], none⟩
  | a :: rest =>
    match one a with
    | ⟨rows, some error⟩ => ⟨rows, some error⟩
    | ⟨rows, none⟩ => ⟨rows ++ (runAll one rest).rows, (runAll one rest).raised⟩

/-- How a run ends, without what it returns. -/
def Attempt.ending (a : Attempt X) : Except (Raised X) Unit := a.ran.map fun _ => ()

/-- A call that comes to run something. `refresh` is asked for by a poll of that user. -/
inductive Call (X : Type) where
  | run (userId : String) (a : Attempt X)
  | poll (userId : String) (a : Attempt X)
  | preview (userId : String) (p : Preview X)
  | refresh (userId : String) (a : Attempt X)
  | flaggedRefresh (userId : String) (queries : List (Attempt X))
  | tick (queries : List (Attempt X))

namespace Call

def written (translate : X → AppError) : Call X → Written X
  | .run userId a | .poll userId a => executeAndLog userId a
  | .preview userId p => previewQuery userId p
  | .refresh userId a => Logging.refresh (some userId) a
  | .flaggedRefresh userId queries => runAll (runOne translate userId) queries
  | .tick queries => runAll scheduledRun queries

/-- The scheduler makes the attempts. -/
def scheduled : Call X → Bool
  | .tick _ => true
  | _ => false

/-- The queries a loop comes to: what is raised after a run ends it. -/
def reached : List (Attempt X) → List (Attempt X)
  | [] => []
  | a :: rest =>
    match a.ran, a.later with
    | .ok _, some _ => [a]
    | _, _ => a :: reached rest

/-- How each run of the call ends. -/
def attempted : Call X → List (Except (Raised X) Unit)
  | .run _ a | .poll _ a | .refresh _ a => [a.ending]
  | .preview _ p => [p.ran.map fun _ => ()]
  | .flaggedRefresh _ queries | .tick queries => (reached queries).map Attempt.ending

/-- A row is that of a run. -/
structure Records (call : Call X) (ran : Except (Raised X) Unit) (row : LogRow) : Prop where
  success : row.success = true ↔ ran = .ok ()
  userId : row.userId = none ↔ call.scheduled = true

/-- Each run of the call has one row. -/
def Recorded (translate : X → AppError) (call : Call X) : Prop :=
  List.Forall₂ call.Records call.attempted (call.written translate).rows

/-- Runs that the call logs: the scheduler logs no failure, and only the flagged refresh logs
anything but an `AppError`. -/
def Logs : Call X → Except (Raised X) Unit → Prop
  | _, .ok _ => True
  | .tick _, .error _ => False
  | _, .error (.appError _) => True
  | .flaggedRefresh _ _, .error (.other _) => True
  | _, .error (.other _) => False

end Call

section Recorded

variable {translate : X → AppError} {call : Call X} {ran : Except (Raised X) Unit}
  {rows : List LogRow} {one : Attempt X → Written X}

/-! ## One attempt -/

/-- A run leaves one row, that of the run, or none. -/
def LeavesRow (call : Call X) (ran : Except (Raised X) Unit) (rows : List LogRow) : Prop :=
  (call.Logs ran ∧ ∃ row, rows = [row] ∧ call.Records ran row) ∨ (¬ call.Logs ran ∧ rows = [])

/-- A user is recorded where somebody has asked. -/
theorem some_user {userId : String} (h : call.scheduled = false) :
    some userId = none ↔ call.scheduled = true :=
  iff_of_false nofun (by rw [h]; exact Bool.false_ne_true)

/-- A call that logs what `except AppError` catches. -/
theorem logs_onlyAppErrors (call : Call X) (happ : ∀ error, call.Logs (.error (.appError error)))
    (hother : ∀ error, ¬ call.Logs (.error (.other error))) (raised : Raised X) :
    call.Logs (.error raised) ↔ (onlyAppErrors raised).isSome = true := by
  cases raised with
  | appError error => exact iff_of_true (happ error) rfl
  | other error => exact iff_of_false (hother error) nofun

/-- A path leaves the row of what it catches. -/
theorem leavesRow_logRun {queryId connectionId userId : Option String}
    {caught : Raised X → Option AppError}
    (hlogs : ∀ raised, call.Logs (.error raised) ↔ (caught raised).isSome = true)
    (huser : userId = none ↔ call.scheduled = true) (ran : Except (Raised X) ExecutionResult) :
    LeavesRow call (ran.map fun _ => ()) (logRun queryId connectionId userId caught ran) := by
  cases ran with
  | ok result =>
    have hok : call.Logs (.ok ()) := by cases call <;> trivial
    exact .inl ⟨hok, _, rfl, iff_of_true rfl rfl, huser⟩
  | error raised =>
    have hraised := hlogs raised
    cases hcaught : caught raised with
    | none =>
      rw [hcaught] at hraised
      simp only [logRun, hcaught]
      exact .inr ⟨fun h => absurd (hraised.mp h) nofun, rfl⟩
    | some error =>
      rw [hcaught] at hraised
      simp only [logRun, hcaught]
      exact .inl ⟨hraised.mpr rfl, _, rfl, iff_of_false Bool.false_ne_true nofun, huser⟩

theorem leavesRow_attempt {caught : Raised X → Option AppError} {userId : Option String}
    (hlogs : ∀ raised, call.Logs (.error raised) ↔ (caught raised).isSome = true)
    (huser : userId = none ↔ call.scheduled = true) (a : Attempt X) :
    LeavesRow call a.ending (a.logRun caught userId) := by
  have hending : a.ending = (a.ran.map RunPayload.result).map fun _ => () := by
    unfold Attempt.ending
    cases a.ran <;> rfl
  rw [hending]
  exact leavesRow_logRun hlogs huser _

theorem LeavesRow.length_le (h : LeavesRow call ran rows) : rows.length ≤ 1 := by
  rcases h with ⟨-, row, rfl, -⟩ | ⟨-, rfl⟩
  · exact Nat.le_refl 1
  · exact Nat.zero_le 1

/-- A single run. -/
theorem LeavesRow.forall₂_iff (h : LeavesRow call ran rows) :
    List.Forall₂ call.Records [ran] rows ↔ ∀ r ∈ [ran], call.Logs r := by
  rw [List.forall_mem_singleton]
  rcases h with ⟨hlogs, row, rfl, hrecords⟩ | ⟨hlogs, rfl⟩
  · exact iff_of_true (.cons hrecords .nil) hlogs
  · exact iff_of_false nofun hlogs

/-! ## The loops -/

/-- The loop comes to the queries that are reached. -/
theorem rows_runAll (hraised : ∀ a, (one a).raised = a.raisedLater) (queries : List (Attempt X)) :
    (runAll one queries).rows = (Call.reached queries).flatMap fun a => (one a).rows := by
  induction queries with
  | nil => rfl
  | cons a rest ih =>
    have hlater := hraised a
    rcases hone : one a with ⟨rows, raised⟩
    rw [hone] at hlater
    rcases a with ⟨query, ran, later⟩
    cases ran with
    | error error =>
      cases hlater
      simp only [runAll, Call.reached, hone, ih, List.flatMap_cons]
    | ok payload =>
      cases later with
      | none =>
        cases hlater
        simp only [runAll, Call.reached, hone, ih, List.flatMap_cons]
      | some error =>
        cases hlater
        simp only [runAll, Call.reached, hone, List.flatMap_singleton]

theorem length_flatMap_le (hone : ∀ a, LeavesRow call a.ending (one a).rows)
    (queries : List (Attempt X)) :
    (queries.flatMap fun a => (one a).rows).length ≤ queries.length := by
  induction queries with
  | nil => exact Nat.le_refl 0
  | cons a rest ih =>
    rw [List.flatMap_cons, List.length_append, List.length_cons]
    have hlength := (hone a).length_le
    omega

/-- Where each run leaves its row or none, each has its row when none leaves none. -/
theorem forall₂_flatMap_iff (hone : ∀ a, LeavesRow call a.ending (one a).rows)
    (queries : List (Attempt X)) :
    List.Forall₂ call.Records (queries.map Attempt.ending)
        (queries.flatMap fun a => (one a).rows) ↔
      ∀ ran ∈ queries.map Attempt.ending, call.Logs ran := by
  induction queries with
  | nil => exact iff_of_true .nil fun _ h => absurd h List.not_mem_nil
  | cons a rest ih =>
    rw [List.map_cons, List.flatMap_cons, List.forall_mem_cons]
    rcases hone a with ⟨hlogs, row, hrow, hrecords⟩ | ⟨hlogs, hnone⟩
    · rw [hrow, List.singleton_append, List.forall₂_cons, ih]
      exact ⟨fun h => ⟨hlogs, h.2⟩, fun h => ⟨hrecords, h.2⟩⟩
    · rw [hnone, List.nil_append]
      refine iff_of_false (fun h => ?_) fun h => hlogs h.1
      have hlength := h.length_eq
      have hrest := length_flatMap_le hone rest
      rw [List.length_cons, List.length_map] at hlength
      omega

/-- **One row for each run of a call**, exactly when the call logs what its runs end with. -/
theorem recorded_iff (translate : X → AppError) (call : Call X) :
    call.Recorded translate ↔ ∀ ran ∈ call.attempted, call.Logs ran := by
  unfold Call.Recorded
  cases call with
  | run userId a =>
    have hlogs := logs_onlyAppErrors (.run userId a) (fun _ => trivial) fun _ => id
    exact (leavesRow_attempt hlogs (some_user rfl) a).forall₂_iff
  | poll userId a =>
    have hlogs := logs_onlyAppErrors (.poll userId a) (fun _ => trivial) fun _ => id
    exact (leavesRow_attempt hlogs (some_user rfl) a).forall₂_iff
  | preview userId p =>
    have hlogs := logs_onlyAppErrors (.preview userId p) (fun _ => trivial) fun _ => id
    exact (leavesRow_logRun hlogs (some_user rfl) p.ran).forall₂_iff
  | refresh userId a =>
    have hlogs := logs_onlyAppErrors (.refresh userId a) (fun _ => trivial) fun _ => id
    exact (leavesRow_attempt hlogs (some_user rfl) a).forall₂_iff
  | flaggedRefresh userId queries =>
    have hone (a : Attempt X) :
        LeavesRow (.flaggedRefresh userId queries) a.ending (runOne translate userId a).rows :=
      leavesRow_attempt (fun raised => by cases raised <;> exact iff_of_true trivial rfl)
        (some_user rfl) a
    have hrows := rows_runAll (fun a => (rfl : (runOne translate userId a).raised = _)) queries
    rw [Call.written, hrows]
    exact forall₂_flatMap_iff hone _
  | tick queries =>
    have hlogs (raised : Raised X) :
        (Call.tick queries).Logs (.error raised) ↔ (none : Option AppError).isSome = true :=
      iff_of_false id nofun
    have hone (a : Attempt X) : LeavesRow (.tick queries) a.ending (scheduledRun a).rows :=
      leavesRow_attempt hlogs (iff_of_true rfl rfl) a
    have hrows := rows_runAll (fun a => (rfl : (scheduledRun a).raised = _)) queries
    rw [Call.written, hrows]
    exact forall₂_flatMap_iff hone _

end Recorded

/-- The scheduler runs a query whose target is down. -/
theorem scheduler_logs_no_failure :
    ¬ Call.Recorded (fun _ : Unit => ⟨.queryExecutionError, "", []⟩)
      (.tick [⟨⟨"q", "c", "Q", none, "SELECT 1", none, 100, none, none⟩,
        .error (.appError ⟨.dbUnreachable, "The database is unreachable.", []⟩), none⟩]) :=
  fun h => nomatch h

end FraudAnalyzer.Queries.Logging
